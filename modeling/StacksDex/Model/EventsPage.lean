import StacksDex.Model.BlockWalker
import StacksDex.Model.EventPoller

/-!
# StacksDex — the events endpoint

`rpc/events.rs`, the pages the per-contract pollers read, and the task around `poll_once`
(`poll_contract_loop`). Unlike the block walker, a page passes its failures on: one entry
that does not decode fails the page, and with it the cycle. What the server sends back is a
parameter, by the request of the cycle and its URL.

* `parseEnvelope` reads an entry; one that is no print has nothing to decode and passes;
* `fetchEventsPage` reads a page;
* `PollTask.turn` is one turn of a poller's loop, which survives an `Err` and ends with a
  panic.
-/

namespace StacksDex.Model

/-- `ContractLog`. -/
structure PageLog where
  topic : String
  value : Option RawLogValue

/-- One entry of a page. -/
structure PageEvent where
  txId : String
  eventIndex : Nat
  contractLog : Option PageLog

/-- What `fetch_events_page` makes of an entry. -/
structure PageEnvelope extends EventEnvelope where
  eventIndex : Nat
  rawPayload : Option ClarityValue

/-- The hex of a print; other entries are not decoded. -/
def PageEvent.printHex (r : PageEvent) : Option String :=
  match r.contractLog with
  | none => none
  | some cl => if cl.topic ≠ "print" then none else cl.value.bind RawLogValue.hex

/-- `parse_envelope`. -/
def parseEnvelope (emitter : Principal) (r : PageEvent) : Except Fault PageEnvelope :=
  match r.printHex with
  | none => .ok { txId := r.txId, decoded := none, eventIndex := r.eventIndex, rawPayload := none }
  | some hex => do
    let bytes ← hexDecode (stripHexMark hex)
    let (payload, _) ← cvDecode bytes 0
    .ok
      { txId := r.txId
        decoded := decodePrintPayload emitter r.txId r.eventIndex payload
        eventIndex := r.eventIndex
        rawPayload := some payload }

/-- The URL of a page. -/
def eventsUrl (baseUrl contractId : String) (limit offset : Nat) : String :=
  s!"{baseUrl}/extended/v1/contract/{contractId}/events?limit={limit}&offset={offset}"

/-- `fetch_events_page`. -/
def fetchEventsPage (sha256 : Sha256) (contractId : String) (reply : HttpReply (List PageEvent)) :
    Except Fault (List PageEnvelope) :=
  match reply with
  | .sendError e => .error (.err s!"events GET error: {e}")
  | .response status reason body =>
    if status = 429 then .error (.err "429 rate limited")
    else if ¬ isSuccess status then
      .error (.err s!"events GET HTTP {status} {reason} for {contractId}")
    else
      match body with
      | .error e => .error (.err e)
      | .ok results => do
        let emitter ← mapErr (s!"invalid emitter contract id {contractId}: " ++ ·)
          (Principal.parse sha256 contractId)
        results.mapM (parseEnvelope emitter)

/-! ## The poller task -/

/-- Everything a poll cycle gets from outside. -/
structure PollEnv where
  reply : (request : Nat) → (url : String) → HttpReply (List PageEvent)
  /-- The order the dedup set is iterated in, at each send. -/
  iters : Nat → List EventKey

/-- The pages of a cycle, as `poll_once` asks for them and reads them. -/
def PollEnv.fetchPage (sha256 : Sha256) (baseUrl contractId : String) (env : PollEnv)
    (request limit offset : Nat) : Except Fault (List EventEnvelope) :=
  (fetchEventsPage sha256 contractId
    (env.reply request (eventsUrl baseUrl contractId limit offset))).map
      (·.map PageEnvelope.toEventEnvelope)

/-- One task of `poll_contract_loop`. -/
structure PollTask where
  contract : Principal
  /-- `contract.to_string()`, before the first cycle. -/
  contractId : String
  /-- A panic ends the task; an `Err` is logged, and the next cycle comes. -/
  alive : Bool

/-- The start of `poll_contract_loop`. -/
def PollTask.spawn (sha256 : Sha256) (contract : Principal) : Except Fault PollTask := do
  .ok { contract, contractId := ← contract.display sha256, alive := true }

section Task

variable (sha256 : Sha256) (baseUrl : String) (config : CollectorConfig)

/-- `poll_once`, as the task calls it. -/
def PollTask.poll (task : PollTask) (env : PollEnv) (queue : EventQueue)
    (registry : PoolRegistry) : Except Fault Nat × EventQueue × PoolRegistry :=
  (pollM config (env.fetchPage sha256 baseUrl task.contractId) env.iters task.contract).run.run
    (queue, registry)

/-- One turn of the loop: the task, the sender and the registry after it. -/
def PollTask.turn (task : PollTask) (env : PollEnv) (queue : EventQueue)
    (registry : PoolRegistry) : PollTask × EventQueue × PoolRegistry :=
  if task.alive then
    match task.poll sha256 baseUrl config env queue registry with
    | (.error (.panic _), s) => ({ task with alive := false }, s)
    | (_, s) => (task, s)
  else (task, queue, registry)

end Task

end StacksDex.Model
