import StacksDex.Model.PrintEvents

/-!
# StacksDex — the block walker's requests

`rpc/block_walker.rs`: the paginated transaction list of a block, and the events
of one transaction. What the server sends back is a parameter (`HttpReply`).

* A listing that is answered 404 counts as an empty one, as the source has it; any
  other status that is no success is an error.
* A page size of zero would ask for the same page forever, so `PageSize` excludes it;
  then the offset grows with every page and stays a `u32`, and the loop ends.
* The sum of offset and page length stands as a build with overflow checks has it: past
  the last `u32` it panics.
* The events of a transaction come from a second request, and an answer 404 to that one is
  an error.
-/

namespace StacksDex.Model

/-- What comes back from a `GET`: no response, or a status with its reason and a body
that parses or does not. -/
inductive HttpReply (β : Type) where
  | sendError (msg : String)
  | response (status : Nat) (reason : String) (body : Except String β)

/-- `status.is_success()`. -/
def isSuccess (status : Nat) : Bool := 200 ≤ status ∧ status < 300

/-- One entry of a block's transaction list. -/
structure RawTx where
  txId : String
  txType : String
  /-- The `contract_id` of the call. -/
  contractCall : Option String
  /-- Empty in block lists; `eventCount` tells how many there are. -/
  events : List RawEvent
  eventCount : Nat

/-- One page of the list. -/
structure TxPage where
  /-- The number of transactions of the block, over all pages. -/
  total : Nat
  results : List RawTx

/-- What the walker keeps of a transaction. -/
structure BlockTransaction where
  txId : String
  /-- The contract called, for contract calls. -/
  contractCallTarget : Option Principal
  eventCount : Nat
  /-- Filled in by the second request. -/
  events : List StacksEvent

/-- The entry point of a contract call, where it parses. -/
def callTarget (sha256 : Sha256) (raw : RawTx) : Except Fault (Option Principal) :=
  if raw.txType = "contract_call" then
    match raw.contractCall with
    | some contractId => dropErr (Principal.parse sha256 contractId)
    | none => .ok none
  else .ok none

/-- `decode_tx`. -/
def decodeTx (sha256 : Sha256) (raw : RawTx) : Except Fault BlockTransaction := do
  let contractCallTarget ← callTarget sha256 raw
  let events ← decodeRawEvents sha256 raw.txId raw.events
  .ok { txId := raw.txId, contractCallTarget, eventCount := raw.eventCount, events }

/-- A page size a walk can make progress with. -/
abbrev PageSize := { n : Nat // 0 < n ∧ n ≤ u32Max }

/-- The loop of `fetch_block_transactions` from `offset` on; `reply` answers each offset. -/
def blockPages (sha256 : Sha256) (pageSize : PageSize) (height : Nat)
    (reply : (offset : Nat) → HttpReply TxPage) (offset : Nat) (out : List BlockTransaction) :
    Except Fault (List BlockTransaction) :=
  match reply offset with
  | .sendError e => .error (.err s!"block-txs GET error (h={height}): {e}")
  | .response status reason body =>
    -- a rate limit has a text of its own
    if status = 429 then .error (.err s!"429 rate limited on block-txs h={height}")
    -- not yet indexed: an empty block
    else if status = 404 then .ok []
    else if ¬ isSuccess status then
      .error (.err s!"block-txs HTTP {status} {reason} for h={height}")
    else
      match body with
      | .error e => .error (.err e)
      | .ok page =>
        match page.results.mapM (decodeTx sha256) with
        | .error fault => .error fault
        | .ok txs =>
          -- a short page, or the last of a list whose length is a multiple of the page size
          let got := asU32 page.results.length
          if got < pageSize.val then .ok (out ++ txs)
          -- the sum is a u32; without overflow checks it would start over at page 0
          else if offset + got > u32Max then .error (.panic "attempt to add with overflow")
          else if offset + got ≥ page.total then .ok (out ++ txs)
          else blockPages sha256 pageSize height reply (offset + got) (out ++ txs)
  termination_by u32Max - offset
  decreasing_by
    obtain ⟨n, hpos, hle⟩ := pageSize
    dsimp only at *
    omega

/-- `fetch_block_transactions`. -/
def fetchBlockTransactions (sha256 : Sha256) (pageSize : PageSize) (height : Nat)
    (reply : (offset : Nat) → HttpReply TxPage) : Except Fault (List BlockTransaction) :=
  blockPages sha256 pageSize height reply 0 []

/-- `fetch_tx_events`. -/
def fetchTxEvents (sha256 : Sha256) (txId : String) (reply : HttpReply (List RawEvent)) :
    Except Fault (List StacksEvent) :=
  match reply with
  | .sendError e => .error (.err s!"tx GET error for {txId}: {e}")
  | .response status reason body =>
    if status = 429 then .error (.err s!"429 rate limited on tx detail {txId}")
    else if ¬ isSuccess status then .error (.err s!"tx GET HTTP {status} {reason} for {txId}")
    else
      match body with
      | .error e => .error (.err e)
      | .ok events => decodeRawEvents sha256 txId events

end StacksDex.Model
