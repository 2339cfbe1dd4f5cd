import StacksDex.Model.BlockWalker
import StacksDex.Model.Client
import StacksDex.Model.Fetcher

/-!
# StacksDex — the RPC client

`rpc/client.rs`: read-only calls and data-vars. Both repeat a request that is answered with
429, after a wait that grows with every attempt, and both decode the hex they get. What the
node sends back is a parameter, by the request and the number of the attempt; `toRpc` is the
client as the bootstraps use it.

* `requestLoop` is the loop the two share: what it waits, and what it comes to;
* `callReadFinish` and `dataVarFinish` are what each makes of an answer that is no rate limit
  (or of the last one);
* `durationMul` is the product of a wait and an attempt's number, which panics where it does
  not fit, in every build.
-/

namespace StacksDex.Model

/-- The longest `Duration`, in nanoseconds: `u64::MAX` seconds and nearly one more. -/
def durationMax : Nat := 2 ^ 64 * 10 ^ 9 - 1

/-- `*` of a `Duration` and a `u32`. -/
def durationMul (d n : Nat) : Except Fault Nat :=
  if d * n ≤ durationMax then .ok (d * n)
  else .error (.panic "overflow when multiplying duration by scalar")

structure RpcConfig where
  baseUrl : String
  /-- Retries on 429, not counting the first attempt. -/
  maxRetries : Nat
  /-- In nanoseconds. -/
  backoff : Nat
  /-- The principal read-only calls are made as. -/
  sender : String
  maxRetries_le : maxRetries ≤ u32Max
  backoff_le : backoff ≤ durationMax

/-- `ANCHOR_SENDER`. -/
def ANCHOR_SENDER : String := "SP000000000000000000002Q6VF78"

/-- `DEFAULT_RPC_URL`. -/
def DEFAULT_RPC_URL : String := "https://api.mainnet.hiro.so"

/-- `RpcConfig::default`. -/
def RpcConfig.default : RpcConfig where
  baseUrl := DEFAULT_RPC_URL
  maxRetries := 3
  backoff := 10 * 10 ^ 9
  sender := ANCHOR_SENDER
  maxRetries_le := by decide
  backoff_le := by decide

/-- What comes back: no response, or a status with its reason, the text of the body, and what
that parses to. -/
inductive RpcReply (β : Type) where
  | sendError (msg : String)
  | response (status : Nat) (reason text : String) (body : Except String β)

/-- The answer asks for another attempt. -/
def RpcReply.limited {β : Type} : RpcReply β → Bool
  | .sendError _ => false
  | .response status _ _ _ => status = 429

structure CallReadEnvelope where
  okay : Bool
  result : Option String
  /-- As `{:?}` prints it. -/
  cause : String

structure DataVarEnvelope where
  data : Option String

/-- The body of a read-only call, with its URL. -/
structure CallReadRequest where
  url : String
  sender : String
  arguments : List String

/-! ## The request loop -/

/-- What a loop did: its waits, one before each retry, and what it returned. -/
structure Attempted (α : Type) where
  waits : List Nat
  result : Except Fault α

/-- The loop of `call_read` and `data_var`, from attempt `attempt` on: `unsent` and `finish` are
what the two make of an answer that is not retried. -/
def requestLoop {β α : Type} (config : RpcConfig) (unsent : String → String)
    (finish : (status : Nat) → (reason text : String) → Except String β → Except Fault α)
    (reply : Nat → RpcReply β) (attempt : Nat) : Attempted α :=
  match reply attempt with
  | .sendError e => ⟨[], .error (.err (unsent e))⟩
  | .response status reason text body =>
    if status = 429 ∧ attempt < config.maxRetries then
      match durationMul config.backoff (attempt + 1) with
      | .error fault => ⟨[], .error fault⟩
      | .ok wait =>
        let rest := requestLoop config unsent finish reply (attempt + 1)
        ⟨wait :: rest.waits, rest.result⟩
    else ⟨[], finish status reason text body⟩
  termination_by config.maxRetries - attempt

/-- The value a response carries as hex. -/
def decodeResult (text : String) : Except Fault ClarityValue := do
  let bytes ← clientHexDecode (stripHexMark text)
  let (value, _) ← cvDecode bytes 0
  .ok value

/-! ## Read-only calls -/

/-- The request of `call_read`. -/
def callReadRequest (config : RpcConfig) (deployer contractName function : String)
    (args : List (List UInt8)) (tip : Option String) : CallReadRequest where
  url :=
    let url := s!"{config.baseUrl}/v2/contracts/call-read/{deployer}/{contractName}/{function}"
    match tip with
    -- with or without its `0x`
    | some t => url ++ "?tip=" ++ stripHexMark t
    | none => url
  sender := config.sender
  arguments := args.map fun a => "0x" ++ hex a

/-- What `call_read` makes of a response that is not retried. -/
def callReadFinish (url : String) (status : Nat) (reason text : String)
    (body : Except String CallReadEnvelope) : Except Fault ClarityValue :=
  if ¬ isSuccess status then .error (.err s!"call_read HTTP {status} {reason} for {url}: {text}")
  else
    match body with
    | .error e => .error (.err s!"call_read JSON parse: {e}")
    | .ok env =>
      if ¬ env.okay then .error (.err s!"call_read returned okay=false: {env.cause}")
      else
        match env.result with
        | none => .error (.err "call_read: no result field")
        | some result => decodeResult result

/-- `call_read`. -/
def callRead (config : RpcConfig) (deployer contractName function : String)
    (args : List (List UInt8)) (tip : Option String)
    (node : CallReadRequest → (attempt : Nat) → RpcReply CallReadEnvelope) :
    Attempted ClarityValue :=
  let request := callReadRequest config deployer contractName function args tip
  requestLoop config (fun e => s!"call_read send error: {e}") (callReadFinish request.url)
    (node request) 0

/-! ## Data-vars -/

/-- The URL of `data_var`. -/
def dataVarUrl (config : RpcConfig) (deployer contractName var : String) : String :=
  s!"{config.baseUrl}/v2/data_var/{deployer}/{contractName}/{var}"

/-- What `data_var` makes of a response that is not retried. -/
def dataVarFinish (url var : String) (status : Nat) (reason text : String)
    (body : Except String DataVarEnvelope) : Except Fault ClarityValue :=
  if ¬ isSuccess status then .error (.err s!"data_var HTTP {status} {reason} for {url}: {text}")
  else
    match body with
    | .error e => .error (.err s!"data_var JSON parse: {e}")
    | .ok env =>
      match env.data with
      | none => .error (.err ("data_var: response missing `data` field for " ++ var))
      | some data => decodeResult data

/-- `data_var`. -/
def dataVar (config : RpcConfig) (deployer contractName var : String)
    (node : (url : String) → (attempt : Nat) → RpcReply DataVarEnvelope) :
    Attempted ClarityValue :=
  let url := dataVarUrl config deployer contractName var
  requestLoop config (fun e => s!"data_var send error: {e}") (dataVarFinish url var) (node url) 0

/-- The client as the bootstraps see it. -/
def RpcConfig.toRpc (config : RpcConfig) (sha256 : Sha256)
    (node : CallReadRequest → (attempt : Nat) → RpcReply CallReadEnvelope)
    (decimals : Principal → Except Fault Nat) : Rpc where
  sha256
  callRead := fun deployer contractName function args tip =>
    (callRead config deployer contractName function args tip node).result
  decimals

end StacksDex.Model
