import StacksDex.Model.DlmmPool
import StacksDex.Model.Event

/-!
# StacksDex — DLMM events

`dlmm/events.rs`: the cross-pool filter, the per-action mutation and the
freshness stamps. `now` is the epoch second the handler reads when it stamps.
Handlers of the fee actions differ in their keys and fields only (`setFee`).

The order is the source's: an event that names another pool is dropped (`isForeign`),
then the action decides on the mutation (`applyAction`), and only an event that was
applied stamps the pool. An event that lacks what its action needs leaves the pool as it
was, stamps included.
-/

namespace StacksDex.Model

/-- The pool-emitted half of `INDEXED_ACTIONS`. -/
def POOL_EMITTED_ACTIONS : List String :=
  ["update-bin-balances", "update-bin-balances-on-withdraw"]

/-- The core-emitted half of `INDEXED_ACTIONS`. -/
def CORE_EMITTED_ACTIONS : List String :=
  ["swap-x-for-y", "swap-y-for-x", "set-x-fees", "set-y-fees", "set-variable-fees",
    "reset-variable-fees", "set-pool-status"]

namespace DLMMPool

/-- `if let Some(p) = event.data_uint(key) { .. = p as u32; changed = true; }`. -/
def setFee (event : StacksEvent) (key : String) (put : DLMMPool → Nat → DLMMPool)
    (s : DLMMPool × Bool) : DLMMPool × Bool :=
  match event.dataUint key with
  | some p => (put s.1 (asU32 p), true)
  | none => s

/-- `apply_update_bin_balances`; the result is `None` where the payload is malformed. -/
def applyUpdateBinBalances (pool : DLMMPool) (event : StacksEvent) : Option DLMMPool := do
  -- the bin id of a pool event is unsigned
  let unsigned ← i32OfU128 (← event.dataUint "bin-id")
  let signed := unsigned - CENTER_BIN_ID
  let x ← event.dataUint "x-balance"
  let y ← event.dataUint "y-balance"
  some { pool with bins := pool.bins.insert signed ⟨x, y⟩ }

/-- `apply_swap`. -/
def applySwap (pool : DLMMPool) (event : StacksEvent) : Option DLMMPool := do
  -- the bin after the swap, where the event has it
  let newActive ← (event.dataInt "updated-active-bin-id").orElse
    fun _ => event.dataInt "active-bin-id"
  let v ← i32OfI128 newActive
  some { pool with activeBinId := v }

/-- The state after an optional mutation, and whether it happened. -/
def orKeep (pool : DLMMPool) (mutated : Option DLMMPool) : DLMMPool × Bool :=
  match mutated with
  | some pool' => (pool', true)
  | none => (pool, false)

/-- The match on `event.action`: the mutated pool and `applied`. -/
def applyAction (pool : DLMMPool) (event : StacksEvent) : DLMMPool × Bool :=
  match event.action with
  | "update-bin-balances" | "update-bin-balances-on-withdraw" =>
    pool.orKeep (pool.applyUpdateBinBalances event)
  | "swap-x-for-y" | "swap-y-for-x" => pool.orKeep (pool.applySwap event)
  | "set-x-fees" =>
    -- the protocol fee first; each key is optional
    setFee event "provider-fee" (fun p v => { p with xProviderFee := v }) <|
      setFee event "protocol-fee" (fun p v => { p with xProtocolFee := v }) (pool, false)
  | "set-y-fees" =>
    setFee event "provider-fee" (fun p v => { p with yProviderFee := v }) <|
      setFee event "protocol-fee" (fun p v => { p with yProtocolFee := v }) (pool, false)
  | "set-variable-fees" =>
    setFee event "y-fee" (fun p v => { p with yVariableFee := v }) <|
      setFee event "x-fee" (fun p v => { p with xVariableFee := v }) (pool, false)
  -- this action reads no payload
  | "reset-variable-fees" => ({ pool with xVariableFee := 0, yVariableFee := 0 }, true)
  -- the status is not mirrored, but the stamps advance
  | "set-pool-status" => (pool, true)
  | _ => (pool, false)

/-- The event names another pool. -/
def isForeign (pool : DLMMPool) (event : StacksEvent) : Bool :=
  match event.dataPrincipal "pool-contract" with
  | some target => decide (target ≠ pool.poolContract)
  -- an event that names no pool is for every pool it reaches
  | none => false

/-- `apply_event`. -/
def applyEvent (now : Nat) (pool : DLMMPool) (event : StacksEvent) : DLMMPool :=
  if pool.isForeign event then pool
  else
    let (pool', applied) := pool.applyAction event
    if applied then { pool' with lastTxId := some event.txId, lastEventAt := some now }
    else pool'

/-- Apply events in order; `clock i` is the time of the `i`-th application. -/
def applyEvents (clock : Nat → Nat) (pool : DLMMPool) : List StacksEvent → DLMMPool
  | [] => pool
  | event :: rest =>
    applyEvents (fun i => clock (i + 1)) (pool.applyEvent (clock 0) event) rest

/-- The pool without its freshness stamps. -/
def unstamped (pool : DLMMPool) : DLMMPool :=
  { pool with lastTxId := none, lastEventAt := none }

/-- `topics`. -/
def topics (pool : DLMMPool) : List StacksTopic :=
  POOL_EMITTED_ACTIONS.map (fun action => ⟨pool.poolContract, action⟩) ++
    CORE_EMITTED_ACTIONS.map fun action => ⟨pool.coreContract, action⟩

end DLMMPool

end StacksDex.Model
