import StacksDex.Model.Registry

/-!
# StacksDex — the handlers, statement by statement

The event handlers of `dlmm/events.rs`, `v2/events.rs` and `stableswap/events.rs` as
the mutating functions they are: every exit and every assignment stands where the source
has it, so an exit behind an assignment would leave its trace. The modules of the pools
give the same handlers as the mutation they make. A handler returns whether it applied
the event; the DLMM handler returns `Ok(())` either way, and its result here is `applied`.

`Pool.handle` runs the handler of a pool's kind. That it agrees with the mutation of the
pool's own module, trace and all, is proved in `Bridge/Handlers.lean`.
-/

namespace StacksDex.Model

/-! ## DLMM -/

/-- `apply_update_bin_balances`: `true` for `Some(_)`. -/
def updateBinBalances (event : StacksEvent) : StateM DLMMPool Bool := do
  let some n := event.dataUint "bin-id" | return false
  let some unsigned := i32OfU128 n | return false
  let signed := unsigned - CENTER_BIN_ID
  let some x := event.dataUint "x-balance" | return false
  let some y := event.dataUint "y-balance" | return false
  modify fun pool => { pool with bins := pool.bins.insert signed ⟨x, y⟩ }
  return true

/-- `apply_swap`: `true` for `Some(_)`. -/
def moveActiveBin (event : StacksEvent) : StateM DLMMPool Bool := do
  let some newActive := (event.dataInt "updated-active-bin-id").orElse
    fun _ => event.dataInt "active-bin-id" | return false
  let some v := i32OfI128 newActive | return false
  modify fun pool => { pool with activeBinId := v }
  return true

/-- The branches of the three fee actions: two optional keys, one field each. -/
def setFees (event : StacksEvent) (first second : String)
    (putFirst putSecond : DLMMPool → Nat → DLMMPool) : StateM DLMMPool Bool := do
  let mut changed := false
  if let some p := event.dataUint first then
    modify fun pool => putFirst pool (asU32 p)
    changed := true
  if let some p := event.dataUint second then
    modify fun pool => putSecond pool (asU32 p)
    changed := true
  return changed

/-- The match on `event.action`. -/
def mutateDlmm (event : StacksEvent) : StateM DLMMPool Bool :=
  match event.action with
  | "update-bin-balances" | "update-bin-balances-on-withdraw" => updateBinBalances event
  | "swap-x-for-y" | "swap-y-for-x" => moveActiveBin event
  | "set-x-fees" =>
    setFees event "protocol-fee" "provider-fee" (fun p v => { p with xProtocolFee := v })
      fun p v => { p with xProviderFee := v }
  | "set-y-fees" =>
    setFees event "protocol-fee" "provider-fee" (fun p v => { p with yProtocolFee := v })
      fun p v => { p with yProviderFee := v }
  | "set-variable-fees" =>
    setFees event "x-fee" "y-fee" (fun p v => { p with xVariableFee := v })
      fun p v => { p with yVariableFee := v }
  | "reset-variable-fees" => do
    modify fun pool => { pool with xVariableFee := 0 }
    modify fun pool => { pool with yVariableFee := 0 }
    return true
  -- the status is not mirrored
  | "set-pool-status" => return true
  | _ => return false

/-- `dlmm::events::apply_event`. -/
def applyDlmmEvent (now : Nat) (event : StacksEvent) : StateM DLMMPool Bool := do
  if let some target := event.dataPrincipal "pool-contract" then
    if target ≠ (← get).poolContract then
      return false
  let applied ← mutateDlmm event
  if applied then
    modify fun pool => { pool with lastTxId := some event.txId }
    modify fun pool => { pool with lastEventAt := some now }
  return applied

/-! ## The V2 family -/

/-- `apply_arkadiko_event`. -/
def applyArkadikoEvent (event : StacksEvent) : StateM ArkadikoPool Bool := do
  if event.action ∉ ARKADIKO_INDEXED_ACTIONS then
    return false
  let some t := event.dataPrincipal "swap-token" | return false
  if t ≠ (← get).swapToken then
    return false
  let some bx := event.dataUint "balance-x" | return false
  let some by' := event.dataUint "balance-y" | return false
  modify fun pool => { pool with balanceX := bx }
  modify fun pool => { pool with balanceY := by' }
  -- optional, so no exit between the writes
  if let some b := event.dataBool "enabled" then
    modify fun pool => { pool with enabled := b }
  modify fun pool => { pool with lastTxId := some event.txId }
  return true

/-- `apply_velar_event`. -/
def applyVelarEvent (event : StacksEvent) : StateM VelarPool Bool := do
  if event.action ∉ VELAR_INDEXED_ACTIONS then
    return false
  let some inner := event.dataTuple "pool" | return false
  let some lp := inner.principal "lp-token" | return false
  if lp ≠ (← get).lpToken then
    return false
  let some r0 := inner.uint "reserve0" | return false
  let some r1 := inner.uint "reserve1" | return false
  let flipped := (← get).flipped
  modify fun pool => { pool with reserveX := if flipped then r1 else r0 }
  modify fun pool => { pool with reserveY := if flipped then r0 else r1 }
  modify fun pool => { pool with lastTxId := some event.txId }
  return true

/-- `apply_alex_event`. -/
def applyAlexEvent (event : StacksEvent) : StateM AlexPool Bool := do
  if event.action ∉ ALEX_INDEXED_ACTIONS then
    return false
  let some id := event.dataUint "pool-id" | return false
  if id ≠ (← get).poolId then
    return false
  let some bx := event.dataUint "balance-x" | return false
  let some by' := event.dataUint "balance-y" | return false
  modify fun pool => { pool with balanceX := bx }
  modify fun pool => { pool with balanceY := by' }
  modify fun pool => { pool with lastTxId := some event.txId }
  return true

/-- `apply_bitflow_xyk_event`. -/
def applyBitflowXykEvent (event : StacksEvent) : StateM BitflowXykPool Bool := do
  if event.action ∉ BITFLOW_XYK_INDEXED_ACTIONS then
    return false
  let some bx := event.dataUint "x-balance" | return false
  let some by' := event.dataUint "y-balance" | return false
  modify fun pool => { pool with xBalance := bx }
  modify fun pool => { pool with yBalance := by' }
  modify fun pool => { pool with lastTxId := some event.txId }
  return true

/-! ## Stableswap -/

/-- `BITFLOW_V2_STABLE_INDEXED_ACTIONS`. -/
def BITFLOW_V2_STABLE_INDEXED_ACTIONS : List String := ["update-pool-balances", "set-midpoint"]

/-- `apply_bitflow_v2_stable_event`. -/
def applyBitflowV2StableEvent (event : StacksEvent) : StateM BitflowStableSwapV2Pool Bool :=
  match event.action with
  | "update-pool-balances" => do
    let some bx := event.dataUint "x-balance" | return false
    let some by' := event.dataUint "y-balance" | return false
    modify fun pool => { pool with xBalance := bx }
    modify fun pool => { pool with yBalance := by' }
    modify fun pool => { pool with lastTxId := some event.txId }
    return true
  | "set-midpoint" => do
    let some p := event.dataPrincipal "pool-contract" | return false
    if p ≠ (← get).poolContract then
      return false
    let some num := event.dataUint "midpoint-numerator" | return false
    let some den := event.dataUint "midpoint-denominator" | return false
    if den = 0 then
      return false
    modify fun pool => { pool with midpointNum := num }
    modify fun pool => { pool with midpointDen := den }
    modify fun pool => { pool with lastTxId := some event.txId }
    return true
  | _ => return false

/-! ## All of them -/

/-- What a handler returns, and the pool it leaves. -/
def runHandler {α : Type} (wrap : α → Pool) (handler : StateM α Bool) (pool : α) : Bool × Pool :=
  let r := (handler.run pool).run
  (r.1, wrap r.2)

/-- The handler of the pool's variant; V1 stableswap's does nothing. -/
def Pool.handle (now : Nat) (event : StacksEvent) : Pool → Bool × Pool
  | .dlmm p => runHandler .dlmm (applyDlmmEvent now event) p
  | .arkadiko p => runHandler .arkadiko (applyArkadikoEvent event) p
  | .velar p => runHandler .velar (applyVelarEvent event) p
  | .alex p => runHandler .alex (applyAlexEvent event) p
  | .bitflowXyk p => runHandler .bitflowXyk (applyBitflowXykEvent event) p
  | .stableV1 p => (false, .stableV1 p)
  | .stableV2 p => runHandler .stableV2 (applyBitflowV2StableEvent event) p

end StacksDex.Model
