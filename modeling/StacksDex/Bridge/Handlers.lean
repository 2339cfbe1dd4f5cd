import StacksDex.Bridge.Cells
import StacksDex.Model.Handlers

/-!
# StacksDex — the handlers as mutations

Run statement by statement, a handler leaves the pool `applyEvent` leaves, and it returns
`true` exactly where there is a mutation to apply (`handle_eq`).

There is one lemma a handler. Each says that a handler which exits has assigned nothing
before, so a refused event leaves no trace; only the DLMM handler's fee actions assign in two
places, and there each assignment is of its own key.
-/

namespace StacksDex.Bridge

open StacksDex.Model

/-! ## DLMM -/

/-- The balances of one bin: the exits stand in front of the insertion. -/
theorem updateBinBalances_run (p : DLMMPool) (event : StacksEvent) :
    ((updateBinBalances event).run p).run =
      (p.orKeep (p.applyUpdateBinBalances event)).swap := by
  unfold updateBinBalances DLMMPool.applyUpdateBinBalances
  cases event.dataUint "bin-id" with
  | none => rfl
  | some n =>
    cases hunsigned : i32OfU128 n with
    | none => simp [hunsigned, DLMMPool.orKeep]
    | some unsigned =>
      cases event.dataUint "x-balance" <;> cases event.dataUint "y-balance" <;>
        simp [hunsigned, DLMMPool.orKeep]

/-- A swap moves the active bin, if it names one. -/
theorem moveActiveBin_run (p : DLMMPool) (event : StacksEvent) :
    ((moveActiveBin event).run p).run = (p.orKeep (p.applySwap event)).swap := by
  unfold moveActiveBin DLMMPool.applySwap
  cases (event.dataInt "updated-active-bin-id").orElse
      fun _ => event.dataInt "active-bin-id" with
  | none => rfl
  | some newActive => cases hv : i32OfI128 newActive <;> simp [hv, DLMMPool.orKeep]

/-- Two optional fees, one after the other; the handler applies the event if either was there. -/
theorem setFees_run (p : DLMMPool) (event : StacksEvent) (first second : String)
    (putFirst putSecond : DLMMPool → Nat → DLMMPool) :
    ((setFees event first second putFirst putSecond).run p).run =
      (DLMMPool.setFee event second putSecond
        (DLMMPool.setFee event first putFirst (p, false))).swap := by
  unfold setFees DLMMPool.setFee
  cases event.dataUint first <;> cases event.dataUint second <;> simp

/-- The match on the action. -/
theorem mutateDlmm_run (p : DLMMPool) (event : StacksEvent) :
    ((mutateDlmm event).run p).run = (p.applyAction event).swap := by
  unfold mutateDlmm
  split
  case h_1 h =>
    rw [DLMMPool.applyAction, h]
    exact updateBinBalances_run p event
  case h_2 h =>
    rw [DLMMPool.applyAction, h]
    exact updateBinBalances_run p event
  case h_3 h =>
    rw [DLMMPool.applyAction, h]
    exact moveActiveBin_run p event
  case h_4 h =>
    rw [DLMMPool.applyAction, h]
    exact moveActiveBin_run p event
  case h_5 h =>
    rw [DLMMPool.applyAction, h]
    exact setFees_run ..
  case h_6 h =>
    rw [DLMMPool.applyAction, h]
    exact setFees_run ..
  case h_7 h =>
    rw [DLMMPool.applyAction, h]
    exact setFees_run ..
  case h_8 h =>
    rw [DLMMPool.applyAction, h]
    rfl
  case h_9 h =>
    rw [DLMMPool.applyAction, h]
    rfl
  case h_10 => simp_all [DLMMPool.applyAction]

/-- The filter exits first; the stamps are written where the action was applied. -/
theorem applyDlmmEvent_run (now : Nat) (p : DLMMPool) (event : StacksEvent) :
    ((applyDlmmEvent now event).run p).run =
      (!p.isForeign event && (p.applyAction event).2, p.applyEvent now event) := by
  have hmutate : (mutateDlmm event).run p = pure (p.applyAction event).swap :=
    mutateDlmm_run p event
  unfold applyDlmmEvent DLMMPool.applyEvent DLMMPool.isForeign
  cases event.dataPrincipal "pool-contract" with
  -- no pool named, so the filter lets the event pass
  | none => cases happlied : (p.applyAction event).2 <;> simp [hmutate, happlied]
  | some target =>
    by_cases hown : target = p.poolContract
    · cases happlied : (p.applyAction event).2 <;> simp [hmutate, happlied, hown]
    · simp [hown]

/-! ## The other variants -/

/-- Arkadiko: the filter and the reads stand in front of the assignments. -/
theorem applyArkadikoEvent_run (p : ArkadikoPool) (event : StacksEvent) :
    ((applyArkadikoEvent event).run p).run =
      ((p.apply event).isSome, (p.apply event).getD p) := by
  unfold applyArkadikoEvent ArkadikoPool.apply
  by_cases hact : event.action ∈ ARKADIKO_INDEXED_ACTIONS
  · cases event.dataPrincipal "swap-token" with
    | none => simp [hact]
    | some t =>
      by_cases ht : t = p.swapToken
      · cases event.dataUint "balance-x" <;> cases event.dataUint "balance-y" <;>
          cases event.dataBool "enabled" <;> simp [hact, ht]
      · simp [hact, ht]
  · simp [hact]

/-- Velar likewise. -/
theorem applyVelarEvent_run (p : VelarPool) (event : StacksEvent) :
    ((applyVelarEvent event).run p).run = ((p.apply event).isSome, (p.apply event).getD p) := by
  unfold applyVelarEvent VelarPool.apply
  by_cases hact : event.action ∈ VELAR_INDEXED_ACTIONS
  · cases event.dataTuple "pool" with
    | none => simp [hact]
    | some inner =>
      cases hlp : inner.principal "lp-token" with
      | none => simp [hact, hlp]
      | some lp =>
        by_cases hown : lp = p.lpToken
        · cases hr₀ : inner.uint "reserve0" <;> cases hr₁ : inner.uint "reserve1" <;>
            simp [hact, hlp, hown, hr₀, hr₁]
        · simp [hact, hlp, hown]
  · simp [hact]

/-- ALEX likewise. -/
theorem applyAlexEvent_run (p : AlexPool) (event : StacksEvent) :
    ((applyAlexEvent event).run p).run = ((p.apply event).isSome, (p.apply event).getD p) := by
  unfold applyAlexEvent AlexPool.apply
  by_cases hact : event.action ∈ ALEX_INDEXED_ACTIONS
  · cases event.dataUint "pool-id" with
    | none => simp [hact]
    | some id =>
      by_cases hid : id = p.poolId
      · cases event.dataUint "balance-x" <;> cases event.dataUint "balance-y" <;>
          simp [hact, hid]
      · simp [hact, hid]
  · simp [hact]

/-- Bitflow XYK likewise, without a filter. -/
theorem applyBitflowXykEvent_run (p : BitflowXykPool) (event : StacksEvent) :
    ((applyBitflowXykEvent event).run p).run =
      ((p.apply event).isSome, (p.apply event).getD p) := by
  unfold applyBitflowXykEvent BitflowXykPool.apply
  by_cases hact : event.action ∈ BITFLOW_XYK_INDEXED_ACTIONS
  · cases event.dataUint "x-balance" <;> cases event.dataUint "y-balance" <;> simp [hact]
  · simp [hact]

/-- V2 stableswap: each of its two actions has its own reads. -/
theorem applyBitflowV2StableEvent_run (p : BitflowStableSwapV2Pool) (event : StacksEvent) :
    ((applyBitflowV2StableEvent event).run p).run =
      ((p.apply event).isSome, (p.apply event).getD p) := by
  unfold applyBitflowV2StableEvent
  split
  case h_1 h =>
    rw [BitflowStableSwapV2Pool.apply, h]
    cases event.dataUint "x-balance" <;> cases event.dataUint "y-balance" <;> simp
  case h_2 h =>
    rw [BitflowStableSwapV2Pool.apply, h]
    cases event.dataPrincipal "pool-contract" with
    | none => simp
    | some t =>
      by_cases ht : t = p.poolContract
      · cases event.dataUint "midpoint-numerator" with
        | none => simp [ht]
        | some num =>
          cases event.dataUint "midpoint-denominator" with
          | none => simp [ht]
          | some den => by_cases hden : den = 0 <;> simp [ht, hden]
      · simp [ht]
  case h_3 => simp_all [BitflowStableSwapV2Pool.apply]

/-! ## All of them -/

/-- Whether the handler applies the event. -/
def applied (event : StacksEvent) : Pool → Bool
  | .dlmm p => !p.isForeign event && (p.applyAction event).2
  | .arkadiko p => (p.apply event).isSome
  | .velar p => (p.apply event).isSome
  | .alex p => (p.apply event).isSome
  | .bitflowXyk p => (p.apply event).isSome
  | .stableV1 p => (p.apply event).isSome
  | .stableV2 p => (p.apply event).isSome

/-- **The handlers refine the mutations**: run statement by statement, a handler leaves the pool
`applyEvent` leaves. -/
theorem handle_eq (now : Nat) (event : StacksEvent) (pool : Pool) :
    pool.handle now event = (applied event pool, pool.applyEvent now event) := by
  -- the two halves of the outcome, whatever the variant
  have hrun : ∀ {α : Type} {wrap : α → Pool} {handler : StateM α Bool} {p q : α} {b : Bool},
      (handler.run p).run = (b, q) → runHandler wrap handler p = (b, wrap q) := by
    intro α wrap handler p q b h
    rw [runHandler, h]
  rcases pool with p | p | p | p | p | p | p
  · exact hrun (applyDlmmEvent_run now p event)
  · exact hrun (applyArkadikoEvent_run p event)
  · exact hrun (applyVelarEvent_run p event)
  · exact hrun (applyAlexEvent_run p event)
  · exact hrun (applyBitflowXykEvent_run p event)
  · rfl
  · exact hrun (applyBitflowV2StableEvent_run p event)

end StacksDex.Bridge
