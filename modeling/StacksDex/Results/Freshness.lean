import StacksDex.Bridge.Handlers
import StacksDex.Results.Contention
import StacksDex.Results.Quotes

/-!
# StacksDex — freshness stamps and rejected events

* A handler either returns `false` and leaves the whole pool as it was, or it stamps the
  pool with the event's transaction; then the action is one it indexes, the event passed
  its filter, and besides the stamps only the fields of that action differ
  (`handle_truthful`).
* An event of a shared contract without the discriminator of its variant is dropped by
  Arkadiko, Velar and ALEX. DLMM applies it to every pool of the core, and V2 stableswap
  applies its reserves: both take it for an event of the pool's own contract
  (`unattributed_unchanged_iff`).

What an action owns is a list of cells (`ownedCells`), read off the source's handlers. The
handlers are those of `Model/Handlers.lean`, run statement by statement, so that a field
written before an exit would show. That they never leave one is where `Bridge/Handlers.lean`
and the patches of `Bridge/Cells.lean` come together.
-/

namespace StacksDex.Results

open StacksDex.Model StacksDex.Bridge

/-! ## What an action owns -/

/-- `INDEXED_ACTIONS` of each variant. -/
def indexedActions : Pool → List String
  | .dlmm _ => POOL_EMITTED_ACTIONS ++ CORE_EMITTED_ACTIONS
  | .arkadiko _ => ARKADIKO_INDEXED_ACTIONS
  | .velar _ => VELAR_INDEXED_ACTIONS
  | .alex _ => ALEX_INDEXED_ACTIONS
  | .bitflowXyk _ => BITFLOW_XYK_INDEXED_ACTIONS
  | .stableV1 _ => []
  | .stableV2 _ => BITFLOW_V2_STABLE_INDEXED_ACTIONS

/-- The filter of each variant; XYK and the reserves of V2 stableswap have none. -/
def PassesFilter (event : StacksEvent) : Pool → Prop
  | .dlmm p => ∀ target, event.dataPrincipal "pool-contract" = some target →
      target = p.poolContract
  | .arkadiko p => event.dataPrincipal "swap-token" = some p.swapToken
  | .velar p => lpToken event = some p.lpToken
  | .alex p => event.dataUint "pool-id" = some p.poolId
  | .bitflowXyk _ | .stableV1 _ => True
  | .stableV2 p => event.action = "set-midpoint" →
      event.dataPrincipal "pool-contract" = some p.poolContract

/-- The fields of an action: reserves, one bin, the active bin, one fee pair, a midpoint. -/
def ownedCells (event : StacksEvent) : Pool → List QuoteCell
  | .dlmm _ =>
    match event.action with
    | "update-bin-balances" | "update-bin-balances-on-withdraw" =>
      (event.dataUint "bin-id" >>= i32OfU128).toList.map fun unsigned =>
        .bin (unsigned - CENTER_BIN_ID)
    | "swap-x-for-y" | "swap-y-for-x" => [.active]
    | "set-x-fees" => [.xProtocolFee, .xProviderFee]
    | "set-y-fees" => [.yProtocolFee, .yProviderFee]
    | "set-variable-fees" | "reset-variable-fees" => [.xVariableFee, .yVariableFee]
    | _ => []
  | .arkadiko _ => [.reserveX, .reserveY, .enabled]
  | .velar _ | .alex _ | .bitflowXyk _ => [.reserveX, .reserveY]
  | .stableV1 _ => []
  | .stableV2 _ =>
    match event.action with
    | "set-midpoint" => [.midpointNum, .midpointDen]
    | _ => [.reserveX, .reserveY]

/-- The pool `q` is `p` after the event: stamped, and changed in the action's fields only. -/
structure AppliedTo (now : Nat) (event : StacksEvent) (p q : Pool) : Prop where
  stamped : stamps q = stampsOf now event p
  indexed : event.action ∈ indexedActions p
  filtered : PassesFilter event p
  /-- Everything besides the mirrored fields and the stamps. -/
  identity : frame q = frame p
  others : ∀ k, k ∉ ownedCells event p → view q k = view p k

/-! ## A patch stays within its action -/

/-- A patch of the reserves writes reserves, and the enabled flag where the event has one. -/
theorem reservesPatch_owned {x y : Option Nat} {enabled : Option Bool} {k : QuoteCell}
    (h : reservesPatch x y enabled k ≠ none) :
    k ∈ [QuoteCell.reserveX, .reserveY] ∨ k = .enabled ∧ enabled ≠ none := by
  rcases x with _ | bx
  · exact absurd rfl h
  rcases y with _ | by'
  · exact absurd rfl h
  rcases k <;> simp_all [reservesPatch]

/-- A patch of the midpoint writes its two numbers. -/
theorem midpointPatch_owned {num den : Option Nat} {k : QuoteCell}
    (h : midpointPatch num den k ≠ none) : k ∈ [QuoteCell.midpointNum, .midpointDen] := by
  rcases num with _ | num
  · exact absurd rfl h
  rcases den with _ | den
  · exact absurd rfl h
  simp only [midpointPatch] at h
  split_ifs at h
  · exact absurd rfl h
  · rcases k <;> simp_all

/-- The one bin of an update is the one its payload names. -/
theorem binPatch_owned {event : StacksEvent} {k : QuoteCell} (h : binPatch event k ≠ none) :
    ∃ unsigned, event.dataUint "bin-id" >>= i32OfU128 = some unsigned ∧
      k = .bin (unsigned - CENTER_BIN_ID) := by
  generalize hq : binPatch event = q at h
  unfold binPatch at hq
  split at hq
  case h_1 unsigned x y hbin hx hy =>
    subst hq
    refine ⟨unsigned, hbin, ?_⟩
    rcases k <;> simp_all
  case h_2 =>
    subst hq
    exact absurd rfl h

/-- A DLMM event writes the fields its action owns, action by action. -/
theorem dlmmPatch_owned {event : StacksEvent} {p : DLMMPool} {k : QuoteCell}
    (h : dlmmPatch p event k ≠ none) : k ∈ ownedCells event (.dlmm p) := by
  unfold dlmmPatch at h
  split_ifs at h with hforeign hbins
  · exact absurd rfl h
  · obtain ⟨unsigned, hbin, rfl⟩ := binPatch_owned h
    rcases hbins with haction | haction <;> simp [ownedCells, haction, hbin]
  · -- each action of the core has fields of its own
    generalize hq : corePatch event = q at h
    unfold corePatch at hq
    split at hq
    case h_7 =>
      subst hq
      exact absurd rfl h
    all_goals
      rename_i haction
      subst hq
      simp only [ownedCells, haction]
      rcases k <;> simp_all

/-- **An event writes fields of its action only.** -/
theorem patch_owned {event : StacksEvent} {p : Pool} {k : QuoteCell}
    (h : patch p event k ≠ none) : k ∈ ownedCells event p := by
  -- reserves without an `enabled` are the two reserves
  have hreserves : ∀ {x y : Option Nat}, reservesPatch x y none k ≠ none →
      k ∈ [QuoteCell.reserveX, .reserveY] := by
    intro x y hpatch
    rcases reservesPatch_owned hpatch with hk | ⟨-, hnone⟩
    · exact hk
    · exact absurd rfl hnone
  rcases p with p | p | p | p | p | p | p
  · exact dlmmPatch_owned h
  · simp only [patch, arkadikoPatch] at h
    split_ifs at h
    · rcases reservesPatch_owned h with hk | ⟨rfl, -⟩
      · exact List.mem_append_left [QuoteCell.enabled] hk
      · simp [ownedCells]
    · exact absurd rfl h
  · simp only [patch, velarPatch] at h
    cases hinner : event.dataTuple "pool" with
    | none =>
      rw [hinner] at h
      exact absurd rfl h
    | some inner =>
      rw [hinner] at h
      dsimp only at h
      split_ifs at h
      · exact hreserves h
      · exact hreserves h
      · exact absurd rfl h
  · simp only [patch, alexPatch] at h
    split_ifs at h
    · exact hreserves h
    · exact absurd rfl h
  · simp only [patch, bitflowXykPatch] at h
    split_ifs at h
    · exact hreserves h
    · exact absurd rfl h
  · exact absurd rfl h
  · simp only [patch, stableV2Patch] at h
    split_ifs at h with hupdate hmidpoint
    · simpa [ownedCells, hupdate] using hreserves h
    · simpa [ownedCells, hmidpoint.1] using midpointPatch_owned h
    · exact absurd rfl h

/-! ## What is accepted -/

/-- A handler returns `true` for the events that pass its checks. -/
theorem applied_iff (event : StacksEvent) (p : Pool) :
    applied event p = true ↔ Accepts event p := by
  have hdecided : ∀ {α : Type} {lastTxId : α → Option String} {r : Option α},
      Decides (Accepts event p) lastTxId event r → (r.isSome = true ↔ Accepts event p) := by
    intro α lastTxId r hdecides
    rcases hdecides with ⟨haccepts, q, rfl, -⟩ | ⟨hnot, rfl⟩
    · exact iff_of_true rfl haccepts
    · exact iff_of_false Bool.false_ne_true hnot
  rcases p with p | p | p | p | p | p | p
  · simp only [applied, Accepts, Bool.and_eq_true, Bool.not_eq_true', applyAction_accepts]
  · exact hdecided (arkadiko_decides p event)
  · exact hdecided (velar_decides p event)
  · exact hdecided (alex_decides p event)
  · exact hdecided (bitflowXyk_decides p event)
  · exact iff_of_false Bool.false_ne_true id
  · exact hdecided (stableV2_decides p event)

/-- What is accepted has an action the pool indexes. -/
theorem indexed_of_accepts {event : StacksEvent} {p : Pool} (h : Accepts event p) :
    event.action ∈ indexedActions p := by
  rcases p with p | p | p | p | p | p | p
  · obtain ⟨-, haccepts⟩ := h
    unfold AcceptsAction at haccepts
    split at haccepts
    case h_10 => exact haccepts.elim
    all_goals
      rename_i haction
      rw [haction]
      simp [indexedActions, POOL_EMITTED_ACTIONS, CORE_EMITTED_ACTIONS]
  · exact h.1
  · exact h.1
  · exact h.1
  · exact h.1
  · exact h.elim
  · rcases h with ⟨haction, -⟩ | ⟨haction, -⟩ <;>
      simp [indexedActions, BITFLOW_V2_STABLE_INDEXED_ACTIONS, haction]

/-- What is accepted has passed the pool's filter. -/
theorem passesFilter_of_accepts {event : StacksEvent} {p : Pool} (h : Accepts event p) :
    PassesFilter event p := by
  rcases p with p | p | p | p | p | p | p
  · intro target htarget
    obtain ⟨hforeign, -⟩ := h
    rw [DLMMPool.isForeign, htarget] at hforeign
    simpa using hforeign
  · exact h.2.1
  · obtain ⟨-, inner, hinner, hlp, -⟩ := h
    exact Option.bind_eq_some_iff.mpr ⟨inner, hinner, hlp⟩
  · exact h.2.1
  · trivial
  · trivial
  · intro hmidpoint
    rcases h with ⟨haction, -⟩ | ⟨-, htarget, -⟩
    -- an update of the reserves is no midpoint
    · rw [haction] at hmidpoint
      exact absurd hmidpoint (by decide)
    · exact htarget

/-! ## Freshness -/

/--
**Freshness is truthful**, in all handlers. A handler returns `false` and leaves the whole
pool as it was, or it returns `true` and the pool is stamped with the event, whose action is
indexed and which passes the pool's filter. There is nothing in between: no field is written
by an event that is not applied, and no stamp without an application.
-/
theorem handle_truthful (now : Nat) (event : StacksEvent) (p : Pool) :
    ((p.handle now event).1 = false ∧ (p.handle now event).2 = p) ∨
    ((p.handle now event).1 = true ∧ AppliedTo now event p (p.handle now event).2) := by
  rw [handle_eq]
  by_cases haccepts : Accepts event p
  · obtain ⟨hview, hframe⟩ := applyEvent_overlays now p event
    refine Or.inr ⟨(applied_iff event p).mpr haccepts, stamps_applyEvent haccepts now,
      indexed_of_accepts haccepts, passesFilter_of_accepts haccepts, hframe, ?_⟩
    intro k hk
    -- a field of no concern to the action is not in its patch
    have hnone : patch p event k = none := not_not.mp fun hsome => hk (patch_owned hsome)
    rw [hview, Lib.Overlay.Patch.apply, hnone]
    rfl
  · refine Or.inl ⟨?_, applyEvent_of_not_accepts haccepts now⟩
    exact Bool.eq_false_iff.mpr fun h => haccepts ((applied_iff event p).mp h)

/-! ## Events that name no pool -/

/-- The discriminator of the variant is missing, or of another Clarity type. -/
def LacksDiscriminator (event : StacksEvent) : Variant → Prop
  | .dlmm | .stableV2 => event.dataPrincipal "pool-contract" = none
  | .arkadiko => event.dataPrincipal "swap-token" = none
  | .velar => lpToken event = none
  | .alex => event.dataUint "pool-id" = none
  | .bitflowXyk | .stableV1 => True

/-- An event of the pool's shared contract that does not say which pool it is about. -/
structure Unattributed (event : StacksEvent) (p : Pool) : Prop where
  shared : sharedContract p = some event.emitter
  lacks : LacksDiscriminator event (variant p)

/-- The actions that are applied without a discriminator, with a payload they can read. -/
def AppliesUnattributed (event : StacksEvent) : Pool → Prop
  | .dlmm _ => AcceptsAction event
  | .stableV2 _ =>
    event.action = "update-pool-balances" ∧ HasBalances event "x-balance" "y-balance"
  | _ => False

/-- Of the events that name no pool, a pool accepts those its variant applies without a name. -/
theorem accepts_unattributed_iff {event : StacksEvent} {p : Pool} (h : Unattributed event p) :
    Accepts event p ↔ AppliesUnattributed event p := by
  obtain ⟨hshared, hlacks⟩ := h
  rcases p with p | p | p | p | p | p | p
  · -- the filter of DLMM drops what names another pool, and nothing is named
    have hforeign : p.isForeign event = false := by
      rw [DLMMPool.isForeign, show event.dataPrincipal "pool-contract" = none from hlacks]
    exact ⟨fun haccepts => haccepts.2, fun happlies => ⟨hforeign, happlies⟩⟩
  -- Arkadiko, Velar and ALEX want their token or their number, which is not there
  · refine iff_of_false ?_ id
    rintro ⟨-, htoken, -⟩
    exact Option.some_ne_none _ (htoken.symm.trans hlacks)
  · refine iff_of_false ?_ id
    rintro ⟨-, inner, hinner, hlp, -⟩
    have htoken : lpToken event = some p.lpToken :=
      Option.bind_eq_some_iff.mpr ⟨inner, hinner, hlp⟩
    exact Option.some_ne_none _ (htoken.symm.trans hlacks)
  · refine iff_of_false ?_ id
    rintro ⟨-, hid, -⟩
    exact Option.some_ne_none _ (hid.symm.trans hlacks)
  -- the others share no contract, but for V2 stable, which takes balances without a name
  · exact absurd hshared.symm (Option.some_ne_none _)
  · exact absurd hshared.symm (Option.some_ne_none _)
  · refine ⟨?_, fun happlies => Or.inl happlies⟩
    rintro (happlies | ⟨-, htarget, -⟩)
    · exact happlies
    · exact absurd (htarget.symm.trans hlacks) (Option.some_ne_none _)

/--
**When an event that names no pool changes nothing**: unless the variant applies its action
without a name, or where the pool already holds all it would write, stamps included. Arkadiko,
Velar and ALEX apply nothing without a name. DLMM applies every indexed action whose payload
it can read, as its filter only turns away a name that differs, and the V2 stable pool applies
the balances of `update-pool-balances`.
-/
theorem unattributed_unchanged_iff (now : Nat) {event : StacksEvent} {p : Pool}
    (h : Unattributed event p) :
    p.applyEvent now event = p ↔ ¬ AppliesUnattributed event p ∨ Reflects now event p := by
  rw [applyEvent_eq_self_iff, accepts_unattributed_iff h]

/-- A swap of the Arkadiko singleton on no pair. -/
theorem unattributed_unchanged_arkadiko :
    let swap : StacksEvent := ⟨deployed "arkadiko-swap-v2-1", "0x01", 0, "swap-x-for-y",
      [("balance-x", .uint 5), ("balance-y", .uint 7), ("swap-token", .uint 1)]⟩
    (Pool.arkadiko (arkadikoPair "lp-1")).applyEvent 9 swap = .arkadiko (arkadikoPair "lp-1") :=
  (unattributed_unchanged_iff 9 ⟨rfl, by rfl⟩).mpr (Or.inl id)

/-- A swap of the DLMM core on no pool. -/
def namelessSwap : StacksEvent where
  emitter := oneSidedPool.coreContract
  txId := "0x01"
  eventIndex := 0
  action := "swap-x-for-y"
  data := [("updated-active-bin-id", .int 200)]

/-- It moves the active bin of every pool of the core. -/
theorem unattributed_applied :
    ¬ ∀ (now : Nat) (event : StacksEvent) (p : Pool), Unattributed event p →
      p.applyEvent now event = p := by
  intro hall
  have hsame := hall 9 namelessSwap (.dlmm oneSidedPool) ⟨rfl, by rfl⟩
  have hmoved : (oneSidedPool.applyEvent 9 namelessSwap).activeBinId = 200 := by rfl
  have hactive := congrArg DLMMPool.activeBinId (Pool.dlmm.inj hsame)
  rw [hmoved] at hactive
  exact absurd hactive (by decide)

end StacksDex.Results
