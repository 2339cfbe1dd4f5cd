import StacksDex.Bridge.Cells
import StacksDex.Results.Isolation

/-!
# StacksDex — dispatch under lock contention

A pool whose lock is held while the candidates are collected is included without a look
at its topics, on the ground that its handler drops what is not meant for it. Whether it
does is decided by the handler's own checks (`Accepts`), and some of them look at
the action and the payload only. Two assignments of held locks lead to the same pools
exactly when every pool they disagree on is a subscriber, or rejects the event, or
already holds everything the event would write (`Reflects`).

* `Decides` is what each handler's lemma says: an accepted event is stamped, and any other
  changes nothing.
* `applyEvent_eq_self_iff` is the one pool.
* `dispatch_contention_iff` is the registry.
* `contention_misroutes` is the case that is not covered by the handlers' checks: two Bitflow
  XYK pools, one of them locked.
-/

namespace StacksDex.Results

open StacksDex.Lib StacksDex.Model StacksDex.Bridge

/-! ## What the handlers check -/

/-- The checks of a DLMM pool's action, after the cross-pool filter. -/
def AcceptsAction (event : StacksEvent) : Prop :=
  match event.action with
  | "update-bin-balances" | "update-bin-balances-on-withdraw" =>
    (event.dataUint "bin-id" >>= i32OfU128).isSome ∧ (event.dataUint "x-balance").isSome ∧
      (event.dataUint "y-balance").isSome
  | "swap-x-for-y" | "swap-y-for-x" => (newActive event).isSome
  | "set-x-fees" | "set-y-fees" =>
    (event.dataUint "protocol-fee").isSome ∨ (event.dataUint "provider-fee").isSome
  | "set-variable-fees" => (event.dataUint "x-fee").isSome ∨ (event.dataUint "y-fee").isSome
  | "reset-variable-fees" | "set-pool-status" => True
  | _ => False

/-- Two balances are in the payload. -/
def HasBalances (event : StacksEvent) (x y : String) : Prop :=
  (event.dataUint x).isSome ∧ (event.dataUint y).isSome

/-- The pool's handler takes the event. -/
def Accepts (event : StacksEvent) : Pool → Prop
  | .dlmm p => p.isForeign event = false ∧ AcceptsAction event
  | .arkadiko p =>
    event.action ∈ ARKADIKO_INDEXED_ACTIONS ∧
      event.dataPrincipal "swap-token" = some p.swapToken ∧
      HasBalances event "balance-x" "balance-y"
  | .velar p =>
    event.action ∈ VELAR_INDEXED_ACTIONS ∧ ∃ inner, event.dataTuple "pool" = some inner ∧
      inner.principal "lp-token" = some p.lpToken ∧
      (inner.uint "reserve0").isSome ∧ (inner.uint "reserve1").isSome
  | .alex p =>
    event.action ∈ ALEX_INDEXED_ACTIONS ∧ event.dataUint "pool-id" = some p.poolId ∧
      HasBalances event "balance-x" "balance-y"
  | .bitflowXyk _ =>
    event.action ∈ BITFLOW_XYK_INDEXED_ACTIONS ∧ HasBalances event "x-balance" "y-balance"
  | .stableV1 _ => False
  | .stableV2 p =>
    (event.action = "update-pool-balances" ∧ HasBalances event "x-balance" "y-balance") ∨
    (event.action = "set-midpoint" ∧ event.dataPrincipal "pool-contract" = some p.poolContract ∧
      (event.dataUint "midpoint-numerator").isSome ∧
      ∃ den, event.dataUint "midpoint-denominator" = some den ∧ den ≠ 0)

/-- The freshness stamps of a pool. -/
def stamps : Pool → Option String × Option Nat
  | .dlmm p => (p.lastTxId, p.lastEventAt)
  | .arkadiko p => (p.lastTxId, none)
  | .velar p => (p.lastTxId, none)
  | .alex p => (p.lastTxId, none)
  | .bitflowXyk p => (p.lastTxId, none)
  | .stableV1 p => (p.lastTxId, none)
  | .stableV2 p => (p.lastTxId, none)

/-- The stamps an accepted event leaves. -/
def stampsOf (now : Nat) (event : StacksEvent) : Pool → Option String × Option Nat
  | .dlmm _ => (some event.txId, some now)
  | _ => (some event.txId, none)

/-- The pool already holds every value the event writes, and its stamps. -/
def Reflects (now : Nat) (event : StacksEvent) (p : Pool) : Prop :=
  (∀ k v, patch p event k = some v → view p k = v) ∧ stamps p = stampsOf now event p

/-! ## A handler stamps what it accepts, and drops the rest -/

/-- A DLMM pool's handler applies exactly the actions it accepts, whatever the pool holds. -/
theorem applyAction_accepts (p : DLMMPool) (event : StacksEvent) :
    (p.applyAction event).2 = true ↔ AcceptsAction event := by
  have hkeep : ∀ mutated : Option DLMMPool, (p.orKeep mutated).2 = mutated.isSome := by
    intro mutated
    cases mutated <;> rfl
  have hupdate : (p.applyUpdateBinBalances event).isSome = true ↔
      (event.dataUint "bin-id" >>= i32OfU128).isSome ∧ (event.dataUint "x-balance").isSome ∧
        (event.dataUint "y-balance").isSome := by
    unfold DLMMPool.applyUpdateBinBalances
    cases event.dataUint "bin-id" with
    | none => simp
    | some n =>
      cases hn : i32OfU128 n with
      | none => simp [hn]
      | some unsigned =>
        cases event.dataUint "x-balance" <;> cases event.dataUint "y-balance" <;> simp [hn]
  have hswap : (p.applySwap event).isSome = (newActive event).isSome := by
    unfold DLMMPool.applySwap newActive
    cases (event.dataInt "updated-active-bin-id").orElse
        fun _ => event.dataInt "active-bin-id" with
    | none => rfl
    | some z =>
      simp only [Option.bind_eq_bind, Option.bind_some]
      cases i32OfI128 z <;> rfl
  unfold DLMMPool.applyAction AcceptsAction
  -- both sides look at the action, so the cases are those of a variable for it
  generalize event.action = action
  split
  case h_1 => simp only [hkeep, hupdate]
  case h_2 => simp only [hkeep, hupdate]
  case h_3 => simp only [hkeep, hswap]
  case h_4 => simp only [hkeep, hswap]
  -- one key of the two is enough
  case h_5 =>
    simp only [DLMMPool.setFee]
    cases event.dataUint "protocol-fee" <;> cases event.dataUint "provider-fee" <;> simp
  case h_6 =>
    simp only [DLMMPool.setFee]
    cases event.dataUint "protocol-fee" <;> cases event.dataUint "provider-fee" <;> simp
  case h_7 =>
    simp only [DLMMPool.setFee]
    cases event.dataUint "x-fee" <;> cases event.dataUint "y-fee" <;> simp
  case h_8 => simp only
  case h_9 => simp only
  case h_10 => simp_all

/-- An action that is not applied changes nothing. -/
theorem applyAction_keeps {p : DLMMPool} {event : StacksEvent}
    (h : ¬ (p.applyAction event).2 = true) : (p.applyAction event).1 = p := by
  have hkeep : ∀ mutated : Option DLMMPool, ¬ (p.orKeep mutated).2 = true →
      (p.orKeep mutated).1 = p := by
    intro mutated
    cases mutated with
    | none => exact fun _ => rfl
    | some q => exact fun hq => absurd rfl hq
  revert h
  unfold DLMMPool.applyAction
  split
  case h_1 => exact hkeep _
  case h_2 => exact hkeep _
  case h_3 => exact hkeep _
  case h_4 => exact hkeep _
  -- a fee action without either of its keys
  case h_5 =>
    simp only [DLMMPool.setFee]
    cases event.dataUint "protocol-fee" <;> cases event.dataUint "provider-fee" <;> simp
  case h_6 =>
    simp only [DLMMPool.setFee]
    cases event.dataUint "protocol-fee" <;> cases event.dataUint "provider-fee" <;> simp
  case h_7 =>
    simp only [DLMMPool.setFee]
    cases event.dataUint "x-fee" <;> cases event.dataUint "y-fee" <;> simp
  case h_8 => exact fun h => absurd rfl h
  case h_9 => exact fun h => absurd rfl h
  case h_10 => exact fun _ => rfl

/-- The outcome of an `apply`: what it accepts it stamps, what it rejects it drops. -/
def Decides {α : Type} (accepts : Prop) (lastTxId : α → Option String) (event : StacksEvent)
    (r : Option α) : Prop :=
  (accepts ∧ ∃ q, r = some q ∧ lastTxId q = some event.txId) ∨ (¬ accepts ∧ r = none)

/-- Arkadiko's handler stamps what it accepts, and drops the rest. -/
theorem arkadiko_decides (p : ArkadikoPool) (event : StacksEvent) :
    Decides (Accepts event (.arkadiko p)) ArkadikoPool.lastTxId event (p.apply event) := by
  unfold Decides ArkadikoPool.apply Accepts HasBalances
  by_cases hact : event.action ∈ ARKADIKO_INDEXED_ACTIONS
  · cases htoken : event.dataPrincipal "swap-token" with
    | none => simp [hact]
    | some t =>
      by_cases ht : t = p.swapToken
      · cases event.dataUint "balance-x" <;> cases event.dataUint "balance-y" <;> simp [hact, ht]
      · simp [hact, ht]
  · simp [hact]

/-- Velar's handler likewise. -/
theorem velar_decides (p : VelarPool) (event : StacksEvent) :
    Decides (Accepts event (.velar p)) VelarPool.lastTxId event (p.apply event) := by
  unfold Decides VelarPool.apply Accepts
  by_cases hact : event.action ∈ VELAR_INDEXED_ACTIONS
  · cases hinner : event.dataTuple "pool" with
    | none => simp [hact]
    | some inner =>
      cases htoken : inner.principal "lp-token" with
      | none => simp [hact, htoken]
      | some t =>
        by_cases ht : t = p.lpToken
        · cases hr₀ : inner.uint "reserve0" <;> cases hr₁ : inner.uint "reserve1" <;>
            simp [hact, htoken, ht, hr₀, hr₁]
        · simp [hact, htoken, ht]
  · simp [hact]

/-- ALEX's handler likewise. -/
theorem alex_decides (p : AlexPool) (event : StacksEvent) :
    Decides (Accepts event (.alex p)) AlexPool.lastTxId event (p.apply event) := by
  unfold Decides AlexPool.apply Accepts HasBalances
  by_cases hact : event.action ∈ ALEX_INDEXED_ACTIONS
  · cases hid : event.dataUint "pool-id" with
    | none => simp [hact]
    | some n =>
      by_cases hn : n = p.poolId
      · cases event.dataUint "balance-x" <;> cases event.dataUint "balance-y" <;> simp [hact, hn]
      · simp [hact, hn]
  · simp [hact]

/-- Bitflow XYK's handler likewise; what it accepts depends on the action and the payload only. -/
theorem bitflowXyk_decides (p : BitflowXykPool) (event : StacksEvent) :
    Decides (Accepts event (.bitflowXyk p)) BitflowXykPool.lastTxId event (p.apply event) := by
  unfold Decides BitflowXykPool.apply Accepts HasBalances
  by_cases hact : event.action ∈ BITFLOW_XYK_INDEXED_ACTIONS
  · cases event.dataUint "x-balance" <;> cases event.dataUint "y-balance" <;> simp [hact]
  · simp [hact]

/-- The V2 stableswap handler likewise, with one filter for each of its two actions. -/
theorem stableV2_decides (p : BitflowStableSwapV2Pool) (event : StacksEvent) :
    Decides (Accepts event (.stableV2 p)) BitflowStableSwapV2Pool.lastTxId event
      (p.apply event) := by
  unfold Decides BitflowStableSwapV2Pool.apply
  simp only [Accepts, HasBalances]
  split
  case h_1 h => cases event.dataUint "x-balance" <;> cases event.dataUint "y-balance" <;> simp [h]
  case h_2 h =>
    cases htarget : event.dataPrincipal "pool-contract" with
    | none => simp [h]
    | some t =>
      by_cases ht : t = p.poolContract
      · cases event.dataUint "midpoint-numerator" with
        | none => simp [h, ht]
        | some num =>
          cases event.dataUint "midpoint-denominator" with
          | none => simp [h, ht]
          | some den => by_cases hden : den = 0 <;> simp [h, ht, hden]
      · simp [h, ht]
  case h_3 hupdate hmid =>
    -- the two actions of a V2 pool, and the event has neither
    right
    refine ⟨?_, rfl⟩
    rintro (⟨h, -⟩ | ⟨h, -⟩)
    · exact hupdate h
    · exact hmid h

/-- An event that is not accepted leaves the pool as it was, stamps included. -/
theorem applyEvent_of_not_accepts {p : Pool} {event : StacksEvent} (h : ¬ Accepts event p)
    (now : Nat) : p.applyEvent now event = p := by
  -- a `none` of the handler leaves the pool in place
  have hdrop : ∀ {α : Type} {lastTxId : α → Option String} {r : Option α} (q : α),
      Decides (Accepts event p) lastTxId event r → r.getD q = q := by
    intro α lastTxId r q hdecides
    rcases hdecides with ⟨haccepts, -⟩ | ⟨-, rfl⟩
    · exact absurd haccepts h
    · rfl
  cases p with
  | dlmm p =>
    refine congrArg Pool.dlmm ?_
    rw [DLMMPool.applyEvent]
    by_cases hforeign : p.isForeign event = true
    · rw [if_pos hforeign]
    rw [if_neg hforeign]
    have hnot : ¬ (p.applyAction event).2 = true := fun happlied =>
      h ⟨by simpa using hforeign, (applyAction_accepts p event).mp happlied⟩
    dsimp only
    rw [if_neg hnot]
    exact applyAction_keeps hnot
  | arkadiko p => exact congrArg Pool.arkadiko (hdrop p (arkadiko_decides p event))
  | velar p => exact congrArg Pool.velar (hdrop p (velar_decides p event))
  | alex p => exact congrArg Pool.alex (hdrop p (alex_decides p event))
  | bitflowXyk p => exact congrArg Pool.bitflowXyk (hdrop p (bitflowXyk_decides p event))
  | stableV1 p => rfl
  | stableV2 p => exact congrArg Pool.stableV2 (hdrop p (stableV2_decides p event))

/-- An event that is accepted leaves its own stamps. -/
theorem stamps_applyEvent {p : Pool} {event : StacksEvent} (h : Accepts event p) (now : Nat) :
    stamps (p.applyEvent now event) = stampsOf now event p := by
  -- a handler that takes the event has put its transaction into the new state
  have hstamp : ∀ {α : Type} {lastTxId : α → Option String} {r : Option α} (q : α),
      Decides (Accepts event p) lastTxId event r → lastTxId (r.getD q) = some event.txId := by
    intro α lastTxId r q hdecides
    rcases hdecides with ⟨-, q', rfl, htx⟩ | ⟨hnot, -⟩
    · exact htx
    · exact absurd h hnot
  cases p with
  | dlmm p =>
    obtain ⟨hforeign, haccepts⟩ := h
    show stamps (.dlmm (p.applyEvent now event)) = _
    rw [DLMMPool.applyEvent, if_neg (by rw [hforeign]; exact Bool.false_ne_true)]
    dsimp only
    rw [if_pos ((applyAction_accepts p event).mpr haccepts)]
    rfl
  | arkadiko p => exact congrArg (·, none) (hstamp p (arkadiko_decides p event))
  | velar p => exact congrArg (·, none) (hstamp p (velar_decides p event))
  | alex p => exact congrArg (·, none) (hstamp p (alex_decides p event))
  | bitflowXyk p => exact congrArg (·, none) (hstamp p (bitflowXyk_decides p event))
  | stableV1 p => exact h.elim
  | stableV2 p => exact congrArg (·, none) (hstamp p (stableV2_decides p event))

/-- Cells, frame and stamps are the whole pool. -/
theorem eq_of_stamps {p q : Pool} (hframe : frame p = frame q) (hview : view p = view q)
    (hstamps : stamps p = stamps q) : p = q := by
  have hrest := unstamped_eq hframe hview
  cases p <;> cases q <;> first | cases hrest | skip
  case dlmm.dlmm p q =>
    cases p
    cases q
    simp_all [unstamped, DLMMPool.unstamped, stamps]
  all_goals
    rename_i p q
    cases p
    cases q
    simp_all [unstamped, stamps]

/-- **When a handler leaves a pool alone**: it does not accept the event, or the pool already
holds all that the event would write, stamps included. -/
theorem applyEvent_eq_self_iff (now : Nat) (p : Pool) (event : StacksEvent) :
    p.applyEvent now event = p ↔ ¬ Accepts event p ∨ Reflects now event p := by
  obtain ⟨hview, hframe⟩ := applyEvent_overlays now p event
  constructor
  · intro hself
    -- an accepted event that changes nothing has all its values there already, stamps included
    by_cases haccepts : Accepts event p
    · right
      refine ⟨?_, ?_⟩
      · intro k v hwrite
        have hcell := congrFun hview k
        rw [hself, Overlay.Patch.apply, hwrite] at hcell
        exact hcell
      · rw [← stamps_applyEvent haccepts now, hself]
    · exact Or.inl haccepts
  · rintro (hrejects | ⟨hvalues, hstamps⟩)
    · exact applyEvent_of_not_accepts hrejects now
    -- cell by cell and stamp by stamp, the event writes what is there
    by_cases haccepts : Accepts event p
    · refine eq_of_stamps hframe (hview.trans (funext ?_)) ?_
      · intro k
        rw [Overlay.Patch.apply]
        cases hwrite : patch p event k with
        | none => rfl
        | some v => exact (hvalues k v hwrite).symm
      · rw [stamps_applyEvent haccepts now, hstamps]
    · exact applyEvent_of_not_accepts haccepts now

/-! ## Two assignments of held locks -/

/--
**When contention does not show.** Two assignments of held locks lead to the same pools
exactly when every pool they disagree on subscribes to the emitter, does not accept the event,
or reflects it already, stamps included. A subscriber is a candidate either way; any other
pool is one only while its lock is held, and then only its handler's own checks stand between
the event and its fields.
-/
theorem dispatch_contention_iff (registry : PoolRegistry) (event : StacksEvent)
    (now : String → Nat) (held held' : String → Bool) :
    (∀ id, (registry.dispatch now held event).get id =
      (registry.dispatch now held' event).get id) ↔
    ∀ id p, registry.get id = some p → held id ≠ held' id →
      p.subscribedTo event.emitter = true ∨ ¬ Accepts event p ∨ Reflects (now id) event p := by
  constructor
  · intro hsame id p hp hdiffer
    have hid := hsame id
    rw [get_dispatch, get_dispatch, hp, Option.map_some, Option.map_some] at hid
    by_cases hsub : p.subscribedTo event.emitter = true
    · exact Or.inl hsub
    right
    refine (applyEvent_eq_self_iff (now id) p event).mp ?_
    -- one of the two runs applies the event, the other does not
    have hone := Option.some.inj hid
    cases hheld : held id with
    | true =>
      have hheld' : held' id = false := by
        rw [hheld] at hdiffer
        simpa using hdiffer.symm
      simpa [hheld, hheld', hsub] using hone
    | false =>
      have hheld' : held' id = true := by
        rw [hheld] at hdiffer
        simpa using hdiffer.symm
      simpa [hheld, hheld', hsub] using hone.symm
  · intro hwhen id
    rw [get_dispatch, get_dispatch]
    cases hp : registry.get id with
    | none => rfl
    | some p =>
      rw [Option.map_some, Option.map_some]
      refine congrArg some ?_
      by_cases hdiffer : held id = held' id
      · rw [hdiffer]
      rcases hwhen id p hp hdiffer with hsub | hself
      · simp [hsub]
      -- applied or not, the pool is the same
      · have hsame := (applyEvent_eq_self_iff (now id) p event).mpr hself
        rw [hsame, ite_self, ite_self]

/-- A Bitflow XYK pool with equal balances. -/
def namedXyk (name : String) (balance : Nat) : BitflowXykPool where
  poolContract := deployed name
  coreContract := deployed "xyk-core"
  xToken := deployed "x"
  yToken := deployed "y"
  xDecimals := 6
  yDecimals := 6
  xBalance := balance
  yBalance := balance
  xProtocolFeeBps := 10
  xProviderFeeBps := 20
  yProtocolFeeBps := 10
  yProviderFeeBps := 20
  poolStatus := true
  lastTxId := none

/-- Two pools with contracts of their own. -/
def twoXyk : PoolRegistry where
  byId := [("a", .bitflowXyk (namedXyk "a" 1)), ("b", .bitflowXyk (namedXyk "b" 2))]
  keysDistinct := by decide
  watermarks := []
  topics := []
  lastProcessedBlock := 0

/-- The new balances of the first pool. -/
def firstBalances : StacksEvent where
  emitter := deployed "a"
  txId := "0x01"
  eventIndex := 0
  action := "update-pool-balances"
  data := [("x-balance", .uint 5), ("y-balance", .uint 7)]

/-- With the second pool's lock held, the first pool's balances land in it. -/
theorem contention_misroutes :
    ¬ ∀ (registry : PoolRegistry) (event : StacksEvent) (now : String → Nat)
      (held held' : String → Bool) (id : String),
      (registry.dispatch now held event).get id = (registry.dispatch now held' event).get id := by
  intro h
  have hsame := h twoXyk firstBalances (fun _ => 0) (fun id => id == "b") (fun _ => false) "b"
  have hheld : (twoXyk.dispatch (fun _ => 0) (fun id => id == "b") firstBalances).get "b" =
      some (.bitflowXyk { namedXyk "b" 2 with
        xBalance := 5, yBalance := 7, lastTxId := some "0x01" }) := by rfl
  have hfree : (twoXyk.dispatch (fun _ => 0) (fun _ => false) firstBalances).get "b" =
      some (.bitflowXyk (namedXyk "b" 2)) := by rfl
  rw [hheld, hfree] at hsame
  have hpool := Pool.bitflowXyk.inj (Option.some.inj hsame)
  exact absurd (congrArg BitflowXykPool.xBalance hpool) (by decide)

end StacksDex.Results
