import StacksDex.Bridge.Dispatch
import Mathlib.Data.List.Pairwise

/-!
# StacksDex — an event touches the pool it names

Two layers keep pools apart: the dispatcher routes by emitter, and the handlers
of pools that share a contract filter by a discriminator in the payload. Some
handlers (Bitflow XYK, the reserves of V2 stableswap) have no filter of their own
and rely on the routing.

## Main result

`dispatch_isolated`: in a registry of pools with different identities, and with no lock
contended, dispatching an event that is attributable leaves every pool it does not name
exactly as it was, and it names at most one.

`Names` is what an event says about whom it is for, by emitter and discriminator, and
`Carries` that it has the discriminator its kind of pool filters by. An event of a shared
contract without one is not attributable, and what becomes of it is in
`Results/Freshness.lean`.
-/

namespace StacksDex.Results

open StacksDex.Model StacksDex.Bridge

/-! ## Contracts and identities -/

inductive Variant where
  | dlmm
  | arkadiko
  | velar
  | alex
  | bitflowXyk
  | stableV1
  | stableV2
  deriving DecidableEq

def variant : Pool → Variant
  | .dlmm _ => .dlmm
  | .arkadiko _ => .arkadiko
  | .velar _ => .velar
  | .alex _ => .alex
  | .bitflowXyk _ => .bitflowXyk
  | .stableV1 _ => .stableV1
  | .stableV2 _ => .stableV2

/-- The contract that belongs to one pool alone. -/
def ownContract : Pool → Option Principal
  | .dlmm p => some p.poolContract
  | .bitflowXyk p => some p.poolContract
  | .stableV1 p => some p.poolContract
  | .stableV2 p => some p.poolContract
  | .arkadiko _ | .velar _ | .alex _ => none

/-- The core or singleton contract whose events several pools listen to. -/
def sharedContract : Pool → Option Principal
  | .dlmm p => some p.coreContract
  | .arkadiko p => some p.poolContract
  | .velar p => some p.coreContract
  | .alex p => some p.poolContract
  | .stableV2 p => some p.coreContract
  | .bitflowXyk _ | .stableV1 _ => none

/-- What `id()` is made of: a contract or token, or an ALEX contract and pool id. -/
inductive Identity where
  | token (p : Principal)
  | numbered (contract : Principal) (poolId : Nat)
  deriving DecidableEq

def identity : Pool → Identity
  | .dlmm p => .token p.poolContract
  | .arkadiko p => .token p.swapToken
  | .velar p => .token p.lpToken
  | .alex p => .numbered p.poolContract p.poolId
  | .bitflowXyk p => .token p.poolContract
  | .stableV1 p => .token p.poolContract
  | .stableV2 p => .token p.poolContract

/-- Identities are distinct, and a shared contract is no pool's own and serves one variant. -/
structure Apart (registry : PoolRegistry) : Prop where
  identities : registry.byId.Pairwise fun e e' => identity e.2 ≠ identity e'.2
  own : ∀ e ∈ registry.byId, ∀ e' ∈ registry.byId, ∀ c,
    sharedContract e.2 = some c → ownContract e'.2 ≠ some c
  oneVariant : ∀ e ∈ registry.byId, ∀ e' ∈ registry.byId, ∀ c,
    sharedContract e.2 = some c → sharedContract e'.2 = some c → variant e.2 = variant e'.2

/-! ## Whom an event names -/

/-- The nested `pool.lp-token` of a Velar event. -/
def lpToken (event : StacksEvent) : Option Principal :=
  event.dataTuple "pool" >>= fun inner => inner.principal "lp-token"

/-- The event carries the variant's discriminator, with its expected Clarity type. -/
def Carries (event : StacksEvent) : Variant → Prop
  | .dlmm => (event.dataPrincipal "pool-contract").isSome
  | .arkadiko => (event.dataPrincipal "swap-token").isSome
  | .velar => (lpToken event).isSome
  | .alex => (event.dataUint "pool-id").isSome
  | .stableV2 => event.action = "set-midpoint" ∧ (event.dataPrincipal "pool-contract").isSome
  | .bitflowXyk | .stableV1 => False

/-- The discriminator is this pool's. -/
def Discriminates (event : StacksEvent) : Pool → Prop
  | .dlmm p => event.dataPrincipal "pool-contract" = some p.poolContract
  | .arkadiko p => event.dataPrincipal "swap-token" = some p.swapToken
  | .velar p => lpToken event = some p.lpToken
  | .alex p => event.dataUint "pool-id" = some p.poolId
  | .stableV2 p =>
    event.action = "set-midpoint" ∧ event.dataPrincipal "pool-contract" = some p.poolContract
  | .bitflowXyk _ | .stableV1 _ => False

/-- The event names this pool: by its emitter, or by its discriminator. -/
def Names (event : StacksEvent) (p : Pool) : Prop :=
  ownContract p = some event.emitter ∨
    sharedContract p = some event.emitter ∧ Discriminates event p

/-- (i) Emitted by a pool's own contract, or (ii) by a shared contract with the
discriminator of the variant it serves. -/
def Attributable (registry : PoolRegistry) (event : StacksEvent) : Prop :=
  (∃ e ∈ registry.byId, ownContract e.2 = some event.emitter) ∨
  ∃ e ∈ registry.byId, sharedContract e.2 = some event.emitter ∧ Carries event (variant e.2)

/-! ## Routing and filtering -/

/-- A pool subscribes to the contract of its own and to the one it shares, where it has them. -/
theorem subscribedTo_iff {p : Pool} {c : Principal} :
    p.subscribedTo c = true ↔ ownContract p = some c ∨ sharedContract p = some c := by
  unfold Pool.subscribedTo
  rw [List.any_eq_true]
  simp only [decide_eq_true_eq]
  -- the topics of each kind of pool name the contracts it has
  cases p with
  | dlmm p =>
    simp [Pool.topics, DLMMPool.topics, POOL_EMITTED_ACTIONS, CORE_EMITTED_ACTIONS, ownContract,
      sharedContract]
  | arkadiko p =>
    simp [Pool.topics, ArkadikoPool.topics, ARKADIKO_INDEXED_ACTIONS, ownContract, sharedContract]
  | velar p =>
    simp [Pool.topics, VelarPool.topics, VELAR_INDEXED_ACTIONS, ownContract, sharedContract]
  | alex p =>
    simp [Pool.topics, AlexPool.topics, ALEX_INDEXED_ACTIONS, ownContract, sharedContract]
  | bitflowXyk p =>
    simp [Pool.topics, BitflowXykPool.topics, BITFLOW_XYK_INDEXED_ACTIONS, ownContract,
      sharedContract]
  | stableV1 p =>
    simp [Pool.topics, BitflowStableSwapV1Pool.topics, ownContract, sharedContract]
  | stableV2 p =>
    simp [Pool.topics, BitflowStableSwapV2Pool.topics, ownContract, sharedContract]

/-- **Every filter drops what names another pool.** -/
theorem applyEvent_of_not_discriminates {p : Pool} {event : StacksEvent}
    (hcarries : Carries event (variant p)) (hnot : ¬ Discriminates event p) (now : Nat) :
    p.applyEvent now event = p := by
  cases p with
  | dlmm p =>
    obtain ⟨d, hd⟩ := Option.isSome_iff_exists.mp hcarries
    -- the name in the payload is another pool's
    have hforeign : p.isForeign event = true := by
      rw [DLMMPool.isForeign, hd]
      exact decide_eq_true fun h => hnot (hd.trans (congrArg some h))
    show Pool.dlmm (p.applyEvent now event) = _
    rw [DLMMPool.applyEvent, if_pos hforeign]
  | arkadiko p =>
    obtain ⟨d, hd⟩ := Option.isSome_iff_exists.mp hcarries
    have hne : d ≠ p.swapToken := fun h => hnot (hd.trans (congrArg some h))
    show Pool.arkadiko ((p.apply event).getD p) = _
    simp [ArkadikoPool.apply, hd, hne]
  | velar p =>
    obtain ⟨d, hd⟩ := Option.isSome_iff_exists.mp hcarries
    have hne : d ≠ p.lpToken := fun h => hnot (hd.trans (congrArg some h))
    obtain ⟨inner, hinner, hlp⟩ := Option.bind_eq_some_iff.mp hd
    show Pool.velar ((p.apply event).getD p) = _
    simp [VelarPool.apply, hinner, hlp, hne]
  | alex p =>
    obtain ⟨d, hd⟩ := Option.isSome_iff_exists.mp hcarries
    have hne : d ≠ p.poolId := fun h => hnot (hd.trans (congrArg some h))
    show Pool.alex ((p.apply event).getD p) = _
    simp [AlexPool.apply, hd, hne]
  | bitflowXyk p => exact hcarries.elim
  | stableV1 p => rfl
  | stableV2 p =>
    obtain ⟨hact, hsome⟩ := hcarries
    obtain ⟨d, hd⟩ := Option.isSome_iff_exists.mp hsome
    have hne : d ≠ p.poolContract := fun h => hnot ⟨hact, hd.trans (congrArg some h)⟩
    show Pool.stableV2 ((p.apply event).getD p) = _
    simp [BitflowStableSwapV2Pool.apply, hact, hd, hne]

/-- Two pools an event names are the same pool. -/
theorem identity_eq_of_names {registry : PoolRegistry} (hapart : Apart registry)
    {event : StacksEvent} {e e' : String × Pool} (he : e ∈ registry.byId)
    (he' : e' ∈ registry.byId) (h : Names event e.2) (h' : Names event e'.2) :
    identity e.2 = identity e'.2 := by
  obtain ⟨k, p⟩ := e
  obtain ⟨k', p'⟩ := e'
  rcases h with hown | ⟨hshared, hdisc⟩
  · rcases h' with hown' | ⟨hshared', -⟩
    · -- both by the emitter
      have hid : ∀ q : Pool, ownContract q = some event.emitter →
          identity q = .token event.emitter := by
        intro q hq
        cases q <;> first
          | exact congrArg Identity.token (Option.some.inj hq)
          | cases hq
      rw [hid p hown, hid p' hown']
    · exact absurd hown (hapart.own _ he' _ he _ hshared')
  · rcases h' with hown' | ⟨hshared', hdisc'⟩
    · exact absurd hown' (hapart.own _ he _ he' _ hshared)
    · -- both by the discriminator of the one variant the contract serves
      have hvariant := hapart.oneVariant _ he _ he' _ hshared hshared'
      cases p <;> cases p' <;> first
        | cases hvariant; done
        | skip
      case dlmm.dlmm p p' =>
        exact congrArg Identity.token (Option.some.inj (hdisc.symm.trans hdisc'))
      case arkadiko.arkadiko p p' =>
        exact congrArg Identity.token (Option.some.inj (hdisc.symm.trans hdisc'))
      case velar.velar p p' =>
        exact congrArg Identity.token (Option.some.inj (hdisc.symm.trans hdisc'))
      case alex.alex p p' =>
        have hcontract : p.poolContract = p'.poolContract :=
          Option.some.inj (hshared.trans hshared'.symm)
        have hpool : p.poolId = p'.poolId := Option.some.inj (hdisc.symm.trans hdisc')
        show Identity.numbered p.poolContract p.poolId = .numbered p'.poolContract p'.poolId
        rw [hcontract, hpool]
      case bitflowXyk.bitflowXyk p p' => exact hdisc.elim
      case stableV1.stableV1 p p' => exact hdisc.elim
      case stableV2.stableV2 p p' =>
        exact congrArg Identity.token (Option.some.inj (hdisc.2.symm.trans hdisc'.2))

/-! ## Isolation -/

/--
**Cross-pool isolation.** With no lock contended, dispatching an attributable event leaves
every pool it does not name exactly as it was, stamps included; and it names at most one. An
event is attributable when a pool's own contract emitted it, or a shared one with the
discriminator of the variant it serves. The pools are told apart by that: identities are
distinct, and a shared contract is no pool's own and serves one variant (`Apart`).
-/
theorem dispatch_isolated (registry : PoolRegistry) (hapart : Apart registry)
    (event : StacksEvent) (hattr : Attributable registry event) (now : String → Nat) :
    (∀ id p, registry.get id = some p → ¬ Names event p →
      (registry.dispatch now (fun _ => false) event).get id = some p) ∧
    (∀ id p id' p', registry.get id = some p → registry.get id' = some p' →
      Names event p → Names event p' → id = id' ∧ p = p') := by
  constructor
  · intro id p hp hnot
    have hmem := get_eq_some_iff.mp hp
    rw [get_dispatch, hp, Option.map_some]
    refine congrArg some ?_
    by_cases hsub : (false || p.subscribedTo event.emitter) = true
    · rw [if_pos hsub]
      -- a subscriber hears its own contract or a shared one
      rcases subscribedTo_iff.mp (by simpa using hsub) with hown | hshared
      · exact absurd (Or.inl hown) hnot
      -- shared, so the event carries this variant's discriminator, and it is not this pool's
      · rcases hattr with ⟨e, he, hown⟩ | ⟨e, he, hshared', hcarries⟩
        · exact absurd hown (hapart.own _ hmem _ he _ hshared)
        · rw [hapart.oneVariant _ he _ hmem _ hshared' hshared] at hcarries
          exact applyEvent_of_not_discriminates hcarries
            (fun hdisc => hnot (Or.inr ⟨hshared, hdisc⟩)) _
    · rw [if_neg hsub]
  · intro id p id' p' hp hp' hnames hnames'
    have hmem := get_eq_some_iff.mp hp
    have hmem' := get_eq_some_iff.mp hp'
    have hid := identity_eq_of_names hapart hmem hmem' hnames hnames'
    by_contra hne
    -- distinct entries have distinct identities
    have hentry : (id, p) ≠ (id', p') := fun h => hne (Prod.mk.inj h)
    have : Std.Symm fun e e' : String × Pool => identity e.2 ≠ identity e'.2 :=
      ⟨fun _ _ h => h.symm⟩
    exact hapart.identities.forall hmem hmem' hentry hid

/-- A contract of one deployer, by name. -/
def deployed (name : String) : Principal := .contract 22 (List.Vector.replicate 20 0) name

/-- The two digests behind the address of twenty zero bytes. -/
def burnDigests : List (List UInt8 × List.Vector UInt8 32) :=
  [(22 :: List.replicate 20 0,
    ⟨[55, 46, 174, 52, 135, 41, 170, 51, 118, 149, 38, 49, 72, 140, 104, 214, 245, 51, 140, 200,
      215, 148, 128, 92, 177, 18, 85, 226, 183, 179, 211, 171], rfl⟩),
   ([55, 46, 174, 52, 135, 41, 170, 51, 118, 149, 38, 49, 72, 140, 104, 214, 245, 51, 140, 200,
      215, 148, 128, 92, 177, 18, 85, 226, 183, 179, 211, 171],
    ⟨[174, 109, 188, 232, 40, 90, 155, 146, 158, 30, 184, 47, 50, 191, 164, 183, 114, 3, 178, 113,
      216, 23, 171, 208, 120, 146, 116, 43, 33, 137, 137, 113], rfl⟩)]

/-- SHA-256, as far as that address asks for it. -/
def burnSha256 : Sha256 := fun input =>
  (burnDigests.lookup input).getD (List.Vector.replicate 32 0)

/-- A pair of the Arkadiko singleton, by its LP token. -/
def arkadikoPair (token : String) : ArkadikoPool where
  poolContract := deployed "arkadiko-swap-v2-1"
  swapToken := deployed token
  xToken := deployed "x"
  yToken := deployed "y"
  xDecimals := 6
  yDecimals := 6
  balanceX := 1
  balanceY := 2
  enabled := true
  lastTxId := none

/-- Two pairs of the singleton. -/
def twoPairs : PoolRegistry where
  byId := [("lp-1", .arkadiko (arkadikoPair "lp-1")), ("lp-2", .arkadiko (arkadikoPair "lp-2"))]
  keysDistinct := by decide
  watermarks := []
  topics := []
  lastProcessedBlock := 0

/-- A swap on the first pair. -/
def firstPairSwap : StacksEvent where
  emitter := deployed "arkadiko-swap-v2-1"
  txId := "0x01"
  eventIndex := 0
  action := "swap-x-for-y"
  data := [("balance-x", .uint 5), ("balance-y", .uint 7),
    ("swap-token", .principal (deployed "lp-1"))]

/-- A swap of the first of two pairs of one singleton. -/
theorem dispatch_isolated_twoPairs :
    (∀ id p, twoPairs.get id = some p → ¬ Names firstPairSwap p →
      (twoPairs.dispatch (fun _ => 9) (fun _ => false) firstPairSwap).get id = some p) ∧
    (∀ id p id' p', twoPairs.get id = some p → twoPairs.get id' = some p' →
      Names firstPairSwap p → Names firstPairSwap p' → id = id' ∧ p = p') := by
  refine dispatch_isolated twoPairs ⟨?_, ?_, ?_⟩ firstPairSwap (Or.inr ?_) (fun _ => 9)
  · show List.Pairwise _ [_, _]
    simp only [List.pairwise_cons, List.mem_singleton, forall_eq]
    exact ⟨by decide, by simp⟩
  · intro e _ e' he' c _
    simp only [twoPairs, List.mem_cons, List.not_mem_nil, or_false] at he'
    rcases he' with rfl | rfl <;> simp [ownContract]
  · intro e he e' he' c _ _
    simp only [twoPairs, List.mem_cons, List.not_mem_nil, or_false] at he he'
    rcases he with rfl | rfl <;> rcases he' with rfl | rfl <;> rfl
  · refine ⟨_, List.mem_cons_self .., rfl, ?_⟩
    show (firstPairSwap.dataPrincipal "swap-token").isSome = true
    decide

end StacksDex.Results
