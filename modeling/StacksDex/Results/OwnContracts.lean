import StacksDex.Bridge.Pipeline
import StacksDex.Model.BitflowFetcher
import StacksDex.Results.Replay

/-!
# StacksDex — the pools with a contract of their own

Bitflow's XYK and V2 stableswap pools are fetched from `get-pool` of their own contract, and
then kept current by its balances and the core's midpoints. A fetch succeeds exactly in the
contract's token order (`fetchOwn_ok_iff`). Nothing reports the rest of what a fetch reads, so
over a history of the contract (`OwnPrints`) the mirror has the reserves of a second fetch, and
all of its fields exactly when nothing unreported has changed
(`own_replay_eq_refetch_iff`).

`OwnState` is what the contract holds: balances, midpoint and settings. A history is a list of
changes to it with the prints that go with them; other prints of the core may come in between.
The proof follows a mirror along the history (`mirrorState`): balances are always taken, a
midpoint is taken when its event is heard and its denominator is not zero, and settings never.
-/

namespace StacksDex.Results

open StacksDex.Lib StacksDex.Model StacksDex.Bridge

inductive OwnDex where
  | xyk
  | stableV2
  deriving DecidableEq

/-- What an administrator sets. An older contract does not list the optional fields. -/
structure OwnSettings where
  xProtocolFee : Nat
  xProviderFee : Nat
  yProtocolFee : Nat
  yProviderFee : Nat
  poolStatus : Option Bool
  core : Principal
  /-- For the stableswap curve. -/
  amp : Nat
  threshold : Option Nat

/-- What such a contract holds. -/
structure OwnState where
  balances : Nat × Nat
  /-- The core keeps it, if it is not too old. -/
  midpoint : Option (Nat × Nat)
  settings : OwnSettings

/-! ## Fetching -/

/-- A field that is a number if it is listed. -/
def OptUint (m : Fields) (key : String) : Option Nat → Prop
  | some n => m.uint key = some n
  | none => m.get key = none

/-- The fields of `get-pool`. -/
structure GetPool (dex : OwnDex) (x y : Principal) (st : OwnState) (m : Fields) : Prop where
  balanceX : m.uint "x-balance" = some st.balances.1
  balanceY : m.uint "y-balance" = some st.balances.2
  xProtocolFee : m.uint "x-protocol-fee" = some st.settings.xProtocolFee
  xProviderFee : m.uint "x-provider-fee" = some st.settings.xProviderFee
  yProtocolFee : m.uint "y-protocol-fee" = some st.settings.yProtocolFee
  yProviderFee : m.uint "y-provider-fee" = some st.settings.yProviderFee
  poolStatus : m.get "pool-status" = st.settings.poolStatus.map .bool
  core : m.principal "core-address" = some st.settings.core
  xToken : m.principal "x-token" = some x
  yToken : m.principal "y-token" = some y
  curve : dex = .stableV2 → m.uint "amplification-coefficient" = some st.settings.amp ∧
    OptUint m "convergence-threshold" st.settings.threshold ∧
    OptUint m "midpoint-primary-numerator" (st.midpoint.map Prod.fst) ∧
    OptUint m "midpoint-primary-denominator" (st.midpoint.map Prod.snd)

/-- The network side of a bootstrap works, and the contract holds `st`. -/
structure OwnShows (dex : OwnDex) (rpc : Rpc) (contract x y : Principal) (dx dy : Nat)
    (tip : Option String) (st : OwnState) : Prop where
  answers : ∃ deployer name m, rpc.principalParts contract = .ok (deployer, name) ∧
    rpc.callRead deployer name "get-pool" [] tip = .ok (.responseOk (.tuple m)) ∧
    GetPool dex x y st m
  decimalsX : rpc.decimals x = .ok dx
  decimalsY : rpc.decimals y = .ok dy

/-- Fetch a pool with the tokens in the caller's order. -/
def fetchOwn (dex : OwnDex) (rpc : Rpc) (contract : Principal) (tokens : Principal × Principal)
    (tip : Option String) : Except Fault Pool :=
  match dex with
  | .xyk => (rpc.fetchBitflowXykPool contract tokens.1 tokens.2 tip).map .bitflowXyk
  | .stableV2 => (rpc.fetchBitflowV2StablePool contract tokens.1 tokens.2 tip).map .stableV2

/-- The pool a fetch makes of a state. -/
def OwnState.toPool (st : OwnState) (dex : OwnDex) (contract x y : Principal) (dx dy : Nat) :
    Pool :=
  match dex with
  | .xyk => .bitflowXyk
    { poolContract := contract
      coreContract := st.settings.core
      xToken := x
      yToken := y
      xDecimals := dx
      yDecimals := dy
      xBalance := st.balances.1
      yBalance := st.balances.2
      xProtocolFeeBps := asU32 st.settings.xProtocolFee
      xProviderFeeBps := asU32 st.settings.xProviderFee
      yProtocolFeeBps := asU32 st.settings.yProtocolFee
      yProviderFeeBps := asU32 st.settings.yProviderFee
      poolStatus := st.settings.poolStatus.getD true
      lastTxId := none }
  | .stableV2 => .stableV2
    { poolContract := contract
      coreContract := st.settings.core
      xToken := x
      yToken := y
      xDecimals := dx
      yDecimals := dy
      xBalance := st.balances.1
      yBalance := st.balances.2
      xProtocolFeeBps := asU32 st.settings.xProtocolFee
      xProviderFeeBps := asU32 st.settings.xProviderFee
      yProtocolFeeBps := asU32 st.settings.yProtocolFee
      yProviderFeeBps := asU32 st.settings.yProviderFee
      amp := st.settings.amp
      threshold := st.settings.threshold.getD 2
      midpointNum := (st.midpoint.getD (1, 1)).1
      midpointDen := (st.midpoint.getD (1, 1)).2
      poolStatus := st.settings.poolStatus.getD true
      lastTxId := none }

section Fetch

variable {rpc : Rpc} {m : Fields} {key : String}

/-- A number that may be missing, with its default. -/
theorem uintFieldOr_tuple {o : Option Nat} (h : OptUint m key o) (default : Nat) :
    rpc.uintFieldOr (.tuple m) key default = .ok (o.getD default) := by
  rcases o with _ | n
  · have hget : m.get key = none := h
    rw [Rpc.uintFieldOr, ClarityValue.field, hget]
    rfl
  · have huint : m.uint key = some n := h
    unfold Fields.uint at huint
    split at huint
    · rename_i b hget
      rw [Rpc.uintFieldOr, field_tuple hget, ← Option.some.inj huint]
      rfl
    · cases huint

/-- A flag that may be missing, with its default. -/
theorem boolFieldOr_tuple {o : Option Bool} (h : m.get key = o.map .bool) (default : Bool) :
    rpc.boolFieldOr (.tuple m) key default = .ok (o.getD default) := by
  rcases o with _ | b
  · have hget : m.get key = none := h
    rw [Rpc.boolFieldOr, ClarityValue.field, hget]
    rfl
  · rw [Rpc.boolFieldOr, field_tuple h]
    rfl

/-- A principal that is there. -/
theorem plainPrincipalField_tuple {p : Principal} (h : m.principal key = some p) :
    rpc.plainPrincipalField (.tuple m) key = .ok p := by
  unfold Fields.principal at h
  split at h
  · rename_i q hget
    rw [Rpc.plainPrincipalField, field_tuple hget]
    exact congrArg Except.ok (Option.some.inj h)
  · cases h

/-- The first number of a midpoint that may be missing. -/
theorem optUint_fst {midpoint : Option (Nat × Nat)} :
    (midpoint.map Prod.fst).getD 1 = (midpoint.getD (1, 1)).1 := by
  rcases midpoint with _ | ⟨num, den⟩
  · rfl
  · rfl

/-- The second number of a midpoint that may be missing. -/
theorem optUint_snd {midpoint : Option (Nat × Nat)} :
    (midpoint.map Prod.snd).getD 1 = (midpoint.getD (1, 1)).2 := by
  rcases midpoint with _ | ⟨num, den⟩
  · rfl
  · rfl

variable {dex : OwnDex} {contract x y : Principal} {dx dy : Nat} {tip : Option String}
variable {st : OwnState}

/-- How the two fetchers begin and end their complaint. -/
def OwnDex.complaint : OwnDex → String × String
  | .xyk => ("BitflowXyk", "; pass them in the on-chain order — XYK pools don't auto-flip")
  | .stableV2 => ("BitflowV2Stable", "")

/-- **A fetch** reads what the contract holds, and then compares the tokens. -/
theorem fetchOwn_eq (h : OwnShows dex rpc contract x y dx dy tip st)
    (tokens : Principal × Principal) :
    fetchOwn dex rpc contract tokens tip = (do
      rpc.checkTokens dex.complaint.1 dex.complaint.2 contract x y tokens.1 tokens.2
      let dx ← rpc.decimals tokens.1
      let dy ← rpc.decimals tokens.2
      .ok (st.toPool dex contract tokens.1 tokens.2 dx dy)) := by
  obtain ⟨deployer, name, m, hparts, hcall, hm⟩ := h.answers
  -- what is left once everything has been read
  have hmap : ∀ {α : Type} (f : α → Pool) (check : Except Fault Unit) (fx fy : Except Fault Nat)
      (g : Nat → Nat → α),
      (check >>= fun _ => fx >>= fun dx => fy >>= fun dy => Except.ok (g dx dy)).map f =
        check >>= fun _ => fx >>= fun dx => fy >>= fun dy => .ok (f (g dx dy)) := by
    intro α f check fx fy g
    rcases check with fault | ok
    · rfl
    rcases fx with fault | dx
    · rfl
    rcases fy with fault | dy
    · rfl
    · rfl
  rcases dex with _ | _
  · show (rpc.fetchBitflowXykPool contract tokens.1 tokens.2 tip).map Pool.bitflowXyk = _
    rw [Rpc.fetchBitflowXykPool, hparts, ok_bind]
    dsimp only
    rw [hcall, ok_bind, ClarityValue.unwrapOk, ok_bind, uintField_tuple hm.balanceX, ok_bind,
      uintField_tuple hm.balanceY, ok_bind, uintField_tuple hm.xProtocolFee, ok_bind,
      uintField_tuple hm.xProviderFee, ok_bind, uintField_tuple hm.yProtocolFee, ok_bind,
      uintField_tuple hm.yProviderFee, ok_bind, boolFieldOr_tuple hm.poolStatus, ok_bind,
      plainPrincipalField_tuple hm.core, ok_bind, plainPrincipalField_tuple hm.xToken, ok_bind,
      plainPrincipalField_tuple hm.yToken, ok_bind]
    exact hmap ..
  · obtain ⟨hamp, hthreshold, hnum, hden⟩ := hm.curve rfl
    show (rpc.fetchBitflowV2StablePool contract tokens.1 tokens.2 tip).map Pool.stableV2 = _
    rw [Rpc.fetchBitflowV2StablePool, hparts, ok_bind]
    dsimp only
    rw [hcall, ok_bind, ClarityValue.unwrapOk, ok_bind, uintField_tuple hm.balanceX, ok_bind,
      uintField_tuple hm.balanceY, ok_bind, uintField_tuple hm.xProtocolFee, ok_bind,
      uintField_tuple hm.xProviderFee, ok_bind, uintField_tuple hm.yProtocolFee, ok_bind,
      uintField_tuple hm.yProviderFee, ok_bind, uintField_tuple hamp, ok_bind,
      uintFieldOr_tuple hthreshold, ok_bind, uintFieldOr_tuple hnum, ok_bind,
      uintFieldOr_tuple hden, ok_bind, boolFieldOr_tuple hm.poolStatus, ok_bind,
      plainPrincipalField_tuple hm.core, ok_bind, plainPrincipalField_tuple hm.xToken, ok_bind,
      plainPrincipalField_tuple hm.yToken, ok_bind, optUint_fst, optUint_snd]
    exact hmap ..

/-- A fetch succeeds in the contract's order of the tokens, and in no other. -/
theorem fetchOwn_ok_iff (h : OwnShows dex rpc contract x y dx dy tip st)
    {tokens : Principal × Principal} {p : Pool} :
    fetchOwn dex rpc contract tokens tip = .ok p ↔
      tokens = (x, y) ∧ p = st.toPool dex contract x y dx dy := by
  rw [fetchOwn_eq h]
  by_cases hsame : tokens = (x, y)
  · subst hsame
    have hcheck : rpc.checkTokens dex.complaint.1 dex.complaint.2 contract x y x y = .ok () :=
      if_neg (by simp)
    rw [hcheck, ok_bind, h.decimalsX, ok_bind, h.decimalsY, ok_bind]
    exact ⟨fun hok => ⟨rfl, (Except.ok.inj hok).symm⟩, fun hok => congrArg Except.ok hok.2.symm⟩
  · refine iff_of_false ?_ fun hok => hsame hok.1
    have hother : x ≠ tokens.1 ∨ y ≠ tokens.2 := by
      by_contra hnot
      push Not at hnot
      exact hsame (Prod.ext hnot.1.symm hnot.2.symm)
    -- whatever the texts, the check is an error
    intro hok
    obtain ⟨_, hcheck, -⟩ := bind_eq_ok.mp hok
    rw [Rpc.checkTokens, if_pos hother] at hcheck
    simp only [bind_eq_ok] at hcheck
    obtain ⟨_, -, _, -, _, -, _, -, _, -, hfalse⟩ := hcheck
    cases hfalse

end Fetch

/-! ## A history of the contract -/

inductive OwnStep where
  /-- A swap, or liquidity in or out. -/
  | trade (x y : Nat)
  /-- The core moves the midpoint. -/
  | midpoint (num den : Nat)
  | admin (settings : OwnSettings)

def OwnState.step (st : OwnState) : OwnStep → OwnState
  | .trade x y => { st with balances := (x, y) }
  | .midpoint num den => { st with midpoint := some (num, den) }
  | .admin settings => { st with settings }

def OwnState.run (st : OwnState) (steps : List OwnStep) : OwnState := steps.foldl step st

/-- The print of new balances. -/
structure Balances (contract : Principal) (x y : Nat) (e : StacksEvent) : Prop where
  emitter : e.emitter = contract
  action : e.action = "update-pool-balances"
  x : e.dataUint "x-balance" = some x
  y : e.dataUint "y-balance" = some y

/-- The core's print of the contract's new midpoint. -/
structure Midpoint (core contract : Principal) (num den : Nat) (e : StacksEvent) : Prop where
  emitter : e.emitter = core
  action : e.action = "set-midpoint"
  target : e.dataPrincipal "pool-contract" = some contract
  num : e.dataUint "midpoint-numerator" = some num
  den : e.dataUint "midpoint-denominator" = some den

/-- Any other print: of another pool's midpoint, of settings, of anything. -/
def Unrelated (contract : Principal) (e : StacksEvent) : Prop :=
  e.action ≠ "update-pool-balances" ∧
    (e.action = "set-midpoint" → e.dataPrincipal "pool-contract" ≠ some contract)

/-- What the contract and its cores print over a history from a state. -/
inductive OwnPrints (contract : Principal) : OwnState → List OwnStep → List StacksEvent → Prop
  | nil (st : OwnState) : OwnPrints contract st [] []
  | trade {st : OwnState} {x y : Nat} {e : StacksEvent} {steps : List OwnStep}
      {events : List StacksEvent} : Balances contract x y e →
      OwnPrints contract (st.step (.trade x y)) steps events →
      OwnPrints contract st (.trade x y :: steps) (e :: events)
  | midpoint {st : OwnState} {num den : Nat} {e : StacksEvent} {steps : List OwnStep}
      {events : List StacksEvent} : Midpoint st.settings.core contract num den e →
      OwnPrints contract (st.step (.midpoint num den)) steps events →
      OwnPrints contract st (.midpoint num den :: steps) (e :: events)
  | admin {st : OwnState} {settings : OwnSettings} {steps : List OwnStep}
      {events : List StacksEvent} : OwnPrints contract (st.step (.admin settings)) steps events →
      OwnPrints contract st (.admin settings :: steps) events
  | other {st : OwnState} {e : StacksEvent} {steps : List OwnStep} {events : List StacksEvent} :
      Unrelated contract e → OwnPrints contract st steps events →
      OwnPrints contract st steps (e :: events)

/-- The midpoint as a mirror of `core` hears it: of a core it does not listen to it hears
nothing, and a zero denominator it does not take. -/
def heardMidpoint (contract core : Principal) (mine : Option (Nat × Nat)) (st : OwnState) :
    List OwnStep → Option (Nat × Nat)
  | [] => mine
  | .midpoint num den :: steps =>
    heardMidpoint contract core
      (if (st.settings.core = core ∨ st.settings.core = contract) ∧ den ≠ 0 then some (num, den)
        else mine)
      (st.step (.midpoint num den)) steps
  | step :: steps => heardMidpoint contract core mine (st.step step) steps

/-- The state a mirror is of that was at `mine` when the contract was at `st`. -/
def mirrorState (contract : Principal) (mine st : OwnState) (steps : List OwnStep) : OwnState :=
  { mine with
    balances := (st.run steps).balances
    midpoint := heardMidpoint contract mine.settings.core mine.midpoint st steps }

/-- Settings a fetch cannot tell apart. -/
structure SameSettings (dex : OwnDex) (a b : OwnSettings) : Prop where
  core : a.core = b.core
  xProtocolFee : asU32 a.xProtocolFee = asU32 b.xProtocolFee
  xProviderFee : asU32 a.xProviderFee = asU32 b.xProviderFee
  yProtocolFee : asU32 a.yProtocolFee = asU32 b.yProtocolFee
  yProviderFee : asU32 a.yProviderFee = asU32 b.yProviderFee
  poolStatus : a.poolStatus.getD true = b.poolStatus.getD true
  curve : dex = .stableV2 → a.amp = b.amp ∧ a.threshold.getD 2 = b.threshold.getD 2

section History

variable {dex : OwnDex} {contract x y : Principal} {dx dy : Nat}

/-- A pool as fetched has no stamps. -/
theorem unstamped_toPool (st : OwnState) :
    unstamped (st.toPool dex contract x y dx dy) = st.toPool dex contract x y dx dy := by
  rcases dex with _ | _
  · rfl
  · rfl

/-- Balances and midpoint are cells, and the settings are the frame. -/
theorem frame_toPool {a b : OwnState} (h : a.settings = b.settings) :
    frame (a.toPool dex contract x y dx dy) = frame (b.toPool dex contract x y dx dy) := by
  rcases dex with _ | _
  · simp only [OwnState.toPool, frame, h]
  · simp only [OwnState.toPool, frame, h]

/-- Two states give the same pool when they agree on what the kind of pool keeps. -/
theorem toPool_eq_iff {a b : OwnState} :
    a.toPool dex contract x y dx dy = b.toPool dex contract x y dx dy ↔
      a.balances = b.balances ∧ SameSettings dex a.settings b.settings ∧
        (dex = .stableV2 → a.midpoint.getD (1, 1) = b.midpoint.getD (1, 1)) := by
  constructor
  · intro h
    rcases dex with _ | _
    · simp only [OwnState.toPool, Pool.bitflowXyk.injEq, BitflowXykPool.mk.injEq] at h
      obtain ⟨-, hcore, -, -, -, -, hx, hy, hxp, hxv, hyp, hyv, hstatus, -⟩ := h
      exact ⟨Prod.ext hx hy, ⟨hcore, hxp, hxv, hyp, hyv, hstatus, nofun⟩, nofun⟩
    · simp only [OwnState.toPool, Pool.stableV2.injEq, BitflowStableSwapV2Pool.mk.injEq] at h
      obtain ⟨-, hcore, -, -, -, -, hx, hy, hxp, hxv, hyp, hyv, hamp, hthr, hnum, hden, hstatus,
        -⟩ := h
      exact ⟨Prod.ext hx hy, ⟨hcore, hxp, hxv, hyp, hyv, hstatus, fun _ => ⟨hamp, hthr⟩⟩,
        fun _ => Prod.ext hnum hden⟩
  · rintro ⟨hbalances, hsame, hmidpoint⟩
    obtain ⟨hcore, hxp, hxv, hyp, hyv, hstatus, hcurve⟩ := hsame
    rcases dex with _ | _
    · simp only [OwnState.toPool, hbalances, hcore, hxp, hxv, hyp, hyv, hstatus]
    · obtain ⟨hamp, hthr⟩ := hcurve rfl
      simp only [OwnState.toPool, hbalances, hcore, hxp, hxv, hyp, hyv, hstatus, hamp, hthr,
        hmidpoint rfl]

/-- What is routed to a pool: the prints of its contracts. -/
def routedTo (pool : Pool) (events : List StacksEvent) : List StacksEvent :=
  events.filter fun e => pool.subscribedTo e.emitter

/-- One print takes the mirror of one state to that of another. -/
def Takes (dex : OwnDex) (contract x y : Principal) (dx dy : Nat) (e : StacksEvent)
    (a b : OwnState) : Prop :=
  let pool := a.toPool dex contract x y dx dy
  a.settings = b.settings ∧
    (if pool.subscribedTo e.emitter = true then (patch pool e).apply (view pool) else view pool) =
      view (b.toPool dex contract x y dx dy)

/-- Then the prints after it are applied to that one. -/
theorem applyAll_takes {a b : OwnState} {e : StacksEvent} {events : List StacksEvent}
    (h : Takes dex contract x y dx dy e a b) :
    Overlay.applyAll ((routedTo (a.toPool dex contract x y dx dy) (e :: events)).map
        (patch (a.toPool dex contract x y dx dy))) (view (a.toPool dex contract x y dx dy)) =
      Overlay.applyAll ((routedTo (b.toPool dex contract x y dx dy) events).map
        (patch (b.toPool dex contract x y dx dy))) (view (b.toPool dex contract x y dx dy)) := by
  obtain ⟨hsettings, hview⟩ := h
  have hframe : frame (a.toPool dex contract x y dx dy) = frame (b.toPool dex contract x y dx dy) :=
    frame_toPool hsettings
  have hpatch : patch (b.toPool dex contract x y dx dy) = patch (a.toPool dex contract x y dx dy) :=
    funext fun e => patch_congr hframe.symm e
  have hrouted : routedTo (b.toPool dex contract x y dx dy) events =
      routedTo (a.toPool dex contract x y dx dy) events :=
    List.filter_congr fun e _ => Pipeline.subscribedTo_congr hframe.symm e.emitter
  rw [hpatch, hrouted, ← hview, routedTo, List.filter_cons]
  by_cases hsub : (a.toPool dex contract x y dx dy).subscribedTo e.emitter = true
  · rw [if_pos hsub, if_pos hsub]
    rfl
  · rw [if_neg hsub, if_neg hsub]
    rfl

/-- A pool subscribes to its own contract. -/
theorem subscribedTo_own (st : OwnState) :
    (st.toPool dex contract x y dx dy).subscribedTo contract = true := by
  rcases dex with _ | _
  · exact List.any_eq_true.mpr ⟨_, List.mem_cons_self .., decide_eq_true rfl⟩
  · exact List.any_eq_true.mpr ⟨_, List.mem_cons_self .., decide_eq_true rfl⟩

/-- A V2 stableswap pool to its core as well, and to nothing else. -/
theorem subscribedTo_stableV2 (st : OwnState) (c : Principal) :
    (st.toPool .stableV2 contract x y dx dy).subscribedTo c = true ↔
      c = st.settings.core ∨ c = contract := by
  show ([⟨contract, "update-pool-balances"⟩, ⟨st.settings.core, "set-midpoint"⟩] :
    List StacksTopic).any _ = true ↔ _
  simp only [List.any_cons, List.any_nil, Bool.or_false, Bool.or_eq_true, decide_eq_true_eq]
  rw [eq_comm, @eq_comm _ st.settings.core, or_comm]

/-- New balances are taken. -/
theorem takes_balances {e : StacksEvent} {bx by' : Nat} (h : Balances contract bx by' e)
    (mine : OwnState) :
    Takes dex contract x y dx dy e mine { mine with balances := (bx, by') } := by
  refine ⟨rfl, ?_⟩
  rw [h.emitter, if_pos (subscribedTo_own mine)]
  rcases dex with _ | _
  · show (bitflowXykPatch e).apply _ = _
    rw [bitflowXykPatch, if_pos (by rw [h.action]; exact List.mem_singleton.mpr rfl), h.x, h.y]
    funext k
    rcases k with _ | _ | _ | _ | _ | _ | _ | _ | _ | _ | _ | _ | _
    all_goals rfl
  · show (stableV2Patch _ e).apply _ = _
    rw [stableV2Patch, if_pos h.action, h.x, h.y]
    funext k
    rcases k with _ | _ | _ | _ | _ | _ | _ | _ | _ | _ | _ | _ | _
    all_goals rfl

/-- A midpoint is taken from the mirror's core or contract, unless its denominator is zero. -/
theorem takes_midpoint {core : Principal} {e : StacksEvent} {num den : Nat}
    (h : Midpoint core contract num den e) (mine : OwnState) :
    Takes dex contract x y dx dy e mine
      { mine with
        midpoint := if (core = mine.settings.core ∨ core = contract) ∧ den ≠ 0
          then some (num, den) else mine.midpoint } := by
  have hother : e.action ≠ "update-pool-balances" := by
    rw [h.action]
    decide
  refine ⟨rfl, ?_⟩
  rcases dex with _ | _
  · -- it is nothing to an XYK pool
    have hempty : patch (mine.toPool .xyk contract x y dx dy) e = Overlay.Patch.empty :=
      if_neg fun hmem => hother (List.mem_singleton.mp hmem)
    rw [hempty, Overlay.empty_apply, ite_self]
    rfl
  -- a V2 stable pool hears the core of its settings and the contract itself
  · by_cases hsub : core = mine.settings.core ∨ core = contract
    · have hpatch : patch (mine.toPool .stableV2 contract x y dx dy) e =
          midpointPatch (some num) (some den) := by
        show stableV2Patch _ e = _
        rw [stableV2Patch, if_neg hother, if_pos ⟨h.action, h.target⟩, h.num, h.den]
      rw [h.emitter, if_pos ((subscribedTo_stableV2 mine core).mpr hsub), hpatch]
      -- a denominator of zero is turned away
      by_cases hzero : den = 0
      · rw [if_neg fun hboth => hboth.2 hzero, midpointPatch]
        simp only [hzero, if_true]
        rfl
      · rw [if_pos ⟨hsub, hzero⟩, midpointPatch]
        simp only [hzero, if_false]
        funext k
        rcases k with _ | _ | _ | _ | _ | _ | _ | _ | _ | _ | _ | _ | _
        all_goals rfl
    · rw [h.emitter, if_neg (mt (subscribedTo_stableV2 mine core).mp hsub),
        if_neg fun hboth => hsub hboth.1]

/-- Any other print leaves it alone. -/
theorem takes_unrelated {e : StacksEvent} (h : Unrelated contract e) (mine : OwnState) :
    Takes dex contract x y dx dy e mine mine := by
  have hempty : patch (mine.toPool dex contract x y dx dy) e = Overlay.Patch.empty := by
    rcases dex with _ | _
    · exact if_neg fun hmem => h.1 (List.mem_singleton.mp hmem)
    · show stableV2Patch _ e = _
      rw [stableV2Patch, if_neg h.1, if_neg fun hboth => h.2 hboth.1 hboth.2]
  refine ⟨rfl, ?_⟩
  rw [hempty, Overlay.empty_apply, ite_self]

/-- **A history**, as the mirror of a state hears it. -/
theorem applyAll_prints {st : OwnState} {steps : List OwnStep} {events : List StacksEvent}
    (h : OwnPrints contract st steps events) (mine : OwnState)
    (hbalances : mine.balances = st.balances) :
    Overlay.applyAll ((routedTo (mine.toPool dex contract x y dx dy) events).map
        (patch (mine.toPool dex contract x y dx dy))) (view (mine.toPool dex contract x y dx dy)) =
      view ((mirrorState contract mine st steps).toPool dex contract x y dx dy) := by
  induction h generalizing mine with
  | nil st =>
    show view _ = view _
    rw [mirrorState, OwnState.run, List.foldl_nil, ← hbalances]
    rfl
  | trade hprint _ ih => exact (applyAll_takes (takes_balances hprint mine)).trans (ih _ rfl)
  | midpoint hprint _ ih =>
    exact (applyAll_takes (takes_midpoint hprint mine)).trans (ih _ hbalances)
  | admin _ ih => exact ih mine hbalances
  | other hprint _ ih => exact (applyAll_takes (takes_unrelated hprint mine)).trans (ih _ hbalances)

/--
**Replay against refetch.** Over any history of trades, midpoint changes, administration and
unrelated prints, the events applied to a first fetch give the reserves of a second. They give
all of it, up to stamps, exactly when the settings are back to what they were, as far as a
fetch can tell, and for the V2 stable pool, the last midpoint the mirror has heard is the one
the second fetch reads: the last that the core of the first fetch or the contract itself
announced with a denominator that is not zero, the first fetch's own if there was none
(`heardMidpoint`).
-/
theorem own_replay_eq_refetch_iff {before after : Rpc} {tipBefore tipAfter : Option String}
    {st : OwnState} {steps : List OwnStep} {events : List StacksEvent}
    (hbefore : OwnShows dex before contract x y dx dy tipBefore st)
    (hprints : OwnPrints contract st steps events)
    (hafter : OwnShows dex after contract x y dx dy tipAfter (st.run steps)) (clock : Nat → Nat) :
    ∃ p q, fetchOwn dex before contract (x, y) tipBefore = .ok p ∧
      fetchOwn dex after contract (x, y) tipAfter = .ok q ∧
      reserves (applyEvents clock p (routedTo p events)) = reserves q ∧
      (unstamped (applyEvents clock p (routedTo p events)) = q ↔
        SameSettings dex st.settings (st.run steps).settings ∧
          (dex = .stableV2 →
            (heardMidpoint contract st.settings.core st.midpoint st steps).getD (1, 1) =
              (st.run steps).midpoint.getD (1, 1))) := by
  refine ⟨_, _, (fetchOwn_ok_iff hbefore).mpr ⟨rfl, rfl⟩,
    (fetchOwn_ok_iff hafter).mpr ⟨rfl, rfl⟩, ?_⟩
  obtain ⟨hview, hframe⟩ := applyEvents_overlays clock (st.toPool dex contract x y dx dy)
    (routedTo (st.toPool dex contract x y dx dy) events)
  rw [applyAll_prints hprints st rfl] at hview
  constructor
  · rw [reserves, hview]
    rcases dex with _ | _
    · rfl
    · rfl
  · -- the mirror is the pool of the state it has heard of
    have hsettings : st.settings = (mirrorState contract st st steps).settings := rfl
    rw [unstamped_eq (hframe.trans (frame_toPool hsettings)) hview, unstamped_toPool,
      toPool_eq_iff]
    exact and_iff_right rfl

end History

/-- A pair that is listed at 1:1. -/
def peggedState : OwnState where
  balances := (100, 200)
  midpoint := none
  settings :=
    { xProtocolFee := 1
      xProviderFee := 2
      yProtocolFee := 1
      yProviderFee := 2
      poolStatus := none
      core := deployed "core"
      amp := 100
      threshold := some 2 }

/-- A trade, and a midpoint. -/
def repegging : List OwnStep := [.trade 110 182, .midpoint 3 2]

def repeggingPrints : List StacksEvent :=
  [{ emitter := deployed "pool"
     txId := "0x01"
     eventIndex := 0
     action := "update-pool-balances"
     data := [("x-balance", .uint 110), ("y-balance", .uint 182)] },
   { emitter := deployed "core"
     txId := "0x02"
     eventIndex := 0
     action := "set-midpoint"
     data := [("midpoint-denominator", .uint 2), ("midpoint-numerator", .uint 3),
       ("pool-contract", .principal (deployed "pool"))] }]

/-- `get-pool` of the pegged pair, whatever it holds by now. -/
def peggedNode (bx by' : BitVec 128) (midpoint : Fields) : Rpc where
  sha256 := burnSha256
  callRead := fun _ _ _ _ _ => .ok (.responseOk (.tuple (
    [("amplification-coefficient", .uint 100), ("convergence-threshold", .uint 2),
      ("core-address", .principal (deployed "core"))] ++ midpoint ++
    [("x-balance", .uint bx), ("x-protocol-fee", .uint 1), ("x-provider-fee", .uint 2),
      ("x-token", .principal (deployed "x")), ("y-balance", .uint by'),
      ("y-protocol-fee", .uint 1), ("y-provider-fee", .uint 2),
      ("y-token", .principal (deployed "y"))])))
  decimals := fun _ => .ok 6

/-- The names of the contract. -/
theorem peggedNode_parts (bx by' : BitVec 128) (midpoint : Fields) :
    (peggedNode bx by' midpoint).principalParts (deployed "pool") =
      .ok ("SP000000000000000000002Q6VF78", "pool") := by
  have haddress : c32EncodeAddress burnSha256 22 (List.Vector.replicate 20 0) =
      .ok "SP000000000000000000002Q6VF78" := by decide +kernel
  show c32EncodeAddress burnSha256 22 (List.Vector.replicate 20 0) >>= _ = _
  rw [haddress]
  rfl

/-- The midpoint moves and is reported. -/
theorem own_replay_eq_refetch_iff_repegging :
    ∃ p q,
      fetchOwn .stableV2 (peggedNode 100 200 []) (deployed "pool") (deployed "x", deployed "y")
        none = .ok p ∧
      fetchOwn .stableV2 (peggedNode 110 182 [("midpoint-primary-denominator", .uint 2),
        ("midpoint-primary-numerator", .uint 3)]) (deployed "pool") (deployed "x", deployed "y")
        none = .ok q ∧
      reserves (applyEvents (fun _ => 0) p (routedTo p repeggingPrints)) = reserves q ∧
      (unstamped (applyEvents (fun _ => 0) p (routedTo p repeggingPrints)) = q ↔
        SameSettings .stableV2 peggedState.settings (peggedState.run repegging).settings ∧
          (OwnDex.stableV2 = .stableV2 →
            (heardMidpoint (deployed "pool") peggedState.settings.core peggedState.midpoint
              peggedState repegging).getD (1, 1) =
              ((peggedState.run repegging).midpoint).getD (1, 1))) := by
  have hbefore : OwnShows .stableV2 (peggedNode 100 200 []) (deployed "pool") (deployed "x")
      (deployed "y") 6 6 none peggedState := by
    refine ⟨⟨_, _, _, peggedNode_parts .., rfl, ?_⟩, rfl, rfl⟩
    exact ⟨rfl, rfl, rfl, rfl, rfl, rfl, rfl, rfl, rfl, rfl, fun _ => ⟨rfl, rfl, rfl, rfl⟩⟩
  have hafter : OwnShows .stableV2 (peggedNode 110 182 [("midpoint-primary-denominator", .uint 2),
      ("midpoint-primary-numerator", .uint 3)]) (deployed "pool") (deployed "x") (deployed "y")
      6 6 none (peggedState.run repegging) := by
    refine ⟨⟨_, _, _, peggedNode_parts .., rfl, ?_⟩, rfl, rfl⟩
    exact ⟨rfl, rfl, rfl, rfl, rfl, rfl, rfl, rfl, rfl, rfl, fun _ => ⟨rfl, rfl, rfl, rfl⟩⟩
  exact own_replay_eq_refetch_iff hbefore
    (.trade ⟨rfl, rfl, rfl, rfl⟩ (.midpoint ⟨rfl, rfl, rfl, rfl, rfl⟩ (.nil _))) hafter _

end StacksDex.Results
