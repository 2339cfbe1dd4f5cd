import StacksDex.Lib.Overlay
import StacksDex.Model.Registry

/-!
# StacksDex — every handler is a partial assignment

The quote-relevant state of a pool, seen as cells (`QuoteCell`): what an event
handler may ever write, apart from the freshness stamps. `patch pool event` is
the partial assignment an event stands for; it depends on the pool's fixed
identity and on the event, never on the mirrored state.

* `applyEvent_overlays` says that applying the event overlays that patch and leaves
  everything else alone;
* `unstamped_eq` says that cells and frame together are the whole pool up to its stamps;
* `applyEvents_overlays` is a run of events, which is a log of patches (`Lib.Overlay`).

So whatever is asked about runs of events (repetition, loss, order, replay from a snapshot)
is a question about logs of partial assignments, the same for all kinds of pools. For the two
emitters of a DLMM pool the cells fall into two halves, which their events never cross.
-/

namespace StacksDex.Bridge

open StacksDex.Lib StacksDex.Model

inductive QuoteCell where
  | active
  | xProtocolFee
  | xProviderFee
  | yProtocolFee
  | yProviderFee
  | xVariableFee
  | yVariableFee
  | bin (binId : Int)
  | reserveX
  | reserveY
  | enabled
  | midpointNum
  | midpointDen
  deriving DecidableEq

/-- What a cell holds. -/
abbrev CellValue : QuoteCell → Type
  | .active => Int
  | .bin _ => Option BinState
  | .enabled => Bool
  | _ => Nat

abbrev Patch := Overlay.Patch CellValue

/-- The cells of a pool. A cell its variant does not have holds a constant. -/
def view : Pool → (k : QuoteCell) → CellValue k
  | .dlmm p, .active => p.activeBinId
  | .dlmm p, .xProtocolFee => p.xProtocolFee
  | .dlmm p, .xProviderFee => p.xProviderFee
  | .dlmm p, .yProtocolFee => p.yProtocolFee
  | .dlmm p, .yProviderFee => p.yProviderFee
  | .dlmm p, .xVariableFee => p.xVariableFee
  | .dlmm p, .yVariableFee => p.yVariableFee
  | .dlmm p, .bin binId => p.bins[binId]?
  | .arkadiko p, .reserveX => p.balanceX
  | .arkadiko p, .reserveY => p.balanceY
  | .arkadiko p, .enabled => p.enabled
  | .velar p, .reserveX => p.reserveX
  | .velar p, .reserveY => p.reserveY
  | .alex p, .reserveX => p.balanceX
  | .alex p, .reserveY => p.balanceY
  | .bitflowXyk p, .reserveX => p.xBalance
  | .bitflowXyk p, .reserveY => p.yBalance
  | .stableV2 p, .reserveX => p.xBalance
  | .stableV2 p, .reserveY => p.yBalance
  | .stableV2 p, .midpointNum => p.midpointNum
  | .stableV2 p, .midpointDen => p.midpointDen
  | _, .active => (0 : Int)
  | _, .bin _ => none
  | _, .enabled => false
  | _, .xProtocolFee | _, .xProviderFee | _, .yProtocolFee | _, .yProviderFee
  | _, .xVariableFee | _, .yVariableFee | _, .reserveX | _, .reserveY
  | _, .midpointNum | _, .midpointDen => (0 : Nat)

/-- The pool without its cells and stamps. -/
def frame : Pool → Pool
  | .dlmm p => .dlmm { p with
      activeBinId := 0, xProtocolFee := 0, xProviderFee := 0, yProtocolFee := 0,
      yProviderFee := 0, xVariableFee := 0, yVariableFee := 0, bins := ∅,
      lastTxId := none, lastEventAt := none }
  | .arkadiko p => .arkadiko { p with
      balanceX := 0, balanceY := 0, enabled := false, lastTxId := none }
  | .velar p => .velar { p with reserveX := 0, reserveY := 0, lastTxId := none }
  | .alex p => .alex { p with balanceX := 0, balanceY := 0, lastTxId := none }
  | .bitflowXyk p => .bitflowXyk { p with xBalance := 0, yBalance := 0, lastTxId := none }
  | .stableV1 p => .stableV1 { p with lastTxId := none }
  | .stableV2 p => .stableV2 { p with
      xBalance := 0, yBalance := 0, midpointNum := 0, midpointDen := 0, lastTxId := none }

/-- The pool without its stamps: its quote-relevant state. -/
def unstamped : Pool → Pool
  | .dlmm p => .dlmm p.unstamped
  | .arkadiko p => .arkadiko { p with lastTxId := none }
  | .velar p => .velar { p with lastTxId := none }
  | .alex p => .alex { p with lastTxId := none }
  | .bitflowXyk p => .bitflowXyk { p with lastTxId := none }
  | .stableV1 p => .stableV1 { p with lastTxId := none }
  | .stableV2 p => .stableV2 { p with lastTxId := none }

/-- Cells and frame are the whole pool, up to its stamps. -/
theorem unstamped_eq {p q : Pool} (hframe : frame p = frame q) (hview : view p = view q) :
    unstamped p = unstamped q := by
  have hcell : ∀ k, view p k = view q k := fun k => congrFun hview k
  -- pools of different variants have different frames
  cases p <;> cases q <;> first | cases hframe | skip
  case dlmm.dlmm p q =>
    have hbins : p.bins = q.bins := Std.ExtTreeMap.ext_getElem? fun {binId} => hcell (.bin binId)
    have hactive : p.activeBinId = q.activeBinId := hcell .active
    have hxp : p.xProtocolFee = q.xProtocolFee := hcell .xProtocolFee
    have hxv : p.xProviderFee = q.xProviderFee := hcell .xProviderFee
    have hyp : p.yProtocolFee = q.yProtocolFee := hcell .yProtocolFee
    have hyv : p.yProviderFee = q.yProviderFee := hcell .yProviderFee
    have hxvar : p.xVariableFee = q.xVariableFee := hcell .xVariableFee
    have hyvar : p.yVariableFee = q.yVariableFee := hcell .yVariableFee
    cases p
    cases q
    simp only [frame, Pool.dlmm.injEq, DLMMPool.mk.injEq] at hframe
    simp_all only [unstamped, DLMMPool.unstamped]
  case arkadiko.arkadiko p q =>
    have hx : p.balanceX = q.balanceX := hcell .reserveX
    have hy : p.balanceY = q.balanceY := hcell .reserveY
    have hen : p.enabled = q.enabled := hcell .enabled
    cases p
    cases q
    simp only [frame, Pool.arkadiko.injEq, ArkadikoPool.mk.injEq] at hframe
    simp_all only [unstamped]
  case velar.velar p q =>
    have hx : p.reserveX = q.reserveX := hcell .reserveX
    have hy : p.reserveY = q.reserveY := hcell .reserveY
    cases p
    cases q
    simp only [frame, Pool.velar.injEq, VelarPool.mk.injEq] at hframe
    simp_all only [unstamped]
  case alex.alex p q =>
    have hx : p.balanceX = q.balanceX := hcell .reserveX
    have hy : p.balanceY = q.balanceY := hcell .reserveY
    cases p
    cases q
    simp only [frame, Pool.alex.injEq, AlexPool.mk.injEq] at hframe
    simp_all only [unstamped]
  case bitflowXyk.bitflowXyk p q =>
    have hx : p.xBalance = q.xBalance := hcell .reserveX
    have hy : p.yBalance = q.yBalance := hcell .reserveY
    cases p
    cases q
    simp only [frame, Pool.bitflowXyk.injEq, BitflowXykPool.mk.injEq] at hframe
    simp_all only [unstamped]
  case stableV1.stableV1 p q => exact hframe
  case stableV2.stableV2 p q =>
    have hx : p.xBalance = q.xBalance := hcell .reserveX
    have hy : p.yBalance = q.yBalance := hcell .reserveY
    have hnum : p.midpointNum = q.midpointNum := hcell .midpointNum
    have hden : p.midpointDen = q.midpointDen := hcell .midpointDen
    cases p
    cases q
    simp only [frame, Pool.stableV2.injEq, BitflowStableSwapV2Pool.mk.injEq] at hframe
    simp_all only [unstamped]

/-- The stamps are no cell. -/
theorem view_unstamped (p : Pool) : view (unstamped p) = view p := by
  funext k
  cases p <;> cases k <;> rfl

/-! ## The patch of an event -/

/-- Both reserves, where the payload has both. -/
def reservesPatch (x y : Option Nat) (enabled : Option Bool) : Patch :=
  match x, y with
  | some bx, some by' => fun
    | .reserveX => some bx
    | .reserveY => some by'
    | .enabled => enabled
    | _ => none
  | _, _ => Overlay.Patch.empty

/-- One bin, where the payload is well formed. -/
def binPatch (event : StacksEvent) : Patch :=
  match event.dataUint "bin-id" >>= i32OfU128, event.dataUint "x-balance",
    event.dataUint "y-balance" with
  | some unsigned, some x, some y => fun
    | .bin binId => if binId = unsigned - CENTER_BIN_ID then some (some ⟨x, y⟩) else none
    | _ => none
  | _, _, _ => Overlay.Patch.empty

/-- The active bin of a swap event, if it fits an `i32`. -/
def newActive (event : StacksEvent) : Option Int :=
  ((event.dataInt "updated-active-bin-id").orElse
    fun _ => event.dataInt "active-bin-id") >>= i32OfI128

/-- The core-emitted actions. -/
def corePatch (event : StacksEvent) : Patch :=
  match event.action with
  | "swap-x-for-y" | "swap-y-for-x" => fun
    | .active => newActive event
    | _ => none
  | "set-x-fees" => fun
    | .xProtocolFee => (event.dataUint "protocol-fee").map asU32
    | .xProviderFee => (event.dataUint "provider-fee").map asU32
    | _ => none
  | "set-y-fees" => fun
    | .yProtocolFee => (event.dataUint "protocol-fee").map asU32
    | .yProviderFee => (event.dataUint "provider-fee").map asU32
    | _ => none
  | "set-variable-fees" => fun
    | .xVariableFee => (event.dataUint "x-fee").map asU32
    | .yVariableFee => (event.dataUint "y-fee").map asU32
    | _ => none
  | "reset-variable-fees" => fun
    | .xVariableFee => some (0 : Nat)
    | .yVariableFee => some (0 : Nat)
    | _ => none
  | _ => Overlay.Patch.empty

def dlmmPatch (p : DLMMPool) (event : StacksEvent) : Patch :=
  if p.isForeign event then Overlay.Patch.empty
  else if event.action = "update-bin-balances" ∨
      event.action = "update-bin-balances-on-withdraw" then binPatch event
  else corePatch event

def arkadikoPatch (p : ArkadikoPool) (event : StacksEvent) : Patch :=
  if event.action ∈ ARKADIKO_INDEXED_ACTIONS ∧
      event.dataPrincipal "swap-token" = some p.swapToken then
    reservesPatch (event.dataUint "balance-x") (event.dataUint "balance-y")
      (event.dataBool "enabled")
  else Overlay.Patch.empty

/-- On-chain reserves, in the pool's own orientation. -/
def velarPatch (p : VelarPool) (event : StacksEvent) : Patch :=
  match event.dataTuple "pool" with
  | some inner =>
    if event.action ∈ VELAR_INDEXED_ACTIONS ∧ inner.principal "lp-token" = some p.lpToken then
      if p.flipped then reservesPatch (inner.uint "reserve1") (inner.uint "reserve0") none
      else reservesPatch (inner.uint "reserve0") (inner.uint "reserve1") none
    else Overlay.Patch.empty
  | none => Overlay.Patch.empty

def alexPatch (p : AlexPool) (event : StacksEvent) : Patch :=
  if event.action ∈ ALEX_INDEXED_ACTIONS ∧ event.dataUint "pool-id" = some p.poolId then
    reservesPatch (event.dataUint "balance-x") (event.dataUint "balance-y") none
  else Overlay.Patch.empty

def bitflowXykPatch (event : StacksEvent) : Patch :=
  if event.action ∈ BITFLOW_XYK_INDEXED_ACTIONS then
    reservesPatch (event.dataUint "x-balance") (event.dataUint "y-balance") none
  else Overlay.Patch.empty

/-- A midpoint with a denominator. -/
def midpointPatch (num den : Option Nat) : Patch :=
  match num, den with
  | some num, some den =>
    if den = 0 then Overlay.Patch.empty
    else fun
      | .midpointNum => some num
      | .midpointDen => some den
      | _ => none
  | _, _ => Overlay.Patch.empty

def stableV2Patch (p : BitflowStableSwapV2Pool) (event : StacksEvent) : Patch :=
  if event.action = "update-pool-balances" then
    reservesPatch (event.dataUint "x-balance") (event.dataUint "y-balance") none
  else if event.action = "set-midpoint" ∧
      event.dataPrincipal "pool-contract" = some p.poolContract then
    midpointPatch (event.dataUint "midpoint-numerator") (event.dataUint "midpoint-denominator")
  else Overlay.Patch.empty

/-- The partial assignment an event stands for. -/
def patch : Pool → StacksEvent → Patch
  | .dlmm p, event => dlmmPatch p event
  | .arkadiko p, event => arkadikoPatch p event
  | .velar p, event => velarPatch p event
  | .alex p, event => alexPatch p event
  | .bitflowXyk _, event => bitflowXykPatch event
  | .stableV1 _, _ => Overlay.Patch.empty
  | .stableV2 p, event => stableV2Patch p event

/-- A patch depends on the pool's frame only. -/
theorem patch_congr {p q : Pool} (h : frame p = frame q) (event : StacksEvent) :
    patch p event = patch q event := by
  -- an identity is in the frame, and all a patch reads of a pool is its identity
  have hpatch : ∀ p : Pool, patch (frame p) event = patch p event := by
    intro p
    cases p <;> rfl
  rw [← hpatch p, h, hpatch q]

/-! ## The two halves of a DLMM pool's cells -/

/-- An action is printed by the pool's contract or by the core, never by both. -/
theorem not_coreEmitted_of_poolEmitted {action : String} (h : action ∈ POOL_EMITTED_ACTIONS) :
    action ∉ CORE_EMITTED_ACTIONS :=
  (by decide : ∀ a ∈ POOL_EMITTED_ACTIONS, a ∉ CORE_EMITTED_ACTIONS) action h

/-- The same, the other way round. -/
theorem not_poolEmitted_of_coreEmitted {action : String} (h : action ∈ CORE_EMITTED_ACTIONS) :
    action ∉ POOL_EMITTED_ACTIONS := fun hpool => not_coreEmitted_of_poolEmitted hpool h

/-- What is not a core action writes bins only. -/
theorem dlmmPatch_of_not_bin {p : DLMMPool} {event : StacksEvent}
    (hact : event.action ∉ CORE_EMITTED_ACTIONS) {k : QuoteCell} (hk : ∀ binId, k ≠ .bin binId) :
    dlmmPatch p event k = none := by
  unfold dlmmPatch
  -- the filter turns a foreign event away before its action is looked at
  by_cases hforeign : p.isForeign event = true
  · rw [if_pos hforeign]
    rfl
  rw [if_neg hforeign]
  split
  · -- well formed or not, the payload is about a bin
    generalize hq : binPatch event = q
    unfold binPatch at hq
    split at hq
    · subst hq
      cases k with
      | bin binId => exact absurd rfl (hk binId)
      | _ => rfl
    · subst hq
      rfl
  -- no action of the core is among those left
  · have hempty : corePatch event = Overlay.Patch.empty := by
      unfold corePatch
      split
      case h_7 => rfl
      all_goals
        rename_i h
        exact absurd (by rw [h]; decide) hact
    rw [hempty]
    rfl

/-- What is not a bin update writes no bin. -/
theorem dlmmPatch_bin {p : DLMMPool} {event : StacksEvent}
    (hact : event.action ∉ POOL_EMITTED_ACTIONS) (binId : Int) :
    dlmmPatch p event (.bin binId) = none := by
  have hbins : ¬ (event.action = "update-bin-balances" ∨
      event.action = "update-bin-balances-on-withdraw") := fun h =>
    hact (by simpa [POOL_EMITTED_ACTIONS] using h)
  unfold dlmmPatch
  by_cases hforeign : p.isForeign event = true
  · rw [if_pos hforeign]
    rfl
  rw [if_neg hforeign, if_neg hbins]
  -- none of the core's actions has a branch for bins
  generalize hq : corePatch event = q
  unfold corePatch at hq
  split at hq <;> (subst hq; rfl)

/-! ## Handlers overlay their patch -/

/-- The effect of a handler on a pool: its cells are overlaid, its frame stays. -/
def Overlays (pool pool' : Pool) (p : Patch) : Prop :=
  view pool' = p.apply (view pool) ∧ frame pool' = frame pool

/-- A pool that is left as it was overlays the empty patch. -/
theorem Overlays.refl (pool : Pool) : Overlays pool pool Overlay.Patch.empty :=
  ⟨rfl, rfl⟩

/-- Writing one bin. -/
theorem insert_bin_overlays (p : DLMMPool) (binId : Int) (b : BinState) :
    Overlays (.dlmm p) (.dlmm { p with bins := p.bins.insert binId b }) fun
      | .bin k => if k = binId then some (some b) else none
      | _ => none := by
  refine ⟨funext ?_, rfl⟩
  intro k
  cases k with
  | bin k =>
    -- the cell of a bin is the map's lookup
    show (p.bins.insert binId b)[k]? = (if k = binId then some (some b) else none).getD p.bins[k]?
    rw [Std.ExtTreeMap.getElem?_insert]
    by_cases hk : k = binId
    · simp [hk]
    · simp [hk, Ne.symm hk]
  | _ => rfl

/-- A bin update writes the one bin it names. -/
theorem bins_overlays (p : DLMMPool) (event : StacksEvent) :
    Overlays (.dlmm p) (.dlmm (p.orKeep (p.applyUpdateBinBalances event)).1) (binPatch event) := by
  unfold DLMMPool.applyUpdateBinBalances binPatch
  -- a payload that lacks one of the three fields is skipped
  cases hbin : event.dataUint "bin-id" with
  | none => exact Overlays.refl _
  | some n =>
    -- nor is one whose bin id does not fit
    cases hunsigned : i32OfU128 n with
    | none =>
      simp only [Option.bind_eq_bind, Option.bind_some, hunsigned]
      exact Overlays.refl _
    | some unsigned =>
      simp only [Option.bind_eq_bind, Option.bind_some, hunsigned]
      cases event.dataUint "x-balance" with
      | none => exact Overlays.refl _
      | some x =>
        cases event.dataUint "y-balance" with
        | none => exact Overlays.refl _
        | some y => exact insert_bin_overlays p _ _

/-- A swap of the core contract moves the active bin only. -/
theorem swap_overlays (p : DLMMPool) (event : StacksEvent) :
    Overlays (.dlmm p) (.dlmm (p.orKeep (p.applySwap event)).1) fun
      | .active => newActive event
      | _ => none := by
  -- the handler is a function of the new active bin alone
  have hswap : p.applySwap event = (newActive event).map fun v => { p with activeBinId := v } := by
    unfold DLMMPool.applySwap newActive
    cases (event.dataInt "updated-active-bin-id").orElse
        fun _ => event.dataInt "active-bin-id" with
    | none => rfl
    | some z =>
      simp only [Option.bind_eq_bind, Option.bind_some]
      cases i32OfI128 z <;> rfl
  rw [hswap]
  cases newActive event with
  | none => exact ⟨funext fun k => by cases k <;> rfl, rfl⟩
  | some v => exact ⟨funext fun k => by cases k <;> rfl, rfl⟩

/-- The actions other than the bin updates. -/
theorem core_overlays (p : DLMMPool) (event : StacksEvent)
    (hbins : ¬ (event.action = "update-bin-balances" ∨
      event.action = "update-bin-balances-on-withdraw")) :
    Overlays (.dlmm p) (.dlmm (p.applyAction event).1) (corePatch event) := by
  unfold DLMMPool.applyAction corePatch
  split
  case h_1 h => exact absurd (Or.inl h) hbins
  case h_2 h => exact absurd (Or.inr h) hbins
  -- the two swaps
  case h_3 h =>
    simp only [h]
    exact swap_overlays p event
  case h_4 h =>
    simp only [h]
    exact swap_overlays p event
  -- the fees of either side, the variable fees, their reset: each field on its own
  case h_5 h =>
    simp only [h, DLMMPool.setFee]
    cases event.dataUint "protocol-fee" <;> cases event.dataUint "provider-fee" <;>
      exact ⟨funext fun k => by cases k <;> rfl, rfl⟩
  case h_6 h =>
    simp only [h, DLMMPool.setFee]
    cases event.dataUint "protocol-fee" <;> cases event.dataUint "provider-fee" <;>
      exact ⟨funext fun k => by cases k <;> rfl, rfl⟩
  case h_7 h =>
    simp only [h, DLMMPool.setFee]
    cases event.dataUint "x-fee" <;> cases event.dataUint "y-fee" <;>
      exact ⟨funext fun k => by cases k <;> rfl, rfl⟩
  case h_8 h =>
    simp only [h]
    exact ⟨funext fun k => by cases k <;> rfl, rfl⟩
  -- the actions that are accepted and change nothing, and all others
  case h_9 h =>
    simp only [h]
    exact Overlays.refl _
  case h_10 =>
    split
    case h_7 => exact Overlays.refl _
    all_goals simp_all

/-- Stamping a pool touches no cell. -/
theorem stamp_overlays {p p' : DLMMPool} {q : Patch} (h : Overlays (.dlmm p) (.dlmm p') q)
    (txId : String) (now : Nat) :
    Overlays (.dlmm p) (.dlmm { p' with lastTxId := some txId, lastEventAt := some now }) q := by
  refine ⟨?_, ?_⟩
  · rw [← h.1]
    funext k
    cases k <;> rfl
  · rw [← h.2]
    rfl

/-- Foreign events are dropped; what is applied is stamped. -/
theorem dlmm_overlays (now : Nat) (p : DLMMPool) (event : StacksEvent) :
    Overlays (.dlmm p) (.dlmm (p.applyEvent now event)) (dlmmPatch p event) := by
  unfold DLMMPool.applyEvent dlmmPatch
  by_cases hforeign : p.isForeign event = true
  · rw [if_pos hforeign, if_pos hforeign]
    exact Overlays.refl _
  rw [if_neg hforeign, if_neg hforeign]
  -- what the action does, before the stamps
  have haction : Overlays (.dlmm p) (.dlmm (p.applyAction event).1)
      (if event.action = "update-bin-balances" ∨
          event.action = "update-bin-balances-on-withdraw" then binPatch event
        else corePatch event) := by
    by_cases hbins : event.action = "update-bin-balances" ∨
        event.action = "update-bin-balances-on-withdraw"
    · rw [if_pos hbins]
      have hupdate : p.applyAction event = p.orKeep (p.applyUpdateBinBalances event) := by
        unfold DLMMPool.applyAction
        rcases hbins with h | h
        · simp only [h]
        · simp only [h]
      rw [hupdate]
      exact bins_overlays p event
    · rw [if_neg hbins]
      exact core_overlays p event hbins
  dsimp only
  -- stamped or not, the cells are those of the action
  by_cases happlied : (p.applyAction event).2 = true
  · rw [if_pos happlied]
    exact stamp_overlays haction _ _
  · rw [if_neg happlied]
    exact haction

/-- The discriminator decides, then both reserves are needed. -/
theorem arkadiko_overlays (p : ArkadikoPool) (event : StacksEvent) :
    Overlays (.arkadiko p) (.arkadiko ((p.apply event).getD p)) (arkadikoPatch p event) := by
  unfold ArkadikoPool.apply arkadikoPatch
  by_cases hact : event.action ∈ ARKADIKO_INDEXED_ACTIONS
  · rw [if_neg (not_not_intro hact)]
    cases htoken : event.dataPrincipal "swap-token" with
    | none => simpa [htoken] using Overlays.refl _
    | some t =>
      by_cases ht : t = p.swapToken
      · subst ht
        simp only [Option.bind_eq_bind, Option.bind_some, ne_eq, not_true_eq_false, if_false,
          hact, true_and, if_true]
        cases event.dataUint "balance-x" <;> cases event.dataUint "balance-y" <;>
          exact ⟨funext fun k => by cases k <;> rfl, rfl⟩
      -- another pair's event
      · simpa [htoken, ht] using Overlays.refl _
  · simpa [hact] using Overlays.refl _

/-- Velar's handler writes the two reserves it reads, whatever they were before. -/
theorem velar_overlays (p : VelarPool) (event : StacksEvent) :
    Overlays (.velar p) (.velar ((p.apply event).getD p)) (velarPatch p event) := by
  unfold VelarPool.apply velarPatch
  by_cases hact : event.action ∈ VELAR_INDEXED_ACTIONS
  · rw [if_neg (not_not_intro hact)]
    cases event.dataTuple "pool" with
    | none => exact Overlays.refl _
    | some inner =>
      cases htoken : inner.principal "lp-token" with
      | none => simpa [htoken] using Overlays.refl _
      | some t =>
        by_cases ht : t = p.lpToken
        · subst ht
          simp only [Option.bind_eq_bind, Option.bind_some, htoken, ne_eq, not_true_eq_false,
            if_false, hact, true_and, if_true]
          -- the two orders write the two reserves the other way round
          by_cases hflip : p.flipped = true
          · simp only [hflip, if_true]
            cases inner.uint "reserve0" <;> cases inner.uint "reserve1" <;>
              exact ⟨funext fun k => by cases k <;> rfl, by simp [frame, hflip]⟩
          · simp only [hflip, if_false, Bool.false_eq_true]
            cases inner.uint "reserve0" <;> cases inner.uint "reserve1" <;>
              exact ⟨funext fun k => by cases k <;> rfl, by simp [frame, hflip]⟩
        -- another pair's event
        · simpa [ht, htoken] using Overlays.refl _
  · cases event.dataTuple "pool" <;> simpa [hact] using Overlays.refl _

/-- ALEX's handler writes the balances of the pool's own number. -/
theorem alex_overlays (p : AlexPool) (event : StacksEvent) :
    Overlays (.alex p) (.alex ((p.apply event).getD p)) (alexPatch p event) := by
  unfold AlexPool.apply alexPatch
  by_cases hact : event.action ∈ ALEX_INDEXED_ACTIONS
  · rw [if_neg (not_not_intro hact)]
    cases hid : event.dataUint "pool-id" with
    | none => simpa [hid] using Overlays.refl _
    | some poolId =>
      by_cases h : poolId = p.poolId
      · subst h
        simp only [Option.bind_eq_bind, Option.bind_some, ne_eq, not_true_eq_false, if_false,
          hact, true_and, if_true]
        cases event.dataUint "balance-x" <;> cases event.dataUint "balance-y" <;>
          exact ⟨funext fun k => by cases k <;> rfl, rfl⟩
      -- another pool's event
      · simpa [hid, h] using Overlays.refl _
  · simpa [hact] using Overlays.refl _

/-- Bitflow XYK's handler writes both balances, without a filter. -/
theorem bitflowXyk_overlays (p : BitflowXykPool) (event : StacksEvent) :
    Overlays (.bitflowXyk p) (.bitflowXyk ((p.apply event).getD p))
      (bitflowXykPatch event) := by
  unfold BitflowXykPool.apply bitflowXykPatch
  by_cases hact : event.action ∈ BITFLOW_XYK_INDEXED_ACTIONS
  · rw [if_neg (not_not_intro hact), if_pos hact]
    cases event.dataUint "x-balance" <;> cases event.dataUint "y-balance" <;>
      exact ⟨funext fun k => by cases k <;> rfl, rfl⟩
  · simpa [hact] using Overlays.refl _

/-- A V2 stableswap pool's handler writes the balances or the midpoint. -/
theorem stableV2_overlays (p : BitflowStableSwapV2Pool) (event : StacksEvent) :
    Overlays (.stableV2 p) (.stableV2 ((p.apply event).getD p)) (stableV2Patch p event) := by
  unfold BitflowStableSwapV2Pool.apply stableV2Patch
  split
  case h_1 h =>
    rw [if_pos h]
    cases event.dataUint "x-balance" <;> cases event.dataUint "y-balance" <;>
      exact ⟨funext fun k => by cases k <;> rfl, rfl⟩
  case h_2 h =>
    cases hprincipal : event.dataPrincipal "pool-contract" with
    | none => simpa [hprincipal, h] using Overlays.refl _
    | some c =>
      by_cases hc : c = p.poolContract
      · subst hc
        simp only [Option.bind_eq_bind, Option.bind_some, ne_eq, not_true_eq_false, if_false,
          h, true_and, if_true, String.reduceEq]
        -- a midpoint needs both numbers, and a denominator to divide by
        cases event.dataUint "midpoint-numerator" with
        | none => exact Overlays.refl _
        | some num =>
          cases event.dataUint "midpoint-denominator" with
          | none => exact Overlays.refl _
          | some den =>
            simp only [Option.bind_some, midpointPatch]
            by_cases hden : den = 0
            · rw [if_pos hden, if_pos hden]
              exact Overlays.refl _
            · rw [if_neg hden, if_neg hden]
              exact ⟨funext fun k => by cases k <;> rfl, rfl⟩
      -- another pool's midpoint
      · simpa [hprincipal, h, hc] using Overlays.refl _
  case h_3 hupdate hmid =>
    rw [if_neg hupdate, if_neg fun h => hmid h.1]
    exact Overlays.refl _

/-- **A handler is a partial assignment**, whatever the variant, the event and the state. -/
theorem applyEvent_overlays (now : Nat) (pool : Pool) (event : StacksEvent) :
    Overlays pool (pool.applyEvent now event) (patch pool event) := by
  cases pool with
  | dlmm p => exact dlmm_overlays now p event
  | arkadiko p => exact arkadiko_overlays p event
  | velar p => exact velar_overlays p event
  | alex p => exact alex_overlays p event
  | bitflowXyk p => exact bitflowXyk_overlays p event
  | stableV1 p => exact Overlays.refl _
  | stableV2 p => exact stableV2_overlays p event

/-! ## Runs are logs of patches -/

/-- Apply events in order; `clock i` is the time of the `i`-th application. -/
def applyEvents (clock : Nat → Nat) (pool : Pool) : List StacksEvent → Pool
  | [] => pool
  | event :: rest =>
    applyEvents (fun i => clock (i + 1)) (pool.applyEvent (clock 0) event) rest

/-- A run of events is a log of patches, laid over the pool in order. What the pool was cannot
change what the events write. -/
theorem applyEvents_overlays (clock : Nat → Nat) (pool : Pool) (events : List StacksEvent) :
    view (applyEvents clock pool events) =
      Overlay.applyAll (events.map (patch pool)) (view pool) ∧
    frame (applyEvents clock pool events) = frame pool := by
  induction events generalizing clock pool with
  | nil => exact ⟨rfl, rfl⟩
  | cons event rest ih =>
    obtain ⟨hview, hframe⟩ := applyEvent_overlays (clock 0) pool event
    -- the rest of the run starts from the pool this event left
    obtain ⟨hviews, hframes⟩ := ih (fun i => clock (i + 1)) (pool.applyEvent (clock 0) event)
    -- the patches of the rest do not depend on what this event wrote
    have hpatch : patch (pool.applyEvent (clock 0) event) = patch pool :=
      funext fun e => patch_congr hframe e
    rw [hpatch, hview] at hviews
    exact ⟨hviews, hframes.trans hframe⟩

/-- For a DLMM pool this is its own run of events. -/
theorem applyEvents_dlmm (clock : Nat → Nat) (p : DLMMPool) (events : List StacksEvent) :
    applyEvents clock (.dlmm p) events = .dlmm (p.applyEvents clock events) := by
  induction events generalizing clock p with
  | nil => rfl
  | cons event rest ih => exact ih _ _

end StacksDex.Bridge
