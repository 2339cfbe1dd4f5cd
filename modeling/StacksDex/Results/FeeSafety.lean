import StacksDex.Bridge.Builds
import StacksDex.Results.Mirror

/-!
# StacksDex — fee events and the safety of quotes

The fee fields are written from whatever an event carries and read by the unguarded
arithmetic of the single-bin step.

* A stored fee is the last value carried for it, if that fits the field.
* A direction can be quoted at every input exactly when its fees total less than
  100%, or the walk never gets to a step with a price: the sum, the gross-up and its
  division are the only operations that can fail, and the first step runs them all.

## Main results

* `storedFee_applyEvents`: what a run of events leaves in a fee field;
* `quote_ok_iff`: when a direction of a pool can be quoted at every input;
* `reachable_pool_safe`: the two together, for every pool, run and direction;
* `fee_event_breaks_quote`: one event with a protocol fee of 100%.
-/

namespace StacksDex.Results

open StacksDex.Lib StacksDex.Model StacksDex.Bridge

/-! ## What fee events store -/

inductive FeeComponent where
  | protocol
  | provider
  | variable
  deriving DecidableEq

/-- The fee field of a direction. -/
def storedFee (pool : DLMMPool) (d : Direction) : FeeComponent → Nat
  | .protocol => (pool.fees d).protocolFee
  | .provider => (pool.fees d).providerFee
  | .variable => (pool.fees d).variableFee

/-- The value an event carries for a fee field. A reset carries zero. -/
def carriedFee (event : StacksEvent) (d : Direction) (c : FeeComponent) : Option Nat :=
  match event.action with
  | "set-x-fees" =>
    match d, c with
    | .xForY, .protocol => event.dataUint "protocol-fee"
    | .xForY, .provider => event.dataUint "provider-fee"
    | _, _ => none
  | "set-y-fees" =>
    match d, c with
    | .yForX, .protocol => event.dataUint "protocol-fee"
    | .yForX, .provider => event.dataUint "provider-fee"
    | _, _ => none
  | "set-variable-fees" =>
    match d, c with
    | .xForY, .variable => event.dataUint "x-fee"
    | .yForX, .variable => event.dataUint "y-fee"
    | _, _ => none
  | "reset-variable-fees" =>
    match c with
    | .variable => some 0
    | _ => none
  | _ => none

/-- The value carried by the last event that carries one and is not another pool's. -/
def lastFee (pool : DLMMPool) (d : Direction) (c : FeeComponent) : List StacksEvent → Option Nat
  | [] => none
  | event :: rest =>
    (lastFee pool d c rest).or (if pool.isForeign event then none else carriedFee event d c)

/-- What a patch writes to a fee field. -/
def feeWrite (p : Patch) : Direction → FeeComponent → Option Nat
  | .xForY, .protocol => p .xProtocolFee
  | .xForY, .provider => p .xProviderFee
  | .xForY, .variable => p .xVariableFee
  | .yForX, .protocol => p .yProtocolFee
  | .yForX, .provider => p .yProviderFee
  | .yForX, .variable => p .yVariableFee

/-- What an event writes to a fee field is the carried value, cut to 32 bits. -/
theorem feeWrite_patch (pool : DLMMPool) (event : StacksEvent) (d : Direction)
    (c : FeeComponent) :
    feeWrite (dlmmPatch pool event) d c =
      (if pool.isForeign event then none else carriedFee event d c).map asU32 := by
  by_cases hbins : event.action = "update-bin-balances" ∨
      event.action = "update-bin-balances-on-withdraw"
  · -- a bin update writes no fee, and carries none
    have hact : event.action ∉ CORE_EMITTED_ACTIONS :=
      not_coreEmitted_of_poolEmitted (by simpa [POOL_EMITTED_ACTIONS] using hbins)
    have hcarried : carriedFee event d c = none := by
      rcases hbins with h | h
      · simp [carriedFee, h]
      · simp [carriedFee, h]
    rw [hcarried, ite_self]
    cases d <;> cases c <;> exact dlmmPatch_of_not_bin hact fun _ h => QuoteCell.noConfusion h
  unfold dlmmPatch
  by_cases hforeign : pool.isForeign event = true
  · rw [if_pos hforeign, if_pos hforeign]
    cases d <;> cases c <;> rfl
  rw [if_neg hforeign, if_neg hforeign, if_neg hbins]
  unfold corePatch carriedFee
  split
  -- the swaps, then the four fee actions
  case h_1 h =>
    simp only [h]
    cases d <;> cases c <;> rfl
  case h_2 h =>
    simp only [h]
    cases d <;> cases c <;> rfl
  case h_3 h =>
    simp only [h]
    cases d <;> cases c <;> rfl
  case h_4 h =>
    simp only [h]
    cases d <;> cases c <;> rfl
  case h_5 h =>
    simp only [h]
    cases d <;> cases c <;> rfl
  case h_6 h =>
    simp only [h]
    cases d <;> cases c <;> rfl
  -- an action without a patch carries no fee
  case h_7 =>
    split <;> first | contradiction | (cases d <;> cases c <;> rfl)

/-- One event: a fee field holds what the event carries for it, cut to 32 bits, or what it held
before. -/
theorem storedFee_applyEvent (now : Nat) (pool : DLMMPool) (event : StacksEvent) (d : Direction)
    (c : FeeComponent) :
    storedFee (pool.applyEvent now event) d c =
      ((if pool.isForeign event then none else carriedFee event d c).map asU32).getD
        (storedFee pool d c) := by
  have hview := (dlmm_overlays now pool event).1
  rw [← feeWrite_patch]
  -- the field's cell
  match d, c with
  | .xForY, .protocol => exact congrFun hview .xProtocolFee
  | .xForY, .provider => exact congrFun hview .xProviderFee
  | .xForY, .variable => exact congrFun hview .xVariableFee
  | .yForX, .protocol => exact congrFun hview .yProtocolFee
  | .yForX, .provider => exact congrFun hview .yProviderFee
  | .yForX, .variable => exact congrFun hview .yVariableFee

/-- Events do not change whose pool it is. -/
theorem poolContract_applyEvent (now : Nat) (pool : DLMMPool) (event : StacksEvent) :
    (pool.applyEvent now event).poolContract = pool.poolContract := by
  have hframe := (dlmm_overlays now pool event).2
  simp only [frame, Pool.dlmm.injEq, DLMMPool.mk.injEq] at hframe
  exact hframe.1

/-- **What a run stores in a fee field**: the last value carried for it, cut to 32 bits, or what
it held at the start. -/
theorem storedFee_applyEvents (clock : Nat → Nat) (pool : DLMMPool) (events : List StacksEvent)
    (d : Direction) (c : FeeComponent) :
    storedFee (pool.applyEvents clock events) d c =
      ((lastFee pool d c events).map asU32).getD (storedFee pool d c) := by
  induction events generalizing clock pool with
  | nil => rfl
  | cons event rest ih =>
    -- whose event it is depends on the pool's contract only, and no event changes that
    have hlast : ∀ events, lastFee (pool.applyEvent (clock 0) event) d c events =
        lastFee pool d c events := by
      intro events
      induction events with
      | nil => rfl
      | cons e es ihe =>
        rw [lastFee, lastFee, ihe, DLMMPool.isForeign, DLMMPool.isForeign,
          poolContract_applyEvent]
    rw [DLMMPool.applyEvents, ih, hlast, storedFee_applyEvent, lastFee]
    cases lastFee pool d c rest with
    | none => rfl
    | some v => rfl

/-! ## Where a walk first needs a price -/

/-- A walk passes the missing and empty bins and starts with the first rung. -/
theorem walk_eq_first (checks : Bool) (pool : DLMMPool) (d : Direction) {n : Nat} {binId : Int}
    {remaining : Nat} (total : Nat) (lastBin : Option Int) (hn : d.idsLeft binId = n)
    (hrem : remaining > 0) :
    (rungsFrom pool d n binId = [] ∧
      pool.walk checks d n binId remaining total lastBin = .ok (total, lastBin, true)) ∨
    ∃ r rs m, rungsFrom pool d n binId = r :: rs ∧ d.idsLeft r.1 = m + 1 ∧
      pool.bins[r.1]? = some r.2 ∧ ¬ (r.2.x = 0 ∧ r.2.y = 0) ∧
      pool.walk checks d n binId remaining total lastBin =
        pool.walk checks d (m + 1) r.1 remaining total lastBin := by
  induction n generalizing binId with
  | zero =>
    left
    refine ⟨rfl, ?_⟩
    rw [DLMMPool.walk, decide_eq_true hrem]
  | succ n ih =>
    obtain ⟨hrange, hnext⟩ := inRange_of_idsLeft hn
    have hstop : (Except.ok (total, lastBin, decide (remaining > 0)) :
        Except Fault DLMMPool.Quote) = .ok (total, lastBin, true) := by
      rw [decide_eq_true hrem]
    -- a bin without a rung is left behind, if it is not the last of the window
    have hskip : rungAt pool binId = none →
        pool.walk checks d (n + 1) binId remaining total lastBin =
          (if d.pastWindow (pool.edge d) (d.next binId) then
            .ok (total, lastBin, decide (remaining > 0))
          else pool.walk checks d n (d.next binId) remaining total lastBin) →
        (rungsFrom pool d (n + 1) binId = [] ∧
          pool.walk checks d (n + 1) binId remaining total lastBin = .ok (total, lastBin, true)) ∨
        ∃ r rs m, rungsFrom pool d (n + 1) binId = r :: rs ∧ d.idsLeft r.1 = m + 1 ∧
          pool.bins[r.1]? = some r.2 ∧ ¬ (r.2.x = 0 ∧ r.2.y = 0) ∧
          pool.walk checks d (n + 1) binId remaining total lastBin =
            pool.walk checks d (m + 1) r.1 remaining total lastBin := by
      intro hnone hwalk
      rw [hwalk, rungsFrom_succ, hnone]
      by_cases hpast : d.pastWindow (pool.edge d) (d.next binId) = true
      · left
        rw [if_pos hpast, rungsFrom_pastWindow hpast]
        exact ⟨rfl, hstop⟩
      · rw [if_neg hpast]
        exact ih hnext
    cases hbin : pool.bins[binId]? with
    | none =>
      refine hskip (by rw [rungAt, hbin]) ?_
      rw [DLMMPool.walk, if_pos ⟨hrem, hrange⟩, hbin]
    | some b =>
      by_cases hempty : b.x = 0 ∧ b.y = 0
      · refine hskip (by rw [rungAt, hbin]; exact if_pos hempty) ?_
        rw [DLMMPool.walk, if_pos ⟨hrem, hrange⟩, hbin]
        exact if_pos hempty
      · right
        refine ⟨(binId, b), rungsFrom pool d n (d.next binId), n, ?_, hn, hbin, hempty, rfl⟩
        have hrung : rungAt pool binId = some (binId, b) := by
          rw [rungAt, hbin]
          exact if_neg hempty
        rw [rungsFrom_succ, hrung]
        rfl

/-- In a build with overflow checks, a step at a positive price fails where the fees reach 100%:
the capacity is divided by what they leave. -/
theorem singleBinSwap_faults (amount balance inRate : Nat) {outRate : Nat} {fees : Fees}
    (hfee : FEE_SCALE_BPS ≤ fees.total) (hout : 0 < outRate) :
    ∃ f, singleBinSwap true amount balance inRate outRate fees = .error f := by
  unfold singleBinSwap
  cases hsum : fees.sum true with
  | error f => exact ⟨f, rfl⟩
  | ok total =>
    -- the sum that does not overflow is the total
    have htotal : total = fees.total := by
      unfold Fees.sum at hsum
      obtain ⟨s, hs, hsum⟩ := bind_eq_ok.mp hsum
      rw [u32Add_eq_ok hsum, u32Add_eq_ok hs, Fees.total]
    subst htotal
    rw [ok_bind, maxNoFee, u128DivCeil_ok hout, ok_bind, maxWithFee]
    have hscale : 0 < FEE_SCALE_BPS := by decide
    rw [if_pos (by omega)]
    rcases Nat.lt_or_ge FEE_SCALE_BPS fees.total with hover | hexact
    · -- above 100% the subtraction underflows
      rw [u32Sub, if_neg (by omega)]
      exact ⟨_, rfl⟩
    · -- at 100% the divisor is zero
      rw [u32Sub_ok hexact, ok_bind, u128Div, if_pos (by omega)]
      exact ⟨_, rfl⟩

/-- The fees total less than 100%, or the first non-empty bin on the walk has no price. -/
def FeeBelowOrNoStep (pool : DLMMPool) (d : Direction) : Prop :=
  (pool.fees d).total < FEE_SCALE_BPS ∨
  ∀ r, (rungs pool d).head? = some r → ∀ bp, pool.priceAt r.1 = .ok bp → bp = 0

/-- **When every input can be quoted.** The build with overflow checks is the one that tells: it
stops wherever an operation leaves its type. The first step at a positive price runs every
operation that can fail, so it is enough to look at it. -/
theorem quote_ok_iff (pool : DLMMPool) (d : Direction) :
    (∀ amount, ∃ q, pool.quote true d amount = .ok q) ↔ FeeBelowOrNoStep pool d := by
  constructor
  · intro hall
    by_contra hnot
    unfold FeeBelowOrNoStep at hnot
    push Not at hnot
    obtain ⟨hfee, r, hhead, bp, hprice, hbp⟩ := hnot
    -- the first unit of input already needs the step
    obtain ⟨q, hq⟩ := hall 1
    rcases walk_eq_first true pool d 0 none rfl Nat.one_pos with
      ⟨hnil, -⟩ | ⟨r', rs, m, hcons, hm, hbin, hfull, hwalk⟩
    · rw [rungs, hnil] at hhead
      cases hhead
    · rw [rungs, hcons] at hhead
      obtain rfl := Option.some.inj hhead
      obtain ⟨hrange, -⟩ := inRange_of_idsLeft hm
      have hpos : 0 < bp := Nat.pos_of_ne_zero hbp
      obtain ⟨f, hf⟩ := singleBinSwap_faults 1 (d.output r'.2) (inRate d bp) hfee
        (rates_pos (d := d) hpos).2
      have hstep : pool.swapStep true d 1 r'.2 bp = .error f := (swapStep_eq hpos).trans hf
      rw [DLMMPool.quote, hwalk, DLMMPool.walk, if_pos ⟨Nat.one_pos, hrange⟩, hbin] at hq
      simp only [if_neg hfull, hprice, hstep] at hq
      cases hq
  · rintro (hfee | hnone) amount
    · exact ⟨_, quote_eq_climb hfee amount⟩
    rcases Nat.eq_zero_or_pos amount with rfl | hamount
    · -- nothing to sell, no loop
      refine ⟨(0, none, false), ?_⟩
      unfold DLMMPool.quote
      cases d.idsLeft pool.activeBinId <;> rfl
    rcases walk_eq_first true pool d 0 none rfl hamount with
      ⟨-, hwalk⟩ | ⟨r, rs, m, hcons, hm, hbin, hfull, hwalk⟩
    · exact ⟨_, hwalk⟩
    · obtain ⟨hrange, -⟩ := inRange_of_idsLeft hm
      have hhead : (rungs pool d).head? = some r := by
        rw [rungs, hcons]
        rfl
      rw [DLMMPool.quote, hwalk, DLMMPool.walk, if_pos ⟨hamount, hrange⟩, hbin]
      simp only [if_neg hfull]
      cases hprice : pool.priceAt r.1 with
      | error f => exact ⟨_, rfl⟩
      | ok bp =>
        -- at a zero price the step takes nothing and the walk ends
        obtain rfl := hnone r hhead bp hprice
        simp only [swapStep_zero_price, ok_bind, if_true]
        exact ⟨_, rfl⟩

/-! ## Safety of a reachable pool -/

/--
**What a reachable pool promises**, after any events. A fee field holds the last value carried
for it, wherever that fits the field, or the first one if there was none. A direction can be
quoted at every input without an overflow, an underflow or a division by zero exactly when its
fees total less than 100% or the first bin on its walk has no positive price; nothing in the
handlers keeps the fees there. A build without overflow checks, which would not notice the
first two, then quotes the same.
-/
theorem reachable_pool_safe (pool : DLMMPool) (clock : Nat → Nat) (events : List StacksEvent)
    (d : Direction) :
    (∀ c v, lastFee pool d c events = some v → v ≤ u32Max →
      storedFee (pool.applyEvents clock events) d c = v) ∧
    (∀ c, lastFee pool d c events = none →
      storedFee (pool.applyEvents clock events) d c = storedFee pool d c) ∧
    ((∀ amount, ∃ q, (pool.applyEvents clock events).quote true d amount = .ok q) ↔
      FeeBelowOrNoStep (pool.applyEvents clock events) d) ∧
    ∀ amount q, (pool.applyEvents clock events).quote true d amount = .ok q →
      (pool.applyEvents clock events).quote false d amount = .ok q := by
  refine ⟨?_, ?_, quote_ok_iff _ d, fun amount _ => (checksOnlyPanic_quote _ d amount).unchecked⟩
  · intro c v hlast hfits
    rw [storedFee_applyEvents, hlast]
    exact asU32_of_le hfits
  · intro c hnone
    rw [storedFee_applyEvents, hnone]
    rfl

/-- The core sets a protocol fee on x. -/
def setXFees (protocolFee : BitVec 128) : StacksEvent where
  emitter := oneSidedPool.coreContract
  txId := "0x01"
  eventIndex := 0
  action := "set-x-fees"
  data := [("protocol-fee", .uint protocolFee), ("provider-fee", .uint 0)]

/-- A fee of 25 bps is stored, and x can still be sold, in either build. -/
theorem reachable_pool_safe_oneSided :
    storedFee (oneSidedPool.applyEvents (fun _ => 1) [setXFees 25]) .xForY .protocol = 25 ∧
    storedFee (oneSidedPool.applyEvents (fun _ => 1) [setXFees 25]) .xForY .variable =
      storedFee oneSidedPool .xForY .variable ∧
    ∀ amount, ∃ q,
      (oneSidedPool.applyEvents (fun _ => 1) [setXFees 25]).quote true .xForY amount = .ok q ∧
      (oneSidedPool.applyEvents (fun _ => 1) [setXFees 25]).quote false .xForY amount = .ok q := by
  obtain ⟨hstored, hkept, hquote, hbuilds⟩ :=
    reachable_pool_safe oneSidedPool (fun _ => 1) [setXFees 25] .xForY
  refine ⟨hstored .protocol 25 (by decide +kernel) (by decide),
    hkept .variable (by decide +kernel), fun amount => ?_⟩
  obtain ⟨q, hq⟩ := hquote.mpr (Or.inl (by decide +kernel)) amount
  exact ⟨q, hq, hbuilds amount q hq⟩

/-- The core sets the protocol fee on x to 100%: the first unit sold divides by zero, which is a
panic in any build. -/
theorem fee_event_breaks_quote :
    ¬ ∀ (checks : Bool) (pool : DLMMPool) (clock : Nat → Nat) (events : List StacksEvent),
      (pool.fees .xForY).total < FEE_SCALE_BPS → (pool.fees .yForX).total < FEE_SCALE_BPS →
      (∀ amount, ∃ q, (pool.applyEvents clock events).quoteXForY checks amount = .ok q) ∧
      (∀ amount, ∃ q, (pool.applyEvents clock events).quoteYForX checks amount = .ok q) ∧
      ∀ d c v, lastFee pool d c events = some v →
        storedFee (pool.applyEvents clock events) d c = v := by
  intro h
  obtain ⟨hx, -, -⟩ := h false oneSidedPool (fun _ => 1) [setXFees 10000] (by decide) (by decide)
  obtain ⟨q, hq⟩ := hx 1
  have hfault : (oneSidedPool.applyEvents (fun _ => 1) [setXFees 10000]).quoteXForY false 1 =
      .error (.panic "attempt to divide by zero") := by decide +kernel
  rw [hfault] at hq
  cases hq

end StacksDex.Results
