import StacksDex.Lib.Ladder
import StacksDex.Lib.Rounding
import StacksDex.Model.DlmmPool
import Mathlib.Algebra.BigOperators.Group.Finset.Basic
import Mathlib.Data.List.Induction

/-!
# StacksDex — a quote is a climb

The multi-bin walkers of a DLMM pool against the greedy walk of `Lib.Ladder`. The
rungs are the non-empty mirrored bins in walk order (`DLMMPool.rungs`), a rung
draws what the single-bin step uses and pays (`DLMMPool.drawAt`), and a quote is
the climb along them (`quote_eq_climb`): skipping missing and empty bins, leaving
at the edge of the window and running off the range all end the same climb.

`singleBinSwap_spec` is what the rest needs about one step: it never uses more
than it is offered, never pays more than the input is worth at the bin's price,
and, as long as no product saturates, fills the bin exactly. `singleBinSwap_mono`
compares two offers to one bin.
-/

namespace StacksDex.Bridge

open StacksDex.Lib StacksDex.Model

/-! ## One bin -/

/-- The input that exactly fills a bin: its output inventory priced up, fee on top. -/
def capacity (balance inRate outRate totalFee : Nat) : Nat :=
  Rounding.grossUp (Rounding.ceilDiv (balance * inRate) outRate) FEE_SCALE_BPS totalFee

/-- None of the four `u128` products of the step saturates. -/
structure NoSaturation (amount balance inRate outRate totalFee : Nat) : Prop where
  /-- The inventory priced up. -/
  fill : balance * inRate ≤ u128Max
  /-- The gross-up, which a pool without fees does not do. -/
  gross : 0 < totalFee →
    Rounding.ceilDiv (balance * inRate) outRate * FEE_SCALE_BPS ≤ u128Max
  /-- The fee on the input taken. -/
  fee : min amount (capacity balance inRate outRate totalFee) * totalFee ≤ u128Max
  /-- The net input priced down. -/
  output : (min amount (capacity balance inRate outRate totalFee) -
    min amount (capacity balance inRate outRate totalFee) * totalFee / FEE_SCALE_BPS) *
      outRate ≤ u128Max

/-- What a single-bin step does. -/
structure StepSpec (amount balance inRate outRate totalFee : Nat) (s : SingleBinSwap) :
    Prop where
  used_le : s.used ≤ amount
  /-- The output is worth at most the input. -/
  value : s.dy * inRate ≤ s.used * outRate
  /-- Without saturation a bin takes its capacity, or all that is offered. -/
  exact_of_fits : NoSaturation amount balance inRate outRate totalFee →
    s.used = min amount (capacity balance inRate outRate totalFee) ∧
    (capacity balance inRate outRate totalFee ≤ amount → s.dy = balance)

/-- Fees below the scale add up in either build. -/
theorem Fees.sum_ok {checks : Bool} {fees : Fees} (hfee : fees.total < FEE_SCALE_BPS) :
    fees.sum checks = .ok fees.total := by
  unfold Fees.total FEE_SCALE_BPS at hfee
  -- a total below 100% leaves no room for an overflow
  have hsum : fees.protocolFee + fees.providerFee ≤ u32Max := by
    unfold u32Max
    omega
  have htotal : fees.protocolFee + fees.providerFee + fees.variableFee ≤ u32Max := by
    unfold u32Max
    omega
  rw [Fees.sum, u32Add_ok hsum, ok_bind, u32Add_ok htotal]
  rfl

/-- The gross input of a bin, in the step's own saturating arithmetic. -/
def saturatingCapacity (balance inRate outRate totalFee : Nat) : Nat :=
  let maxIn := (saturatingMul balance inRate + outRate - 1) / outRate
  if totalFee > 0 then saturatingMul maxIn FEE_SCALE_BPS / (FEE_SCALE_BPS - totalFee) else maxIn

/-- The step in closed form: below a total fee of 100% no operation in it overflows, so it is
the same in every build. -/
theorem singleBinSwap_eq {checks : Bool} {amount balance inRate outRate : Nat} {fees : Fees}
    (hfee : fees.total < FEE_SCALE_BPS) (hin : 0 < inRate) (hout : 0 < outRate) :
    let used := min amount (saturatingCapacity balance inRate outRate fees.total)
    let dx := used - saturatingMul used fees.total / FEE_SCALE_BPS
    singleBinSwap checks amount balance inRate outRate fees =
      .ok ⟨dx, min (saturatingMul dx outRate / inRate) balance, used⟩ := by
  intro used dx
  have hscale : 0 < FEE_SCALE_BPS := by decide
  -- the two branches of the fee are those of `saturatingCapacity`
  have hmax : maxWithFee checks ((saturatingMul balance inRate + outRate - 1) / outRate)
      fees.total =
      .ok (saturatingCapacity balance inRate outRate fees.total) := by
    unfold maxWithFee saturatingCapacity
    by_cases hpos : fees.total > 0
    · rw [if_pos hpos, u32Sub_ok hfee.le, ok_bind, u128Div_ok (by omega)]
      simp only [hpos, if_true]
    · rw [if_neg hpos]
      simp only [hpos, if_false]
  -- the fee is at most what it is taken from
  have hpaid : saturatingMul used fees.total / FEE_SCALE_BPS ≤ used :=
    le_trans (Nat.div_le_div_right (saturatingMul_le _ _)) (Rounding.fee_le hfee)
  rw [singleBinSwap, Fees.sum_ok hfee, ok_bind, maxNoFee, u128DivCeil_ok hout, ok_bind, hmax,
    ok_bind]
  show (do
    let feePaid ← u128Div (saturatingMul used fees.total) FEE_SCALE_BPS
    let dx ← u128Sub checks used feePaid
    let dyUncapped ← u128Div (saturatingMul dx outRate) inRate
    .ok (SingleBinSwap.mk dx (min dyUncapped balance) used)) = _
  rw [u128Div_ok hscale, ok_bind, u128Sub_ok hpaid, ok_bind, u128Div_ok hin, ok_bind]

/-- Where no product saturates, the capacity of a bin is the exact one. -/
theorem saturatingCapacity_of_fits {amount balance inRate outRate totalFee : Nat}
    (h : NoSaturation amount balance inRate outRate totalFee) :
    saturatingCapacity balance inRate outRate totalFee =
      capacity balance inRate outRate totalFee := by
  unfold saturatingCapacity capacity
  rw [saturatingMul_of_le h.fill]
  by_cases hpos : totalFee > 0
  · simp only [hpos, if_true]
    exact congrArg (· / _) (saturatingMul_of_le (h.gross hpos))
  · obtain rfl : totalFee = 0 := by omega
    rw [Rounding.grossUp_zero_fee (by decide)]
    rfl

/-- **The single-bin step, in both directions.** -/
theorem singleBinSwap_spec (checks : Bool) (amount balance : Nat) {inRate outRate : Nat}
    {fees : Fees}
    (hfee : fees.total < FEE_SCALE_BPS) (hin : 0 < inRate) (hout : 0 < outRate) :
    ∃ s, singleBinSwap checks amount balance inRate outRate fees = .ok s ∧
      StepSpec amount balance inRate outRate fees.total s := by
  refine ⟨_, singleBinSwap_eq hfee hin hout, Nat.min_le_left _ _, ?_, ?_⟩
  · -- the output is floored from the net input, and the net input is at most the used one
    dsimp only
    generalize min amount (saturatingCapacity balance inRate outRate fees.total) = used
    generalize saturatingMul used fees.total / FEE_SCALE_BPS = feePaid
    calc min (saturatingMul (used - feePaid) outRate / inRate) balance * inRate
        ≤ saturatingMul (used - feePaid) outRate / inRate * inRate :=
          Nat.mul_le_mul_right _ (Nat.min_le_left _ _)
      _ ≤ saturatingMul (used - feePaid) outRate := Nat.div_mul_le_self _ _
      _ ≤ (used - feePaid) * outRate := saturatingMul_le _ _
      _ ≤ used * outRate := Nat.mul_le_mul_right _ (Nat.sub_le _ _)
  · intro hfits
    dsimp only
    rw [saturatingCapacity_of_fits hfits]
    refine ⟨rfl, ?_⟩
    intro hle
    -- a filled bin: the fee leaves exactly the priced-up inventory, which pays for all of it
    have hfee' := hfits.fee
    have hout' := hfits.output
    -- all of the capacity is used
    rw [Nat.min_eq_right hle] at hfee' hout' ⊢
    rw [saturatingMul_of_le hfee', saturatingMul_of_le hout', capacity,
      Rounding.grossUp_sub_fee hfee]
    exact Nat.min_eq_right (Rounding.le_div_of_ceilDiv hin hout)

/-- Saturation keeps the order of products. -/
theorem saturatingMul_mono {a b : Nat} (hab : a ≤ b) (c : Nat) :
    saturatingMul a c ≤ saturatingMul b c :=
  min_le_min_right _ (Nat.mul_le_mul_right _ hab)

/-- Two offers to the same bin: the larger one is paid no less and leaves no less, and where
it takes nothing, nor does the smaller one. -/
theorem singleBinSwap_mono {checks : Bool} {a b balance inRate outRate : Nat} {fees : Fees}
    {s t : SingleBinSwap} (hfee : fees.total < FEE_SCALE_BPS) (hin : 0 < inRate)
    (hout : 0 < outRate) (hab : a ≤ b)
    (hs : singleBinSwap checks a balance inRate outRate fees = .ok s)
    (ht : singleBinSwap checks b balance inRate outRate fees = .ok t) :
    s.dy ≤ t.dy ∧ a - s.used ≤ b - t.used ∧ (t.used = 0 → s.used = 0) := by
  obtain rfl := Except.ok.inj ((singleBinSwap_eq hfee hin hout).symm.trans hs)
  obtain rfl := Except.ok.inj ((singleBinSwap_eq hfee hin hout).symm.trans ht)
  dsimp only
  generalize saturatingCapacity balance inRate outRate fees.total = cap
  refine ⟨?_, by omega, by omega⟩
  have hused : min a cap ≤ min b cap := min_le_min_right _ hab
  -- the net input grows with the input taken, and the output with the net input
  have hnet := Rounding.sub_fee_mono hfee hused u128Max
  exact min_le_min_right _ (Nat.div_le_div_right (saturatingMul_mono hnet _))

/-! ## Rates of a direction -/

/-- Units of input per `outRate` units of output, at bin price `bp`. -/
def inRate : Direction → Nat → Nat
  | .xForY, _ => PRICE_SCALE_BPS
  | .yForX, bp => bp

def outRate : Direction → Nat → Nat
  | .xForY, bp => bp
  | .yForX, _ => PRICE_SCALE_BPS

/-- A bin with a price has two positive rates. -/
theorem rates_pos {d : Direction} {bp : Nat} (hbp : 0 < bp) :
    0 < inRate d bp ∧ 0 < outRate d bp := by
  cases d
  · exact ⟨by show 0 < PRICE_SCALE_BPS; decide, hbp⟩
  · exact ⟨hbp, by show 0 < PRICE_SCALE_BPS; decide⟩

/-- A bin with the price zero takes no part. -/
theorem swapStep_zero_price (checks : Bool) (pool : DLMMPool) (d : Direction) (remaining : Nat)
    (b : BinState) : pool.swapStep checks d remaining b 0 = .ok ⟨0, 0, 0⟩ := by
  cases d <;> rfl

/-- The step of a direction is the common body at that direction's rates. -/
theorem swapStep_eq {checks : Bool} {pool : DLMMPool} {d : Direction} {remaining bp : Nat}
    {b : BinState} (hbp : 0 < bp) :
    pool.swapStep checks d remaining b bp =
      singleBinSwap checks remaining (d.output b) (inRate d bp) (outRate d bp) (pool.fees d) := by
  have hne : bp ≠ 0 := Nat.pos_iff_ne_zero.mp hbp
  cases d
  · exact if_neg hne
  · exact if_neg hne

/-- At any price the step returns, uses no more than it is offered, and pays at most its
input's worth. -/
theorem swapStep_ok (checks : Bool) {pool : DLMMPool} {d : Direction}
    (hfee : (pool.fees d).total < FEE_SCALE_BPS) (remaining : Nat) (b : BinState) (bp : Nat) :
    ∃ s, pool.swapStep checks d remaining b bp = .ok s ∧ s.used ≤ remaining ∧
      s.dy * inRate d bp ≤ s.used * outRate d bp := by
  rcases Nat.eq_zero_or_pos bp with rfl | hbp
  · exact ⟨_, swapStep_zero_price checks pool d remaining b, Nat.zero_le _, by simp⟩
  · obtain ⟨hin, hout⟩ := rates_pos (d := d) hbp
    obtain ⟨s, hs, hspec⟩ := singleBinSwap_spec checks remaining (d.output b) hfee hin hout
    exact ⟨s, (swapStep_eq hbp).trans hs, hspec.used_le, hspec.value⟩

/-- Below a full fee a step is the same in every build. -/
theorem swapStep_builds (checks : Bool) {pool : DLMMPool} {d : Direction}
    (hfee : (pool.fees d).total < FEE_SCALE_BPS) (remaining : Nat) (b : BinState) (bp : Nat) :
    pool.swapStep checks d remaining b bp = pool.swapStep true d remaining b bp := by
  rcases Nat.eq_zero_or_pos bp with rfl | hbp
  · rw [swapStep_zero_price, swapStep_zero_price]
  · obtain ⟨hin, hout⟩ := rates_pos (d := d) hbp
    rw [swapStep_eq hbp, swapStep_eq hbp, singleBinSwap_eq hfee hin hout,
      singleBinSwap_eq hfee hin hout]

/-- A step never pays more than the bin holds. -/
theorem swapStep_dy_le {checks : Bool} {pool : DLMMPool} {d : Direction}
    (hfee : (pool.fees d).total < FEE_SCALE_BPS) {remaining bp : Nat} {b : BinState}
    {s : SingleBinSwap} (h : pool.swapStep checks d remaining b bp = .ok s) :
    s.dy ≤ d.output b := by
  rcases Nat.eq_zero_or_pos bp with rfl | hbp
  · obtain rfl := Except.ok.inj ((swapStep_zero_price checks pool d remaining b).symm.trans h)
    exact Nat.zero_le _
  · obtain ⟨hin, hout⟩ := rates_pos (d := d) hbp
    rw [swapStep_eq hbp, singleBinSwap_eq hfee hin hout] at h
    obtain rfl := Except.ok.inj h
    exact Nat.min_le_right _ _

/-! ## The ladder of a pool -/

/-- The bin ids a walk passes, first to last. -/
def ids (d : Direction) : Nat → Int → List Int
  | 0, _ => []
  | n + 1, binId => binId :: ids d n (d.next binId)

/-- A mirrored bin that holds anything at all. -/
def rungAt (pool : DLMMPool) (binId : Int) : Option (Int × BinState) :=
  match pool.bins[binId]? with
  | none => none
  | some b => if b.x = 0 ∧ b.y = 0 then none else some (binId, b)

/-- The non-empty mirrored bins from `binId` on, in walk order. -/
def rungsFrom (pool : DLMMPool) (d : Direction) (n : Nat) (binId : Int) :
    List (Int × BinState) :=
  (ids d n binId).filterMap (rungAt pool)

/-- The non-empty mirrored bins a quote can meet, in walk order. -/
def rungs (pool : DLMMPool) (d : Direction) : List (Int × BinState) :=
  rungsFrom pool d (d.idsLeft pool.activeBinId) pool.activeBinId

/-- What a bin does with the input offered to it; `none` ends the walk. The step is that of a
build with overflow checks, and below a full fee that of every build (`swapStep_builds`). -/
def drawAt (pool : DLMMPool) (d : Direction) (r : Int × BinState) (left : Nat) :
    Option Ladder.Draw :=
  if left = 0 then none
  else
    match pool.priceAt r.1 with
    | .error _ => none
    | .ok bp =>
      match pool.swapStep true d left r.2 bp with
      | .error _ => none
      | .ok s => if s.used = 0 then none else some ⟨s.used, s.dy, decide (s.dy ≥ d.output r.2)⟩

/-! ## The edge of the window -/

/-- No stored bin lies below the lower edge of the window. -/
theorem edge_le {pool : DLMMPool} {k : Int} (hk : k ∈ pool.bins) :
    pool.edge .xForY ≤ k := by
  have hmem : k ∈ pool.bins.keys := Std.ExtTreeMap.mem_keys.mpr hk
  have hord := Std.ExtTreeMap.ordered_keys (t := pool.bins)
  show pool.bins.keys.head?.getD pool.activeBinId ≤ k
  generalize pool.bins.keys = keys at hmem hord
  -- the edge below is the first key, and keys ascend
  cases keys with
  | nil => cases hmem
  | cons first rest =>
    rcases List.mem_cons.mp hmem with rfl | hrest
    · exact le_rfl
    · have hlt := (List.pairwise_cons.mp hord).1 k hrest
      exact (Int.compare_eq_lt.mp hlt).le

/-- No stored bin lies above the upper edge. -/
theorem le_edge {pool : DLMMPool} {k : Int} (hk : k ∈ pool.bins) :
    k ≤ pool.edge .yForX := by
  have hmem : k ∈ pool.bins.keys := Std.ExtTreeMap.mem_keys.mpr hk
  have hord := Std.ExtTreeMap.ordered_keys (t := pool.bins)
  show k ≤ pool.bins.keys.getLast?.getD pool.activeBinId
  generalize pool.bins.keys = keys at hmem hord
  -- the edge above is the last key
  cases keys using List.reverseRecOn with
  | nil => cases hmem
  | append_singleton front last =>
    rw [List.getLast?_append, List.getLast?_singleton]
    rcases List.mem_append.mp hmem with hfront | hlast
    · have hlt := (List.pairwise_append.mp hord).2.2 k hfront last (List.mem_singleton.mpr rfl)
      exact (Int.compare_eq_lt.mp hlt).le
    · exact (List.mem_singleton.mp hlast).le

/-- No bin is stored past the edge. -/
theorem not_mem_of_pastWindow {pool : DLMMPool} {d : Direction} {k : Int}
    (h : d.pastWindow (pool.edge d) k = true) : k ∉ pool.bins := by
  intro hk
  cases d
  · have hlt : k < pool.edge .xForY := of_decide_eq_true h
    exact absurd (edge_le hk) (by omega)
  · have hgt : k > pool.edge .yForX := of_decide_eq_true h
    exact absurd (le_edge hk) (by omega)

/-- A walk that has left the window does not come back. -/
theorem pastWindow_next {d : Direction} {edge k : Int} (h : d.pastWindow edge k = true) :
    d.pastWindow edge (d.next k) = true := by
  cases d
  · have hk : k < edge := of_decide_eq_true h
    show decide (k - 1 < edge) = true
    exact decide_eq_true (by omega)
  · have hk : k > edge := of_decide_eq_true h
    show decide (k + 1 > edge) = true
    exact decide_eq_true (by omega)

/-- Past the edge there are no rungs. -/
theorem rungsFrom_pastWindow {pool : DLMMPool} {d : Direction} {n : Nat} {k : Int}
    (h : d.pastWindow (pool.edge d) k = true) : rungsFrom pool d n k = [] := by
  induction n generalizing k with
  | zero => rfl
  | succ n ih =>
    -- the first id has no bin, and the next one is past the edge, too
    have hmissing : pool.bins[k]? = none :=
      Std.ExtTreeMap.getElem?_eq_none (not_mem_of_pastWindow h)
    have hrung : rungAt pool k = none := by rw [rungAt, hmissing]
    rw [rungsFrom, ids, List.filterMap_cons_none hrung]
    exact ih (pastWindow_next h)

/-! ## The walk is the climb -/

/-- The quote a climb stands for, on top of what was paid before it. -/
def outcome (total : Nat) (lastBin : Option Int) (c : Ladder.Climb (Int × BinState)) :
    DLMMPool.Quote :=
  (min (total + c.paid) u128Max, (c.last.map (·.1)).or lastBin, decide (c.left > 0))

/-- The outcome of a climb that takes nothing is the loop's state. -/
theorem outcome_stop {total left : Nat} {lastBin : Option Int} (htotal : total ≤ u128Max) :
    outcome total lastBin ⟨0, none, left⟩ = (total, lastBin, decide (left > 0)) := by
  simp [outcome, Nat.min_eq_left htotal]

/-- Draining a rung adds its output to the total and makes it the last. -/
theorem outcome_drained (total dy : Nat) (lastBin : Option Int) (r : Int × BinState)
    (c : Ladder.Climb (Int × BinState)) :
    outcome total lastBin ⟨dy + c.paid, c.last.or (some r), c.left⟩ =
      outcome (saturatingAdd total dy) (some r.1) c := by
  -- saturating early or late makes no difference to the total
  have hpaid : min (total + (dy + c.paid)) u128Max =
      min (saturatingAdd total dy + c.paid) u128Max := by
    unfold saturatingAdd
    omega
  simp only [outcome, hpaid]
  cases c.last <;> rfl

/-- Nothing is drawn for no input, as the loop tests before it looks at the bin. -/
theorem drawAt_zero (pool : DLMMPool) (d : Direction) (r : Int × BinState) :
    drawAt pool d r 0 = none := rfl

/-- An empty offer is no walk at all. -/
theorem climb_zero (pool : DLMMPool) (d : Direction) (rs : List (Int × BinState)) :
    Ladder.climb (drawAt pool d) rs 0 = ⟨0, none, 0⟩ :=
  Ladder.climb_of_forall_none _ (drawAt_zero pool d) rs

/-- One more id to go: it is in range, and the next one has the rest. -/
theorem inRange_of_idsLeft {d : Direction} {binId : Int} {n : Nat}
    (h : d.idsLeft binId = n + 1) :
    d.inRange binId = true ∧ d.idsLeft (d.next binId) = n := by
  cases d
  · have hleft : (binId - MIN_BIN_ID + 1).toNat = n + 1 := h
    refine ⟨decide_eq_true (by omega), ?_⟩
    show (binId - 1 - MIN_BIN_ID + 1).toNat = n
    omega
  · have hleft : (MAX_BIN_ID - binId + 1).toNat = n + 1 := h
    refine ⟨decide_eq_true (by omega), ?_⟩
    show (MAX_BIN_ID - (binId + 1) + 1).toNat = n
    omega

/-- The rungs from an id on are that id's rung, if it has one, and those from the next id on. -/
theorem rungsFrom_succ (pool : DLMMPool) (d : Direction) (n : Nat) (binId : Int) :
    rungsFrom pool d (n + 1) binId =
      (rungAt pool binId).toList ++ rungsFrom pool d n (d.next binId) := by
  rw [rungsFrom, ids, List.filterMap_cons]
  -- an id is a rung or it is not
  cases rungAt pool binId <;> rfl

/-- A bin without a price draws nothing, so the climb ends there. -/
theorem drawAt_of_price_error {pool : DLMMPool} {d : Direction} {r : Int × BinState} {e : Fault}
    (hprice : pool.priceAt r.1 = .error e) (left : Nat) : drawAt pool d r left = none := by
  simp only [drawAt, hprice, ite_self]

/-- A bin with a price draws what its step uses and pays, and is drained when it has paid all it
holds. -/
theorem drawAt_of_step {pool : DLMMPool} {d : Direction} {r : Int × BinState} {left bp : Nat}
    {s : SingleBinSwap} (hleft : left > 0) (hprice : pool.priceAt r.1 = .ok bp)
    (hstep : pool.swapStep true d left r.2 bp = .ok s) :
    drawAt pool d r left =
      if s.used = 0 then none else some ⟨s.used, s.dy, decide (s.dy ≥ d.output r.2)⟩ := by
  simp only [drawAt, if_neg (Nat.pos_iff_ne_zero.mp hleft), hprice, hstep]

/-- What a bin draws is what the step at its price uses and pays. -/
theorem drawAt_eq_some {pool : DLMMPool} {d : Direction} {r : Int × BinState} {left : Nat}
    {draw : Ladder.Draw} (h : drawAt pool d r left = some draw) :
    ∃ bp s, pool.priceAt r.1 = .ok bp ∧ pool.swapStep true d left r.2 bp = .ok s ∧
      draw = ⟨s.used, s.dy, decide (s.dy ≥ d.output r.2)⟩ := by
  unfold drawAt at h
  split at h
  · cases h
  split at h
  · cases h
  rename_i bp hprice
  split at h
  · cases h
  rename_i s hstep
  split at h
  · cases h
  exact ⟨bp, s, hprice, hstep, (Option.some.inj h).symm⟩

/-- A draw is bounded on both sides: by what is offered, and by what the bin holds. -/
theorem drawAt_le {pool : DLMMPool} {d : Direction} (hfee : (pool.fees d).total < FEE_SCALE_BPS)
    {r : Int × BinState} {left : Nat} {draw : Ladder.Draw}
    (h : drawAt pool d r left = some draw) : draw.used ≤ left ∧ draw.paid ≤ d.output r.2 := by
  obtain ⟨bp, s, -, hstep, rfl⟩ := drawAt_eq_some h
  obtain ⟨s', hstep', hused, -⟩ := swapStep_ok true hfee left r.2 bp
  obtain rfl := Except.ok.inj (hstep'.symm.trans hstep)
  exact ⟨hused, swapStep_dy_le hfee hstep⟩

/-- A bin does at least as much for a larger offer. -/
theorem monoAt_drawAt {pool : DLMMPool} {d : Direction}
    (hfee : (pool.fees d).total < FEE_SCALE_BPS) (r : Int × BinState) :
    Ladder.MonoAt (drawAt pool d) r := by
  -- two steps of one bin at one price
  have hpair : ∀ {bp a b : Nat}, a ≤ b → ∃ s t, pool.swapStep true d a r.2 bp = .ok s ∧
      pool.swapStep true d b r.2 bp = .ok t ∧
      s.dy ≤ t.dy ∧ a - s.used ≤ b - t.used ∧ (t.used = 0 → s.used = 0) := by
    intro bp a b hab
    rcases Nat.eq_zero_or_pos bp with rfl | hbp
    · exact ⟨_, _, swapStep_zero_price true pool d a r.2, swapStep_zero_price true pool d b r.2,
        le_rfl, hab, id⟩
    · obtain ⟨hin, hout⟩ := rates_pos (d := d) hbp
      obtain ⟨s, hs, -⟩ := singleBinSwap_spec true a (d.output r.2) hfee hin hout
      obtain ⟨t, ht, -⟩ := singleBinSwap_spec true b (d.output r.2) hfee hin hout
      exact ⟨s, t, (swapStep_eq hbp).trans hs, (swapStep_eq hbp).trans ht,
        singleBinSwap_mono hfee hin hout hab hs ht⟩
  constructor
  · intro a b hab hb
    rcases Nat.eq_zero_or_pos a with rfl | ha
    · rfl
    cases hprice : pool.priceAt r.1 with
    | error e => exact drawAt_of_price_error hprice a
    | ok bp =>
      obtain ⟨s, t, hs, ht, -, -, hzero⟩ := hpair hab
      rw [drawAt_of_step (by omega) hprice ht] at hb
      rw [drawAt_of_step ha hprice hs]
      -- nothing is drawn by the larger offer only where it takes nothing
      by_cases ht0 : t.used = 0
      · rw [if_pos (hzero ht0)]
      · rw [if_neg ht0] at hb
        cases hb
  · intro a b da db hab hda hdb
    rcases Nat.eq_zero_or_pos a with rfl | ha
    · cases hda
    cases hprice : pool.priceAt r.1 with
    | error e =>
      rw [drawAt_of_price_error hprice] at hda
      cases hda
    | ok bp =>
      obtain ⟨s, t, hs, ht, hdy, hleft, -⟩ := hpair hab
      rw [drawAt_of_step ha hprice hs] at hda
      rw [drawAt_of_step (by omega) hprice ht] at hdb
      split_ifs at hda hdb
      obtain rfl := Option.some.inj hda
      obtain rfl := Option.some.inj hdb
      refine ⟨hdy, hleft, ?_⟩
      intro hdrained
      exact decide_eq_true (le_trans (of_decide_eq_true hdrained) hdy)

/-- **The while loop climbs.** From any loop state and in every build, the walk returns and its
result is that of the climb along the rungs that are left. -/
theorem walk_eq_climb {checks : Bool} {pool : DLMMPool} {d : Direction}
    (hfee : (pool.fees d).total < FEE_SCALE_BPS) {n : Nat} {binId : Int} {remaining total : Nat}
    {lastBin : Option Int} (hn : d.idsLeft binId = n) (htotal : total ≤ u128Max) :
    pool.walk checks d n binId remaining total lastBin =
      .ok (outcome total lastBin
        (Ladder.climb (drawAt pool d) (rungsFrom pool d n binId) remaining)) := by
  induction n generalizing binId remaining total lastBin with
  | zero => exact congrArg Except.ok (outcome_stop htotal).symm
  | succ n ih =>
    obtain ⟨hrange, hnext⟩ := inRange_of_idsLeft hn
    rw [DLMMPool.walk]
    by_cases hrem : remaining > 0
    · rw [if_pos ⟨hrem, hrange⟩, rungsFrom_succ]
      -- a bin without a rung: leave at the edge, where no rung is left, or go on
      have hskip : rungAt pool binId = none →
          (if d.pastWindow (pool.edge d) (d.next binId) then
            .ok (total, lastBin, decide (remaining > 0))
          else pool.walk checks d n (d.next binId) remaining total lastBin) =
          .ok (outcome total lastBin (Ladder.climb (drawAt pool d)
            ((rungAt pool binId).toList ++ rungsFrom pool d n (d.next binId)) remaining)) := by
        intro hnone
        rw [hnone]
        by_cases hpast : d.pastWindow (pool.edge d) (d.next binId) = true
        · rw [if_pos hpast, rungsFrom_pastWindow hpast]
          exact congrArg Except.ok (outcome_stop htotal).symm
        · rw [if_neg hpast]
          exact ih hnext htotal
      cases hbin : pool.bins[binId]? with
      | none => exact hskip (by rw [rungAt, hbin])
      | some b =>
        dsimp only
        by_cases hempty : b.x = 0 ∧ b.y = 0
        · rw [if_pos hempty]
          exact hskip (by rw [rungAt, hbin]; exact if_pos hempty)
        -- a rung: the loop body and the climb look at the same step
        have hrung : rungAt pool binId = some (binId, b) := by
          rw [rungAt, hbin]
          exact if_neg hempty
        rw [if_neg hempty, hrung, Option.toList_some, List.singleton_append]
        cases hprice : pool.priceAt binId with
        | error e =>
          -- no price, no draw: the loop breaks
          rw [Ladder.climb_cons_none _ (drawAt_of_price_error hprice remaining)]
          exact congrArg Except.ok (outcome_stop htotal).symm
        | ok bp =>
          obtain ⟨s, hstep, hused, -⟩ := swapStep_ok true hfee remaining b bp
          have hdraw := drawAt_of_step (r := (binId, b)) hrem hprice hstep
          dsimp only
          rw [swapStep_builds checks hfee, hstep, ok_bind]
          by_cases hzero : s.used = 0
          · -- the bin takes nothing: the walk ends here, whatever lies behind
            rw [if_pos hzero] at hdraw ⊢
            rw [Ladder.climb_cons_none _ hdraw]
            exact congrArg Except.ok (outcome_stop htotal).symm
          rw [if_neg hzero] at hdraw ⊢
          rw [u128Sub_ok hused, ok_bind]
          by_cases hdrained : s.dy ≥ d.output b
          · -- drained: the rest of the walk climbs with what is left
            rw [if_pos hdrained, Ladder.climb_cons_drained _ hdraw (decide_eq_true hdrained),
              ih hnext (saturatingAdd_le_max _ _)]
            exact congrArg Except.ok (outcome_drained total s.dy lastBin (binId, b) _).symm
          · -- not drained: the input is used up
            rw [if_neg hdrained, Ladder.climb_cons_short _ hdraw (decide_eq_false hdrained)]
            rfl
    · obtain rfl : remaining = 0 := by omega
      rw [if_neg fun h => hrem h.1, climb_zero]
      exact congrArg Except.ok (outcome_stop htotal).symm

/-- **Refinement.** In every build a quote is the climb along the pool's rungs, with the total
capped at the largest `u128`. -/
theorem quote_eq_climb {checks : Bool} {pool : DLMMPool} {d : Direction}
    (hfee : (pool.fees d).total < FEE_SCALE_BPS) (amount : Nat) :
    pool.quote checks d amount =
      .ok (outcome 0 none (Ladder.climb (drawAt pool d) (rungs pool d) amount)) :=
  walk_eq_climb hfee rfl (Nat.zero_le _)

/-! ## Which bins are rungs -/

/-- A walk of `n` steps passes the `n` ids from its start on. -/
theorem mem_ids {d : Direction} {n : Nat} {binId k : Int} :
    k ∈ ids d n binId ↔
      match d with
      | .xForY => binId - n < k ∧ k ≤ binId
      | .yForX => binId ≤ k ∧ k < binId + n := by
  induction n generalizing binId with
  | zero =>
    cases d
    · simp only [ids, List.not_mem_nil, false_iff]
      omega
    · simp only [ids, List.not_mem_nil, false_iff]
      omega
  | succ n ih =>
    cases d
    · simp only [ids, List.mem_cons, ih, Direction.next]
      omega
    · simp only [ids, List.mem_cons, ih, Direction.next]
      omega

/-- A walk passes every id once. -/
theorem nodup_ids (d : Direction) (n : Nat) (binId : Int) : (ids d n binId).Nodup := by
  induction n generalizing binId with
  | zero => exact List.nodup_nil
  | succ n ih =>
    -- the ids behind the first are all further on
    refine List.nodup_cons.mpr ⟨?_, ih _⟩
    intro hmem
    have hmem := mem_ids.mp hmem
    cases d
    · simp only [Direction.next] at hmem
      omega
    · simp only [Direction.next] at hmem
      omega

/-- The ids from `lo` to `hi`, both included. -/
def idRange (lo hi : Int) : Finset Int :=
  (Finset.range (hi + 1 - lo).toNat).image fun k : Nat => lo + k

/-- The ids between two bounds. -/
theorem mem_idRange {lo hi k : Int} : k ∈ idRange lo hi ↔ lo ≤ k ∧ k ≤ hi := by
  rw [idRange, Finset.mem_image]
  constructor
  · rintro ⟨n, hn, rfl⟩
    rw [Finset.mem_range] at hn
    omega
  · rintro ⟨hlo, hhi⟩
    exact ⟨(k - lo).toNat, Finset.mem_range.mpr (by omega), by omega⟩

/-- The bin ids on the walk's side of the active bin. -/
def side (pool : DLMMPool) : Direction → Finset Int
  | .xForY => idRange MIN_BIN_ID pool.activeBinId
  | .yForX => idRange pool.activeBinId MAX_BIN_ID

/-- The ids a walk passes are those of its side of the active bin. -/
theorem toFinset_ids (pool : DLMMPool) (d : Direction) :
    (ids d (d.idsLeft pool.activeBinId) pool.activeBinId).toFinset = side pool d := by
  ext k
  rw [List.mem_toFinset, mem_ids]
  cases d
  · simp only [side, Direction.idsLeft, mem_idRange]
    omega
  · simp only [side, Direction.idsLeft, mem_idRange]
    omega

/-- A rung is the mirrored bin under its id. -/
theorem rungAt_eq_some {pool : DLMMPool} {binId : Int} {r : Int × BinState}
    (h : rungAt pool binId = some r) : r.1 = binId ∧ pool.bins[binId]? = some r.2 := by
  unfold rungAt at h
  split at h
  · cases h
  · split_ifs at h
    obtain rfl := Option.some.inj h
    exact ⟨rfl, by assumption⟩

/-- A rung is a mirrored bin that holds something. -/
theorem rung_pos {pool : DLMMPool} {binId : Int} {r : Int × BinState}
    (h : rungAt pool binId = some r) : pool.bins[r.1]? = some r.2 ∧ (0 < r.2.x ∨ 0 < r.2.y) := by
  unfold rungAt at h
  split at h
  · cases h
  · rename_i b hbin
    split_ifs at h with hempty
    obtain rfl := Option.some.inj h
    refine ⟨hbin, ?_⟩
    show 0 < b.x ∨ 0 < b.y
    omega

/-- Every rung lies on the walk's side of the active bin. -/
theorem mem_side_of_mem_rungs {pool : DLMMPool} {d : Direction} {r : Int × BinState}
    (h : r ∈ rungs pool d) : r.1 ∈ side pool d := by
  obtain ⟨binId, hid, hr⟩ := List.mem_filterMap.mp h
  rw [← toFinset_ids, List.mem_toFinset, (rungAt_eq_some hr).1]
  exact hid

/-- The output inventory of a bin id; a missing bin holds none. -/
def outputAt (pool : DLMMPool) (d : Direction) (binId : Int) : Nat :=
  (pool.bins[binId]?.map d.output).getD 0

/-- The output inventory mirrored on the walk's side. -/
def mirroredOutput (pool : DLMMPool) (d : Direction) : Nat :=
  ∑ binId ∈ side pool d, outputAt pool d binId

/-- Missing and empty bins hold nothing, so the rungs hold it all. -/
theorem mirroredOutput_eq_sum_rungs (pool : DLMMPool) (d : Direction) :
    mirroredOutput pool d = ((rungs pool d).map fun r => d.output r.2).sum := by
  rw [mirroredOutput, ← toFinset_ids, List.sum_toFinset _ (nodup_ids ..), rungs, rungsFrom]
  induction ids d (d.idsLeft pool.activeBinId) pool.activeBinId with
  | nil => rfl
  | cons binId rest ih =>
    rw [List.map_cons, List.sum_cons, ih]
    cases hrung : rungAt pool binId with
    | some r =>
      obtain ⟨-, hbin⟩ := rungAt_eq_some hrung
      rw [List.filterMap_cons_some hrung, List.map_cons, List.sum_cons, outputAt, hbin]
      rfl
    | none =>
      -- not a rung: missing, or empty on both sides
      have hzero : outputAt pool d binId = 0 := by
        unfold rungAt at hrung
        unfold outputAt
        cases hbin : pool.bins[binId]? with
        | none => rfl
        | some b =>
          simp only [hbin, ite_eq_left_iff, reduceCtorEq, imp_false, not_not] at hrung
          cases d
          · exact hrung.2
          · exact hrung.1
      rw [List.filterMap_cons_none hrung, hzero, Nat.zero_add]

end StacksDex.Bridge
