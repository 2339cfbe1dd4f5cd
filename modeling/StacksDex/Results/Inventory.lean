import StacksDex.Results.Quotes

/-!
# StacksDex — quotes stay within the inventory

A quote pays out no more than what is mirrored on its side of the active bin, uses no
more than the input it is given, and names a mirrored, non-empty bin as its last one;
saturated magnitudes included. One bin is drained to the last unit: the fee grossed up
and taken off again, and the price rounded up and down again, cancel exactly.

## Main results

* `quotes_within_inventory`: both walkers, in every build and at every magnitude;
* `single_bin_drains_exactly`: both single-bin steps, with the exact drain where nothing
  saturates and the inequalities everywhere.

The first comes from the walk being a climb (`Bridge/DlmmWalk.lean`), the second from the
rounding facts of `Lib/Rounding.lean`.
-/

namespace StacksDex.Results

open StacksDex.Lib StacksDex.Model StacksDex.Bridge

/-! ## The bins of a walk -/

/-- What a quote draws, bin by bin. -/
def drawn (pool : DLMMPool) (d : Direction) (amount : Nat) : List Ladder.Draw :=
  Ladder.draws (drawAt pool d) (rungs pool d) amount

/-- The input used over all bins visited. -/
def inputUsed (pool : DLMMPool) (d : Direction) (amount : Nat) : Nat :=
  ((drawn pool d amount).map Ladder.Draw.used).sum

/-- The ids from the end of the range to the active bin. -/
def OnSide (pool : DLMMPool) : Direction → Int → Prop
  | .xForY, binId => MIN_BIN_ID ≤ binId ∧ binId ≤ pool.activeBinId
  | .yForX, binId => pool.activeBinId ≤ binId ∧ binId ≤ MAX_BIN_ID

/-- What a quote `(total, lastBin, exhausted)` owes to the pool and to its input. -/
structure WithinInventory (pool : DLMMPool) (d : Direction) (amount : Nat)
    (q : DLMMPool.Quote) : Prop where
  /-- The total is what the bins pay, saturated. -/
  total : q.1 = min ((drawn pool d amount).map Ladder.Draw.paid).sum u128Max
  output_le : q.1 ≤ mirroredOutput pool d
  used_le : inputUsed pool d amount ≤ amount
  /-- Exhausted means that not all of the input was used. -/
  exhausted : q.2.2 = decide (inputUsed pool d amount < amount)
  lastBin : ∀ binId, q.2.1 = some binId →
    OnSide pool d binId ∧ ∃ b, pool.bins[binId]? = some b ∧ (0 < b.x ∨ 0 < b.y)

/-- The bins of a walk are mirrored bins on its side of the active one. -/
theorem onSide_of_mem_side {pool : DLMMPool} {d : Direction} {binId : Int}
    (h : binId ∈ side pool d) : OnSide pool d binId := by
  cases d
  · exact mem_idRange.mp h
  · exact mem_idRange.mp h

/-- One direction: the climb pays what its rungs hold at most, and its last rung is a mirrored
bin. -/
theorem quote_within_inventory (checks : Bool) {pool : DLMMPool} {d : Direction}
    (hfee : (pool.fees d).total < FEE_SCALE_BPS) (amount : Nat) :
    ∃ q, pool.quote checks d amount = .ok q ∧ WithinInventory pool d amount q := by
  -- what the climb pays and uses is bounded rung by rung
  have hpaid : (Ladder.climb (drawAt pool d) (rungs pool d) amount).paid ≤
      mirroredOutput pool d := by
    rw [mirroredOutput_eq_sum_rungs]
    exact Ladder.climb_paid_le_sum (drawAt pool d)
      (fun r _ left draw hdraw => (drawAt_le hfee hdraw).2) amount
  have hused : inputUsed pool d amount +
      (Ladder.climb (drawAt pool d) (rungs pool d) amount).left = amount :=
    Ladder.sum_used_add_left (drawAt pool d)
      (fun r _ left draw hdraw => (drawAt_le hfee hdraw).1) amount
  -- the quote is what the climb comes to
  refine ⟨_, quote_eq_climb hfee amount, ?_, ?_, by omega, ?_, ?_⟩
  · rw [outcome, Nat.zero_add, Ladder.climb_paid_eq_sum, drawn]
  · rw [outcome, Nat.zero_add]
    exact (Nat.min_le_left _ _).trans hpaid
  · rw [outcome]
    refine decide_eq_decide.mpr ?_
    omega
  -- the last rung of a climb is a rung of the pool
  · intro binId hlast
    rw [outcome, Option.or_none, Option.map_eq_some_iff] at hlast
    obtain ⟨r, hlast, rfl⟩ := hlast
    have hr := Ladder.mem_of_climb_last _ hlast
    refine ⟨onSide_of_mem_side (mem_side_of_mem_rungs hr), r.2, ?_⟩
    obtain ⟨k, -, hrung⟩ := List.mem_filterMap.mp hr
    exact rung_pos hrung

/--
**Quotes stay within the inventory**, in both directions, at every magnitude and in every
build. With fees below all of the input the quote returns; its total is what the bins pay,
summed and saturated, and at most what the mirror holds on the walk's side; the input it used
is at most the amount, the window is reported exhausted exactly when it used less, and the
last bin is one of that side (`WithinInventory`). No step of the walk leaves its integers.
-/
theorem quotes_within_inventory (checks : Bool) (pool : DLMMPool) :
    ((pool.fees .xForY).total < FEE_SCALE_BPS → ∀ amount,
      ∃ q, pool.quoteXForY checks amount = .ok q ∧ WithinInventory pool .xForY amount q) ∧
    ((pool.fees .yForX).total < FEE_SCALE_BPS → ∀ amount,
      ∃ q, pool.quoteYForX checks amount = .ok q ∧ WithinInventory pool .yForX amount q) :=
  ⟨fun hfee => quote_within_inventory checks hfee, fun hfee => quote_within_inventory checks hfee⟩

/-- A sale and a purchase that both leave the active bin behind. -/
theorem quotes_within_inventory_twoSided :
    (∃ q, twoSidedPool.quoteXForY false 5000 = .ok q ∧
      WithinInventory twoSidedPool .xForY 5000 q) ∧
    (∃ q, twoSidedPool.quoteYForX false 5000 = .ok q ∧
      WithinInventory twoSidedPool .yForX 5000 q) :=
  ⟨(quotes_within_inventory false twoSidedPool).1 (by decide) 5000,
    (quotes_within_inventory false twoSidedPool).2 (by decide) 5000⟩

/-! ## One bin -/

/-- What a step owes to its bin: within the input and the inventory at the bin's price, and,
as long as nothing saturates, with input left over only when it has paid all of the inventory
for exactly its price, rounded up. -/
structure DrainsExactly (amount balance inRate outRate totalFee : Nat) (s : SingleBinSwap) :
    Prop where
  drained : NoSaturation amount balance inRate outRate totalFee → s.used < amount →
    s.dxAfterFee = Rounding.ceilDiv (balance * inRate) outRate ∧ s.dy = balance
  used_le : s.used ≤ amount
  dy_le : s.dy ≤ balance
  value : s.dy * inRate ≤ s.dxAfterFee * outRate

/-- The common body at any two rates: nothing is lost between the gross-up and the fee, nor
between the price up and the price down. -/
theorem singleBinSwap_drains (checks : Bool) (amount balance : Nat) {inRate outRate : Nat}
    {fees : Fees}
    (hfee : fees.total < FEE_SCALE_BPS) (hin : 0 < inRate) (hout : 0 < outRate) :
    ∃ s, singleBinSwap checks amount balance inRate outRate fees = .ok s ∧
      DrainsExactly amount balance inRate outRate fees.total s := by
  refine ⟨_, singleBinSwap_eq hfee hin hout, ?_, Nat.min_le_left _ _, Nat.min_le_right _ _, ?_⟩
  · intro hfits
    dsimp only
    rw [saturatingCapacity_of_fits hfits]
    intro hlt
    -- input is left, so the step takes all of the capacity
    have hcap : capacity balance inRate outRate fees.total ≤ amount := by omega
    have hfee' := hfits.fee
    have hout' := hfits.output
    rw [Nat.min_eq_right hcap] at hfee' hout' ⊢
    -- the fee on it leaves the priced-up inventory, which pays for all of it
    have hnet : capacity balance inRate outRate fees.total -
        capacity balance inRate outRate fees.total * fees.total / FEE_SCALE_BPS =
        Rounding.ceilDiv (balance * inRate) outRate := Rounding.grossUp_sub_fee hfee
    rw [hnet] at hout'
    rw [saturatingMul_of_le hfee', hnet, saturatingMul_of_le hout']
    exact ⟨rfl, Nat.min_eq_right (Rounding.le_div_of_ceilDiv hin hout)⟩
  · dsimp only
    generalize min amount (saturatingCapacity balance inRate outRate fees.total) = used
    generalize used - saturatingMul used fees.total / FEE_SCALE_BPS = dx
    calc min (saturatingMul dx outRate / inRate) balance * inRate
        ≤ saturatingMul dx outRate / inRate * inRate :=
          Nat.mul_le_mul_right _ (Nat.min_le_left _ _)
      _ ≤ saturatingMul dx outRate := Nat.div_mul_le_self _ _
      _ ≤ dx * outRate := saturatingMul_le _ _

/--
**A bin is drained exactly**, in both directions and in every build. What a step uses and pays
is within the input and the inventory, at the bin's price at most. As long as no product
saturates, it leaves input over only when it has paid all of the inventory for its price
rounded up: the fee is grossed up onto that capacity and taken off again, and the two cancel
to the last unit.
-/
theorem single_bin_drains_exactly (checks : Bool) (amount balance binPrice : Nat) (fees : Fees)
    (hprice : 0 < binPrice) (hfee : fees.total < FEE_SCALE_BPS) :
    (∃ s, singleBinSwapXForY checks amount balance binPrice fees = .ok s ∧
      DrainsExactly amount balance PRICE_SCALE_BPS binPrice fees.total s) ∧
    (∃ s, singleBinSwapYForX checks amount balance binPrice fees = .ok s ∧
      DrainsExactly amount balance binPrice PRICE_SCALE_BPS fees.total s) := by
  have hscale : 0 < PRICE_SCALE_BPS := by decide
  have hne : binPrice ≠ 0 := Nat.pos_iff_ne_zero.mp hprice
  unfold singleBinSwapXForY singleBinSwapYForX
  rw [if_neg hne, if_neg hne]
  exact ⟨singleBinSwap_drains checks amount balance hfee hscale hprice,
    singleBinSwap_drains checks amount balance hfee hprice hscale⟩

/-- A bin at a price off the grid, drained with a fee of 30 bps and nothing saturating. -/
theorem single_bin_drains_exactly_offGrid :
    NoSaturation 1000000 777 PRICE_SCALE_BPS 123456789 30 ∧
    (∃ s, singleBinSwapXForY false 1000000 777 123456789 ⟨15, 10, 5⟩ = .ok s ∧
      DrainsExactly 1000000 777 PRICE_SCALE_BPS 123456789 30 s) ∧
    NoSaturation 1000000 777 123456789 PRICE_SCALE_BPS 30 ∧
    (∃ s, singleBinSwapYForX false 1000000 777 123456789 ⟨15, 10, 5⟩ = .ok s ∧
      DrainsExactly 1000000 777 123456789 PRICE_SCALE_BPS 30 s) := by
  obtain ⟨hx, hy⟩ :=
    single_bin_drains_exactly false 1000000 777 123456789 ⟨15, 10, 5⟩ (by decide) (by decide)
  exact ⟨⟨by decide, fun _ => by decide, by decide, by decide⟩, hx,
    ⟨by decide, fun _ => by decide, by decide, by decide⟩, hy⟩

end StacksDex.Results
