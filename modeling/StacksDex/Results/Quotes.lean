import StacksDex.Bridge.DlmmWalk
import Mathlib.Data.Finset.Lattice.Fold

/-!
# StacksDex — what DLMM quotes promise

* An exhausted quote is honest — it paid out everything mirrored on its side —
  exactly when no bin without output inventory stands before one that has some
  (or the input never reached past the bins in front of it). A bin that holds
  only the other token ends the walk.
* No round trip through one snapshot of a pool returns more than was put in.
* A larger input is never quoted a smaller output.

## Main results

`quote_exhaustion_honest_iff` with `quote_exhaustion_not_honest`, `quote_round_trip_le` and
`quote_mono`, in that order. All three go through the climb that a quote is
(`Bridge/DlmmWalk.lean`): the first by the exact draws of the rungs, the second by a price that
separates the two directions, the third by the rule that a climb with more to spend pays at
least as much on every rung.

Only the first assumes that no product saturates. The others hold at every magnitude and in
every build.
-/

namespace StacksDex.Results

open StacksDex.Lib StacksDex.Model StacksDex.Bridge

/-! ## Exhaustion -/

/-- What a direction needs to be quoted at all: an active bin in range, a fee below 100%, and
a positive price for every bin. -/
structure Quotable (pool : DLMMPool) (d : Direction) : Prop where
  active : MIN_BIN_ID ≤ pool.activeBinId ∧ pool.activeBinId ≤ MAX_BIN_ID
  fee : (pool.fees d).total < FEE_SCALE_BPS
  price : ∀ binId, MIN_BIN_ID ≤ binId → binId ≤ MAX_BIN_ID →
    ∃ bp, pool.priceAt binId = .ok bp ∧ 0 < bp

/-- No `u128` product saturates in any of the single-bin steps the walk makes. -/
def NoProductSaturates (pool : DLMMPool) (d : Direction) (amount : Nat) : Prop :=
  ∀ o ∈ Ladder.offers (drawAt pool d) (rungs pool d) amount, 0 < o.2 →
    ∀ bp, pool.priceAt o.1.1 = .ok bp →
      NoSaturation o.2 (d.output o.1.2) (inRate d bp) (outRate d bp) (pool.fees d).total

/-- The quote returns, and if it reports an exhausted window its total is exactly the output
inventory mirrored on the walk's side. -/
def ExhaustionHonest (checks : Bool) (pool : DLMMPool) (d : Direction) (amount : Nat) : Prop :=
  ∃ total lastBin exhausted, pool.quote checks d amount = .ok (total, lastBin, exhausted) ∧
    (exhausted = true → total = mirroredOutput pool d)

/-- The input that fills a bin. -/
def grossCapacity (pool : DLMMPool) (d : Direction) (r : Int × BinState) : Nat :=
  match pool.priceAt r.1 with
  | .ok bp => capacity (d.output r.2) (inRate d bp) (outRate d bp) (pool.fees d).total
  | .error _ => 0

/-- The output inventory of a bin. -/
def inventory (d : Direction) (r : Int × BinState) : Nat := d.output r.2

/-- The input fits the bins in front of the first non-empty bin without output inventory, or
no bin behind it holds any (and the mirrored total is a `u128`). -/
def FrontSuffices (pool : DLMMPool) (d : Direction) (amount : Nat) : Prop :=
  amount ≤ ((Ladder.front (inventory d) (rungs pool d)).map (grossCapacity pool d)).sum ∨
  ((∀ r ∈ Ladder.behind (inventory d) (rungs pool d), inventory d r = 0) ∧
    mirroredOutput pool d ≤ u128Max)

/-- Every rung of a quotable pool has a positive price. -/
theorem Quotable.price_of_rung {pool : DLMMPool} {d : Direction} (hq : Quotable pool d)
    {r : Int × BinState} (hr : r ∈ rungs pool d) : ∃ bp, pool.priceAt r.1 = .ok bp ∧ 0 < bp := by
  have hside := mem_side_of_mem_rungs hr
  obtain ⟨hlow, hhigh⟩ := hq.active
  cases d
  · obtain ⟨h₁, h₂⟩ := mem_idRange.mp hside
    exact hq.price r.1 h₁ (h₂.trans hhigh)
  · obtain ⟨h₁, h₂⟩ := mem_idRange.mp hside
    exact hq.price r.1 (hlow.trans h₁) h₂

/-- A bin can take input exactly when it has output to give. -/
theorem grossCapacity_eq_zero {pool : DLMMPool} {d : Direction} (hq : Quotable pool d)
    {r : Int × BinState} (hr : r ∈ rungs pool d) :
    inventory d r = 0 ↔ grossCapacity pool d r = 0 := by
  obtain ⟨bp, hprice, hbp⟩ := hq.price_of_rung hr
  obtain ⟨hin, hout⟩ := rates_pos (d := d) hbp
  rw [grossCapacity, hprice]
  show d.output r.2 = 0 ↔ capacity _ _ _ _ = 0
  rw [capacity, Rounding.grossUp_eq_zero hq.fee, Rounding.ceilDiv_eq_zero hout,
    Nat.mul_eq_zero]
  omega

/-- As long as nothing saturates, every offer of the walk is answered exactly. -/
theorem exactAt_of_offer {pool : DLMMPool} {d : Direction} {amount : Nat} (hq : Quotable pool d)
    (hsat : NoProductSaturates pool d amount) {o : (Int × BinState) × Nat}
    (ho : o ∈ Ladder.offers (drawAt pool d) (rungs pool d) amount) :
    Ladder.ExactAt (drawAt pool d) (grossCapacity pool d) (inventory d) o.1 o.2 := by
  obtain ⟨r, left⟩ := o
  obtain ⟨bp, hprice, hbp⟩ := hq.price_of_rung (Ladder.mem_of_mem_offers _ ho)
  obtain ⟨hin, hout⟩ := rates_pos (d := d) hbp
  have hcap : grossCapacity pool d r =
      capacity (d.output r.2) (inRate d bp) (outRate d bp) (pool.fees d).total := by
    rw [grossCapacity, hprice]
  -- the step of a positive offer, by its exact description
  have hstep : 0 < left → ∃ s : SingleBinSwap, drawAt pool d r left =
      (if s.used = 0 then none else some ⟨s.used, s.dy, decide (s.dy ≥ d.output r.2)⟩) ∧
      s.used = min left (grossCapacity pool d r) ∧
      (grossCapacity pool d r ≤ left → s.dy = d.output r.2) := by
    intro hleft
    obtain ⟨s, hs, hspec⟩ := singleBinSwap_spec true left (d.output r.2) hq.fee hin hout
    obtain ⟨hused, hfull⟩ := hspec.exact_of_fits (hsat _ ho hleft bp hprice)
    rw [hcap]
    exact ⟨s, drawAt_of_step hleft hprice ((swapStep_eq hbp).trans hs), hused, hfull⟩
  constructor
  · intro hzero
    -- no input, or a bin without capacity: nothing is drawn
    rcases Nat.eq_zero_or_pos left with rfl | hleft
    · rfl
    · obtain ⟨s, hdraw, hused, -⟩ := hstep hleft
      have hnone : s.used = 0 := by
        rcases hzero with h | h
        · omega
        · rw [hused, h, Nat.min_zero]
      rw [hdraw, if_pos hnone]
  · intro hleft (hpos : 0 < grossCapacity pool d r)
    obtain ⟨s, hdraw, hused, hfull⟩ := hstep hleft
    -- both are positive, so something is used
    have hsome : s.used ≠ 0 := by
      rw [hused]
      exact Nat.pos_iff_ne_zero.mp (lt_min hleft hpos)
    refine ⟨_, by rw [hdraw, if_neg hsome], hused, fun hle => ⟨hfull hle, ?_⟩⟩
    exact decide_eq_true (hfull hle).ge

/--
**When an exhausted quote is honest**, in any build and in both directions: when the input
fits the bins in front of the first one without output inventory, or nothing is held from that
bin on (and the mirrored total is a `u128`). The walk climbs the rungs and draws each of them
exactly, so what it paid is the inventory in front; at the bin without inventory it breaks,
with input left over, and reports the window as exhausted. The active bin is in range, the
fees are below all of the input, each bin has a positive price, and no product of the walk
saturates.
-/
theorem quote_exhaustion_honest_iff (checks : Bool) (pool : DLMMPool) (d : Direction)
    (hq : Quotable pool d) (amount : Nat) (hsat : NoProductSaturates pool d amount) :
    ExhaustionHonest checks pool d amount ↔ FrontSuffices pool d amount := by
  obtain ⟨hleft, hpaid⟩ := Ladder.climb_exact (drawAt pool d) (grossCapacity pool d)
    (inventory d) fun o ho => exactAt_of_offer hq hsat ho
  have hfront : Ladder.front (grossCapacity pool d) (rungs pool d) =
      Ladder.front (inventory d) (rungs pool d) :=
    (Ladder.front_congr _ fun r hr => grossCapacity_eq_zero hq hr).symm
  rw [hfront] at hleft hpaid
  -- the mirrored total splits at the first bin without output inventory
  have htotal : mirroredOutput pool d =
      ((Ladder.front (inventory d) (rungs pool d)).map (inventory d)).sum +
      ((Ladder.behind (inventory d) (rungs pool d)).map (inventory d)).sum := by
    rw [← List.sum_append, ← List.map_append, Ladder.front_append_behind]
    exact mirroredOutput_eq_sum_rungs pool d
  have hquote : pool.quote checks d amount = _ := quote_eq_climb hq.fee amount
  generalize Ladder.climb (drawAt pool d) (rungs pool d) amount = c at hleft hpaid hquote
  constructor
  · rintro ⟨total, lastBin, exhausted, hok, hhonest⟩
    rw [hquote] at hok
    obtain ⟨rfl, hrest⟩ := Prod.mk.inj (Except.ok.inj hok)
    obtain ⟨rfl, rfl⟩ := Prod.mk.inj hrest
    -- is there input left over?
    by_cases hover : 0 < c.left
    · right
      have hall := hhonest (decide_eq_true hover)
      rw [Nat.zero_add, hpaid hover, htotal] at hall
      have hbehind : ((Ladder.behind (inventory d) (rungs pool d)).map (inventory d)).sum = 0 := by
        omega
      refine ⟨?_, by omega⟩
      intro r hr
      exact List.sum_eq_zero_iff_forall_eq_nat.mp hbehind _ (List.mem_map_of_mem hr)
    · left
      by_contra hlt
      exact hover (hleft.mpr (not_le.mp hlt))
  · intro hwhen
    refine ⟨_, _, _, hquote, ?_⟩
    intro hexhausted
    have hover : 0 < c.left := of_decide_eq_true hexhausted
    rcases hwhen with hle | ⟨hzero, hfits⟩
    · exact absurd (hleft.mp hover) (by omega)
    · have hbehind : ((Ladder.behind (inventory d) (rungs pool d)).map (inventory d)).sum = 0 :=
        List.sum_eq_zero_iff_forall_eq_nat.mpr fun n hn => by
          obtain ⟨r, hr, rfl⟩ := List.mem_map.mp hn
          exact hzero r hr
      rw [Nat.zero_add, hpaid hover]
      omega

/-- An active bin that holds x only, over a bin that holds y; every bin costs one to one. -/
def oneSidedPool : DLMMPool where
  poolContract := .contract 22 (List.Vector.replicate 20 0) "pool"
  coreContract := .contract 22 (List.Vector.replicate 20 0) "core"
  xToken := .contract 22 (List.Vector.replicate 20 0) "x"
  yToken := .contract 22 (List.Vector.replicate 20 0) "y"
  xDecimals := 6
  yDecimals := 6
  binStep := 10
  initialPrice := PRICE_SCALE_BPS
  activeBinId := 0
  xProtocolFee := 15
  xProviderFee := 15
  yProtocolFee := 15
  yProviderFee := 15
  xVariableFee := 0
  yVariableFee := 0
  bins := .ofList ([(0, ⟨1000000, 0⟩), (-1, ⟨0, 1000000⟩)] : List (Int × BinState))
  lastTxId := none
  lastEventAt := none
  factors := List.replicate 1001 PRICE_SCALE_BPS

/-- The fees are below the scale, and every bin has a price. -/
theorem oneSidedPool_quotable : Quotable oneSidedPool .xForY := by
  refine ⟨by decide, by decide, fun binId hlow hhigh => ⟨PRICE_SCALE_BPS, ?_, by decide⟩⟩
  -- a bin of the range has an index in the table
  have hid : checkedAddI32 binId CENTER_BIN_ID = some (binId + 500) := if_pos (by
    unfold MIN_BIN_ID at hlow
    unfold MAX_BIN_ID at hhigh
    unfold CENTER_BIN_ID i32Max
    omega)
  unfold MIN_BIN_ID at hlow
  unfold MAX_BIN_ID at hhigh
  have hlt : (binId + 500).toNat < 1001 := by omega
  have hrange : ¬ (binId + 500 < 0 ∨ (binId + 500).toNat ≥ 1001) := by omega
  show binPrice PRICE_SCALE_BPS (List.replicate 1001 PRICE_SCALE_BPS) binId = _
  rw [binPrice, hid]
  dsimp only
  rw [List.length_replicate, if_neg hrange, List.getD_eq_getElem?_getD, List.getElem?_replicate,
    if_pos hlt]
  rfl

/-- The numbers are small. -/
theorem oneSidedPool_noProductSaturates : NoProductSaturates oneSidedPool .xForY 1000 := by
  have hoffers : Ladder.offers (drawAt oneSidedPool .xForY) (rungs oneSidedPool .xForY) 1000 =
      [((0, ⟨1000000, 0⟩), 1000)] := by decide +kernel
  intro o ho _ bp hprice
  rw [hoffers] at ho
  obtain rfl := List.mem_singleton.mp ho
  have hbp : oneSidedPool.priceAt 0 = .ok PRICE_SCALE_BPS := by decide +kernel
  obtain rfl := Except.ok.inj (hbp.symm.trans hprice)
  constructor <;> decide

/-- The condition at a pool that fails it. -/
theorem quote_exhaustion_honest_iff_oneSided :
    ExhaustionHonest false oneSidedPool .xForY 1000 ↔ FrontSuffices oneSidedPool .xForY 1000 :=
  quote_exhaustion_honest_iff false oneSidedPool .xForY oneSidedPool_quotable 1000
    oneSidedPool_noProductSaturates

/-- Selling x, the walk stops at the active bin with all of the input left and nothing paid,
while the next bin holds a million y. -/
theorem quote_exhaustion_not_honest :
    ¬ ∀ (checks : Bool) (pool : DLMMPool) (d : Direction) (amount : Nat), Quotable pool d →
      NoProductSaturates pool d amount → ExhaustionHonest checks pool d amount := by
  intro h
  obtain ⟨total, lastBin, exhausted, hok, hhonest⟩ :=
    h false oneSidedPool .xForY 1000 oneSidedPool_quotable oneSidedPool_noProductSaturates
  -- the walk ends at the active bin
  have hquote : oneSidedPool.quote false .xForY 1000 = .ok (0, none, true) := by decide +kernel
  rw [hquote] at hok
  obtain ⟨rfl, hrest⟩ := Prod.mk.inj (Except.ok.inj hok)
  obtain ⟨-, rfl⟩ := Prod.mk.inj hrest
  have hzero := hhonest rfl
  rw [mirroredOutput_eq_sum_rungs] at hzero
  revert hzero
  decide +kernel

/-! ## Round trips -/

/-- A price is the initial price times the factor of its bin. -/
theorem binPrice_eq_ok {initialPrice : Nat} {factors : List Nat} {i : Int} {p : Nat}
    (h : binPrice initialPrice factors i = .ok p) :
    ∃ hlt : (i + 500).toNat < factors.length, 0 ≤ i + 500 ∧
      p = initialPrice * factors[(i + 500).toNat] / PRICE_SCALE_BPS := by
  unfold binPrice at h
  split at h
  · cases h
  rename_i unsigned hunsigned
  -- the sum is checked, so it is the sum
  have hid : unsigned = i + 500 := by
    unfold checkedAddI32 at hunsigned
    split_ifs at hunsigned
    exact (Option.some.inj hunsigned).symm
  subst hid
  split_ifs at h with hrange
  have hlt : (i + 500).toNat < factors.length := by omega
  dsimp only at h
  split at h
  · cases h
  -- and so is the product
  rename_i product hproduct
  unfold checkedMulU128 at hproduct
  split_ifs at hproduct
  obtain rfl := Option.some.inj hproduct
  obtain rfl := Except.ok.inj h
  refine ⟨hlt, by omega, ?_⟩
  rw [List.getD_eq_getElem?_getD, List.getElem?_eq_getElem hlt, Option.getD_some]

/-- Bin prices follow the factor table. -/
theorem binPrice_mono {initialPrice : Nat} {factors : List Nat} {i j : Int} {p q : Nat}
    (hmono : factors.Pairwise (· ≤ ·)) (hij : i ≤ j)
    (hp : binPrice initialPrice factors i = .ok p)
    (hq : binPrice initialPrice factors j = .ok q) : p ≤ q := by
  obtain ⟨hi, hi0, rfl⟩ := binPrice_eq_ok hp
  obtain ⟨hj, -, rfl⟩ := binPrice_eq_ok hq
  have hfactor : factors[(i + 500).toNat] ≤ factors[(j + 500).toNat] := by
    -- the table is sorted, so a later factor is no smaller
    rcases Nat.lt_or_ge (i + 500).toNat (j + 500).toNat with hlt | hge
    · exact List.pairwise_iff_getElem.mp hmono _ _ hi hj hlt
    · obtain rfl : i = j := by omega
      exact le_rfl
  exact Nat.div_le_div_right (Nat.mul_le_mul_left _ hfactor)

/-- `P` is a price the direction does not beat: at least every price a sale of x meets, at
most every price a sale of y meets. -/
def Bounds (P : Nat) (pool : DLMMPool) (d : Direction) : Prop :=
  ∀ r ∈ rungs pool d, ∀ bp, pool.priceAt r.1 = .ok bp →
    match d with
    | .xForY => bp ≤ P
    | .yForX => P ≤ bp

/-- **What a quote pays is worth at most its input**, at any price the direction does not
beat; saturation only ever lowers the output. -/
theorem quote_value (checks : Bool) {pool : DLMMPool} {d : Direction} {P : Nat}
    (hfee : (pool.fees d).total < FEE_SCALE_BPS) (hP : Bounds P pool d) (amount : Nat) :
    ∃ q, pool.quote checks d amount = .ok q ∧ q.1 * inRate d P ≤ amount * outRate d P := by
  refine ⟨_, quote_eq_climb hfee amount, ?_⟩
  have hrung : ∀ r ∈ rungs pool d, ∀ left draw, drawAt pool d r left = some draw →
      draw.used ≤ left ∧ draw.paid * inRate d P ≤ draw.used * outRate d P := by
    intro r hr left draw hdraw
    obtain ⟨bp, s, hprice, hstep, rfl⟩ := drawAt_eq_some hdraw
    obtain ⟨s', hstep', hused, hvalue⟩ := swapStep_ok true hfee left r.2 bp
    obtain rfl := Except.ok.inj (hstep'.symm.trans hstep)
    refine ⟨hused, ?_⟩
    have hbound := hP r hr bp hprice
    -- the bin's own price, moved to `P`
    rcases d
    · exact hvalue.trans (Nat.mul_le_mul_left _ hbound)
    · exact (Nat.mul_le_mul_left _ hbound).trans hvalue
  have hpaid := Ladder.climb_paid_le (drawAt pool d) hrung amount
  exact (Nat.mul_le_mul_right _ (by rw [outcome]; omega)).trans hpaid

/-- Nothing buys nothing, and exhausts nothing. -/
theorem quote_zero (checks : Bool) {pool : DLMMPool} {d : Direction}
    (hfee : (pool.fees d).total < FEE_SCALE_BPS) :
    pool.quote checks d 0 = .ok (0, none, false) := by
  rw [quote_eq_climb hfee, climb_zero]
  rfl

/-- The highest price a sale of x meets separates the two directions. -/
theorem exists_bounds {pool : DLMMPool} (hmono : pool.factors.Pairwise (· ≤ ·)) :
    ∃ P, Bounds P pool .xForY ∧ Bounds P pool .yForX := by
  let prices := (rungs pool .xForY).filterMap fun r => (pool.priceAt r.1).toOption
  refine ⟨prices.toFinset.sup id, ?_, ?_⟩
  · intro r hr bp hprice
    have hmem : bp ∈ prices := List.mem_filterMap.mpr ⟨r, hr, by rw [hprice]; rfl⟩
    exact Finset.le_sup (f := id) (List.mem_toFinset.mpr hmem)
  · intro r hr bp hprice
    refine Finset.sup_le ?_
    intro p hp
    obtain ⟨r', hr', hp'⟩ := List.mem_filterMap.mp (List.mem_toFinset.mp hp)
    have hprice' : pool.priceAt r'.1 = .ok p := by
      cases hcase : pool.priceAt r'.1 with
      | error e =>
        rw [hcase] at hp'
        cases hp'
      | ok p' =>
        rw [hcase] at hp'
        obtain rfl := Option.some.inj hp'
        rfl
    -- a bin below the active one, and a bin above it
    have hbelow := (mem_idRange.mp (mem_side_of_mem_rungs hr')).2
    have habove := (mem_idRange.mp (mem_side_of_mem_rungs hr)).1
    exact binPrice_mono hmono (hbelow.trans habove) hprice' hprice

/--
**No round trip profits.** Selling what a quote paid back into the same pool returns at most
the input, whichever token is sold first and in any build. The prices follow the factor table,
so one price separates the bins a sale of x meets from those a sale of y meets, and at that
price each of the two sales pays at most what it took. The factor table is ascending, and both
directions' fees are below all of the input.
-/
theorem quote_round_trip_le (checks : Bool) (pool : DLMMPool)
    (hmono : pool.factors.Pairwise (· ≤ ·))
    (hxfee : (pool.fees .xForY).total < FEE_SCALE_BPS)
    (hyfee : (pool.fees .yForX).total < FEE_SCALE_BPS) (a : Nat) :
    (∃ q q', pool.quoteXForY checks a = .ok q ∧ pool.quoteYForX checks q.1 = .ok q' ∧
      q'.1 ≤ a) ∧
    (∃ q q', pool.quoteYForX checks a = .ok q ∧ pool.quoteXForY checks q.1 = .ok q' ∧
      q'.1 ≤ a) := by
  obtain ⟨P, hx, hy⟩ := exists_bounds hmono
  have hscale : 0 < PRICE_SCALE_BPS := by decide
  constructor
  · obtain ⟨q, hq, hvalue⟩ := quote_value checks hxfee hx a
    obtain ⟨q', hq', hvalue'⟩ := quote_value checks hyfee hy q.1
    refine ⟨q, q', hq, hq', ?_⟩
    -- both sales at the common price `P`
    have hround : q'.1 * P ≤ a * P := hvalue'.trans hvalue
    rcases Nat.eq_zero_or_pos P with rfl | hP
    · -- a worthless x side: the sale of x pays nothing, so the way back starts from zero
      have hnothing : q.1 * PRICE_SCALE_BPS ≤ a * 0 := hvalue
      obtain hq0 : q.1 = 0 := by
        rw [Nat.mul_zero] at hnothing
        exact (Nat.mul_eq_zero.mp (Nat.le_zero.mp hnothing)).resolve_right hscale.ne'
      have hback : pool.quote checks .yForX q.1 = .ok (0, none, false) := by
        rw [hq0]
        exact quote_zero checks hyfee
      obtain rfl := Except.ok.inj (hback.symm.trans hq')
      exact Nat.zero_le _
    · exact Nat.le_of_mul_le_mul_right hround hP
  · obtain ⟨q, hq, hvalue⟩ := quote_value checks hyfee hy a
    obtain ⟨q', hq', hvalue'⟩ := quote_value checks hxfee hx q.1
    refine ⟨q, q', hq, hq', ?_⟩
    -- the other way round `P` is the price of the middle amount, and drops out
    have hround : q'.1 * PRICE_SCALE_BPS ≤ a * PRICE_SCALE_BPS := hvalue'.trans hvalue
    exact Nat.le_of_mul_le_mul_right hround hscale

/-- A market with inventory on both sides of its price: x and y in the active bin, y alone below
it and x alone above. -/
def twoSidedPool : DLMMPool :=
  { oneSidedPool with
    bins := .ofList ([(0, ⟨1000, 1000⟩), (-1, ⟨0, 1000000⟩), (1, ⟨1000000, 0⟩)] :
      List (Int × BinState)) }

/-- A round trip of 5000 across two bins each way, starting from either token. -/
theorem quote_round_trip_le_twoSided :
    (∃ q q', twoSidedPool.quoteXForY false 5000 = .ok q ∧
      twoSidedPool.quoteYForX false q.1 = .ok q' ∧ q'.1 ≤ 5000) ∧
    (∃ q q', twoSidedPool.quoteYForX false 5000 = .ok q ∧
      twoSidedPool.quoteXForY false q.1 = .ok q' ∧ q'.1 ≤ 5000) :=
  quote_round_trip_le false twoSidedPool (List.pairwise_replicate_of_refl) (by decide) (by decide)
    5000

/-! ## Larger inputs -/

/--
**Quotes are monotone in the input**, in both directions and whatever the bins, the prices and
the factor table hold, saturation included. A larger input draws every bin at least as much,
and where it moves on to a further bin it has drained the ones before. All it takes is fees
below all of the input, without which a quote may not return.
-/
theorem quote_mono (checks : Bool) (pool : DLMMPool) :
    ((pool.fees .xForY).total < FEE_SCALE_BPS → ∀ a b, a ≤ b →
      ∃ q q', pool.quoteXForY checks a = .ok q ∧ pool.quoteXForY checks b = .ok q' ∧
        q.1 ≤ q'.1) ∧
    ((pool.fees .yForX).total < FEE_SCALE_BPS → ∀ a b, a ≤ b →
      ∃ q q', pool.quoteYForX checks a = .ok q ∧ pool.quoteYForX checks b = .ok q' ∧
        q.1 ≤ q'.1) := by
  have hboth : ∀ d : Direction, (pool.fees d).total < FEE_SCALE_BPS → ∀ a b, a ≤ b →
      ∃ q q', pool.quote checks d a = .ok q ∧ pool.quote checks d b = .ok q' ∧ q.1 ≤ q'.1 := by
    intro d hfee a b hab
    refine ⟨_, _, quote_eq_climb hfee a, quote_eq_climb hfee b, ?_⟩
    have hmono : ∀ r ∈ rungs pool d, Ladder.MonoAt (drawAt pool d) r :=
      fun r _ => monoAt_drawAt hfee r
    have hpaid := Ladder.climb_paid_mono (drawAt pool d) hmono hab
    -- the totals saturate alike
    exact min_le_min_right _ (Nat.add_le_add_left hpaid 0)
  exact ⟨hboth .xForY, hboth .yForX⟩

/-- Two inputs to the same market, the larger one past the active bin, both ways. -/
theorem quote_mono_twoSided :
    (∃ q q', twoSidedPool.quoteXForY false 500 = .ok q ∧
      twoSidedPool.quoteXForY false 5000 = .ok q' ∧ q.1 ≤ q'.1) ∧
    (∃ q q', twoSidedPool.quoteYForX false 500 = .ok q ∧
      twoSidedPool.quoteYForX false 5000 = .ok q' ∧ q.1 ≤ q'.1) :=
  ⟨(quote_mono false twoSidedPool).1 (by decide) 500 5000 (by decide),
    (quote_mono false twoSidedPool).2 (by decide) 500 5000 (by decide)⟩

end StacksDex.Results
