import StacksDex.Lib.ConstantProduct
import StacksDex.Lib.Run
import StacksDex.Model.DlmmPool
import StacksDex.Model.V2Math

/-!
# StacksDex — constant-product pools keep their value

Every quote of the V2 family is a fair trade in the sense of `Lib.ConstantProduct`:
fees only lower the net input, and a saturated numerator only lowers the quotient, while
the denominators never saturate as long as the input fits beside its reserve. So over
any run of trades, in either direction and at any fees, no reserve is emptied and the
product of the two never falls.

## Main results

* `Quoter.quote_fair`: one quote, by any of the functions and in any build;
* `quote_passes_invariant_check`: it satisfies the crate's own `invariant_non_decreasing`;
* `trade_step` and `trades_keep_product`: one trade, and a run of them.

The condition is on the inputs alone: each fits beside its reserve in a `u128`.
-/

namespace StacksDex.Results

open StacksDex.Lib StacksDex.Model

/-! ## One quote -/

/-- The shared formula is fair at any fee ratio. Its products saturate in the numerator, which
only lowers what is paid. -/
theorem quoteAmountOutWithFeeRatio_fair {dx reserveIn reserveOut : Nat} (feeNum feeDen : Nat)
    (hfits : reserveIn + dx ≤ u128Max) :
    ∃ dy, quoteAmountOutWithFeeRatio dx reserveIn reserveOut feeNum feeDen = .ok dy ∧
      ConstantProduct.Fair reserveIn reserveOut dx dy := by
  unfold quoteAmountOutWithFeeRatio
  by_cases hzero : dx = 0 ∨ reserveIn = 0 ∨ reserveOut = 0 ∨ feeDen = 0 ∨ feeNum > feeDen
  · rw [if_pos hzero]
    exact ⟨0, rfl, ConstantProduct.fair_zero ..⟩
  rw [if_neg hzero, u128Div_ok (by omega), ok_bind]
  -- the ratio is at most one
  have hnet : saturatingMul dx feeNum / feeDen ≤ dx := by
    refine Nat.div_le_of_le_mul ((saturatingMul_le _ _).trans ?_)
    rw [Nat.mul_comm]
    exact Nat.mul_le_mul_right _ (by omega)
  generalize saturatingMul dx feeNum / feeDen = net at hnet ⊢
  by_cases hnone : net = 0
  · rw [if_pos hnone]
    exact ⟨0, rfl, ConstantProduct.fair_zero ..⟩
  have hden : saturatingAdd reserveIn net = reserveIn + net := Nat.min_eq_left (by omega)
  rw [if_neg hnone, hden, u128Div_ok (by omega)]
  exact ⟨_, rfl, ConstantProduct.fair_of_floor hnet (saturatingMul_le _ _)⟩

/-- Where balance and input fit together, no operation of Bitflow's quote overflows, so the trade
is the same in every build. -/
theorem quoteAmountOut_fair (checks : Bool) {dx xBalance yBalance : Nat}
    (protocolFee providerFee : Nat) (hfits : xBalance + dx ≤ u128Max) :
    ∃ dy, BitflowXykPool.quoteAmountOut checks dx xBalance yBalance protocolFee providerFee =
        .ok dy ∧
      ConstantProduct.Fair xBalance yBalance dx dy := by
  unfold BitflowXykPool.quoteAmountOut
  by_cases hzero : dx = 0 ∨ xBalance = 0 ∨ yBalance = 0
  · rw [if_pos hzero]
    exact ⟨0, rfl, ConstantProduct.fair_zero ..⟩
  have hbps : 0 < BPS := by decide
  have hfees := bps_fees_fit dx protocolFee providerFee
  rw [if_neg hzero, u128Div_ok hbps, ok_bind, u128Div_ok hbps, ok_bind, u128Add_ok hfees, ok_bind]
  generalize saturatingMul dx protocolFee / BPS + saturatingMul dx providerFee / BPS = fees
  dsimp only
  by_cases hnone : dx - fees = 0
  · rw [if_pos hnone]
    exact ⟨0, rfl, ConstantProduct.fair_zero ..⟩
  rw [if_neg hnone, u128Add_ok (by omega), ok_bind, u128Div_ok (by omega)]
  exact ⟨_, rfl, ConstantProduct.fair_of_floor (Nat.sub_le _ _) (saturatingMul_le _ _)⟩

/-- ALEX's formula is fair at any fee rate. -/
theorem quoteWithFee_fair {dx x y : Nat} (feeRate : Nat) (hfits : x + dx ≤ u128Max) :
    ∃ dy, AlexPool.quoteWithFee x y CONSTANT_PRODUCT_FACTOR dx feeRate = .ok dy ∧
      ConstantProduct.Fair x y dx dy := by
  unfold AlexPool.quoteWithFee
  -- the fee is rounded up, and may have saturated: the net input is at most `dx` in any case
  generalize AlexPool.mulUp dx feeRate = fee
  dsimp only
  by_cases hall : fee ≥ dx
  · rw [if_pos hall]
    exact ⟨0, rfl, ConstantProduct.fair_zero ..⟩
  rw [if_neg hall, AlexPool.gmmmDy, if_neg (not_not_intro rfl)]
  by_cases hzero : dx - fee = 0 ∨ x = 0 ∨ y = 0
  · rw [if_pos hzero]
    exact ⟨0, rfl, ConstantProduct.fair_zero ..⟩
  have hden : saturatingAdd x (dx - fee) = x + (dx - fee) := Nat.min_eq_left (by omega)
  rw [if_neg hzero, hden, u128Div_ok (by omega)]
  refine ⟨_, rfl, ConstantProduct.fair_of_floor (Nat.sub_le _ _) ?_⟩
  rw [Nat.mul_comm y]
  exact saturatingMul_le _ _

/-- The source's own sanity check passes on every fair trade. -/
theorem invariantNonDecreasing_of_fair {reserveIn reserveOut dx dy : Nat}
    (h : ConstantProduct.Fair reserveIn reserveOut dx dy) (hin : 0 < reserveIn)
    (hout : 0 < reserveOut) (hfits : reserveIn + dx ≤ u128Max) :
    invariantNonDecreasing reserveIn reserveOut dx dy = true := by
  have hsum : saturatingAdd reserveIn dx = reserveIn + dx := Nat.min_eq_left hfits
  unfold invariantNonDecreasing
  rw [hsum]
  exact decide_eq_true (min_le_min_right _ (h.product_le hin hout))

/-! ## Runs of trades -/

/-- The quote functions of the family, each with the fees it is called with. -/
inductive Quoter where
  | feeRatio (feeNum feeDen : Nat)
  | bitflowXyk (protocolFee providerFee : Nat)
  | alex (feeRate : Nat)

def Quoter.quote (checks : Bool) : Quoter → Nat → Nat → Nat → Except Fault Nat
  | .feeRatio feeNum feeDen, dx, reserveIn, reserveOut =>
    quoteAmountOutWithFeeRatio dx reserveIn reserveOut feeNum feeDen
  | .bitflowXyk protocolFee providerFee, dx, reserveIn, reserveOut =>
    BitflowXykPool.quoteAmountOut checks dx reserveIn reserveOut protocolFee providerFee
  | .alex feeRate, dx, reserveIn, reserveOut =>
    AlexPool.quoteWithFee reserveIn reserveOut CONSTANT_PRODUCT_FACTOR dx feeRate

structure Reserves where
  x : Nat
  y : Nat
  deriving DecidableEq

/-- A trade: who quotes it, which way it goes, and what is paid. -/
structure Trade where
  quoter : Quoter
  direction : Direction
  dx : Nat

/-- The reserve a trade pays into. -/
def Trade.reserveIn (t : Trade) (r : Reserves) : Nat :=
  match t.direction with
  | .xForY => r.x
  | .yForX => r.y

/-- The reserve a trade takes from. -/
def Trade.reserveOut (t : Trade) (r : Reserves) : Nat :=
  match t.direction with
  | .xForY => r.y
  | .yForX => r.x

/-- Pay `dx`, take the quoted `dy`; a trade that takes more than there is does not settle. -/
def Trade.settle (checks : Bool) (t : Trade) (r : Reserves) : Except Fault Reserves := do
  let dy ← t.quoter.quote checks t.dx (t.reserveIn r) (t.reserveOut r)
  match t.direction with
  | .xForY => .ok ⟨r.x + t.dx, ← u128Sub true r.y dy⟩
  | .yForX => .ok ⟨← u128Sub true r.x dy, r.y + t.dx⟩

/-- A run goes on from reserves that a trade has settled. -/
def tradeStep (checks : Bool) (s : Except Fault Reserves) (t : Trade) : Except Fault Reserves := do
  t.settle checks (← s)

/-- The input fits beside its reserve. -/
def InputFits (s : Except Fault Reserves) (t : Trade) : Prop :=
  ∀ r, s = .ok r → t.reserveIn r + t.dx ≤ u128Max

/-- Both reserves are positive. -/
def Solvent (s : Except Fault Reserves) : Prop :=
  ∃ r, s = .ok r ∧ 0 < r.x ∧ 0 < r.y

/-- The trade settles and does not lower the product. -/
def KeepsProduct (checks : Bool) (s : Except Fault Reserves) (t : Trade) : Prop :=
  ∃ r r', s = .ok r ∧ tradeStep checks s t = .ok r' ∧ r.x * r.y ≤ r'.x * r'.y

/-- So every quote function is fair, wherever the input fits beside its reserve. -/
theorem Quoter.quote_fair (checks : Bool) (q : Quoter) {dx reserveIn : Nat} (reserveOut : Nat)
    (hfits : reserveIn + dx ≤ u128Max) :
    ∃ dy, q.quote checks dx reserveIn reserveOut = .ok dy ∧
      ConstantProduct.Fair reserveIn reserveOut dx dy := by
  cases q with
  | feeRatio feeNum feeDen => exact quoteAmountOutWithFeeRatio_fair feeNum feeDen hfits
  | bitflowXyk protocolFee providerFee =>
    exact quoteAmountOut_fair checks protocolFee providerFee hfits
  | alex feeRate => exact quoteWithFee_fair feeRate hfits

/-- **Every quote passes the crate's own check.** What any of the quote functions pays, at any
fees and in any build, satisfies `invariant_non_decreasing` on the reserves it was quoted from,
products that saturate on either side of the comparison included. -/
theorem quote_passes_invariant_check (checks : Bool) (q : Quoter) {dx reserveIn reserveOut : Nat}
    (hin : 0 < reserveIn) (hout : 0 < reserveOut) (hfits : reserveIn + dx ≤ u128Max) :
    ∃ dy, q.quote checks dx reserveIn reserveOut = .ok dy ∧
      invariantNonDecreasing reserveIn reserveOut dx dy = true := by
  obtain ⟨dy, hdy, hfair⟩ := q.quote_fair checks reserveOut hfits
  exact ⟨dy, hdy, invariantNonDecreasing_of_fair hfair hin hout hfits⟩

/-- One trade from positive reserves. -/
theorem trade_step (checks : Bool) {s : Except Fault Reserves} {t : Trade} (hsolvent : Solvent s)
    (hfits : InputFits s t) : Solvent (tradeStep checks s t) ∧ KeepsProduct checks s t := by
  obtain ⟨r, rfl, hx, hy⟩ := hsolvent
  obtain ⟨quoter, direction, dx⟩ := t
  cases direction with
  | xForY =>
    have hin : r.x + dx ≤ u128Max := hfits r rfl
    obtain ⟨dy, hdy, hfair⟩ := quoter.quote_fair checks r.y hin
    have hlt := hfair.out_lt hx hy
    have hstep : tradeStep checks (.ok r) ⟨quoter, .xForY, dx⟩ = .ok ⟨r.x + dx, r.y - dy⟩ := by
      show (do
        let dy ← quoter.quote checks dx r.x r.y
        .ok (Reserves.mk (r.x + dx) (← u128Sub true r.y dy))) = _
      rw [hdy, ok_bind, u128Sub_ok hlt.le, ok_bind]
    exact ⟨⟨_, hstep, Nat.add_pos_left hx _, Nat.sub_pos_of_lt hlt⟩,
      ⟨r, _, rfl, hstep, hfair.product_le hx hy⟩⟩
  | yForX =>
    have hin : r.y + dx ≤ u128Max := hfits r rfl
    obtain ⟨dy, hdy, hfair⟩ := quoter.quote_fair checks r.x hin
    have hlt := hfair.out_lt hy hx
    have hstep : tradeStep checks (.ok r) ⟨quoter, .yForX, dx⟩ = .ok ⟨r.x - dy, r.y + dx⟩ := by
      show (do
        let dy ← quoter.quote checks dx r.y r.x
        .ok (Reserves.mk (← u128Sub true r.x dy) (r.y + dx))) = _
      rw [hdy, ok_bind, u128Sub_ok hlt.le, ok_bind]
    refine ⟨⟨_, hstep, Nat.sub_pos_of_lt hlt, Nat.add_pos_left hy _⟩, ⟨r, _, rfl, hstep, ?_⟩⟩
    -- the product, with the two reserves changing places
    show r.x * r.y ≤ (r.x - dy) * (r.y + dx)
    rw [Nat.mul_comm r.x, Nat.mul_comm (r.x - dy)]
    exact hfair.product_le hy hx

/--
**Constant-product pools never lose value.** Over every run of trades, by any of the three
formulas, in either direction and in every build, both reserves stay positive and no trade
lowers their product. Every input fits `u128` beside its reserve. Each trade is a step lemma,
that a fair quote keeps the product; the run is the induction over them.
-/
theorem trades_keep_product (checks : Bool) (x y : Nat) (hx : 0 < x) (hy : 0 < y)
    (trades : List Trade)
    (hfits : Run.Along (tradeStep checks) InputFits (.ok ⟨x, y⟩) trades) :
    Run.Always (tradeStep checks) Solvent (.ok ⟨x, y⟩) trades ∧
    Run.Along (tradeStep checks) (KeepsProduct checks) (.ok ⟨x, y⟩) trades ∧
    ∃ r, Run.exec (tradeStep checks) (.ok ⟨x, y⟩) trades = .ok r ∧ x * y ≤ r.x * r.y := by
  have hstart : Solvent (.ok ⟨x, y⟩) := ⟨_, rfl, hx, hy⟩
  have hsolvent : Run.Always (tradeStep checks) Solvent (.ok ⟨x, y⟩) trades :=
    Run.always_of_along (fun _ _ hs hfits => (trade_step checks hs hfits).1) hstart hfits
  have hkeeps : Run.Along (tradeStep checks) (KeepsProduct checks) (.ok ⟨x, y⟩) trades :=
    Run.along_of_always (fun _ _ hs hfits => (trade_step checks hs hfits).2) hsolvent hfits
  refine ⟨hsolvent, hkeeps, ?_⟩
  -- from trade to trade, the product of the first state stays below
  have hgrows : Run.Always (tradeStep checks) (fun s => ∃ r, s = .ok r ∧ x * y ≤ r.x * r.y)
      (.ok ⟨x, y⟩) trades := by
    refine Run.always_of_along ?_ ⟨_, rfl, le_rfl⟩ hkeeps
    rintro s t ⟨r, rfl, hle⟩ ⟨r₀, r', hr₀, hstep, hkeep⟩
    obtain rfl := Except.ok.inj hr₀
    exact ⟨r', hstep, hle.trans hkeep⟩
  exact hgrows.last

/-- A sale of x by Arkadiko's ratio, and a sale of y by ALEX. -/
def twoTrades : List Trade :=
  [⟨.feeRatio 997 1000, .xForY, 50⟩, ⟨.alex 300000, .yForX, 70⟩]

/-- A trade in each direction. -/
theorem trades_keep_product_twoTrades :
    Run.Always (tradeStep false) Solvent (.ok ⟨1000, 2000⟩) twoTrades ∧
    Run.Along (tradeStep false) (KeepsProduct false) (.ok ⟨1000, 2000⟩) twoTrades ∧
    ∃ r, Run.exec (tradeStep false) (.ok ⟨1000, 2000⟩) twoTrades = .ok r ∧
      1000 * 2000 ≤ r.x * r.y := by
  refine trades_keep_product false 1000 2000 (by decide) (by decide) twoTrades ⟨?_, ?_, trivial⟩
  · rintro r h
    obtain rfl := Except.ok.inj h
    decide
  · rintro r h
    have hstep : tradeStep false (.ok ⟨1000, 2000⟩) ⟨.feeRatio 997 1000, .xForY, 50⟩ =
        .ok ⟨1050, 1907⟩ := by decide +kernel
    rw [hstep] at h
    obtain rfl := Except.ok.inj h
    decide

end StacksDex.Results
