import StacksDex.Results.ConstantProduct
import StacksDex.Lib.Rounding

/-!
# StacksDex — the quotes of the V2 family on all inputs

* No quote panics, and none pays more than the reserve it takes from, with one
  exception: Bitflow XYK adds the net input to its reserve with a plain `+`, which
  overflows where its siblings saturate.
* More input is never quoted less output, again with one exception: Bitflow XYK floors
  its two fees apart, and both may step at the same unit of input.

## Main results

* `v2_quotes_safe_iff` with `xykQuoteAmountOut_overflows`: `Safe` says that there is no panic
  and no value above the reserve. For Bitflow XYK the condition is exact in a build with
  overflow checks, and enough in any build.
* `v2_quotes_mono` with `xykQuoteAmountOut_not_mono`, in every build.

For the second, each quote is the exact quotient of its net input (`Quoter.quote_eq_out`), as
long as nothing saturates; then it is a matter of how the fees round, which is in
`Lib/Rounding.lean`.
-/

namespace StacksDex.Results

open StacksDex.Lib StacksDex.Model

/-! ## No panic, within the reserve -/

/-- The quote does not panic, and does not pay more than the reserve. -/
def Safe (quote : Except Fault Nat) (reserveOut : Nat) : Prop :=
  (∀ msg, quote ≠ .error (.panic msg)) ∧ ∀ dy, quote = .ok dy → dy ≤ reserveOut

/-- A value within the reserve is safe. -/
theorem safe_ok {dy reserveOut : Nat} (h : dy ≤ reserveOut) : Safe (.ok dy) reserveOut := by
  refine ⟨fun msg hpanic => ?_, fun dy' hdy => ?_⟩
  · cases hpanic
  · obtain rfl := Except.ok.inj hdy
    exact h

/-- So is an `Err`. -/
theorem safe_err (msg : String) (reserveOut : Nat) : Safe (.error (.err msg)) reserveOut := by
  refine ⟨fun msg' h => ?_, fun dy h => ?_⟩
  · cases h
  · cases h

/-- The shared formula is safe on every input: its sum saturates, and its divisors are guarded. -/
theorem quoteAmountOutWithFeeRatio_safe (dx reserveIn reserveOut feeNum feeDen : Nat) :
    Safe (quoteAmountOutWithFeeRatio dx reserveIn reserveOut feeNum feeDen) reserveOut := by
  unfold quoteAmountOutWithFeeRatio
  by_cases hzero : dx = 0 ∨ reserveIn = 0 ∨ reserveOut = 0 ∨ feeDen = 0 ∨ feeNum > feeDen
  · rw [if_pos hzero]
    exact safe_ok (Nat.zero_le _)
  rw [if_neg hzero, u128Div_ok (by omega), ok_bind]
  generalize saturatingMul dx feeNum / feeDen = net
  by_cases hnone : net = 0
  · rw [if_pos hnone]
    exact safe_ok (Nat.zero_le _)
  have hden : 0 < saturatingAdd reserveIn net := lt_min (by omega) (by decide)
  rw [if_neg hnone, u128Div_ok hden]
  exact safe_ok (ConstantProduct.capped_le (by omega))

/-- So is its variant in bps. -/
theorem quoteAmountOutWithFeeBps_safe (dx reserveIn reserveOut feeBps : Nat) :
    Safe (quoteAmountOutWithFeeBps dx reserveIn reserveOut feeBps) reserveOut := by
  unfold quoteAmountOutWithFeeBps
  by_cases hfee : feeBps ≥ 10000
  · rw [if_pos hfee]
    exact safe_ok (Nat.zero_le _)
  rw [if_neg hfee, u32Sub_ok (by omega), ok_bind]
  exact quoteAmountOutWithFeeRatio_safe ..

/-- So is ALEX's quote. -/
theorem quoteWithFee_safe (x y factor dx feeRate : Nat) :
    Safe (AlexPool.quoteWithFee x y factor dx feeRate) y := by
  unfold AlexPool.quoteWithFee
  generalize AlexPool.mulUp dx feeRate = fee
  dsimp only
  by_cases hall : fee ≥ dx
  · rw [if_pos hall]
    exact safe_ok (Nat.zero_le _)
  rw [if_neg hall, AlexPool.gmmmDy]
  by_cases hfactor : factor ≠ CONSTANT_PRODUCT_FACTOR
  · -- a pool of another kind is an `Err`, which is no panic
    rw [if_pos hfactor]
    exact safe_err _ _
  rw [if_neg hfactor]
  by_cases hzero : dx - fee = 0 ∨ x = 0 ∨ y = 0
  · rw [if_pos hzero]
    exact safe_ok (Nat.zero_le _)
  have hden : 0 < saturatingAdd x (dx - fee) := lt_min (by omega) (by decide)
  rw [if_neg hzero, u128Div_ok hden, saturatingMul, Nat.mul_comm]
  exact safe_ok (ConstantProduct.capped_le (by omega))

/-- The body of the Bitflow XYK quote, with the fees it takes off: their sum fits in every
build, so the one place where the builds differ is the sum with the reserve. -/
theorem xykQuoteAmountOut_eq (checks : Bool) {dx xBalance yBalance : Nat}
    (protocolFee providerFee : Nat) (hzero : ¬ (dx = 0 ∨ xBalance = 0 ∨ yBalance = 0)) :
    let dxNet := dx - (saturatingMul dx protocolFee / BPS + saturatingMul dx providerFee / BPS)
    BitflowXykPool.quoteAmountOut checks dx xBalance yBalance protocolFee providerFee =
      if dxNet = 0 then .ok 0
      else u128Add checks xBalance dxNet >>= fun den =>
        u128Div (saturatingMul yBalance dxNet) den := by
  intro dxNet
  have hbps : 0 < BPS := by decide
  unfold BitflowXykPool.quoteAmountOut
  rw [if_neg hzero, u128Div_ok hbps, ok_bind, u128Div_ok hbps, ok_bind,
    u128Add_ok (bps_fees_fit dx protocolFee providerFee), ok_bind]

/-- Where the net input fits beside the reserve, Bitflow XYK is safe in every build: it divides
the product by the sum, and that is at most the other reserve. -/
theorem xykQuoteAmountOut_safe (checks : Bool) {dx xBalance yBalance : Nat}
    (protocolFee providerFee : Nat)
    (hfits : yBalance = 0 ∨ xBalance + (dx - (saturatingMul dx protocolFee / BPS +
      saturatingMul dx providerFee / BPS)) ≤ u128Max) :
    Safe (BitflowXykPool.quoteAmountOut checks dx xBalance yBalance protocolFee providerFee)
      yBalance := by
  by_cases hzero : dx = 0 ∨ xBalance = 0 ∨ yBalance = 0
  · rw [BitflowXykPool.quoteAmountOut, if_pos hzero]
    exact safe_ok (Nat.zero_le _)
  rw [xykQuoteAmountOut_eq checks protocolFee providerFee hzero]
  generalize saturatingMul dx protocolFee / BPS + saturatingMul dx providerFee / BPS = fees
    at hfits ⊢
  by_cases hnone : dx - fees = 0
  · rw [if_pos hnone]
    exact safe_ok (Nat.zero_le _)
  have hsum : xBalance + (dx - fees) ≤ u128Max := by omega
  rw [if_neg hnone, u128Add_ok hsum, ok_bind, u128Div_ok (by omega)]
  have hle : saturatingMul yBalance (dx - fees) / (xBalance + (dx - fees)) ≤ yBalance :=
    (Nat.div_le_div_right (saturatingMul_le _ _)).trans
      (ConstantProduct.out_le xBalance yBalance (dx - fees))
  exact safe_ok hle

/-- Bitflow XYK is safe exactly when the net input fits beside its reserve, or there is
nothing to pay out. An overflow is taken for the panic it is in a build with overflow checks;
where there is none, every build is safe. -/
theorem xykQuoteAmountOut_safe_iff {dx xBalance yBalance : Nat} (protocolFee providerFee : Nat)
    (hdx : dx ≤ u128Max) (hx : xBalance ≤ u128Max) :
    Safe (BitflowXykPool.quoteAmountOut true dx xBalance yBalance protocolFee providerFee)
        yBalance ↔
      yBalance = 0 ∨ xBalance + (dx - (saturatingMul dx protocolFee / BPS +
        saturatingMul dx providerFee / BPS)) ≤ u128Max := by
  refine ⟨fun ⟨hpanic, _⟩ => ?_, xykQuoteAmountOut_safe true protocolFee providerFee⟩
  by_contra hover
  by_cases hzero : dx = 0 ∨ xBalance = 0 ∨ yBalance = 0
  · -- one of the summands is zero, and the other a machine word
    generalize saturatingMul dx protocolFee / BPS + saturatingMul dx providerFee / BPS = fees
      at hover
    omega
  rw [xykQuoteAmountOut_eq true protocolFee providerFee hzero] at hpanic
  generalize saturatingMul dx protocolFee / BPS + saturatingMul dx providerFee / BPS = fees
    at hover hpanic
  have hnone : ¬ dx - fees = 0 := by omega
  have hfits : ¬ xBalance + (dx - fees) ≤ u128Max := by omega
  -- the plain `+` overflows
  rw [if_neg hnone, u128Add, if_neg hfits] at hpanic
  exact hpanic _ rfl

/--
**Where the quotes are safe**, which is to return, and at most the reserve. Three of the four
always are. The fourth is, in a build with overflow checks, exactly where its one unchecked
sum fits `u128` or the other reserve is empty; and there it is safe in a build without them
too. The amount and the reserve of the token sold are `u128`.
-/
theorem v2_quotes_safe_iff (dx reserveIn reserveOut : Nat) (hdx : dx ≤ u128Max)
    (hin : reserveIn ≤ u128Max) :
    (∀ feeNum feeDen,
      Safe (quoteAmountOutWithFeeRatio dx reserveIn reserveOut feeNum feeDen) reserveOut) ∧
    (∀ feeBps, Safe (quoteAmountOutWithFeeBps dx reserveIn reserveOut feeBps) reserveOut) ∧
    (∀ factor feeRate,
      Safe (AlexPool.quoteWithFee reserveIn reserveOut factor dx feeRate) reserveOut) ∧
    (∀ protocolFee providerFee,
      (Safe (BitflowXykPool.quoteAmountOut true dx reserveIn reserveOut protocolFee providerFee)
          reserveOut ↔
        reserveOut = 0 ∨ reserveIn + (dx - (saturatingMul dx protocolFee / BPS +
          saturatingMul dx providerFee / BPS)) ≤ u128Max)) ∧
    ∀ protocolFee providerFee,
      (reserveOut = 0 ∨ reserveIn + (dx - (saturatingMul dx protocolFee / BPS +
          saturatingMul dx providerFee / BPS)) ≤ u128Max) →
        Safe (BitflowXykPool.quoteAmountOut false dx reserveIn reserveOut protocolFee providerFee)
          reserveOut :=
  ⟨fun _ _ => quoteAmountOutWithFeeRatio_safe .., fun _ => quoteAmountOutWithFeeBps_safe ..,
    fun _ _ => quoteWithFee_safe .., fun protocolFee providerFee =>
    xykQuoteAmountOut_safe_iff protocolFee providerFee hdx hin, fun protocolFee providerFee =>
    xykQuoteAmountOut_safe false protocolFee providerFee⟩

/-- A trade of 50 against reserves of 1000 and 2000, where every sum fits. -/
theorem v2_quotes_safe_iff_small :
    (∀ feeNum feeDen, Safe (quoteAmountOutWithFeeRatio 50 1000 2000 feeNum feeDen) 2000) ∧
    (∀ feeBps, Safe (quoteAmountOutWithFeeBps 50 1000 2000 feeBps) 2000) ∧
    (∀ factor feeRate, Safe (AlexPool.quoteWithFee 1000 2000 factor 50 feeRate) 2000) ∧
    (∀ protocolFee providerFee,
      (Safe (BitflowXykPool.quoteAmountOut true 50 1000 2000 protocolFee providerFee) 2000 ↔
        2000 = 0 ∨ 1000 + (50 - (saturatingMul 50 protocolFee / BPS +
          saturatingMul 50 providerFee / BPS)) ≤ u128Max)) ∧
    ∀ protocolFee providerFee,
      (2000 = 0 ∨ 1000 + (50 - (saturatingMul 50 protocolFee / BPS +
          saturatingMul 50 providerFee / BPS)) ≤ u128Max) →
        Safe (BitflowXykPool.quoteAmountOut false 50 1000 2000 protocolFee providerFee) 2000 :=
  v2_quotes_safe_iff 50 1000 2000 (by decide) (by decide)

/-- The largest input, beside a reserve of one: the sum overflows, which is a panic in a build
with overflow checks. -/
theorem xykQuoteAmountOut_overflows :
    ¬ ∀ dx xBalance yBalance protocolFee providerFee, dx ≤ u128Max → xBalance ≤ u128Max →
      yBalance ≤ u128Max → protocolFee ≤ u32Max → providerFee ≤ u32Max →
      Safe (BitflowXykPool.quoteAmountOut true dx xBalance yBalance protocolFee providerFee)
        yBalance := by
  intro h
  have hsafe := (h u128Max 1 1 0 0 (by decide) (by decide) (by decide) (by decide) (by decide)).1
  exact hsafe "attempt to add with overflow" (by decide +kernel)

/-! ## More input -/

/-- The input less what the quoter takes off it. -/
def Quoter.net : Quoter → Nat → Nat
  | .feeRatio feeNum feeDen, dx => dx * feeNum / feeDen
  | .bitflowXyk protocolFee providerFee, dx => Rounding.lessTwoFees dx BPS protocolFee providerFee
  | .alex feeRate, dx => dx - Rounding.ceilDiv (dx * feeRate) ONE_E8

/-- The fees are at most all of the input. -/
def Quoter.FeesWithin : Quoter → Prop
  | .feeRatio feeNum feeDen => feeNum ≤ feeDen
  | .bitflowXyk protocolFee providerFee => protocolFee + providerFee ≤ BPS
  | .alex feeRate => feeRate ≤ ONE_E8

/-- No product of a fee with the input reaches `2 ^ 128`. -/
def Quoter.FeeFits : Quoter → Nat → Prop
  | .feeRatio feeNum _, dx => dx * feeNum ≤ u128Max
  | .bitflowXyk protocolFee providerFee, dx =>
    dx * protocolFee ≤ u128Max ∧ dx * providerFee ≤ u128Max
  | .alex feeRate, dx => dx * feeRate ≤ u128Max

/-- No product or sum of the quote reaches `2 ^ 128`. -/
structure Quoter.Fits (q : Quoter) (dx reserveIn reserveOut : Nat) : Prop where
  fee : q.FeeFits dx
  numerator : reserveOut * q.net dx ≤ u128Max
  denominator : reserveIn + q.net dx ≤ u128Max

/-- The quotient of a quote, as the code computes it. -/
theorem quotient_eq_out {reserveIn reserveOut net num den : Nat} (hin : 0 < reserveIn)
    (hnum : num = reserveOut * net) (hden : den = reserveIn + net) :
    u128Div num den = .ok (ConstantProduct.out reserveIn reserveOut net) := by
  subst hnum hden
  exact u128Div_ok (by omega)

section NetInput

variable {dx reserveIn reserveOut : Nat}

/-- The shared formula buys with the net input. -/
theorem quoteAmountOutWithFeeRatio_eq_out {feeNum feeDen : Nat} (hle : feeNum ≤ feeDen)
    (hin : 0 < reserveIn) (hout : 0 < reserveOut)
    (hfits : (Quoter.feeRatio feeNum feeDen).Fits dx reserveIn reserveOut) :
    quoteAmountOutWithFeeRatio dx reserveIn reserveOut feeNum feeDen =
      .ok (ConstantProduct.out reserveIn reserveOut (dx * feeNum / feeDen)) := by
  obtain ⟨hfee, hnum, hden⟩ := hfits
  have hfee : dx * feeNum ≤ u128Max := hfee
  -- the product and the sum are those of the integers
  have hmul : saturatingMul reserveOut (dx * feeNum / feeDen) =
      reserveOut * (dx * feeNum / feeDen) := saturatingMul_of_le hnum
  have hsum : saturatingAdd reserveIn (dx * feeNum / feeDen) =
      reserveIn + dx * feeNum / feeDen := Nat.min_eq_left hden
  unfold quoteAmountOutWithFeeRatio
  -- where the quote is zero at once, the net input is zero too
  by_cases hzero : dx = 0 ∨ reserveIn = 0 ∨ reserveOut = 0 ∨ feeDen = 0 ∨ feeNum > feeDen
  · have hnet : dx * feeNum / feeDen = 0 := by
      rcases hzero with rfl | h | h | rfl | h
      · rw [Nat.zero_mul, Nat.zero_div]
      · omega
      · omega
      · exact Nat.div_zero _
      · omega
    rw [if_pos hzero, hnet, ConstantProduct.out_zero]
  rw [if_neg hzero, saturatingMul_of_le hfee, u128Div_ok (by omega), ok_bind]
  by_cases hnet : dx * feeNum / feeDen = 0
  · rw [if_pos hnet, hnet, ConstantProduct.out_zero]
  · rw [if_neg hnet]
    exact quotient_eq_out hin hmul hsum

/-- Bitflow XYK buys with what its two fees leave. -/
theorem xykQuoteAmountOut_eq_out (checks : Bool) {protocolFee providerFee : Nat}
    (hin : 0 < reserveIn)
    (hout : 0 < reserveOut)
    (hfits : (Quoter.bitflowXyk protocolFee providerFee).Fits dx reserveIn reserveOut) :
    BitflowXykPool.quoteAmountOut checks dx reserveIn reserveOut protocolFee providerFee =
      .ok (ConstantProduct.out reserveIn reserveOut
        (Rounding.lessTwoFees dx BPS protocolFee providerFee)) := by
  obtain ⟨⟨hprotocol, hprovider⟩, hnum, hden⟩ := hfits
  by_cases hzero : dx = 0 ∨ reserveIn = 0 ∨ reserveOut = 0
  · obtain rfl : dx = 0 := by omega
    have hnet : Rounding.lessTwoFees 0 BPS protocolFee providerFee = 0 := Nat.zero_sub _
    rw [BitflowXykPool.quoteAmountOut, if_pos hzero, hnet, ConstantProduct.out_zero]
  rw [xykQuoteAmountOut_eq checks protocolFee providerFee hzero, saturatingMul_of_le hprotocol,
    saturatingMul_of_le hprovider]
  show (if Rounding.lessTwoFees dx BPS protocolFee providerFee = 0 then _ else _) = _
  by_cases hnet : Rounding.lessTwoFees dx BPS protocolFee providerFee = 0
  · rw [if_pos hnet, hnet, ConstantProduct.out_zero]
  · rw [if_neg hnet]
    exact (congrArg (· >>= _) (u128Add_ok hden)).trans
      (quotient_eq_out hin (saturatingMul_of_le hnum) rfl)

/-- ALEX rounds its fee up. -/
theorem mulUp_eq_ceilDiv {a b : Nat} (hfits : a * b ≤ u128Max) :
    AlexPool.mulUp a b = Rounding.ceilDiv (a * b) ONE_E8 := by
  unfold AlexPool.mulUp Rounding.ceilDiv
  rw [saturatingMul_of_le hfits]
  by_cases hzero : a * b = 0
  · rw [hzero]
    rfl
  · have hpos : 0 < a * b := Nat.pos_of_ne_zero hzero
    have hsplit : a * b + ONE_E8 - 1 = a * b - 1 + ONE_E8 := by omega
    simp only [hzero, if_false]
    rw [hsplit, Nat.add_div_right _ (by decide), Nat.add_comm]

/-- ALEX buys with what its rounded-up fee leaves. -/
theorem quoteWithFee_eq_out {feeRate : Nat} (hin : 0 < reserveIn) (hout : 0 < reserveOut)
    (hfits : (Quoter.alex feeRate).Fits dx reserveIn reserveOut) :
    AlexPool.quoteWithFee reserveIn reserveOut CONSTANT_PRODUCT_FACTOR dx feeRate =
      .ok (ConstantProduct.out reserveIn reserveOut
        (dx - Rounding.ceilDiv (dx * feeRate) ONE_E8)) := by
  obtain ⟨hfee, hnum, hden⟩ := hfits
  have hnum : reserveOut * (dx - Rounding.ceilDiv (dx * feeRate) ONE_E8) ≤ u128Max := hnum
  have hden : reserveIn + (dx - Rounding.ceilDiv (dx * feeRate) ONE_E8) ≤ u128Max := hden
  unfold AlexPool.quoteWithFee
  rw [mulUp_eq_ceilDiv hfee]
  generalize Rounding.ceilDiv (dx * feeRate) ONE_E8 = fee at hnum hden ⊢
  dsimp only
  by_cases hall : fee ≥ dx
  · have hnet : dx - fee = 0 := by omega
    rw [if_pos hall, hnet, ConstantProduct.out_zero]
  rw [if_neg hall, AlexPool.gmmmDy, if_neg (not_not_intro rfl), if_neg (by omega), saturatingMul,
    Nat.mul_comm (dx - fee)]
  exact quotient_eq_out hin (saturatingMul_of_le hnum) (Nat.min_eq_left hden)

end NetInput

/-- As long as nothing saturates, a quote is what the net input buys. -/
theorem Quoter.quote_eq_out (checks : Bool) {q : Quoter} (hfees : q.FeesWithin)
    {dx reserveIn reserveOut : Nat} (hin : 0 < reserveIn) (hout : 0 < reserveOut)
    (hfits : q.Fits dx reserveIn reserveOut) :
    q.quote checks dx reserveIn reserveOut =
      .ok (ConstantProduct.out reserveIn reserveOut (q.net dx)) := by
  rcases q with ⟨feeNum, feeDen⟩ | ⟨protocolFee, providerFee⟩ | feeRate
  · exact quoteAmountOutWithFeeRatio_eq_out hfees hin hout hfits
  · exact xykQuoteAmountOut_eq_out checks hin hout hfits
  · exact quoteWithFee_eq_out hin hout hfits

/-- What is enough for more input to leave more net input: nothing, but for Bitflow XYK with
two fees, where the extra input has to be worth a unit after fees. -/
def Quoter.Grows : Quoter → Nat → Nat → Prop
  | .bitflowXyk protocolFee providerFee, a, b =>
    a = b ∨ protocolFee = 0 ∨ providerFee = 0 ∨ BPS ≤ (b - a) * (BPS - (protocolFee + providerFee))
  | _, _, _ => True

/-- More input leaves at least as much net input; for two fees floored apart, under the
conditions of `Grows`. -/
theorem Quoter.net_mono {q : Quoter} (hfees : q.FeesWithin) {a b : Nat} (hab : a ≤ b)
    (hgrows : q.Grows a b) : q.net a ≤ q.net b := by
  have hbps : 0 < BPS := by decide
  rcases q with ⟨feeNum, feeDen⟩ | ⟨protocolFee, providerFee⟩ | feeRate
  · exact Nat.div_le_div_right (Nat.mul_le_mul_right _ hab)
  · rcases hgrows with rfl | hprotocol | hprovider | hgap
    · exact le_rfl
    · exact Rounding.lessTwoFees_mono_of_single hbps hfees (Or.inl hprotocol) hab
    · exact Rounding.lessTwoFees_mono_of_single hbps hfees (Or.inr hprovider) hab
    · exact Rounding.lessTwoFees_mono_of_gap hbps hfees hab hgap
  · exact Rounding.sub_ceil_mono (by decide) hfees hab

/-- Without them it leaves at most one unit less. -/
theorem Quoter.net_le_succ {q : Quoter} (hfees : q.FeesWithin) {a b : Nat} (hab : a ≤ b) :
    q.net a ≤ q.net b + 1 := by
  rcases q with ⟨feeNum, feeDen⟩ | ⟨protocolFee, providerFee⟩ | feeRate
  · exact (Quoter.net_mono (q := .feeRatio feeNum feeDen) hfees hab trivial).trans (Nat.le_succ _)
  · exact Rounding.lessTwoFees_le_succ (by decide) hfees hab
  · exact (Quoter.net_mono (q := .alex feeRate) hfees hab trivial).trans (Nat.le_succ _)

/--
**More input, no less output.** This holds for the ratio and for ALEX always, and for Bitflow
XYK wherever the net input does not fall; its two fees are rounded down apart, so the net
input may fall, but by a unit at most. It does not fall where the two inputs are equal, where
one of the fees is zero, or where the extra input is worth a unit after fees (`Grows`). The
reserves are positive, the fees within the whole, and nothing overflows, so this is so in
every build.
-/
theorem v2_quotes_mono (checks : Bool) (q : Quoter) (hfees : q.FeesWithin)
    (reserveIn reserveOut : Nat) (hin : 0 < reserveIn) (hout : 0 < reserveOut) (a b : Nat)
    (hab : a ≤ b) (ha : q.Fits a reserveIn reserveOut) (hb : q.Fits b reserveIn reserveOut) :
    ∃ dy dy', q.quote checks a reserveIn reserveOut = .ok dy ∧
      q.quote checks b reserveIn reserveOut = .ok dy' ∧
      (q.Grows a b → dy ≤ dy') ∧ (q.net a ≤ q.net b → dy ≤ dy') ∧ q.net a ≤ q.net b + 1 := by
  refine ⟨_, _, Quoter.quote_eq_out checks hfees hin hout ha,
    Quoter.quote_eq_out checks hfees hin hout hb, fun hgrows => ?_, fun hnet => ?_,
    Quoter.net_le_succ hfees hab⟩
  · exact ConstantProduct.out_mono hin reserveOut (Quoter.net_mono hfees hab hgrows)
  · exact ConstantProduct.out_mono hin reserveOut hnet

/-- Bitflow XYK with 15 bps for the protocol and for the providers each. -/
theorem v2_quotes_mono_xyk :
    ∃ dy dy', BitflowXykPool.quoteAmountOut false 666 1000 1000000 15 15 = .ok dy ∧
      BitflowXykPool.quoteAmountOut false 668 1000 1000000 15 15 = .ok dy' ∧ dy ≤ dy' := by
  obtain ⟨dy, dy', hdy, hdy', hgrows, -, -⟩ :=
    v2_quotes_mono false (.bitflowXyk 15 15) (show 15 + 15 ≤ BPS by decide) 1000 1000000 (by decide)
      (by decide) 666 668 (by decide) ⟨⟨by decide, by decide⟩, by decide, by decide⟩
      ⟨⟨by decide, by decide⟩, by decide, by decide⟩
  exact ⟨dy, dy', hdy, hdy', hgrows (Or.inr (Or.inr (Or.inr (by decide))))⟩

/-- There, the 667th unit of input costs a unit of each fee: one more in, less out. -/
theorem xykQuoteAmountOut_not_mono :
    ¬ ∀ (checks : Bool) (q : Quoter), q.FeesWithin →
      ∀ reserveIn reserveOut, 0 < reserveIn → 0 < reserveOut →
      ∀ a b, a ≤ b → q.Fits a reserveIn reserveOut → q.Fits b reserveIn reserveOut →
      ∃ dy dy', q.quote checks a reserveIn reserveOut = .ok dy ∧
        q.quote checks b reserveIn reserveOut = .ok dy' ∧ dy ≤ dy' := by
  intro h
  obtain ⟨dy, dy', hdy, hdy', hle⟩ :=
    h false (.bitflowXyk 15 15) (show 15 + 15 ≤ BPS by decide) 1000 1000000 (by decide) (by decide)
      666 667 (by decide)
      ⟨⟨by decide, by decide⟩, by decide, by decide⟩ ⟨⟨by decide, by decide⟩, by decide, by decide⟩
  have ha : BitflowXykPool.quoteAmountOut false 666 1000 1000000 15 15 = .ok 399759 := by
    decide +kernel
  have hb : BitflowXykPool.quoteAmountOut false 667 1000 1000000 15 15 = .ok 399399 := by
    decide +kernel
  obtain rfl := Except.ok.inj (ha.symm.trans hdy)
  obtain rfl := Except.ok.inj (hb.symm.trans hdy')
  exact absurd hle (by decide)

end StacksDex.Results
