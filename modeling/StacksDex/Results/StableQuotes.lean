import StacksDex.Bridge.CurveLoops
import StacksDex.Model.StableQuotes

/-!
# StacksDex — stable quotes on all inputs

No stable quote panics, whatever the reserves, the amount, the fees, the decimals and the
parameters of the curve: every divisor is positive or guarded, every plain subtraction is
guarded, and the plain additions are of fees that are ten-thousandths.

Nothing is assumed about the arguments, not even that they fit their types, so that the result
covers every reachable pool and the values a consumer may pass. As no plain operator leaves its
type, the build does not matter either.

The functions are taken from the inside out: the scaling, the two solvers (which are in
`Bridge/CurveLoops.lean`), and the two quotes around them.
-/

namespace StacksDex.Results

open StacksDex.Model StacksDex.Bridge

/-- A power of ten is positive, saturated or not. -/
theorem saturatingPow_ten_pos (e : Nat) : 0 < saturatingPow 10 e :=
  lt_min (Nat.pow_pos (by decide)) (by decide)

/-- Scaling up never fails: the difference of the decimals is taken the right way round. -/
theorem scaleUp_ok (x y xDp yDp : Nat) : ∃ p, scaleUp x y xDp yDp = .ok p := by
  unfold scaleUp
  by_cases heq : xDp = yDp
  · exact ⟨_, if_pos heq⟩
  rw [if_neg heq]
  by_cases hgt : xDp > yDp
  · rw [if_pos hgt, decimalFactor_ok hgt.le, ok_bind]
    exact ⟨_, rfl⟩
  · rw [if_neg hgt, decimalFactor_ok (by omega), ok_bind]
    exact ⟨_, rfl⟩

/-- Scaling down never fails: its divisors are powers of ten. -/
theorem scaleDown_ok (x y xDp yDp : Nat) : ∃ p, scaleDown x y xDp yDp = .ok p := by
  unfold scaleDown
  by_cases heq : xDp = yDp
  · exact ⟨_, if_pos heq⟩
  rw [if_neg heq]
  by_cases hgt : xDp > yDp
  · rw [if_pos hgt, decimalFactor_ok hgt.le, ok_bind, u128Div_ok (saturatingPow_ten_pos _), ok_bind]
    exact ⟨_, rfl⟩
  · rw [if_neg hgt, decimalFactor_ok (by omega), ok_bind, u128Div_ok (saturatingPow_ten_pos _),
      ok_bind]
    exact ⟨_, rfl⟩

/-- A V2 quote never fails. -/
theorem v2_quoteAmountOut_ok (dx xBalance yBalance xDecimals yDecimals protocolFeeBps
    providerFeeBps midpointNum midpointDen amp threshold : Nat) :
    ∃ dy, BitflowStableSwapV2Pool.quoteAmountOut dx xBalance yBalance xDecimals yDecimals
      protocolFeeBps providerFeeBps midpointNum midpointDen amp threshold = .ok dy := by
  unfold BitflowStableSwapV2Pool.quoteAmountOut
  by_cases hzero : dx = 0 ∨ xBalance = 0 ∨ yBalance = 0 ∨ midpointDen = 0
  · exact ⟨0, if_pos hzero⟩
  rw [if_neg hzero]
  -- scaling and fees return whatever they are given
  obtain ⟨⟨bxS, byS⟩, hreserves⟩ := scaleUp_ok xBalance yBalance xDecimals yDecimals
  obtain ⟨⟨dxS, nothing⟩, hinput⟩ := scaleUp_ok dx 0 xDecimals yDecimals
  have hbps : 0 < BPS := by decide
  have hden : 0 < midpointDen := by omega
  rw [hreserves, ok_bind]
  dsimp only
  rw [hinput, ok_bind]
  dsimp only
  -- the divisors are the constant of the fees and the denominator, which is not zero
  rw [u128Div_ok hbps, ok_bind, u128Div_ok hbps, ok_bind, u128Add_ok (bps_fees_fit ..), ok_bind,
    u128Div_ok hden, ok_bind, u128Div_ok hden, ok_bind]
  generalize saturatingMul bxS midpointNum / midpointDen = bxMid
  generalize saturatingMul (dxS - (saturatingMul dxS protocolFeeBps / BPS +
    saturatingMul dxS providerFeeBps / BPS)) midpointNum / midpointDen = dxMid
  -- and so do the solver and the scaling back
  obtain ⟨newYS, hnewYS⟩ := getY_ok dxMid bxMid byS amp threshold
  obtain ⟨⟨nothing', newY⟩, hnewY⟩ := scaleDown_ok 0 newYS xDecimals yDecimals
  rw [hnewYS, ok_bind, hnewY, ok_bind]
  exact ⟨_, rfl⟩

/-- Nor does a V1 quote, in either variant. -/
theorem v1_getDy_ok (xAmount xBalance yBalance xDecimals yDecimals feeTotalBps amp threshold : Nat)
    (variant : MathVariant) :
    ∃ dy, BitflowStableSwapV1Pool.getDy xAmount xBalance yBalance xDecimals yDecimals feeTotalBps
      amp threshold variant = .ok dy := by
  unfold BitflowStableSwapV1Pool.getDy
  by_cases hzero : xAmount = 0 ∨ xBalance = 0 ∨ yBalance = 0
  · exact ⟨0, if_pos hzero⟩
  rw [if_neg hzero]
  obtain ⟨⟨bxS, byS⟩, hreserves⟩ := scaleUp_ok xBalance yBalance xDecimals yDecimals
  obtain ⟨⟨dxS, nothing⟩, hinput⟩ := scaleUp_ok xAmount 0 xDecimals yDecimals
  have hbps : 0 < BPS := by decide
  rw [hreserves, ok_bind]
  dsimp only
  rw [hinput, ok_bind]
  dsimp only
  rw [u128Div_ok hbps, ok_bind]
  generalize dxS - saturatingMul xAmount feeTotalBps / BPS = dxNet
  -- whichever reserve the variant hands to the solver
  choose newYScaled hnewYScaled using fun xForY => getY_ok dxNet xForY byS amp threshold
  choose native hnative using fun y => scaleDown_ok 0 y xDecimals yDecimals
  rw [hnewYScaled, ok_bind, hnative, ok_bind]
  exact ⟨_, rfl⟩

/--
**No stable quote panics**, on any input at all: scaling, the two solvers and the two quotes
return a value for all arguments, zero reserves, zero midpoints and amplification zero
included. What could leave `u128` saturates, and each division is by a constant, by a power of
ten, by a product of positive values or behind a test for zero.
-/
theorem stable_quotes_panic_free :
    (∀ x y xDp yDp, ∃ p, scaleUp x y xDp yDp = .ok p) ∧
    (∀ x y xDp yDp, ∃ p, scaleDown x y xDp yDp = .ok p) ∧
    (∀ xBal yBal amp threshold, ∃ d, getD xBal yBal amp threshold = .ok d) ∧
    (∀ xAmount xBal yBal amp threshold, ∃ y, getY xAmount xBal yBal amp threshold = .ok y) ∧
    (∀ dx xBalance yBalance xDecimals yDecimals protocolFeeBps providerFeeBps midpointNum
        midpointDen amp threshold, ∃ dy,
      BitflowStableSwapV2Pool.quoteAmountOut dx xBalance yBalance xDecimals yDecimals
        protocolFeeBps providerFeeBps midpointNum midpointDen amp threshold = .ok dy) ∧
    (∀ xAmount xBalance yBalance xDecimals yDecimals feeTotalBps amp threshold variant, ∃ dy,
      BitflowStableSwapV1Pool.getDy xAmount xBalance yBalance xDecimals yDecimals feeTotalBps
        amp threshold variant = .ok dy) := by
  refine ⟨scaleUp_ok, scaleDown_ok, ?_, getY_ok, v2_quoteAmountOut_ok, v1_getDy_ok⟩
  intro xBal yBal amp threshold
  obtain ⟨r, -, hd⟩ := getD_ok xBal yBal amp threshold
  exact ⟨r.1, hd⟩

/-- The source's fixtures: STX/stSTX with its midpoint, and on the older contract. -/
example : BitflowStableSwapV2Pool.quoteAmountOut 5700490075 1140098015048 1730142819600 6 6 4 6
    1000000 1172209 100 2 = .ok 4889662235 := by decide +kernel

example : BitflowStableSwapV1Pool.getDy 5000000000 1000000000000 1171000000000 6 6 5 100 2
    .balBug = .ok 5004907045 := by decide +kernel

end StacksDex.Results
