import StacksDex.Bridge.CurveSolver
import StacksDex.Model.StableQuotes

/-!
# StacksDex — what the solvers leave in a pool

The loop of `get_y` never lands left of a point left of the root of its equation. When
the input at most doubles its reserve and the other reserve is deep, a whole native unit
is such a point (`Bracketed.below`), so at least that much of it stays.

The steps are: a point left of the root stays left of every value of the loop; a deep reserve
puts one native unit, scaled, at such a point; and scaling down from there leaves a unit. The
section on scaling says what the source's two conversions are where no product saturates.
-/

namespace StacksDex.Bridge

open StacksDex.Lib StacksDex.Model

/-! ## The loop -/

section Loop

variable {b c d m t y : Nat}

/-- The guard of the loop of `get_y`. -/
theorem getYRound_none (hden : N_TOKENS * y + b ≤ d) (h : YRoundFits b c y) :
    getYRound b c d y = .ok none := by
  have hpos : saturatingAdd (N_TOKENS * y) b = N_TOKENS * y + b := Nat.min_eq_left h.denom
  unfold getYRound
  rw [saturatingMul_of_le h.twoY, hpos]
  dsimp only
  rcases Nat.lt_or_eq_of_le hden with hlt | heq
  · rw [if_pos hlt]
  · rw [if_neg (by omega), u128Sub_ok heq.ge, ok_bind, if_pos (by omega)]

/-- **`get_y` ends at or right of every point left of the root**, whichever way its loop is
left. Its start may be anywhere: the first round always steps. -/
theorem getYLoop_ge (hd : 0 < d) (hm : Newton.Below b c d m)
    (hfits : ∀ y ∈ iterates (getYRound b c d) t NEWTON_MAX_ITERS d, YRoundFits b c y) :
    ∃ y exit, newtonLoop (getYRound b c d) t NEWTON_MAX_ITERS d = .ok (y, exit) ∧ m ≤ y := by
  have hden : d < N_TOKENS * d + b := by
    unfold N_TOKENS
    omega
  have hfirst := getYRound_eq hden (hfits d (mem_iterates_self 383 d))
  have hland : m ≤ Newton.quadStep b c d d := Newton.le_quadStep hden hm
  have hiters : NEWTON_MAX_ITERS = 383 + 1 := rfl
  -- the first round starts above everything it can lead to
  by_cases hstop : absDiff (Newton.quadStep b c d d) d ≤ t
  · exact ⟨_, .converged, newtonLoop_succ_stop hfirst hstop, hland⟩
  rw [hiters, newtonLoop_succ_next hfirst hstop]
  rw [hiters, iterates_succ_next hfirst hstop] at hfits
  refine newtonLoop_inv (fun cur hcur hle => ?_) hland
  have hfitsCur := hfits cur (List.mem_cons_of_mem _ hcur)
  -- each further round stays above the bound, or leaves the loop where it is
  by_cases hpos : d < N_TOKENS * cur + b
  · refine ⟨_, getYRound_eq hpos hfitsCur, ?_⟩
    intro new hnew
    obtain rfl := Option.some.inj hnew
    exact Newton.le_quadStep hpos hm
  · refine ⟨_, getYRound_none (not_lt.mp hpos) hfitsCur, ?_⟩
    intro new hnew
    exact absurd hnew (Option.some_ne_none new).symm

end Loop

/-! ## Deep reserves -/

section Deep

variable {x y a d m X : Nat}

/-- One unit on the curve, without the floors of the coefficients. -/
theorem below_of_cube (hX : 0 < X) (ha : 0 < a) (hm : 0 < m)
    (h : 4 * ((a + 1) * X * m) * (m + X) ≤ d ^ 3 + (a + 1) * X * m * d) :
    Newton.Below (linearCoeff X (a + 1) d) (constantCoeff X (a + 1) d) d m := by
  have hk : (a + 1) * (d / (a + 1)) ≤ d := Nat.mul_div_le d (a + 1)
  have hu : d * d < 2 * X * (d * d / (2 * X) + 1) := Nat.lt_mul_div_succ _ (by omega)
  have hc : d * d / (2 * X) * d <
      (a + 1) * N_TOKENS * (d * d / (2 * X) * d / ((a + 1) * N_TOKENS) + 1) :=
    Nat.lt_mul_div_succ _ (Nat.mul_pos (Nat.succ_pos a) (by decide))
  unfold N_TOKENS at hc
  unfold Newton.Below linearCoeff constantCoeff N_TOKENS
  generalize d / (a + 1) = k at hk
  generalize d * d / (2 * X) = u at hu hc
  generalize u * d / ((a + 1) * 2) = c at hc
  by_contra hnot
  have hover : c + m * d + 1 ≤ m * (m + (X + k)) := not_le.mp hnot
  -- the constant coefficient is the cube, up to its two floors
  have hcube : d ^ 3 < 4 * ((a + 1) * X) * (c + 1) + 2 * X * d := by
    have h₁ : d * (d * d) ≤ d * (2 * X * (u + 1)) := Nat.mul_le_mul_left _ hu.le
    have h₂ : 2 * X * (u * d) < 2 * X * ((a + 1) * 2 * (c + 1)) :=
      Nat.mul_lt_mul_of_pos_left hc (by omega)
    have h₃ : d ^ 3 = d * (d * d) := by ring
    linarith
  have hscaled := Nat.mul_le_mul_left (4 * ((a + 1) * X)) hover
  have hlinear : 4 * X * m * ((a + 1) * k) ≤ 4 * X * m * d := Nat.mul_le_mul_left _ hk
  have hXm : 2 * X * d ≤ 2 * (X * m) * d :=
    Nat.mul_le_mul_right _ (Nat.mul_le_mul_left _ (Nat.le_mul_of_pos_right X hm))
  have hA : 2 * (X * m * d) ≤ (a + 1) * (X * m * d) := Nat.mul_le_mul_right _ (by omega)
  linarith

/-- The invariant of a pool whose second reserve is deep, against an input that doubles the
first. -/
theorem Bracketed.cube_ge (hx : 0 < x) (ha : 0 < a) (hm : 0 < m) (h : Bracketed x y a d)
    (hdeep : 6 * ((a + 1) * m) ≤ y) :
    8 * ((a + 1) * x * m) * (m + 2 * x) ≤ d ^ 3 + 2 * ((a + 1) * x * m) * d := by
  have hsq : 4 * x * y < (d + 1) * (d + 1) := h.four_mul_lt
  have hreach := h.reach
  have hW : 2 ≤ (a + 1) * x * m := by
    calc 2 = 2 * 1 * 1 := rfl
      _ ≤ (a + 1) * x * m := Nat.mul_le_mul (Nat.mul_le_mul (by omega) hx) hm
  -- the reserves' product, in units of `(a + 1) * x * m`
  have hq : 24 * ((a + 1) * x * m) ≤ 4 * x * y := by
    calc 24 * ((a + 1) * x * m) = 4 * x * (6 * ((a + 1) * m)) := by ring
      _ ≤ 4 * x * y := Nat.mul_le_mul_left _ hdeep
  have hd : 6 ≤ d := by nlinarith
  have hym : 12 * m ≤ y := by nlinarith
  unfold Newton.Above at hreach
  generalize 4 * x * y = q at hsq hreach hq
  generalize (a + 1) * x * m = W at hW hq ⊢
  rcases Nat.lt_or_ge (17 * (x + y)) (20 * (d + 1)) with hlate | hearly
  · -- near the sum of the reserves the square of the invariant is large enough
    have hsquare : 36 * ((d + 1) * (d + 1)) ≤ 49 * (d * d) := by nlinarith
    have hcube : 864 * W * d ≤ 49 * (d * d) * d := Nat.mul_le_mul_right _ (by linarith)
    have hsum : W * (17 * (x + y)) ≤ W * (20 * d + 19) := Nat.mul_le_mul_left _ (by omega)
    have hrest : W * (7840 * m + 15680 * x + 18278) ≤ W * (16354 * (x + y)) :=
      Nat.mul_le_mul_left _ (by omega)
    linarith
  · -- far below it the cube is
    have hcube : 216 * (d + 1) ^ 3 ≤ 343 * d ^ 3 := by
      calc 216 * (d + 1) ^ 3 = (6 * (d + 1)) ^ 3 := by ring
        _ ≤ (7 * d) ^ 3 := Nat.pow_le_pow_left (by omega) 3
        _ = 343 * d ^ 3 := by ring
    have hslope : a * q * (20 * (d + 1)) ≤ a * q * (17 * (x + y)) := Nat.mul_le_mul_left _ hearly
    have hone : 1 * (q * (x + y)) ≤ a * (q * (x + y)) := Nat.mul_le_mul_right _ ha
    have hline : 24 * W * (x + y) ≤ q * (x + y) := Nat.mul_le_mul_right _ hq
    have htarget : W * (m + 2 * x) ≤ W * (2 * (x + y)) := Nat.mul_le_mul_left _ (by omega)
    have hlow := Nat.zero_le (W * d)
    have hsum := Nat.zero_le (W * (x + y))
    linarith

/-- **A unit of a deep reserve is on the curve** after any input that at most doubles the other
reserve. -/
theorem Bracketed.below (hx : 0 < x) (ha : 0 < a) (hm : 0 < m) (h : Bracketed x y a d)
    (hdeep : 6 * ((a + 1) * m) ≤ y) (hX : 0 < X) (hdouble : X ≤ 2 * x) :
    Newton.Below (linearCoeff X (a + 1) d) (constantCoeff X (a + 1) d) d m := by
  refine below_of_cube hX ha hm ?_
  have hcube := h.cube_ge hx ha hm hdeep
  by_cases hfar : 4 * (m + X) ≤ d
  · have hfar' := Nat.mul_le_mul_left ((a + 1) * X * m) hfar
    linarith [Nat.zero_le (d ^ 3)]
  · -- the more input, the more is asked of the cube
    obtain ⟨z, hz⟩ := Nat.exists_eq_add_of_le hdouble
    have hgap : (a + 1) * z * m * d ≤ (a + 1) * z * m * (8 * X + 4 * m + 4 * z) :=
      Nat.mul_le_mul_left _ (by omega)
    have hx₁ : (a + 1) * (2 * x) * m * (m + 2 * x) = (a + 1) * (X + z) * m * (m + (X + z)) := by
      rw [hz]
    have hx₂ : (a + 1) * (2 * x) * m * d = (a + 1) * (X + z) * m * d := by rw [hz]
    linarith

end Deep

/-! ## Scaling without saturation -/

section Scaling

variable {x y xDp yDp dp other : Nat}

/-- What an amount of one precision is multiplied with to match another; one if it has more
decimals already. -/
def scaleFactor (dp other : Nat) : Nat := 10 ^ (other - dp)

/-- A scaling factor is a power of ten. -/
theorem scaleFactor_pos (dp other : Nat) : 0 < scaleFactor dp other := Nat.pow_pos (by decide)

/-- The token with more decimals is not scaled. -/
theorem scaleFactor_eq_one (h : other ≤ dp) : scaleFactor dp other = 1 := by
  rw [scaleFactor, Nat.sub_eq_zero_of_le h, Nat.pow_zero]

/-- The source's factor is this one, as long as it fits. -/
theorem decimalFactor_eq (h : dp ≤ other) (hfits : scaleFactor dp other ≤ u128Max) :
    decimalFactor other dp = .ok (scaleFactor dp other) := by
  have hpow : saturatingPow 10 (other - dp) = scaleFactor dp other := Nat.min_eq_left hfits
  rw [decimalFactor_ok h, hpow]

/-- Scaling up multiplies each reserve by its factor, where nothing saturates. -/
theorem scaleUp_eq (hxf : scaleFactor xDp yDp ≤ u128Max) (hyf : scaleFactor yDp xDp ≤ u128Max)
    (hx : x * scaleFactor xDp yDp ≤ u128Max) (hy : y * scaleFactor yDp xDp ≤ u128Max) :
    scaleUp x y xDp yDp = .ok (x * scaleFactor xDp yDp, y * scaleFactor yDp xDp) := by
  unfold scaleUp
  rcases Nat.lt_trichotomy xDp yDp with hlt | rfl | hgt
  · rw [if_neg hlt.ne, if_neg (by omega), decimalFactor_eq hlt.le hxf, ok_bind,
      saturatingMul_of_le hx, scaleFactor_eq_one hlt.le, Nat.mul_one]
  · rw [if_pos rfl, scaleFactor_eq_one le_rfl, Nat.mul_one, Nat.mul_one]
  · rw [if_neg hgt.ne', if_pos hgt, decimalFactor_eq hgt.le hyf, ok_bind,
      saturatingMul_of_le hy, scaleFactor_eq_one hgt.le, Nat.mul_one]

/-- Scaling down divides by the same factors, rounding down. -/
theorem scaleDown_eq (hxf : scaleFactor xDp yDp ≤ u128Max)
    (hyf : scaleFactor yDp xDp ≤ u128Max) :
    scaleDown x y xDp yDp = .ok (x / scaleFactor xDp yDp, y / scaleFactor yDp xDp) := by
  unfold scaleDown
  rcases Nat.lt_trichotomy xDp yDp with hlt | rfl | hgt
  · rw [if_neg hlt.ne, if_neg (by omega), decimalFactor_eq hlt.le hxf, ok_bind,
      u128Div_ok (scaleFactor_pos _ _), ok_bind, scaleFactor_eq_one hlt.le, Nat.div_one]
  · rw [if_pos rfl, scaleFactor_eq_one le_rfl, Nat.div_one, Nat.div_one]
  · rw [if_neg hgt.ne', if_pos hgt, decimalFactor_eq hgt.le hyf, ok_bind,
      u128Div_ok (scaleFactor_pos _ _), ok_bind, scaleFactor_eq_one hgt.le, Nat.div_one]

end Scaling

/-! ## The quote -/

/-- The scaled input after the two fees. -/
def netInput (dxS protocolFeeBps providerFeeBps : Nat) : Nat :=
  dxS - (dxS * protocolFeeBps / BPS + dxS * providerFeeBps / BPS)

/-- No operation of a V2 quote saturates, those of the solvers included. -/
structure QuoteFits (dx xBalance yBalance xDecimals yDecimals protocolFeeBps providerFeeBps
    midpointNum midpointDen amp threshold : Nat) : Prop where
  xFactor : scaleFactor xDecimals yDecimals ≤ u128Max
  yFactor : scaleFactor yDecimals xDecimals ≤ u128Max
  xReserve : xBalance * scaleFactor xDecimals yDecimals ≤ u128Max
  yReserve : yBalance * scaleFactor yDecimals xDecimals ≤ u128Max
  input : dx * scaleFactor xDecimals yDecimals ≤ u128Max
  protocolFee : dx * scaleFactor xDecimals yDecimals * protocolFeeBps ≤ u128Max
  providerFee : dx * scaleFactor xDecimals yDecimals * providerFeeBps ≤ u128Max
  inputMid : netInput (dx * scaleFactor xDecimals yDecimals) protocolFeeBps providerFeeBps *
    midpointNum ≤ u128Max
  reserveMid : xBalance * scaleFactor xDecimals yDecimals * midpointNum ≤ u128Max
  solve : GetYFits
    (netInput (dx * scaleFactor xDecimals yDecimals) protocolFeeBps providerFeeBps *
      midpointNum / midpointDen)
    (xBalance * scaleFactor xDecimals yDecimals * midpointNum / midpointDen)
    (yBalance * scaleFactor yDecimals xDecimals) amp threshold

instance (dx xBalance yBalance xDecimals yDecimals protocolFeeBps providerFeeBps midpointNum
    midpointDen amp threshold : Nat) :
    Decidable (QuoteFits dx xBalance yBalance xDecimals yDecimals protocolFeeBps providerFeeBps
      midpointNum midpointDen amp threshold) :=
  decidable_of_iff
    ((scaleFactor xDecimals yDecimals ≤ u128Max ∧ scaleFactor yDecimals xDecimals ≤ u128Max ∧
        xBalance * scaleFactor xDecimals yDecimals ≤ u128Max ∧
        yBalance * scaleFactor yDecimals xDecimals ≤ u128Max) ∧
      (dx * scaleFactor xDecimals yDecimals ≤ u128Max ∧
        dx * scaleFactor xDecimals yDecimals * protocolFeeBps ≤ u128Max ∧
        dx * scaleFactor xDecimals yDecimals * providerFeeBps ≤ u128Max) ∧
      netInput (dx * scaleFactor xDecimals yDecimals) protocolFeeBps providerFeeBps *
        midpointNum ≤ u128Max ∧
      xBalance * scaleFactor xDecimals yDecimals * midpointNum ≤ u128Max ∧
      GetYFits
        (netInput (dx * scaleFactor xDecimals yDecimals) protocolFeeBps providerFeeBps *
          midpointNum / midpointDen)
        (xBalance * scaleFactor xDecimals yDecimals * midpointNum / midpointDen)
        (yBalance * scaleFactor yDecimals xDecimals) amp threshold)
    ⟨fun ⟨⟨h₁, h₂, h₃, h₄⟩, ⟨h₅, h₆, h₇⟩, h₈, h₉, h₁₀⟩ => ⟨h₁, h₂, h₃, h₄, h₅, h₆, h₇, h₈, h₉, h₁₀⟩,
      fun h => ⟨⟨h.xFactor, h.yFactor, h.xReserve, h.yReserve⟩,
        ⟨h.input, h.protocolFee, h.providerFee⟩, h.inputMid, h.reserveMid, h.solve⟩⟩

section Quote

variable {dx xBalance yBalance xDecimals yDecimals protocolFeeBps providerFeeBps midpointNum
  midpointDen amp threshold : Nat}

/-- A quote without saturation: the reserve less what the curve leaves of it. -/
theorem quoteAmountOut_eq (hdx : 0 < dx) (hx : 0 < xBalance) (hy : 0 < yBalance)
    (hden : 0 < midpointDen)
    (h : QuoteFits dx xBalance yBalance xDecimals yDecimals protocolFeeBps providerFeeBps
      midpointNum midpointDen amp threshold) (newYS : Nat)
    (hnewYS : getY
      (netInput (dx * scaleFactor xDecimals yDecimals) protocolFeeBps providerFeeBps *
        midpointNum / midpointDen)
      (xBalance * scaleFactor xDecimals yDecimals * midpointNum / midpointDen)
      (yBalance * scaleFactor yDecimals xDecimals) amp threshold = .ok newYS) :
    BitflowStableSwapV2Pool.quoteAmountOut dx xBalance yBalance xDecimals yDecimals
      protocolFeeBps providerFeeBps midpointNum midpointDen amp threshold =
      .ok (yBalance - newYS / scaleFactor yDecimals xDecimals) := by
  have hzero : ¬ (dx = 0 ∨ xBalance = 0 ∨ yBalance = 0 ∨ midpointDen = 0) := by omega
  have hbps : 0 < BPS := by decide
  have hfees := bps_fees_fit (dx * scaleFactor xDecimals yDecimals) protocolFeeBps providerFeeBps
  have hnothing : 0 * scaleFactor yDecimals xDecimals ≤ u128Max := by
    rw [Nat.zero_mul]
    exact Nat.zero_le _
  -- operation by operation, in the order of the source
  unfold BitflowStableSwapV2Pool.quoteAmountOut
  rw [if_neg hzero, scaleUp_eq h.xFactor h.yFactor h.xReserve h.yReserve, ok_bind]
  dsimp only
  rw [scaleUp_eq h.xFactor h.yFactor h.input hnothing, ok_bind]
  dsimp only
  rw [u128Div_ok hbps, ok_bind, u128Div_ok hbps, ok_bind, u128Add_ok hfees, ok_bind,
    saturatingMul_of_le h.protocolFee, saturatingMul_of_le h.providerFee]
  have hinput := saturatingMul_of_le h.inputMid
  unfold netInput at hinput hnewYS
  rw [hinput, u128Div_ok hden, ok_bind, saturatingMul_of_le h.reserveMid, u128Div_ok hden, ok_bind,
    hnewYS, ok_bind, scaleDown_eq h.xFactor h.yFactor, ok_bind]

/-- **A quote leaves something of a deep reserve**, at any input up to the other reserve. The
input reserve is worth a unit at the midpoint. -/
theorem quoteAmountOut_lt (hdx : dx ≤ xBalance) (hx : 0 < xBalance) (hy : 0 < yBalance)
    (hden : 0 < midpointDen) (hamp : 1 ≤ amp)
    (hunit : midpointDen ≤ xBalance * scaleFactor xDecimals yDecimals * midpointNum)
    (hdeep : 12 * amp ≤ yBalance)
    (h : QuoteFits dx xBalance yBalance xDecimals yDecimals protocolFeeBps providerFeeBps
      midpointNum midpointDen amp threshold) :
    ∃ dy, BitflowStableSwapV2Pool.quoteAmountOut dx xBalance yBalance xDecimals yDecimals
      protocolFeeBps providerFeeBps midpointNum midpointDen amp threshold = .ok dy ∧
      dy < yBalance := by
  rcases Nat.eq_zero_or_pos dx with rfl | hpos
  · exact ⟨0, if_pos (Or.inl rfl), hy⟩
  have hfits := h.solve
  have hquote := quoteAmountOut_eq hpos hx hy hden h
  have hm := scaleFactor_pos yDecimals xDecimals
  -- after the fees and the midpoint the input is still at most the reserve
  have hinput : netInput (dx * scaleFactor xDecimals yDecimals) protocolFeeBps providerFeeBps *
      midpointNum / midpointDen ≤
        xBalance * scaleFactor xDecimals yDecimals * midpointNum / midpointDen :=
    Nat.div_le_div_right (Nat.mul_le_mul_right _
      ((Nat.sub_le _ _).trans (Nat.mul_le_mul_right _ hdx)))
  have hbx : 0 < xBalance * scaleFactor xDecimals yDecimals * midpointNum / midpointDen :=
    Nat.div_pos hunit hden
  have hby : 0 < yBalance * scaleFactor yDecimals xDecimals := Nat.mul_pos hy hm
  generalize netInput (dx * scaleFactor xDecimals yDecimals) protocolFeeBps providerFeeBps *
    midpointNum / midpointDen = dxMid at hinput hfits hquote
  generalize xBalance * scaleFactor xDecimals yDecimals * midpointNum / midpointDen = bxMid
    at hinput hbx hfits hquote
  obtain ⟨a, ha, han⟩ := exists_an hamp
  obtain ⟨d, hd, hbracket⟩ := getD_bracketed hbx hby ha han hfits.solveD
  have hdeep' : 6 * ((a + 1) * scaleFactor yDecimals xDecimals) ≤
      yBalance * scaleFactor yDecimals xDecimals := by
    rw [← han, ← Nat.mul_assoc]
    refine Nat.mul_le_mul_right _ ?_
    unfold N_TOKENS
    omega
  have hunitOnCurve := hbracket.below hbx ha hm hdeep' (X := bxMid + dxMid) (by omega) (by omega)
  rw [← han] at hunitOnCurve
  obtain ⟨newYS, exit, hloop, hleft⟩ := getYLoop_ge (hbracket.pos hbx hby) hunitOnCurve
    (hfits.solveY d hd).rounds
  have hnewYS : getY dxMid bxMid (yBalance * scaleFactor yDecimals xDecimals) amp threshold =
      .ok newYS := by
    rw [getY, getYExit_eq hbx hby hamp hfits hd, hloop, ok_bind]
  refine ⟨_, hquote newYS hnewYS, ?_⟩
  have hkept : 0 < newYS / scaleFactor yDecimals xDecimals := Nat.div_pos hleft hm
  omega

end Quote

end StacksDex.Bridge
