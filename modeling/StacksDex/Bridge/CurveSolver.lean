import StacksDex.Bridge.CurveLoops
import StacksDex.Lib.Newton

/-!
# StacksDex — what the curve solvers compute

While nothing saturates, a round of `get_d` is a step of Newton's method on the invariant
(`Newton.cubicStep`), with `d_part` the cube over `4 * x * y` rounded down twice. Every
value the loop takes is `Bracketed`: at most the sum of the reserves, and at most one unit
left of the root. A round of `get_y` is a step on a quadratic (`Newton.quadStep`).

This is where the source's expressions meet the general facts about Newton's method in
`Lib/Newton.lean` and `Lib/NewtonRoots.lean`: everything behind it is about real roots, and
everything in front of it about `u128` arithmetic.
-/

namespace StacksDex.Bridge

open StacksDex.Lib StacksDex.Model

/-! ## The rounded cube -/

/-- `d_part`. -/
def dPart (x y D : Nat) : Nat := D * (D * D / (2 * x)) / (2 * y)

/-- One round of `get_d`, exactly; `a` is `an - 1`. -/
def nextD (x y a D : Nat) : Nat := Newton.cubicStep a ((a + 1) * (x + y)) D (dPart x y D)

section Part

variable {x y D : Nat}

/-- What the two floors drop from the cube. -/
theorem dPart_error (hx : 0 < x) (hy : 0 < y) (D : Nat) :
    ∃ u v w, D * D = 2 * x * u + v ∧ v < 2 * x ∧ D * u = 2 * y * dPart x y D + w ∧ w < 2 * y := by
  refine ⟨D * D / (2 * x), D * D % (2 * x), D * (D * D / (2 * x)) % (2 * y),
    (Nat.div_add_mod _ _).symm, Nat.mod_lt _ (by omega), (Nat.div_add_mod _ _).symm,
    Nat.mod_lt _ (by omega)⟩

/-- Two divisions in a row, with their remainders. -/
theorem cube_eq {u v w P : Nat} (hu : D * D = 2 * x * u + v) (hw : D * u = 2 * y * P + w) :
    D ^ 3 = 4 * x * y * P + (2 * x * w + D * v) := by
  calc D ^ 3 = D * (D * D) := by ring
    _ = 2 * x * (D * u) + D * v := by rw [hu]; ring
    _ = 4 * x * y * P + (2 * x * w + D * v) := by rw [hw]; ring

/-- Rounding down twice gives at most the cube. -/
theorem mul_dPart_le_cube (hx : 0 < x) (hy : 0 < y) (D : Nat) :
    4 * x * y * dPart x y D ≤ D ^ 3 := by
  obtain ⟨u, v, w, hu, -, hw, -⟩ := dPart_error hx hy D
  rw [cube_eq hu hw]
  exact Nat.le_add_right _ _

/-- From the geometric mean on, the rounded cube is no smaller than `D`. -/
theorem le_dPart (hx : 0 < x) (hy : 0 < y) (h : 4 * x * y ≤ D * D) : D ≤ dPart x y D := by
  have hu : 2 * y ≤ D * D / (2 * x) := by
    rw [Nat.le_div_iff_mul_le (by omega)]
    calc 2 * y * (2 * x) = 4 * x * y := by ring
      _ ≤ D * D := h
  rw [dPart, Nat.le_div_iff_mul_le (by omega)]
  exact Nat.mul_le_mul_left _ hu

end Part

/-! ## The bracket -/

/-- Between one unit left of the root and the sum of the reserves. One pool has a value there
that a step would leave to the right; its loop never has that value. -/
structure Bracketed (x y a D : Nat) : Prop where
  le_sum : D ≤ x + y
  reach : Newton.Above a ((a + 1) * (x + y)) (4 * x * y) (D + 1)
  fixed : x = 3 ∧ y = 1 ∧ a = 1 → D = 4

section Bracket

variable {x y a D : Nat}

/-- The geometric mean is at most the arithmetic one. -/
theorem four_mul_le_sq (x y : Nat) : 4 * x * y ≤ (x + y) * (x + y) := by
  zify
  nlinarith [sq_nonneg ((x : ℤ) - y)]

/-- A bracketed value is positive, so it may be divided by. -/
theorem Bracketed.pos (hx : 0 < x) (hy : 0 < y) (h : Bracketed x y a D) : 0 < D := by
  have hreach := h.reach
  rcases Nat.eq_zero_or_pos D with rfl | hD
  · -- one is not right of the root
    unfold Newton.Above at hreach
    have hq : 0 < 4 * x * y := by positivity
    nlinarith [Nat.mul_le_mul_left (4 * x * y) (by nlinarith : a + 1 + 1 ≤ (a + 1) * (x + y))]
  · exact hD

/-- The geometric bound. -/
theorem Bracketed.four_mul_lt (h : Bracketed x y a D) : 4 * x * y < (D + 1) * (D + 1) := by
  obtain ⟨hle, hreach, -⟩ := h
  unfold Newton.Above at hreach
  by_contra hge
  have hsq : (D + 1) * (D + 1) ≤ 4 * x * y := not_lt.mp hge
  -- left of the geometric mean the cube is less than the line
  have hcube : (D + 1) ^ 3 ≤ (D + 1) * (4 * x * y) :=
    calc (D + 1) ^ 3 = (D + 1) * ((D + 1) * (D + 1)) := by ring
      _ ≤ (D + 1) * (4 * x * y) := Nat.mul_le_mul_left _ hsq
  have hlt : (a + 1) * (x + y) * (4 * x * y) < (a + 1) * (D + 1) * (4 * x * y) := by linarith
  have hsum : (a + 1) * (x + y) < (a + 1) * (D + 1) := Nat.lt_of_mul_lt_mul_right hlt
  have hD : x + y < D + 1 := Nat.lt_of_mul_lt_mul_left hsum
  -- so `D` is the sum, whose square is at least the geometric mean's
  obtain rfl : D = x + y := by omega
  have := four_mul_le_sq x y
  nlinarith

/-- The loop starts with the sum of the reserves, which is the upper end of the bracket. -/
theorem bracketed_start (hx : 0 < x) (hy : 0 < y) (a : Nat) : Bracketed x y a (x + y) := by
  refine ⟨le_rfl, ?_, by omega⟩
  unfold Newton.Above
  have hmean := Nat.mul_le_mul_left (x + y) (four_mul_le_sq x y)
  have hq : 0 < 4 * x * y := by positivity
  nlinarith

/-- Three units below the sum of the reserves the line is far above the root, so the cube is
large. -/
theorem Bracketed.cube_of_far (ha : 0 < a) (h : Bracketed x y a D) (hfar : D + 3 ≤ x + y) :
    4 * x * y * (D + 5) < (D + 1) ^ 3 := by
  obtain ⟨-, hreach, -⟩ := h
  obtain ⟨k, hk⟩ := Nat.exists_eq_add_of_le hfar
  unfold Newton.Above at hreach
  rw [hk] at hreach
  generalize 4 * x * y = q at hreach ⊢
  have hline : q * (D + 5) ≤ q * (a * (k + 2) + D + 3 + k) :=
    Nat.mul_le_mul_left _ (by nlinarith)
  linarith

/-- Left of the geometric mean the bracket is at most two units below the sum. -/
theorem Bracketed.sum_le (ha : 0 < a) (h : Bracketed x y a D) (hmean : D * D < 4 * x * y) :
    D < x + y ∧ x + y ≤ D + 2 := by
  have hmean' := four_mul_le_sq x y
  constructor
  · by_contra hge
    obtain rfl : D = x + y := Nat.le_antisymm h.le_sum (not_lt.mp hge)
    omega
  · by_contra hgt
    have hcube := h.cube_of_far ha (by omega)
    have hsq : (D * D + 1) * (D + 5) ≤ 4 * x * y * (D + 5) := Nat.mul_le_mul_right _ hmean
    nlinarith

/-- The few pools so small that the rounding of the cube has to be computed. -/
theorem dPart_small : ∀ x ∈ List.range 15, ∀ y ∈ List.range 15, ∀ k ∈ List.range 3,
    ¬ (x = 3 ∧ y = 1) ∧ (x + y - k) * (x + y - k) < 4 * x * y ∧
      4 * x * y < (x + y - k + 1) * (x + y - k + 1) →
    (x + y - k) * (x + y - 1) < dPart x y (x + y - k) * (x + y + 2 * k + 3) := by
  decide +kernel

/-- Left of the geometric mean, what the rounding drops is made up for by the distance to the
sum. -/
theorem dPart_left (hx : 0 < x) (hy : 0 < y) (hne : ¬ (x = 3 ∧ y = 1)) {k : Nat}
    (hk : x + y = D + k) (hk0 : 0 < k) (hk2 : k ≤ 2) (hmean : D * D < 4 * x * y)
    (hnear : 4 * x * y < (D + 1) * (D + 1)) :
    D * (D + k - 1) < dPart x y D * (D + 3 * k + 3) := by
  by_cases hsmall : D ≤ 12
  · have hD : D = x + y - k := by omega
    have h := dPart_small x (List.mem_range.mpr (by omega)) y (List.mem_range.mpr (by omega)) k
      (List.mem_range.mpr (by omega))
    rw [← hD, hk] at h
    have hsum : D + k + 2 * k + 3 = D + 3 * k + 3 := by omega
    rw [← hsum]
    exact h ⟨hne, hmean, hnear⟩
  -- the second reserve is not small against `D`, or the reserves would be too far apart
  have hD4 : D ≤ 4 * y := by
    by_contra hlt
    obtain ⟨z, hz⟩ := Nat.exists_eq_add_of_lt (not_le.mp hlt)
    have hx' : x = D + k - y := by omega
    obtain ⟨r, hr⟩ := Nat.exists_eq_add_of_le (show y ≤ D + k by omega)
    obtain rfl : x = r := by omega
    nlinarith
  obtain ⟨u, v, w, hu, hv, hw, hw'⟩ := dPart_error hx hy D
  have hcube := cube_eq (y := y) hu hw
  generalize dPart x y D = P at hcube hw ⊢
  have hP : D ≤ P + 4 := by
    by_contra hlt
    obtain ⟨E, rfl⟩ := Nat.exists_eq_add_of_le (show 4 ≤ D by omega)
    have hw₁ : 2 * x * (w + 1) ≤ 2 * x * (2 * y) := Nat.mul_le_mul_left _ hw'
    have hP₁ : 4 * x * y * (P + 1) ≤ 4 * x * y * E := Nat.mul_le_mul_left _ (by omega)
    have hq₁ : 4 * x * y * E ≤ ((4 + E) * (4 + E) + 2 * (4 + E)) * E :=
      Nat.mul_le_mul_right _ (by linarith)
    have hv₁ : (4 + E) * v ≤ (4 + E) * (2 * (4 + E) + 2) := Nat.mul_le_mul_left _ (by omega)
    linarith
  have hscaled := Nat.mul_le_mul_right (D + 3 * k + 3) hP
  obtain rfl | rfl : k = 1 ∨ k = 2 := by omega
  · rw [Nat.add_sub_cancel]
    linarith
  · rw [show D + 2 - 1 = D + 1 by omega]
    linarith

/-- **No step overshoots the sum of the reserves.** -/
theorem Bracketed.nextD_le (hx : 0 < x) (hy : 0 < y) (ha : 0 < a) (h : Bracketed x y a D) :
    nextD x y a D ≤ x + y := by
  have hD := h.pos hx hy
  have hnear := h.four_mul_lt
  obtain ⟨k, hk⟩ := Nat.exists_eq_add_of_le h.le_sum
  have hden : 0 < a * D + 3 * dPart x y D := Nat.add_pos_left (Nat.mul_pos ha hD) _
  refine Nat.lt_succ_iff.mp ((Nat.div_lt_iff_lt_mul hden).mpr ?_)
  -- what is left to show, without the terms that cancel
  suffices hsuff : D * (D + k) < a * D + dPart x y D * (D + 3 * k + 3) by
    rw [hk, Nat.succ_eq_add_one]
    linarith
  have haD : D ≤ a * D := Nat.le_mul_of_pos_left _ ha
  rcases Nat.lt_or_ge (D * D) (4 * x * y) with hmean | hmean
  · obtain ⟨hlt, hle⟩ := h.sum_le ha hmean
    by_cases hpool : x = 3 ∧ y = 1
    · -- the pool of three and one, at its value left of the root
      obtain ⟨rfl, rfl⟩ := hpool
      obtain rfl : D = 3 := by nlinarith
      obtain rfl : k = 1 := by omega
      have ha' : a ≠ 1 := fun h1 => absurd (h.fixed ⟨rfl, rfl, h1⟩) (by decide)
      have hpart : dPart 3 1 3 = 1 := rfl
      rw [hpart]
      omega
    · have hleft := dPart_left hx hy hpool hk (by omega) (by omega) hmean hnear
      obtain ⟨j, rfl⟩ := Nat.exists_eq_add_of_lt (show 0 < k by omega)
      have hpred : D + (0 + j + 1) - 1 = D + j := by omega
      rw [hpred] at hleft
      linarith
  · have hP := Nat.mul_le_mul_right (D + 3 * k + 3) (le_dPart hx hy hmean)
    have hDk := Nat.zero_le (D * k)
    linarith

/-- **What a round keeps.** -/
theorem Bracketed.next (hx : 0 < x) (hy : 0 < y) (ha : 0 < a) (h : Bracketed x y a D) :
    Bracketed x y a (nextD x y a D) := by
  refine ⟨h.nextD_le hx hy ha, ?_, ?_⟩
  · refine Newton.above_step ha (by positivity) (h.pos hx hy) (mul_dPart_le_cube hx hy D) ?_
    have hle := Nat.mul_le_mul_left a h.le_sum
    have hsum := Nat.zero_le (a * (x + y))
    linarith
  · rintro ⟨rfl, rfl, rfl⟩
    obtain rfl := h.fixed ⟨rfl, rfl, rfl⟩
    rfl

end Bracket

/-! ## `get_d` without saturation -/

/-- No operation of a round of `get_d` saturates. -/
structure DRoundFits (x y an s d : Nat) : Prop where
  twoX : N_TOKENS * x ≤ u128Max
  twoY : N_TOKENS * y ≤ u128Max
  square : d * d ≤ u128Max
  cube : d * (d * d / (2 * x)) ≤ u128Max
  line : an * s ≤ u128Max
  twoPart : N_TOKENS * dPart x y d ≤ u128Max
  numerSum : an * s + N_TOKENS * dPart x y d ≤ u128Max
  numer : (an * s + N_TOKENS * dPart x y d) * d ≤ u128Max
  slope : (an - 1) * d ≤ u128Max
  threePart : (N_TOKENS + 1) * dPart x y d ≤ u128Max
  denom : (an - 1) * d + (N_TOKENS + 1) * dPart x y d ≤ u128Max

/-- No operation of `get_d` saturates, on any value its loop has. -/
structure GetDFits (xBal yBal amp threshold : Nat) : Prop where
  an : amp * N_TOKENS ≤ u128Max
  s : xBal + yBal ≤ u128Max
  rounds : ∀ d ∈ iterates (getDRound xBal yBal (amp * N_TOKENS) (xBal + yBal)) threshold
    NEWTON_MAX_ITERS (xBal + yBal), DRoundFits xBal yBal (amp * N_TOKENS) (xBal + yBal) d

instance (x y an s d : Nat) : Decidable (DRoundFits x y an s d) :=
  decidable_of_iff
    ((N_TOKENS * x ≤ u128Max ∧ N_TOKENS * y ≤ u128Max ∧ d * d ≤ u128Max ∧
        d * (d * d / (2 * x)) ≤ u128Max) ∧
      (an * s ≤ u128Max ∧ N_TOKENS * dPart x y d ≤ u128Max ∧
        an * s + N_TOKENS * dPart x y d ≤ u128Max ∧
        (an * s + N_TOKENS * dPart x y d) * d ≤ u128Max) ∧
      (an - 1) * d ≤ u128Max ∧ (N_TOKENS + 1) * dPart x y d ≤ u128Max ∧
        (an - 1) * d + (N_TOKENS + 1) * dPart x y d ≤ u128Max)
    ⟨fun ⟨⟨h₁, h₂, h₃, h₄⟩, ⟨h₅, h₆, h₇, h₈⟩, h₉, h₁₀, h₁₁⟩ =>
        ⟨h₁, h₂, h₃, h₄, h₅, h₆, h₇, h₈, h₉, h₁₀, h₁₁⟩,
      fun h => ⟨⟨h.twoX, h.twoY, h.square, h.cube⟩, ⟨h.line, h.twoPart, h.numerSum, h.numer⟩,
        h.slope, h.threePart, h.denom⟩⟩

instance (xBal yBal amp threshold : Nat) : Decidable (GetDFits xBal yBal amp threshold) :=
  decidable_of_iff
    (amp * N_TOKENS ≤ u128Max ∧ xBal + yBal ≤ u128Max ∧
      ∀ d ∈ iterates (getDRound xBal yBal (amp * N_TOKENS) (xBal + yBal)) threshold
        NEWTON_MAX_ITERS (xBal + yBal), DRoundFits xBal yBal (amp * N_TOKENS) (xBal + yBal) d)
    ⟨fun ⟨han, hs, hrounds⟩ => ⟨han, hs, hrounds⟩, fun h => ⟨h.an, h.s, h.rounds⟩⟩

section GetD

variable {x y a d amp threshold : Nat}

/-- A round without saturation is a step of Newton's method. -/
theorem getDRound_eq (hx : 0 < x) (hy : 0 < y) (ha : 0 < a) (hd : 0 < d)
    (h : DRoundFits x y (a + 1) (x + y) d) :
    getDRound x y (a + 1) (x + y) d = .ok (some (nextD x y a d)) := by
  -- the constants, and the denominator that is not zero
  have hn : 0 < N_TOKENS := by decide
  have hthree : u128Add true N_TOKENS 1 = .ok (N_TOKENS + 1) := rfl
  have hless : u128Sub true (a + 1) 1 = .ok a := u128Sub_ok (Nat.le_add_left 1 a)
  have hden : 0 < a * d + (N_TOKENS + 1) * dPart x y d :=
    Nat.add_pos_left (Nat.mul_pos ha hd) _
  -- no product or sum of the round is cut off at `u128::MAX`
  have hpart : saturatingMul d (d * d / (N_TOKENS * x)) / (N_TOKENS * y) = dPart x y d :=
    congrArg (· / (N_TOKENS * y)) (saturatingMul_of_le h.cube)
  have hsum : saturatingAdd ((a + 1) * (x + y)) (N_TOKENS * dPart x y d) =
      (a + 1) * (x + y) + N_TOKENS * dPart x y d := Nat.min_eq_left h.numerSum
  have hdenom : saturatingAdd (a * d) ((N_TOKENS + 1) * dPart x y d) =
      a * d + (N_TOKENS + 1) * dPart x y d := Nat.min_eq_left h.denom
  have hslope : saturatingMul a d = a * d := saturatingMul_of_le h.slope
  -- operation by operation, in the order of the source
  unfold getDRound
  rw [saturatingMul_of_le h.twoX, saturatingMul_of_le h.twoY, saturatingMul_of_le h.square,
    u128Div_ok (Nat.mul_pos hn hx), ok_bind, u128Div_ok (Nat.mul_pos hn hy), ok_bind, hpart]
  dsimp only
  rw [hless, ok_bind, hthree, ok_bind, hslope, saturatingMul_of_le h.threePart,
    hdenom, if_neg hden.ne', saturatingMul_of_le h.line, saturatingMul_of_le h.twoPart, hsum,
    saturatingMul_of_le h.numer, u128Div_ok hden, ok_bind]
  rfl

/-- The invariant the loop works with: `an` is one more than `a`. -/
theorem exists_an (hamp : 0 < amp) : ∃ a, 0 < a ∧ amp * N_TOKENS = a + 1 := by
  refine ⟨2 * amp - 1, by omega, ?_⟩
  unfold N_TOKENS
  omega

/-- The amplification is positive. -/
theorem amp_pos_of_an (han : amp * N_TOKENS = a + 1) : 0 < amp := by
  rcases Nat.eq_zero_or_pos amp with rfl | hpos
  · omega
  · exact hpos

/-- `get_d` of positive inputs is its loop, from the sum of the reserves. -/
theorem getDExit_eq (hx : 0 < x) (hy : 0 < y) (hamp : 0 < amp) (h : GetDFits x y amp threshold) :
    getDExit x y amp threshold =
      newtonLoop (getDRound x y (amp * N_TOKENS) (x + y)) threshold NEWTON_MAX_ITERS (x + y) := by
  have hzero : ¬ (x = 0 ∨ y = 0 ∨ amp = 0) := by omega
  have hsum : saturatingAdd x y = x + y := Nat.min_eq_left h.s
  rw [getDExit, if_neg hzero, saturatingMul_of_le h.an, hsum]

/-- **Whichever way the loop of `get_d` is left**, its value is bracketed. -/
theorem getDExit_bracketed (hx : 0 < x) (hy : 0 < y) (ha : 0 < a)
    (han : amp * N_TOKENS = a + 1) (h : GetDFits x y amp threshold) :
    ∃ d exit, getDExit x y amp threshold = .ok (d, exit) ∧ Bracketed x y a d := by
  have hamp : 0 < amp := amp_pos_of_an han
  have hrounds := h.rounds
  rw [getDExit_eq hx hy hamp h]
  rw [han] at hrounds ⊢
  refine newtonLoop_inv (fun cur hcur hbracket => ?_) (bracketed_start hx hy a)
  refine ⟨_, getDRound_eq hx hy ha (hbracket.pos hx hy) (hrounds cur hcur), ?_⟩
  intro new hnew
  obtain rfl := Option.some.inj hnew
  exact hbracket.next hx hy ha

/-- **What `get_d` returns is bracketed**, however its loop was left. By the invariant rule of
the loops, as every round keeps the bracket. -/
theorem getD_bracketed (hx : 0 < x) (hy : 0 < y) (ha : 0 < a) (han : amp * N_TOKENS = a + 1)
    (h : GetDFits x y amp threshold) :
    ∃ d, getD x y amp threshold = .ok d ∧ Bracketed x y a d := by
  obtain ⟨d, exit, hd, hbracket⟩ := getDExit_bracketed hx hy ha han h
  exact ⟨d, by rw [getD, hd, ok_bind], hbracket⟩

end GetD

/-! ## `get_y` without saturation -/

/-- The coefficients of the equation `get_y` solves, for a reserve `X` after the input. -/
def linearCoeff (X an d : Nat) : Nat := X + d / an

def constantCoeff (X an d : Nat) : Nat := d * d / (2 * X) * d / (an * N_TOKENS)

/-- No operation of a round of `get_y` saturates. -/
structure YRoundFits (b c y : Nat) : Prop where
  square : y * y ≤ u128Max
  numer : y * y + c ≤ u128Max
  twoY : N_TOKENS * y ≤ u128Max
  denom : N_TOKENS * y + b ≤ u128Max

/-- No operation of `get_y` after its call of `get_d` saturates. -/
structure SolveYFits (X an d threshold : Nat) : Prop where
  square : d * d ≤ u128Max
  twoX : N_TOKENS * X ≤ u128Max
  cube : d * d / (2 * X) * d ≤ u128Max
  twoAn : an * N_TOKENS ≤ u128Max
  linear : linearCoeff X an d ≤ u128Max
  rounds : ∀ y ∈ iterates (getYRound (linearCoeff X an d) (constantCoeff X an d) d) threshold
    NEWTON_MAX_ITERS d, YRoundFits (linearCoeff X an d) (constantCoeff X an d) y

/-- No operation of `get_y` saturates, those of `get_d` included. -/
structure GetYFits (xAmount xBal yBal amp threshold : Nat) : Prop where
  solveD : GetDFits xBal yBal amp threshold
  updatedX : xBal + xAmount ≤ u128Max
  solveY : ∀ d, getD xBal yBal amp threshold = .ok d →
    SolveYFits (xBal + xAmount) (amp * N_TOKENS) d threshold

instance (b c y : Nat) : Decidable (YRoundFits b c y) :=
  decidable_of_iff (y * y ≤ u128Max ∧ y * y + c ≤ u128Max ∧ N_TOKENS * y ≤ u128Max ∧
      N_TOKENS * y + b ≤ u128Max)
    ⟨fun ⟨h₁, h₂, h₃, h₄⟩ => ⟨h₁, h₂, h₃, h₄⟩, fun h => ⟨h.square, h.numer, h.twoY, h.denom⟩⟩

instance (X an d threshold : Nat) : Decidable (SolveYFits X an d threshold) :=
  decidable_of_iff (d * d ≤ u128Max ∧ N_TOKENS * X ≤ u128Max ∧ d * d / (2 * X) * d ≤ u128Max ∧
      an * N_TOKENS ≤ u128Max ∧ linearCoeff X an d ≤ u128Max ∧
      ∀ y ∈ iterates (getYRound (linearCoeff X an d) (constantCoeff X an d) d) threshold
        NEWTON_MAX_ITERS d, YRoundFits (linearCoeff X an d) (constantCoeff X an d) y)
    ⟨fun ⟨h₁, h₂, h₃, h₄, h₅, h₆⟩ => ⟨h₁, h₂, h₃, h₄, h₅, h₆⟩,
      fun h => ⟨h.square, h.twoX, h.cube, h.twoAn, h.linear, h.rounds⟩⟩

instance (xAmount xBal yBal amp threshold : Nat) :
    Decidable (GetYFits xAmount xBal yBal amp threshold) :=
  match hd : getD xBal yBal amp threshold with
  | .ok d =>
    decidable_of_iff (GetDFits xBal yBal amp threshold ∧ xBal + xAmount ≤ u128Max ∧
        SolveYFits (xBal + xAmount) (amp * N_TOKENS) d threshold)
      ⟨fun ⟨h₁, h₂, h₃⟩ => ⟨h₁, h₂, fun _ hd' => Except.ok.inj (hd.symm.trans hd') ▸ h₃⟩,
        fun h => ⟨h.solveD, h.updatedX, h.solveY d hd⟩⟩
  | .error _ =>
    decidable_of_iff (GetDFits xBal yBal amp threshold ∧ xBal + xAmount ≤ u128Max)
      ⟨fun ⟨h₁, h₂⟩ => ⟨h₁, h₂, fun _ hd' => nomatch hd.symm.trans hd'⟩,
        fun h => ⟨h.solveD, h.updatedX⟩⟩

section GetY

variable {b c d y xAmount xBal yBal amp threshold : Nat}

/-- A round whose denominator is positive is a step of Newton's method. -/
theorem getYRound_eq (hden : d < N_TOKENS * y + b) (h : YRoundFits b c y) :
    getYRound b c d y = .ok (some (Newton.quadStep b c d y)) := by
  have hnum : saturatingAdd (y * y) c = y * y + c := Nat.min_eq_left h.numer
  have hpos : saturatingAdd (N_TOKENS * y) b = N_TOKENS * y + b := Nat.min_eq_left h.denom
  have hne : N_TOKENS * y + b - d ≠ 0 := by omega
  unfold getYRound
  rw [saturatingMul_of_le h.square, hnum, saturatingMul_of_le h.twoY, hpos]
  dsimp only
  rw [if_neg (by omega), u128Sub_ok hden.le, ok_bind, if_neg hne,
    u128Div_ok (Nat.pos_of_ne_zero hne), ok_bind]
  rfl

/-- `get_y` of positive reserves is its loop, from the invariant. -/
theorem getYExit_eq (hx : 0 < xBal) (hy : 0 < yBal) (hamp : 0 < amp)
    (h : GetYFits xAmount xBal yBal amp threshold) (hd : getD xBal yBal amp threshold = .ok d) :
    getYExit xAmount xBal yBal amp threshold =
      newtonLoop (getYRound (linearCoeff (xBal + xAmount) (amp * N_TOKENS) d)
        (constantCoeff (xBal + xAmount) (amp * N_TOKENS) d) d) threshold NEWTON_MAX_ITERS d := by
  have hzero : ¬ (xBal = 0 ∨ yBal = 0 ∨ amp = 0) := by omega
  have hn : 0 < N_TOKENS := by decide
  have han : 0 < amp * N_TOKENS := Nat.mul_pos hamp hn
  have hX : 0 < xBal + xAmount := by omega
  have hsolve := h.solveY d hd
  -- no product or sum is cut off at `u128::MAX`
  have hsum : saturatingAdd xBal xAmount = xBal + xAmount := Nat.min_eq_left h.updatedX
  have hlinear : saturatingAdd (xBal + xAmount) (d / (amp * N_TOKENS)) =
      linearCoeff (xBal + xAmount) (amp * N_TOKENS) d := Nat.min_eq_left hsolve.linear
  have hcube : saturatingMul (d * d / (N_TOKENS * (xBal + xAmount))) d =
      d * d / (2 * (xBal + xAmount)) * d := saturatingMul_of_le hsolve.cube
  unfold getYExit
  rw [if_neg hzero, saturatingMul_of_le h.solveD.an, hsum]
  dsimp only
  rw [if_neg hX.ne', hd, ok_bind, saturatingMul_of_le hsolve.square,
    saturatingMul_of_le hsolve.twoX, u128Div_ok (Nat.mul_pos hn hX), ok_bind, hcube,
    saturatingMul_of_le hsolve.twoAn, u128Div_ok (Nat.mul_pos han hn), ok_bind, u128Div_ok han,
    ok_bind, hlinear]
  rfl

end GetY

end StacksDex.Bridge
