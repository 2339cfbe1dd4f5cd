import Mathlib.Tactic.Linarith
import Mathlib.Tactic.Ring

/-!
# Lib — Newton's method in integers

One step of Newton's method with its division rounded down, for the two equations of a
two-asset curve, stated without naming their real roots.

* **Cubic.** `a * D + D ^ 3 / q = b`, with the cube replaced by any `P` that is not too
  large. `Above` holds right of the root. However far down `P` is rounded, a step lands
  at most one unit left of the root (`above_step`); where it is rounded down by at most
  `e / q`, the distance to the right of the root shrinks by a third, up to that error
  (`step_shrinks`). `Within` counts the steps such a sequence has left.
* **Quadratic.** `y ^ 2 + b * y = c + d * y`. `Below` holds left of the root, where no step
  lands (`le_quadStep`); right of it, the distance halves (`quadStep_halves`), and from the
  last integer on the left a step goes nowhere (`quadStep_le_succ`).
-/

namespace StacksDex.Lib.Newton

/-! ## Cubic -/

section Cubic

variable {a b q : Nat}

/-- Right of the root of `a * D + D ^ 3 / q = b`. -/
def Above (a b q D : Nat) : Prop := b * q < a * D * q + D ^ 3

/-- Right of the root stays right of the root: both terms of the cubic grow with `D`. -/
theorem Above.mono {D D' : Nat} (h : Above a b q D) (hle : D ≤ D') : Above a b q D' := by
  have hcube : D ^ 3 ≤ D' ^ 3 := Nat.pow_le_pow_left hle 3
  have hline : a * D * q ≤ a * D' * q :=
    Nat.mul_le_mul_right _ (Nat.mul_le_mul_left _ hle)
  unfold Above at h ⊢
  omega

/-- A step from `D`, where `P` stands for `D ^ 3 / q`. -/
def cubicStep (a b D P : Nat) : Nat := (b + 2 * P) * D / (a * D + 3 * P)

/-- What the rounded quotient of a step is worth: one more than it, times the denominator,
exceeds the numerator. All bounds on a step from below start here. -/
theorem lt_succ_cubicStep_mul {D P : Nat} (hden : 0 < a * D + 3 * P) :
    (b + 2 * P) * D < (cubicStep a b D P + 1) * (a * D + 3 * P) := by
  have hquot : (b + 2 * P) * D < cubicStep a b D P * (a * D + 3 * P) + (a * D + 3 * P) :=
    Nat.lt_div_mul_add hden
  linarith

/-- The cube lies above its tangents. This is the one fact about cubes that the bounds need; it
replaces a derivative. -/
theorem tangent_le_cube (D m : Nat) : 3 * D ^ 2 * m ≤ m ^ 3 + 2 * D ^ 3 := by
  zify
  have hsq := mul_nonneg (sq_nonneg ((m : ℤ) - D)) (by positivity : (0 : ℤ) ≤ m + 2 * D)
  linarith [hsq, show ((m : ℤ) - D) ^ 2 * (m + 2 * D) = m ^ 3 + 2 * D ^ 3 - 3 * D ^ 2 * m by ring]

/-- **A step never lands more than one unit left of the root.** Rounding the cube down moves
the step to the right, as long as `D` is not far beyond the root, and rounding the quotient
down costs less than one unit. -/
theorem above_step {D P : Nat} (ha : 0 < a) (hq : 0 < q) (hD : 0 < D) (hP : q * P ≤ D ^ 3)
    (hrange : 2 * (a * D) ≤ 3 * b) : Above a b q (cubicStep a b D P + 1) := by
  have hden : 0 < a * D + 3 * P := Nat.add_pos_left (Nat.mul_pos ha hD) _
  have hfloor := lt_succ_cubicStep_mul (b := b) hden
  generalize cubicStep a b D P + 1 = m at hfloor ⊢
  -- the step keeps at least two thirds of `D`
  have hreach : 2 * D < 3 * m := by
    by_contra hle
    have hscaled : 3 * m * (a * D + 3 * P) ≤ 2 * D * (a * D + 3 * P) :=
      Nat.mul_le_mul_right _ (not_lt.mp hle)
    have hslope : 2 * (a * D) * D ≤ 3 * b * D := Nat.mul_le_mul_right _ hrange
    linarith
  obtain ⟨t, ht⟩ := Nat.exists_eq_add_of_lt hreach
  by_contra hnot
  have hroot : a * m * q + m ^ 3 ≤ b * q := not_lt.mp hnot
  -- `D` times the defect at `m` would be negative, but the tangent at `D` says it is not
  have hdefect : D * (a * m * q + m ^ 3) ≤ D * (b * q) := Nat.mul_le_mul_left _ hroot
  have hstep : q * ((b + 2 * P) * D + 1) ≤ q * (m * (a * D + 3 * P)) :=
    Nat.mul_le_mul_left _ hfloor
  have hcube : q * P * (t + 1) ≤ D ^ 3 * (t + 1) := Nat.mul_le_mul_right _ hP
  have htangent : D * (3 * D ^ 2 * m) ≤ D * (m ^ 3 + 2 * D ^ 3) :=
    Nat.mul_le_mul_left _ (tangent_le_cube D m)
  have hm₁ : q * P * (3 * m) = q * P * (2 * D + t + 1) := by rw [ht]
  have hm₂ : D ^ 3 * (3 * m) = D ^ 3 * (2 * D + t + 1) := by rw [ht]
  linarith

/-- **Right of the root a step closes a third of the distance**, up to what the rounding of
the cube is worth. `m` is any point right of the root. -/
theorem step_shrinks {D P e t m : Nat} (ha : 0 < a) (hq : 0 < q) (hD : 0 < D)
    (hP : D ^ 3 = q * P + e) (hm : Above a b q m) (hle : m ≤ D)
    (herror : D * e ≤ t * (q * (a * D + 3 * P))) :
    3 * cubicStep a b D P ≤ 2 * D + m + 3 * t := by
  have hden : 0 < a * D + 3 * P := Nat.add_pos_left (Nat.mul_pos ha hD) _
  have hfloor : cubicStep a b D P * (a * D + 3 * P) ≤ (b + 2 * P) * D := Nat.div_mul_le_self _ _
  generalize cubicStep a b D P = next at hfloor ⊢
  -- compare `3 * (b + 2 * P) * D` with `(2 * D + m + 3 * t)` denominators, both times `q`
  have hroot : 3 * D * (b * q) ≤ 3 * D * (a * m * q + m ^ 3) :=
    Nat.mul_le_mul_left _ (le_of_lt hm)
  have hslope : 2 * (a * D * q) * m ≤ 2 * (a * D * q) * D := Nat.mul_le_mul_left _ hle
  have hcube : 3 * D * m ^ 3 ≤ 3 * m * D ^ 3 := by
    have hsq : m ^ 2 ≤ D ^ 2 := Nat.pow_le_pow_left hle 2
    calc 3 * D * m ^ 3 = 3 * D * m * m ^ 2 := by ring
      _ ≤ 3 * D * m * D ^ 2 := Nat.mul_le_mul_left _ hsq
      _ = 3 * m * D ^ 3 := by ring
  have hround : 3 * m * e ≤ 3 * (t * (q * (a * D + 3 * P))) :=
    calc 3 * m * e = 3 * (m * e) := by ring
      _ ≤ 3 * (D * e) := Nat.mul_le_mul_left _ (Nat.mul_le_mul_right _ hle)
      _ ≤ 3 * (t * (q * (a * D + 3 * P))) := Nat.mul_le_mul_left _ herror
  have hexpand : 3 * m * D ^ 3 = 3 * m * (q * P) + 3 * m * e := by rw [hP]; ring
  have hscaled : q * (3 * ((b + 2 * P) * D)) ≤
      q * ((2 * D + m + 3 * t) * (a * D + 3 * P)) := by linarith
  have hquot : 3 * ((b + 2 * P) * D) ≤ (2 * D + m + 3 * t) * (a * D + 3 * P) :=
    Nat.le_of_mul_le_mul_left hscaled hq
  refine Nat.le_of_mul_le_mul_right ?_ hden
  calc 3 * next * (a * D + 3 * P) = 3 * (next * (a * D + 3 * P)) := Nat.mul_assoc ..
    _ ≤ 3 * ((b + 2 * P) * D) := Nat.mul_le_mul_left _ hfloor
    _ ≤ (2 * D + m + 3 * t) * (a * D + 3 * P) := hquot

/-- **Near the root a step rises by little.** If `D` is at most one unit left of the root and
the rounding of the cube is worth at most `t` units, the step rises by at most `t`. -/
theorem step_le_add {D P e t : Nat} (ha : 0 < a) (hD : 0 < D)
    (hP : D ^ 3 = q * P + e) (hroot : Above a b q (D + 1))
    (herror : D * e + 3 * e + 3 * D ^ 2 + D ≤ t * (q * (a * D + 3 * P))) :
    cubicStep a b D P ≤ D + t := by
  have hden : 0 < a * D + 3 * P := Nat.add_pos_left (Nat.mul_pos ha hD) _
  refine Nat.lt_succ_iff.mp ((Nat.div_lt_iff_lt_mul hden).mpr ?_)
  have hroot' : D * (b * q) < D * (a * (D + 1) * q + (D + 1) ^ 3) :=
    Nat.mul_lt_mul_of_pos_left hroot hD
  have hfourth : D * D ^ 3 = D * (q * P) + D * e := by rw [hP]; ring
  have hscaled : q * ((b + 2 * P) * D) < q * ((D + t).succ * (a * D + 3 * P)) := by
    rw [Nat.succ_eq_add_one]
    linarith
  exact Nat.lt_of_mul_lt_mul_left hscaled

end Cubic

/-! ## Rounds of a shrinking sequence -/

/-- From `D`, at most `n` steps of a sequence that stays at or right of `m - 1`, falls by more
than `t`, and closes a third of the distance to `m` up to `t`. -/
def Within (m t : Nat) : Nat → Nat → Prop
  | 0, _ => False
  | 1, D => D + 1 ≤ m + t
  | 2, D => D ≤ m + 2 * t
  | k + 3, D => (D - m - 3 * t) * 2 ^ k ≤ 3 ^ k

/-- **One step takes one from the count.** Far from `m` it is the third that is closed, near it
the fall by more than `t`. -/
theorem Within.next {m t n D D' : Nat} (h : Within m t (n + 1) D) (hreach : m ≤ D' + 1)
    (hfall : D' + t < D) (hshrink : 3 * D' ≤ 2 * D + m + 3 * t) : Within m t n D' := by
  match n with
  | 0 =>
    have hnear : D + 1 ≤ m + t := h
    unfold Within
    omega
  | 1 =>
    have hnear : D ≤ m + 2 * t := h
    show D' + 1 ≤ m + t
    omega
  | 2 =>
    have hnear : (D - m - 3 * t) * 2 ^ 0 ≤ 3 ^ 0 := h
    show D' ≤ m + 2 * t
    omega
  | k + 3 =>
    have hfar : (D - m - 3 * t) * 2 ^ (k + 1) ≤ 3 ^ (k + 1) := h
    show (D' - m - 3 * t) * 2 ^ k ≤ 3 ^ k
    -- the excess over the limit shrinks by a third
    have hthird : 3 * (D' - m - 3 * t) ≤ 2 * (D - m - 3 * t) := by omega
    have hscaled : 3 * ((D' - m - 3 * t) * 2 ^ k) ≤ 3 * 3 ^ k :=
      calc 3 * ((D' - m - 3 * t) * 2 ^ k) = 3 * (D' - m - 3 * t) * 2 ^ k :=
            (Nat.mul_assoc ..).symm
        _ ≤ 2 * (D - m - 3 * t) * 2 ^ k := Nat.mul_le_mul_right _ hthird
        _ = (D - m - 3 * t) * 2 ^ (k + 1) := by ring
        _ ≤ 3 ^ (k + 1) := hfar
        _ = 3 * 3 ^ k := by ring
    omega

/-! ## Quadratic -/

section Quadratic

variable {b c d : Nat}

/-- Left of the root of `y ^ 2 + b * y = c + d * y`, or on it. -/
def Below (b c d y : Nat) : Prop := y * (y + b) ≤ c + y * d

/-- A step from `y`. -/
def quadStep (b c d y : Nat) : Nat := (y * y + c) / (2 * y + b - d)

/-- **No step lands left of a point left of the root**, so the iteration that starts right of
the root stays there up to the rounding of its last step. -/
theorem le_quadStep {y m : Nat} (hden : d < 2 * y + b) (hm : Below b c d m) :
    m ≤ quadStep b c d y := by
  obtain ⟨den, hden'⟩ := Nat.exists_eq_add_of_lt hden
  have heq : 2 * y + b - d = den + 1 := by omega
  rw [quadStep, heq, Nat.le_div_iff_mul_le (Nat.succ_pos den)]
  -- the square of `y - m`
  have hsq : 2 * (m * y) ≤ y * y + m * m := by
    zify
    nlinarith [sq_nonneg ((y : ℤ) - m)]
  have hexpand : m * (2 * y + b) = m * (d + den + 1) := by rw [hden']
  unfold Below at hm
  linarith

/-- **Right of the root a step halves the distance.** `s` is any point right of the root. -/
theorem quadStep_halves {y s : Nat} (hs : ¬ Below b c d s) (hle : s ≤ y) :
    d < 2 * y + b ∧ 2 * quadStep b c d y < y + s := by
  have habove : c + s * d < s * (s + b) := not_le.mp hs
  have hspos : 0 < s := by
    rcases Nat.eq_zero_or_pos s with rfl | h
    · omega
    · exact h
  -- the slope at `s` is positive already
  have hslope : d < s + b := by
    by_contra hge
    have := Nat.mul_le_mul_left s (not_lt.mp hge)
    omega
  have hden : d < 2 * y + b := by omega
  refine ⟨hden, ?_⟩
  obtain ⟨den, hden'⟩ := Nat.exists_eq_add_of_lt hden
  have heq : 2 * y + b - d = den + 1 := by omega
  have hfloor : quadStep b c d y * (den + 1) ≤ y * y + c := by
    rw [quadStep, heq]
    exact Nat.div_mul_le_self _ _
  generalize quadStep b c d y = next at hfloor ⊢
  obtain ⟨k, rfl⟩ := Nat.exists_eq_add_of_le hle
  obtain ⟨j, hj⟩ := Nat.exists_eq_add_of_lt hslope
  have hb : s + b = d + j + 1 := hj
  have hscaled : 2 * ((s + k) * (s + k) + c) < (s + k + s) * (den + 1) := by
    have hden'' : den + 1 = 2 * k + s + j + 1 := by omega
    rw [hden'']
    have habove' : c + s * d < s * (d + j + 1) := by rw [← hb]; exact habove
    nlinarith
  have hlt : 2 * next * (den + 1) < (s + k + s) * (den + 1) := by linarith
  exact Nat.lt_of_mul_lt_mul_right hlt

/-- **On the root a step stays**: from the last integer left of it, it rises by one at most. -/
theorem quadStep_le_succ {y : Nat} (hden : d < 2 * y + b) (hs : ¬ Below b c d (y + 1)) :
    quadStep b c d y ≤ y + 1 := by
  obtain ⟨den, hden'⟩ := Nat.exists_eq_add_of_lt hden
  have heq : 2 * y + b - d = den + 1 := by omega
  have habove : c + (y + 1) * d < (y + 1) * (y + 1 + b) := not_le.mp hs
  rw [quadStep, heq]
  refine Nat.lt_succ_iff.mp ((Nat.div_lt_iff_lt_mul (Nat.succ_pos den)).mpr ?_)
  have hexpand : (y + 2) * (2 * y + b) = (y + 2) * (d + den + 1) := by rw [hden']
  rw [Nat.succ_eq_add_one]
  linarith

/-- The last integer left of the root. At zero the inequality holds and far out it fails, so
there is a last one. -/
theorem exists_last_below (b c d : Nat) :
    ∃ s, Below b c d s ∧ ¬ Below b c d (s + 1) := by
  by_contra hnone
  -- then every integer would be left of the root
  have hall : ∀ n, Below b c d n := by
    intro n
    induction n with
    | zero =>
      unfold Below
      omega
    | succ n ih => exact not_not.mp fun hn => hnone ⟨n, ih, hn⟩
  have hfar : (c + d + 1) * (c + d + 1 + b) ≤ c + (c + d + 1) * d := hall (c + d + 1)
  nlinarith

/-- **After a step the next denominator is positive**, unless the root is between zero and one
and the step ends there. -/
theorem denom_pos_of_step {s y : Nat} (hden : d < 2 * y + b) (hbelow : Below b c d s)
    (hs : ¬ Below b c d (s + 1)) :
    d < 2 * quadStep b c d y + b ∨ quadStep b c d y = 0 ∧ y ≤ 1 := by
  have hreach : s ≤ quadStep b c d y := le_quadStep hden hbelow
  have habove : c + (s + 1) * d < (s + 1) * (s + 1 + b) := not_le.mp hs
  have hslope : d < s + 1 + b := by
    by_contra hge
    have := Nat.mul_le_mul_left (s + 1) (not_lt.mp hge)
    omega
  by_cases hpos : d < 2 * quadStep b c d y + b
  · exact Or.inl hpos
  -- the slope at the first integer right of the root is positive, so that is one
  have hzero : quadStep b c d y = 0 := by omega
  obtain rfl : s = 0 := by omega
  obtain rfl : b = d := by omega
  refine Or.inr ⟨hzero, ?_⟩
  obtain rfl : c = 0 := by omega
  have hpos' : 0 < 2 * y + b - b := by omega
  have hlt : y * y + 0 < 2 * y + b - b := by
    by_contra hge
    have := Nat.div_pos (not_lt.mp hge) hpos'
    unfold quadStep at hzero
    omega
  rw [Nat.add_sub_cancel] at hlt
  exact Nat.le_of_lt_succ (Nat.lt_of_mul_lt_mul_left (by linarith : y * y < y * 2))

end Quadratic

end StacksDex.Lib.Newton
