import Mathlib.Analysis.Real.Sqrt
import Mathlib.Topology.Order.IntermediateValue
import Mathlib.Tactic.FieldSimp
import Mathlib.Tactic.LinearCombination
import StacksDex.Lib.Newton

/-!
# Lib — the roots behind Newton's method in integers

The two equations of `Lib.Newton` over the reals. There the position of an integer relative
to a root is an inequality between natural numbers; here it is shown to be what its name says.

* `CubicRoot.above_iff` — an integer is `Above` exactly when it exceeds the root of the cubic;
* `below_iff_le_quadRoot` — it is `Below` exactly when it does not exceed the root of the
  quadratic;
* `quadStep_near` — a step of the quadratic iteration that moves by at most `t` has come to
  within `t` of the root.

Both equations are forms of one curve (`OnCurve`), solved for its invariant and for one of its
reserves. A quadratic with coefficients a little below the curve's has its root near the
curve's point (`quadRoot_le_add_one`, `le_quadRoot_add_two`): this is what integer coefficients
that have been rounded down come to. The real numbers stay inside this module and the
statements about accuracy; no definition of a machine uses them.
-/

namespace StacksDex.Lib.Newton

/-! ## Cubic -/

/-- `r` solves `a * r + r ^ 3 / q = b`. -/
structure CubicRoot (a b q : Nat) (r : ℝ) : Prop where
  nonneg : 0 ≤ r
  eq : a * r * q + r ^ 3 = b * q

/-- The cubic has a positive root, or is solved by zero: it starts at or below its right side
and outgrows it. -/
theorem exists_cubicRoot (a b q : Nat) : ∃ r, CubicRoot a b q r := by
  have hcont : ContinuousOn (fun r : ℝ => a * r * q + r ^ 3) (Set.Icc 0 (b * q + 1)) := by
    fun_prop
  have htop : (0 : ℝ) ≤ b * q := by positivity
  have hmem : (b * q : ℝ) ∈ Set.Icc (a * (0 : ℝ) * q + 0 ^ 3)
      (a * (b * q + 1 : ℝ) * q + (b * q + 1) ^ 3) := by
    constructor
    · linarith
    · have hline : (0 : ℝ) ≤ a * (b * q + 1) * q := by positivity
      have hcube : (b * q + 1 : ℝ) ≤ (b * q + 1) ^ 3 :=
        le_self_pow₀ (by linarith) (by decide)
      linarith
  obtain ⟨r, ⟨hr, -⟩, heq⟩ := intermediate_value_Icc (by linarith) hcont hmem
  exact ⟨r, hr, heq⟩

/-- **`Above` is being right of the root.** The integer condition that the bounds on a step are
stated with is thus about the real solution of the equation. -/
theorem CubicRoot.above_iff {a b q : Nat} {r : ℝ} (h : CubicRoot a b q r) (n : Nat) :
    Above a b q n ↔ r < n := by
  have hcast : Above a b q n ↔ (b * q : ℝ) < a * n * q + n ^ 3 := by
    unfold Above
    exact_mod_cast Iff.rfl
  rw [hcast, ← h.eq]
  constructor
  · intro hlt
    by_contra hle
    have hline : (a * n * q : ℝ) ≤ a * r * q := by
      have := not_lt.mp hle
      gcongr
    have hcube : (n : ℝ) ^ 3 ≤ r ^ 3 := pow_le_pow_left₀ (Nat.cast_nonneg n) (not_lt.mp hle) 3
    linarith
  · intro hlt
    have hline : a * r * q ≤ (a * n * q : ℝ) := by gcongr
    have hcube : r ^ 3 < (n : ℝ) ^ 3 := pow_lt_pow_left₀ hlt h.nonneg (by decide)
    linarith

/-! ## Quadratic -/

/-- The larger root of `y ^ 2 + b * y = c + d * y`. -/
noncomputable def quadRoot (b c d : ℝ) : ℝ := (d - b + Real.sqrt ((d - b) ^ 2 + 4 * c)) / 2

section Quadratic

variable {b c d y : ℝ}

/-- The formula for the root solves the quadratic. -/
theorem quadRoot_eq (hc : 0 ≤ c) :
    quadRoot b c d * (quadRoot b c d + b) = c + quadRoot b c d * d := by
  have hsq := Real.sq_sqrt (by positivity : 0 ≤ (d - b) ^ 2 + 4 * c)
  unfold quadRoot
  linear_combination hsq / 4

/-- The root is not negative, and neither is the factor beside it. -/
theorem le_quadRoot_self (hc : 0 ≤ c) : 0 ≤ quadRoot b c d ∧ d ≤ quadRoot b c d + b := by
  have habs : |d - b| ≤ Real.sqrt ((d - b) ^ 2 + 4 * c) := by
    rw [← Real.sqrt_sq_eq_abs]
    exact Real.sqrt_le_sqrt (by linarith)
  have hneg := neg_abs_le (d - b)
  have hpos := le_abs_self (d - b)
  unfold quadRoot
  constructor <;> linarith

/-- Between zero and the root, and nowhere right of it, the equation's left side is the smaller. -/
theorem le_quadRoot_iff (hc : 0 ≤ c) (hy : 0 ≤ y) :
    y ≤ quadRoot b c d ↔ y * (y + b) ≤ c + y * d := by
  have heq := quadRoot_eq (b := b) (d := d) hc
  obtain ⟨hroot, hslope⟩ := le_quadRoot_self (b := b) (d := d) hc
  generalize quadRoot b c d = r at heq hroot hslope ⊢
  have hfactor : y * (y + b) - (c + y * d) = (y - r) * (y + (r + b - d)) := by
    linear_combination heq
  constructor
  · intro hle
    have := mul_nonneg (sub_nonneg.mpr hle) (by linarith : 0 ≤ y + (r + b - d))
    linarith
  · intro hle
    by_contra hlt
    have := mul_pos (sub_pos.mpr (not_le.mp hlt)) (by linarith : 0 < y + (r + b - d))
    linarith

/-- From the root on it is the larger. -/
theorem quadRoot_le (hc : 0 ≤ c) (hy : 0 < y) (h : c + y * d ≤ y * (y + b)) :
    quadRoot b c d ≤ y := by
  have heq := quadRoot_eq (b := b) (d := d) hc
  obtain ⟨-, hslope⟩ := le_quadRoot_self (b := b) (d := d) hc
  generalize quadRoot b c d = r at heq hslope ⊢
  by_contra hlt
  have hpos := mul_pos (sub_pos.mpr (not_le.mp hlt)) (by linarith : 0 < y + (r + b - d))
  have hfactor : y * (y + b) - (c + y * d) = (y - r) * (y + (r + b - d)) := by
    linear_combination heq
  linarith

/-- A larger linear coefficient and a smaller constant one move the root left. -/
theorem quadRoot_mono {b' c' : ℝ} (hc' : 0 ≤ c') (hb : b ≤ b') (hcc : c' ≤ c) :
    quadRoot b' c' d ≤ quadRoot b c d := by
  have heq := quadRoot_eq (b := b') (d := d) hc'
  obtain ⟨hroot, -⟩ := le_quadRoot_self (b := b') (d := d) hc'
  refine (le_quadRoot_iff (hc'.trans hcc) hroot).mpr ?_
  have hlinear := mul_le_mul_of_nonneg_left hb hroot
  linarith

/-- **Coefficients rounded down move the root right** by at most one. -/
theorem quadRoot_le_add_one {b' c' : ℝ} (hc : 0 ≤ c) (hb' : b' ≤ b + 1) (hc' : c ≤ c') :
    quadRoot b c d ≤ quadRoot b' c' d + 1 := by
  have heq := quadRoot_eq (b := b') (d := d) (hc.trans hc')
  obtain ⟨hroot, hslope⟩ := le_quadRoot_self (b := b') (d := d) (hc.trans hc')
  generalize quadRoot b' c' d = s at heq hroot hslope ⊢
  refine quadRoot_le hc (by linarith) ?_
  have hs : 0 ≤ (s + 1) * (1 - (b' - b)) := mul_nonneg (by linarith) (by linarith)
  linarith

/-- **They move it left** by at most two, as long as the constant coefficient loses at most
`e + 1` and is at least `e ^ 2`, and the root is not among the smallest. -/
theorem le_quadRoot_add_two {b' c' e : ℝ} (hc : 0 ≤ c) (hb : b ≤ b') (hc' : c' ≤ c + e + 1)
    (hlarge : e ^ 2 ≤ c') (hroot : 10 / 3 ≤ quadRoot b' c' d) :
    quadRoot b' c' d ≤ quadRoot b c d + 2 := by
  have hc'0 : 0 ≤ c' := (sq_nonneg e).trans hlarge
  have heq := quadRoot_eq (b := b') (d := d) hc'0
  obtain ⟨-, hslope⟩ := le_quadRoot_self (b := b') (d := d) hc'0
  generalize quadRoot b' c' d = s at heq hroot hslope ⊢
  obtain ⟨w, hw⟩ : ∃ w, w = s + b' - d := ⟨_, rfl⟩
  have hprod : s * w = c' := by rw [hw]; linarith
  -- the slope at the root is at least twice the geometric mean of its two parts
  have hmean : 2 * e ≤ s + w := by
    refine abs_le_of_sq_le_sq' ?_ (by linarith) |>.2
    nlinarith [sq_nonneg (s - w)]
  have hle : s - 2 ≤ quadRoot b c d := by
    refine (le_quadRoot_iff hc (by linarith)).mpr ?_
    have hlinear : (s - 2) * b ≤ (s - 2) * b' := mul_le_mul_of_nonneg_left hb (by linarith)
    have hexpand : (s - 2) * (s - 2 + b') - (s - 2) * d = s * w - 2 * w - 2 * s + 4 := by
      rw [hw]
      ring
    linarith
  linarith

end Quadratic

/-- **`Below` is being left of the root**, or on it. -/
theorem below_iff_le_quadRoot (b c d n : Nat) : Below b c d n ↔ (n : ℝ) ≤ quadRoot b c d := by
  rw [le_quadRoot_iff (Nat.cast_nonneg c) (Nat.cast_nonneg n)]
  unfold Below
  exact_mod_cast Iff.rfl

/-- **A step that moves by at most `t` has arrived**: it lands between the last integer left of
the root and `t` right of it. -/
theorem quadStep_near {b c d y t : Nat} (hden : d < 2 * y + b)
    (hup : quadStep b c d y ≤ y + t) (hdown : y ≤ quadStep b c d y + t) :
    quadRoot b c d < quadStep b c d y + 1 ∧ (quadStep b c d y : ℝ) ≤ quadRoot b c d + t := by
  obtain ⟨s, hbelow, hs⟩ := exists_last_below b c d
  have hreach : s ≤ quadStep b c d y := le_quadStep hden hbelow
  have hnear : quadStep b c d y ≤ s + t := by
    rcases Nat.lt_or_ge s y with hright | hleft
    · obtain ⟨-, hhalf⟩ := quadStep_halves hs hright
      omega
    · omega
  have hroot : quadRoot b c d < s + 1 := by
    have := mt (below_iff_le_quadRoot b c d (s + 1)).mpr hs
    push_cast at this
    exact not_le.mp this
  have hleft : (s : ℝ) ≤ quadRoot b c d := (below_iff_le_quadRoot b c d s).mp hbelow
  have hreach' : (s : ℝ) ≤ quadStep b c d y := by exact_mod_cast hreach
  have hnear' : (quadStep b c d y : ℝ) ≤ s + t := by exact_mod_cast hnear
  constructor <;> linarith

/-! ## The curve -/

/-- The reserves `x` and `y` are on the two-asset curve of amplification `an` and invariant
`D`. -/
def OnCurve (an x y D : ℝ) : Prop := an * (x + y) + D = an * D + D ^ 3 / (4 * x * y)

/-- Solved for the invariant, the curve is the cubic. -/
theorem CubicRoot.onCurve {a x y : Nat} {D : ℝ} (hx : 0 < x) (hy : 0 < y)
    (h : CubicRoot a ((a + 1) * (x + y)) (4 * x * y) D) : OnCurve (a + 1) x y D := by
  have hx' : (0 : ℝ) < x := by exact_mod_cast hx
  have hy' : (0 : ℝ) < y := by exact_mod_cast hy
  have heq := h.eq
  push_cast at heq
  unfold OnCurve
  field_simp
  linear_combination -heq

/-- The coefficients of the curve, solved for the second reserve. -/
noncomputable def curveRoot (an X D : ℝ) : ℝ := quadRoot (X + D / an) (D ^ 3 / (4 * X * an)) D

section Curve

variable {an X D : ℝ}

/-- The curve's point over a positive reserve is positive. -/
theorem curveRoot_pos (han : 0 < an) (hX : 0 < X) (hD : 0 < D) : 0 < curveRoot an X D := by
  have hc : 0 < D ^ 3 / (4 * X * an) := by positivity
  have heq := quadRoot_eq (b := X + D / an) (d := D) hc.le
  obtain ⟨hnonneg, -⟩ := le_quadRoot_self (b := X + D / an) (d := D) hc.le
  refine lt_of_le_of_ne hnonneg fun hzero => ?_
  unfold curveRoot at hzero
  rw [← hzero] at heq
  linarith

/-- Solved for one of the reserves, the curve is the quadratic. -/
theorem curveRoot_onCurve (han : 0 < an) (hX : 0 < X) (hD : 0 < D) :
    OnCurve an X (curveRoot an X D) D := by
  have hpos := curveRoot_pos han hX hD
  have heq := quadRoot_eq (b := X + D / an) (c := D ^ 3 / (4 * X * an)) (d := D) (by positivity)
  unfold curveRoot at hpos ⊢
  generalize quadRoot (X + D / an) (D ^ 3 / (4 * X * an)) D = y at hpos heq ⊢
  unfold OnCurve
  field_simp at heq ⊢
  linear_combination heq

end Curve

end StacksDex.Lib.Newton
