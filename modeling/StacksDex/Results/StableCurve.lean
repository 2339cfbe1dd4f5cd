import StacksDex.Bridge.CurveConvergence

/-!
# StacksDex — what the curve solvers promise

For positive reserves and as long as nothing saturates.

* `stable_invariant_bounds` — `get_d` lies between the geometric and the arithmetic mean, up to
  a unit, however its loop was left.
* `solvers_converge` — the loop of `get_y` ends through its test, and so does that of
  `get_d` unless the reserves are far apart. Then it may not: `getD_runs_out`.

The source caps both loops and returns the last value when the cap is reached. So the first
result is about every exit, and the second says when the cap is never reached: a bound on the
ratio of the reserves in terms of the threshold and the amplification for `get_d`, and nothing
for `get_y`.
-/

namespace StacksDex.Results

open StacksDex.Model StacksDex.Bridge

variable {x y amp threshold : Nat}

/--
**The invariant is between twice the geometric and twice the arithmetic mean** of the
reserves, whichever way the loop of `get_d` is left: at the threshold or after its last
iteration. The loop starts at the sum, and no step leads above it again or a unit or more
below twice the root of the product.
-/
theorem stable_invariant_bounds (hx : 0 < x) (hy : 0 < y) (hamp : 1 ≤ amp)
    (hfits : GetDFits x y amp threshold) :
    ∃ d, getD x y amp threshold = .ok d ∧ d ≤ x + y ∧ 4 * x * y < (d + 1) ^ 2 := by
  obtain ⟨a, ha, han⟩ := exists_an hamp
  obtain ⟨d, exit, hd, hbracket⟩ := getDExit_bracketed hx hy ha han hfits
  refine ⟨d, by rw [getD, hd, ok_bind], hbracket.le_sum, ?_⟩
  rw [sq]
  exact hbracket.four_mul_lt

/-- A pool ten times deeper on one side: the value is computed in a few rounds. -/
theorem stable_invariant_bounds_imbalanced :
    ∃ d, getD 1000000 100000 100 2 = .ok d ∧ d ≤ 1100000 ∧
      4 * 1000000 * 100000 < (d + 1) ^ 2 :=
  stable_invariant_bounds (by decide) (by decide) (by decide) (by decide +kernel)

/--
**The Newton loops converge.** That of `get_y` does on any reserves and any new reserve of the
input for which nothing saturates. That of `get_d` does as long as the first reserve is at
most `2 * threshold² * (2 * amp - 1)` times the second; past that ratio its iterations may run
out first, and it returns the iterate it has come to. The threshold is at least 2, which is
what the deployed pools have.
-/
theorem solvers_converge (hx : 0 < x) (hy : 0 < y) (hamp : 1 ≤ amp) (ht : 2 ≤ threshold) :
    (GetDFits x y amp threshold → x ≤ 2 * threshold ^ 2 * (2 * amp - 1) * y →
      ∃ d, getDExit x y amp threshold = .ok (d, .converged)) ∧
    ∀ xAmount, GetYFits xAmount x y amp threshold →
      ∃ y', getYExit xAmount x y amp threshold = .ok (y', .converged) := by
  obtain ⟨a, ha, han⟩ := exists_an hamp
  constructor
  · intro hfits hratio
    have ha' : 2 * amp - 1 = a := by
      unfold N_TOKENS at han
      omega
    rw [ha'] at hratio
    exact getDExit_converges hx hy ha ht han hratio hfits
  · intro xAmount hfits
    exact getYExit_converges hx hy ha (by omega) han hfits

/-- A pool eight times deeper on one side, at the smallest amplification. -/
theorem solvers_converge_eightfold :
    (∃ d, getDExit 8000 1000 1 2 = .ok (d, .converged)) ∧
      ∃ y', getYExit 500 8000 1000 1 2 = .ok (y', .converged) := by
  obtain ⟨hgetD, hgetY⟩ := @solvers_converge 8000 1000 1 2 (by decide) (by decide) (by decide)
    (by decide)
  exact ⟨hgetD (by decide +kernel) (by decide), hgetY 500 (by decide +kernel)⟩

/-- On a far pool `get_d` goes back and forth between two values three apart, until the cap. -/
theorem getD_runs_out :
    ¬ ∀ xAmount x y amp threshold, 0 < x → 0 < y → 1 ≤ amp → 2 ≤ threshold →
      GetYFits xAmount x y amp threshold →
      (∃ d, getDExit x y amp threshold = .ok (d, .converged)) ∧
        ∃ y', getYExit xAmount x y amp threshold = .ok (y', .converged) := by
  intro hall
  have hcycle : getDExit 2450 1 1 2 = .ok (354, .ranOut) := by decide +kernel
  obtain ⟨⟨d, hd⟩, -⟩ := hall 10 2450 1 1 2 (by decide) (by decide) (by decide) (by decide)
    (by decide +kernel)
  rw [hcycle] at hd
  obtain ⟨-, hexit⟩ := Prod.mk.inj (Except.ok.inj hd)
  exact absurd hexit (by decide)

end StacksDex.Results
