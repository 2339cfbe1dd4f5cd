import StacksDex.Bridge.CurveSolver

/-!
# StacksDex — when the curve solvers converge

`get_d` cannot rise by more than its threshold as long as the reserves are not too far
apart: the two floors of `d_part` are worth less than that. So each of its rounds either
ends the loop or falls, and a fall closes a third of the distance to the root.

The loop of `get_y` always ends: after its first round it only falls, by half of the
distance each time.

In both loops the number of rounds is bounded by how often the distance can be divided before
it is below the threshold, and that is compared with the source's bound. The conditions under
which nothing saturates (`GetDFits`, `GetYFits`) are about the values the loops really take.
-/

namespace StacksDex.Bridge

open StacksDex.Lib StacksDex.Model

/-! ## `get_d` -/

section GetD

variable {x y a D t : Nat}

/-- Reserves close enough for the rounding of `d_part` to be harmless at threshold `t`. -/
def NotFarApart (x y a t : Nat) : Prop := x ≤ 2 * t ^ 2 * a * y

/-- The slope of the curve is worth the rounding of the first quotient, twice. -/
theorem NotFarApart.two_mul_le {u v : Nat} (h : NotFarApart x y a t) (hu : D * D = 2 * x * u + v)
    (hv : v < 2 * x) (hu2 : 2 ≤ u) : 2 * D ≤ t * (2 * y * a + 3 * u) := by
  unfold NotFarApart at h
  -- the arithmetic mean of the two parts of the slope is at least the geometric mean
  have hmean : 24 * (y * a * u) ≤ (2 * y * a + 3 * u) * (2 * y * a + 3 * u) := by
    zify
    nlinarith [sq_nonneg (2 * (y : ℤ) * a - 3 * u)]
  have hratio : 12 * (x * u) ≤ t * t * (24 * (y * a * u)) :=
    calc 12 * (x * u) ≤ 12 * (2 * t ^ 2 * a * y * u) :=
          Nat.mul_le_mul_left _ (Nat.mul_le_mul_right _ h)
      _ = t * t * (24 * (y * a * u)) := by ring
  have hsquare : 2 * D * (2 * D) < 12 * (x * u) + 1 := by nlinarith
  refine Nat.mul_self_le_mul_self_iff.mp ?_
  calc 2 * D * (2 * D) ≤ 12 * (x * u) := Nat.lt_succ_iff.mp hsquare
    _ ≤ t * t * (24 * (y * a * u)) := hratio
    _ ≤ t * t * ((2 * y * a + 3 * u) * (2 * y * a + 3 * u)) := Nat.mul_le_mul_left _ hmean
    _ = t * (2 * y * a + 3 * u) * (t * (2 * y * a + 3 * u)) := by ring

/-- The other half of the slope is worth the rounding of the second quotient. -/
theorem rest_le {u w : Nat} (ht : 2 ≤ t) (hD : 2 ≤ D) (hw : w < 2 * y) (hu : 2 * y ≤ u) :
    2 * ((D + 3 * t) * w) ≤ D * (t * (2 * y + 3 * u)) :=
  calc 2 * ((D + 3 * t) * w) ≤ 2 * ((D + 3 * t) * (2 * y)) :=
        Nat.mul_le_mul_left _ (Nat.mul_le_mul_left _ hw.le)
    _ = y * (4 * D + 12 * t) := by ring
    _ ≤ y * (8 * (D * t)) := Nat.mul_le_mul_left _ (by nlinarith)
    _ = D * (t * (2 * y + 3 * (2 * y))) := by ring
    _ ≤ D * (t * (2 * y + 3 * u)) := by gcongr

/-- From seven on it is worth the distance to the next integer, too. -/
theorem rest_le_of_seven {u w : Nat} (hy : 0 < y) (ht : 2 ≤ t) (hD : 7 ≤ D) (hw : w < 2 * y)
    (hu : 2 * y ≤ u) :
    2 * ((D + 3 * t + 3) * w) + 6 * D + 4 * u + 4 ≤ D * (t * (2 * y + 3 * u)) := by
  have hDt : 14 ≤ D * t := Nat.mul_le_mul hD ht
  have hwy : (D + 3 * t + 3) * (w + 1) ≤ (D + 3 * t + 3) * (2 * y) := Nat.mul_le_mul_left _ hw
  have hDD : D * 2 ≤ D * t := Nat.mul_le_mul_left _ ht
  have htt : 7 * t ≤ D * t := Nat.mul_le_mul_right _ hD
  obtain ⟨k, rfl⟩ := Nat.exists_eq_add_of_le hu
  obtain ⟨j, rfl⟩ := Nat.exists_eq_add_of_le (show 1 ≤ y from hy)
  have hk : 4 * k ≤ 3 * (D * t) * k := Nat.mul_le_mul_right _ (by omega)
  have hj : (4 * D + 12 * t + 20) * j ≤ 8 * (D * t) * j := Nat.mul_le_mul_right _ (by omega)
  linarith

/-- What the roundings of `d_part` are worth at `D`, when it is right of the geometric mean. -/
theorem NotFarApart.rounding_le (h : NotFarApart x y a t) (hx : 0 < x) (hy : 0 < y) (ha : 0 < a)
    (ht : 2 ≤ t) (hD : 2 ≤ D) (hmean : 4 * x * y ≤ D * D) :
    ∃ e, D ^ 3 = 4 * x * y * dPart x y D + e ∧
      D * e ≤ t * (4 * x * y * (a * D + 3 * dPart x y D)) ∧
      (7 ≤ D → D * e + 3 * e + 3 * D ^ 2 + D ≤ t * (4 * x * y * (a * D + 3 * dPart x y D))) := by
  obtain ⟨u, v, w, hu, hv, hw, hw'⟩ := dPart_error hx hy D
  refine ⟨2 * x * w + D * v, cube_eq hu hw, ?_⟩
  have hu2 : 2 * y ≤ u := by
    by_contra hlt
    nlinarith [Nat.mul_le_mul_left (2 * x) (show u + 1 ≤ 2 * y by omega)]
  have htwo := Nat.mul_le_mul_left D (h.two_mul_le hu hv (by omega))
  have hya : y ≤ y * a := Nat.le_mul_of_pos_right y ha
  -- the denominator, in units of `2 * x`
  have hslope : t * (4 * x * y * (a * D + 3 * dPart x y D)) + 2 * x * (3 * t * w) =
      2 * x * (D * (t * (2 * y * a + 3 * u))) := by
    calc t * (4 * x * y * (a * D + 3 * dPart x y D)) + 2 * x * (3 * t * w) =
          2 * x * t * (2 * y * a * D + 3 * (2 * y * dPart x y D + w)) := by ring
      _ = 2 * x * (D * (t * (2 * y * a + 3 * u))) := by rw [← hw]; ring
  generalize dPart x y D = P at hslope ⊢
  have hDv : D * (D * v) ≤ D * (D * (2 * x)) :=
    Nat.mul_le_mul_left _ (Nat.mul_le_mul_left _ hv.le)
  have hhalf : D * (t * (2 * y + 3 * u)) ≤ D * (t * (2 * y * a + 3 * u)) :=
    Nat.mul_le_mul_left _ (Nat.mul_le_mul_left _ (by linarith))
  constructor
  · have hrest := rest_le ht hD hw' hu2
    have hinner := Nat.mul_le_mul_left (2 * x)
      (show D * w + D * D + 3 * t * w ≤ D * (t * (2 * y * a + 3 * u)) by linarith)
    linarith
  · intro hseven
    have hrest := rest_le_of_seven hy ht hseven hw' hu2
    have hinner := Nat.mul_le_mul_left (2 * x)
      (show (D + 3 * t + 3) * w + D * D + 3 * D + 2 * u + 2 ≤
        D * (t * (2 * y * a + 3 * u)) by linarith)
    have hsquare : D * D ≤ 2 * x * (u + 1) := by linarith
    have hDDv : D * (D * (v + 1)) ≤ D * (D * (2 * x)) :=
      Nat.mul_le_mul_left _ (Nat.mul_le_mul_left _ hv)
    have hDv₁ : 3 * D * (v + 1) ≤ 3 * D * (2 * x) := Nat.mul_le_mul_left _ hv
    linarith

/-- A value three units below the sum of the reserves is not among the smallest. -/
theorem Bracketed.seven_le (hx : 0 < x) (hy : 0 < y) (ha : 0 < a) (h : Bracketed x y a D)
    (hfar : D + 3 ≤ x + y) : 7 ≤ D := by
  have hcube := h.cube_of_far ha hfar
  -- two positive reserves of this sum have a product of at least the sum less one
  have hprod : 4 * (D + 2) ≤ 4 * x * y := by nlinarith
  have hscaled : 4 * (D + 2) * (D + 5) ≤ 4 * x * y * (D + 5) := Nat.mul_le_mul_right _ hprod
  by_contra hlt
  have hsix : D ≤ 6 := by omega
  have hcubic : D ^ 2 * D ≤ D ^ 2 * 6 := Nat.mul_le_mul_left _ hsix
  have hsquare : D * D ≤ D * 6 := Nat.mul_le_mul_left _ hsix
  linarith

/-- **A round of `get_d` rises by at most the threshold.** -/
theorem Bracketed.nextD_le_add (hx : 0 < x) (hy : 0 < y) (ha : 0 < a) (ht : 2 ≤ t)
    (hr : NotFarApart x y a t) (h : Bracketed x y a D) : nextD x y a D ≤ D + t := by
  by_cases hnear : x + y ≤ D + t
  · exact (h.nextD_le hx hy ha).trans hnear
  have hseven : 7 ≤ D := h.seven_le hx hy ha (by omega)
  have hmean : 4 * x * y ≤ D * D := by
    by_contra hlt
    obtain ⟨-, hsum⟩ := h.sum_le ha (not_le.mp hlt)
    omega
  obtain ⟨e, he, -, hround⟩ := hr.rounding_le hx hy ha ht (by omega) hmean
  exact Newton.step_le_add ha (by omega) he h.reach (hround hseven)

/-- **Right of the root a round closes a third of the distance**, up to the threshold. -/
theorem Bracketed.nextD_shrinks (hx : 0 < x) (hy : 0 < y) (ha : 0 < a) (ht : 2 ≤ t)
    (hr : NotFarApart x y a t) (h : Bracketed x y a D) {m : Nat}
    (hm : Newton.Above a ((a + 1) * (x + y)) (4 * x * y) m) (hle : m ≤ D) :
    3 * nextD x y a D ≤ 2 * D + m + 3 * t := by
  have hq : 0 < 4 * x * y := by positivity
  have habove := hm.mono hle
  -- right of the root is right of the geometric mean
  have hmean : 4 * x * y < D * D := by
    unfold Newton.Above at habove
    have hslope : a * D * (4 * x * y) ≤ a * (x + y) * (4 * x * y) :=
      Nat.mul_le_mul_right _ (Nat.mul_le_mul_left _ h.le_sum)
    have hline : D * (4 * x * y) ≤ (x + y) * (4 * x * y) := Nat.mul_le_mul_right _ h.le_sum
    have hcube : D * (4 * x * y) < D * (D * D) := by linarith
    exact Nat.lt_of_mul_lt_mul_left hcube
  have hD : 2 ≤ D := by
    have hfour : 4 ≤ 4 * x * y := by
      rw [Nat.mul_assoc]
      exact Nat.le_mul_of_pos_right _ (Nat.mul_pos hx hy)
    nlinarith
  obtain ⟨e, he, hround, -⟩ := hr.rounding_le hx hy ha ht hD hmean.le
  exact Newton.step_shrinks ha hq (by omega) he hm hle hround

/-- **`get_d` ends through its test** when the reserves are not too far apart. -/
theorem getDExit_converges {amp : Nat} (hx : 0 < x) (hy : 0 < y) (ha : 0 < a) (ht : 2 ≤ t)
    (han : amp * N_TOKENS = a + 1) (hr : NotFarApart x y a t) (h : GetDFits x y amp t) :
    ∃ d, getDExit x y amp t = .ok (d, .converged) := by
  have hamp : 0 < amp := amp_pos_of_an han
  have hrounds := h.rounds
  have hsum := h.s
  rw [getDExit_eq hx hy hamp h]
  rw [han] at hrounds ⊢
  -- the first integer right of the root
  obtain ⟨m, hm, hleast⟩ : ∃ m, Newton.Above a ((a + 1) * (x + y)) (4 * x * y) m ∧
      ∀ n, Newton.Above a ((a + 1) * (x + y)) (4 * x * y) n → m ≤ n := by
    classical
    have hex := Exists.intro _ (bracketed_start hx hy a).reach
    exact ⟨Nat.find hex, Nat.find_spec hex, fun n hn => Nat.find_min' hex hn⟩
  refine newtonLoop_converges (n := 223)
    (I := fun n cur => Bracketed x y a cur ∧ Newton.Within m t n cur) (fun _ hI => hI.2)
    ?_ (by decide) ⟨bracketed_start hx hy a, ?_⟩
  · rintro n cur hcur ⟨hbracket, hwithin⟩
    have hnext := hbracket.next hx hy ha
    have hreach : m ≤ nextD x y a cur + 1 := hleast _ hnext.reach
    refine ⟨_, getDRound_eq hx hy ha (hbracket.pos hx hy) (hrounds cur hcur), ?_⟩
    by_cases hstop : absDiff (nextD x y a cur) cur ≤ t
    · exact Or.inl hstop
    refine Or.inr ⟨hnext, ?_⟩
    -- it did not rise, so it fell
    have hrise := hbracket.nextD_le_add hx hy ha ht hr
    have hfall : nextD x y a cur + t < cur := by
      unfold absDiff at hstop
      omega
    exact hwithin.next hreach hfall
      (hbracket.nextD_shrinks hx hy ha ht hr hm (by omega))
  · show (x + y - m - 3 * t) * 2 ^ 220 ≤ 3 ^ 220
    have hle : x + y - m - 3 * t ≤ u128Max := by omega
    calc (x + y - m - 3 * t) * 2 ^ 220 ≤ u128Max * 2 ^ 220 := Nat.mul_le_mul_right _ hle
      _ ≤ 3 ^ 220 := by decide

end GetD

/-! ## `get_y` -/

section GetY

variable {b c d t : Nat}

/-- From `cur`, at most `n` rounds of `get_y`; `s` is the last integer left of the root. Before
the first round nothing is known of `cur`. -/
def RoundsLeft (b d s n cur : Nat) : Prop :=
  0 < n ∧ d < N_TOKENS * cur + b ∧ (n = 130 ∨ s ≤ cur ∧ cur < s + 2 ^ (n - 1))

/-- **A round of `get_y`** that does not end the loop leaves one round less to go. The first one
lands right of the point where the loop stops at the latest; each one after it halves the
distance. -/
theorem RoundsLeft.next {s n cur : Nat} (ht : 1 ≤ t) (hbelow : Newton.Below b c d s)
    (hs : ¬ Newton.Below b c d (s + 1)) (hfits : YRoundFits b c cur)
    (h : RoundsLeft b d s (n + 1) cur) :
    absDiff (Newton.quadStep b c d cur) cur ≤ t ∨
      RoundsLeft b d s n (Newton.quadStep b c d cur) := by
  obtain ⟨-, hden, hleft⟩ := h
  have hreach : s ≤ Newton.quadStep b c d cur := Newton.le_quadStep hden hbelow
  obtain hden' | ⟨hzero, hone⟩ := Newton.denom_pos_of_step hden hbelow hs
  -- the denominator stays positive, so another round follows
  · rcases hleft with hstart | ⟨hle, hlt⟩
    · -- the first round lands within the machine's range
      obtain rfl : n = 129 := by omega
      have hrange : Newton.quadStep b c d cur ≤ u128Max :=
        (Nat.div_le_self _ _).trans hfits.numer
      have hmax : u128Max < 2 ^ (129 - 1) := by decide
      exact Or.inr ⟨by decide, hden', Or.inr ⟨hreach, by omega⟩⟩
    rw [Nat.add_sub_cancel] at hlt
    rcases Nat.eq_or_lt_of_le hle with rfl | hright
    · -- from the last integer left of the root the step goes nowhere
      have hstep := Newton.quadStep_le_succ hden hs
      refine Or.inl ?_
      unfold absDiff
      omega
    -- right of the root each round halves the distance
    · obtain ⟨-, hhalf⟩ := Newton.quadStep_halves hs hright
      obtain _ | n := n
      · rw [Nat.pow_zero] at hlt
        omega
      · rw [Nat.pow_succ] at hlt
        refine Or.inr ⟨Nat.succ_pos n, hden', Or.inr ⟨hreach, ?_⟩⟩
        rw [Nat.add_sub_cancel]
        omega
  -- a denominator of zero ends the loop where it is
  · refine Or.inl ?_
    rw [hzero]
    unfold absDiff
    omega

/-- **The loop of `get_y` ends through its test**, whatever the coefficients. -/
theorem getYLoop_converges (hd : 0 < d) (ht : 1 ≤ t)
    (hfits : ∀ y ∈ iterates (getYRound b c d) t NEWTON_MAX_ITERS d, YRoundFits b c y) :
    ∃ y, newtonLoop (getYRound b c d) t NEWTON_MAX_ITERS d = .ok (y, .converged) := by
  obtain ⟨s, hbelow, hs⟩ := Newton.exists_last_below b c d
  refine newtonLoop_converges (n := 130) (I := RoundsLeft b d s)
    (fun _ hI => Nat.lt_irrefl 0 hI.1) ?_ (by decide) ?_
  · intro n cur hcur hleft
    exact ⟨_, getYRound_eq hleft.2.1 (hfits cur hcur), hleft.next ht hbelow hs (hfits cur hcur)⟩
  · refine ⟨by decide, ?_, Or.inl rfl⟩
    unfold N_TOKENS
    omega

/-- So `get_y` always ends by its test, within its bound on the rounds, as long as nothing
saturates. -/
theorem getYExit_converges {x y a amp xAmount : Nat} (hx : 0 < x) (hy : 0 < y) (ha : 0 < a)
    (ht : 1 ≤ t) (han : amp * N_TOKENS = a + 1) (h : GetYFits xAmount x y amp t) :
    ∃ y', getYExit xAmount x y amp t = .ok (y', .converged) := by
  have hamp : 0 < amp := amp_pos_of_an han
  obtain ⟨d, hd, hbracket⟩ := getD_bracketed hx hy ha han h.solveD
  rw [getYExit_eq hx hy hamp h hd]
  exact getYLoop_converges (hbracket.pos hx hy) ht (h.solveY d hd).rounds

end GetY

end StacksDex.Bridge
