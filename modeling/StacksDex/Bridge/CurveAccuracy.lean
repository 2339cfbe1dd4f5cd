import Mathlib.Data.Nat.Cast.Order.Field
import StacksDex.Bridge.CurveConvergence
import StacksDex.Bridge.CurveReserves
import StacksDex.Lib.NewtonRoots

/-!
# StacksDex — how near the curve the solvers end

A loop that converges ends with a round that moved by at most the threshold
(`newtonLoop_last`). Such a round of `get_d` ends within five thresholds of the invariant
(`getD_near`), one of `get_y` within a threshold of the root of its equation
(`getYLoop_near`). The coefficients of that equation are the curve's, rounded down, so the
new reserve is near the curve itself (`getY_near`).

The distances are those of the last round alone. How the loop came there does not matter,
only that it ended by its test and not by the bound on its rounds, which is what
`Bridge/CurveConvergence.lean` is about.
-/

namespace StacksDex.Bridge

open StacksDex.Lib StacksDex.Model

section Loop

variable {round : Nat → Except Fault (Option Nat)} {threshold : Nat}

/-- A loop that converges ends with a round that moved by at most the threshold. -/
theorem newtonLoop_last {I : Nat → Prop} {fuel start r : Nat}
    (hround : ∀ cur ∈ iterates round threshold fuel start, I cur →
      ∀ new, round cur = .ok (some new) → I new)
    (hstart : I start) (h : newtonLoop round threshold fuel start = .ok (r, .converged)) :
    ∃ cur ∈ iterates round threshold fuel start, I cur ∧ round cur = .ok (some r) ∧
      absDiff r cur ≤ threshold := by
  induction fuel generalizing start with
  | zero => exact absurd (Prod.mk.inj (Except.ok.inj h)).2 (by decide)
  | succ fuel ih =>
    have hself : start ∈ iterates round threshold (fuel + 1) start := mem_iterates_self fuel start
    rcases hres : round start with f | o
    · rw [newtonLoop, hres, error_bind] at h
      cases h
    -- a round that returns no value does not count as converged
    rcases o with _ | new
    · rw [newtonLoop_succ_none hres] at h
      exact absurd (Prod.mk.inj (Except.ok.inj h)).2 (by decide)
    -- this round is the last one, or the loop goes on with its value
    by_cases hstop : absDiff new start ≤ threshold
    · rw [newtonLoop_succ_stop hres hstop] at h
      obtain rfl : new = r := (Prod.mk.inj (Except.ok.inj h)).1
      exact ⟨start, hself, hstart, hres, hstop⟩
    · rw [newtonLoop_succ_next hres hstop] at h
      have hrest : iterates round threshold (fuel + 1) start =
          start :: iterates round threshold fuel new := iterates_succ_next hres hstop
      obtain ⟨cur, hcur, hI, hlast, hmove⟩ := ih
        (fun cur hcur => hround cur (hrest ▸ List.mem_cons_of_mem _ hcur))
        (hround start hself hstart new hres) h
      exact ⟨cur, hrest ▸ List.mem_cons_of_mem _ hcur, hI, hlast, hmove⟩

end Loop

/-- A distance, as two inequalities without subtraction. -/
theorem absDiff_le_iff {a b t : Nat} : absDiff a b ≤ t ↔ a ≤ b + t ∧ b ≤ a + t := by
  unfold absDiff
  omega

/-! ## `get_d` -/

section GetD

variable {x y a amp t : Nat}

/-- **`get_d` ends near the invariant of the curve**: less than one unit left of it, at most
five thresholds right of it. -/
theorem getD_near (hx : 0 < x) (hy : 0 < y) (ha : 0 < a) (ht : 2 ≤ t)
    (han : amp * N_TOKENS = a + 1) (hr : NotFarApart x y a t) (h : GetDFits x y amp t) {r : ℝ}
    (hroot : Newton.CubicRoot a ((a + 1) * (x + y)) (4 * x * y) r) :
    ∃ d, getDExit x y amp t = .ok (d, .converged) ∧ r < d + 1 ∧ (d : ℝ) ≤ r + 5 * t + 1 := by
  have hamp : 0 < amp := amp_pos_of_an han
  have hrounds := h.rounds
  obtain ⟨d, hd⟩ := getDExit_converges hx hy ha ht han hr h
  refine ⟨d, hd, ?_⟩
  rw [getDExit_eq hx hy hamp h] at hd
  rw [han] at hd hrounds
  have hstep : ∀ cur ∈ iterates (getDRound x y (a + 1) (x + y)) t NEWTON_MAX_ITERS (x + y),
      Bracketed x y a cur → ∀ new,
        getDRound x y (a + 1) (x + y) cur = .ok (some new) → new = nextD x y a cur := by
    intro cur hcur hbracket new hnew
    rw [getDRound_eq hx hy ha (hbracket.pos hx hy) (hrounds cur hcur)] at hnew
    exact (Option.some.inj (Except.ok.inj hnew)).symm
  obtain ⟨cur, hcur, hbracket, hlast, hmove⟩ := newtonLoop_last (I := Bracketed x y a)
    (fun cur hcur hb new hnew => hstep cur hcur hb new hnew ▸ hb.next hx hy ha)
    (bracketed_start hx hy a) hd
  obtain rfl := hstep cur hcur hbracket d hlast
  obtain ⟨hup, hdown⟩ := absDiff_le_iff.mp hmove
  have hnext := hbracket.next hx hy ha
  -- the first integer right of the root
  obtain ⟨m, hm, hleast⟩ : ∃ m : Nat, r < m ∧ (m : ℝ) ≤ r + 1 :=
    ⟨⌊r⌋₊ + 1, by exact_mod_cast Nat.lt_floor_add_one r,
      by exact_mod_cast add_le_add_left (Nat.floor_le hroot.nonneg) 1⟩
  have habove := (hroot.above_iff m).mpr hm
  have hnear : nextD x y a cur ≤ m + 5 * t := by
    rcases Nat.lt_or_ge cur m with hleft | hright
    · omega
    · have hshrink := hbracket.nextD_shrinks hx hy ha ht hr habove hright
      omega
  have hreach := (hroot.above_iff _).mp hnext.reach
  have hnear' : (nextD x y a cur : ℝ) ≤ m + 5 * t := by exact_mod_cast hnear
  push_cast at hreach
  exact ⟨hreach, by linarith⟩

end GetD

/-! ## `get_y` -/

section GetY

variable {b c d t y : Nat}

/-- **The loop of `get_y` ends near the root of its equation**: less than one unit left of it,
at most a threshold right of it. -/
theorem getYLoop_near
    (hfits : ∀ y ∈ iterates (getYRound b c d) t NEWTON_MAX_ITERS d, YRoundFits b c y)
    (h : newtonLoop (getYRound b c d) t NEWTON_MAX_ITERS d = .ok (y, .converged)) :
    Newton.quadRoot b c d < y + 1 ∧ (y : ℝ) ≤ Newton.quadRoot b c d + t := by
  obtain ⟨cur, hcur, -, hlast, hmove⟩ := newtonLoop_last (I := fun _ => True)
    (fun _ _ _ _ _ => trivial) trivial h
  have hden : d < N_TOKENS * cur + b := by
    by_contra hge
    rw [getYRound_none (not_lt.mp hge) (hfits cur hcur)] at hlast
    exact nomatch Except.ok.inj hlast
  rw [getYRound_eq hden (hfits cur hcur)] at hlast
  obtain rfl := Option.some.inj (Except.ok.inj hlast)
  obtain ⟨hup, hdown⟩ := absDiff_le_iff.mp hmove
  exact Newton.quadStep_near hden hup hdown

end GetY

section Coefficients

variable {X an d : Nat}

/-- The linear coefficient is within one unit of the curve's, below it. -/
theorem linearCoeff_near (han : 0 < an) : (linearCoeff X an d : ℝ) ≤ X + d / an ∧
    (X + d / an : ℝ) ≤ linearCoeff X an d + 1 := by
  have han' : (0 : ℝ) < an := by exact_mod_cast han
  have hfloor : ((d / an : Nat) : ℝ) ≤ d / an := Nat.cast_div_le
  have hquot : (d : ℝ) < an * ((d / an : Nat) + 1) := by
    exact_mod_cast Nat.lt_mul_div_succ d han
  have hceil : (d / an : ℝ) ≤ (d / an : Nat) + 1 := by
    rw [div_le_iff₀ han']
    linarith
  unfold linearCoeff
  push_cast
  constructor <;> linarith

/-- The two floors of the constant coefficient. -/
theorem constantCoeff_near (hX : 0 < X) (han : 0 < an) :
    (constantCoeff X an d : ℝ) ≤ d ^ 3 / (4 * X * an) ∧
      (d ^ 3 / (4 * X * an) : ℝ) ≤ constantCoeff X an d + d / (2 * an) + 1 := by
  have hX' : (0 : ℝ) < X := by exact_mod_cast hX
  have han' : (0 : ℝ) < an := by exact_mod_cast han
  -- the two divisions, each off by less than one
  have hu : d * d / (2 * X) * (2 * X) ≤ d * d := Nat.div_mul_le_self _ _
  have hu' : d * d < 2 * X * (d * d / (2 * X) + 1) := Nat.lt_mul_div_succ _ (by omega)
  have hv : d * d / (2 * X) * d / (an * N_TOKENS) * (an * N_TOKENS) ≤ d * d / (2 * X) * d :=
    Nat.div_mul_le_self _ _
  have hv' : d * d / (2 * X) * d <
      an * N_TOKENS * (d * d / (2 * X) * d / (an * N_TOKENS) + 1) :=
    Nat.lt_mul_div_succ _ (Nat.mul_pos han (by decide))
  unfold constantCoeff
  unfold N_TOKENS at hv hv' ⊢
  generalize d * d / (2 * X) = u at hu hu' hv hv' ⊢
  generalize u * d / (an * 2) = v at hv hv' ⊢
  -- the same bounds over the reals
  have hlow : (u * (2 * X) : ℝ) ≤ d * d := by exact_mod_cast hu
  have hhigh : (d * d : ℝ) ≤ 2 * X * (u + 1) := by exact_mod_cast hu'.le
  have hlow' : (v * (an * 2) : ℝ) ≤ u * d := by exact_mod_cast hv
  have hhigh' : (u * d : ℝ) ≤ an * 2 * (v + 1) := by exact_mod_cast hv'.le
  have hd : (0 : ℝ) ≤ d := Nat.cast_nonneg d
  constructor
  · rw [le_div_iff₀ (by positivity)]
    have hscaled : (v * (an * 2) : ℝ) * (2 * X) ≤ u * d * (2 * X) := by gcongr
    have hcube : (u * (2 * X) : ℝ) * d ≤ d * d * d := by gcongr
    linarith
  · have hscaled : (u * d : ℝ) * (2 * X) ≤ an * 2 * (v + 1) * (2 * X) := by gcongr
    have hcube : (d * d : ℝ) * d ≤ 2 * X * (u + 1) * d := by gcongr
    rw [div_le_iff₀ (by positivity)]
    have hexpand : (v + d / (2 * an) + 1 : ℝ) * (4 * X * an) =
        (v + 1) * (4 * X * an) + 2 * X * d := by
      field_simp
      ring
    rw [hexpand]
    linarith

/-- **The root of the rounded equation is near the curve**, as long as the first reserve is at
most `an` times the invariant. -/
theorem quadRoot_near_curve (hX : 0 < X) (han : 0 < an) (hreach : X ≤ an * d) :
    Newton.quadRoot (linearCoeff X an d) (constantCoeff X an d) d ≤ Newton.curveRoot an X d + 1 ∧
      (Newton.curveRoot an X d ≤ 10 / 3 ∨ Newton.curveRoot an X d ≤
        Newton.quadRoot (linearCoeff X an d) (constantCoeff X an d) d + 2) := by
  obtain ⟨hb, hb'⟩ := linearCoeff_near (X := X) (d := d) han
  obtain ⟨hc, hc'⟩ := constantCoeff_near (d := d) hX han
  have hnonneg : (0 : ℝ) ≤ constantCoeff X an d := Nat.cast_nonneg _
  refine ⟨Newton.quadRoot_le_add_one hnonneg hb' hc, ?_⟩
  rcases le_total (Newton.curveRoot an X d) (10 / 3) with hsmall | hlarge
  · exact Or.inl hsmall
  refine Or.inr (Newton.le_quadRoot_add_two hnonneg hb hc' ?_ hlarge)
  have hX' : (0 : ℝ) < X := by exact_mod_cast hX
  have han' : (0 : ℝ) < an := by exact_mod_cast han
  have hreach' : (X : ℝ) ≤ an * d := by exact_mod_cast hreach
  have hcube : (d : ℝ) ^ 2 * X ≤ d ^ 2 * (an * d) := by gcongr
  rw [div_pow, div_le_div_iff₀ (by positivity) (by positivity)]
  have hscaled : (d : ℝ) ^ 2 * X * (4 * an) ≤ d ^ 2 * (an * d) * (4 * an) := by gcongr
  linarith

end Coefficients

section Reserve

variable {x y a amp t xAmount : Nat}

/-- `get_y` ends near the root of its equation. -/
theorem getY_near_root (hx : 0 < x) (hy : 0 < y) (ha : 0 < a) (ht : 1 ≤ t)
    (han : amp * N_TOKENS = a + 1) (h : GetYFits xAmount x y amp t) {d : Nat}
    (hd : getD x y amp t = .ok d) :
    ∃ y', getY xAmount x y amp t = .ok y' ∧
      Newton.quadRoot (linearCoeff (x + xAmount) (a + 1) d) (constantCoeff (x + xAmount) (a + 1) d)
        d < y' + 1 ∧
      (y' : ℝ) ≤ Newton.quadRoot (linearCoeff (x + xAmount) (a + 1) d)
        (constantCoeff (x + xAmount) (a + 1) d) d + t := by
  obtain ⟨y', hy'⟩ := getYExit_converges hx hy ha ht han h
  have hrounds := (h.solveY d hd).rounds
  refine ⟨y', by rw [getY, hy', ok_bind], ?_⟩
  rw [getYExit_eq hx hy (amp_pos_of_an han) h hd] at hy'
  rw [han] at hy' hrounds
  exact getYLoop_near hrounds hy'

/-- **The new reserve is near the curve** through the invariant that `get_d` found. -/
theorem getY_near (hx : 0 < x) (hy : 0 < y) (ha : 0 < a) (ht : 1 ≤ t)
    (han : amp * N_TOKENS = a + 1) (h : GetYFits xAmount x y amp t)
    (hreach : (x + xAmount + (a + 1)) ^ 2 ≤ (a + 1) ^ 2 * (4 * x * y)) :
    ∃ d y', getD x y amp t = .ok d ∧ getY xAmount x y amp t = .ok y' ∧ 0 < d ∧
      Newton.curveRoot (a + 1 : Nat) (x + xAmount : Nat) d < y' + 4 ∧
      (y' : ℝ) ≤ Newton.curveRoot (a + 1 : Nat) (x + xAmount : Nat) d + t + 1 := by
  obtain ⟨d, hd, hbracket⟩ := getD_bracketed hx hy ha han h.solveD
  obtain ⟨y', hy', hlow, hhigh⟩ := getY_near_root hx hy ha ht han h hd
  refine ⟨d, y', hd, hy', hbracket.pos hx hy, ?_⟩
  -- the invariant is at least the geometric mean
  have hgeo := hbracket.four_mul_lt
  have hX : x + xAmount ≤ (a + 1) * d := by
    have hlt : (x + xAmount + (a + 1)) ^ 2 < ((a + 1) * (d + 1)) ^ 2 :=
      calc (x + xAmount + (a + 1)) ^ 2 ≤ (a + 1) ^ 2 * (4 * x * y) := hreach
        _ < (a + 1) ^ 2 * ((d + 1) * (d + 1)) :=
          Nat.mul_lt_mul_of_pos_left hgeo (Nat.pow_pos (Nat.succ_pos a))
        _ = ((a + 1) * (d + 1)) ^ 2 := by ring
    have := lt_of_pow_lt_pow_left₀ 2 (Nat.zero_le _) hlt
    linarith
  obtain ⟨hright, hleft⟩ := quadRoot_near_curve (X := x + xAmount) (d := d) (by omega)
    (show 0 < a + 1 from Nat.succ_pos a) hX
  have hnonneg : (0 : ℝ) ≤ y' := Nat.cast_nonneg y'
  constructor
  · rcases hleft with hsmall | hlarge
    · linarith
    · linarith
  · linarith

/-- It grows with the reserve. -/
theorem linearCoeff_mono {X X' : Nat} (h : X ≤ X') (an d : Nat) :
    linearCoeff X an d ≤ linearCoeff X' an d := Nat.add_le_add_right h _

/-- The constant coefficient falls as the reserve grows. -/
theorem constantCoeff_anti {X X' : Nat} (hX : 0 < X) (h : X ≤ X') (an d : Nat) :
    constantCoeff X' an d ≤ constantCoeff X an d :=
  Nat.div_le_div_right (Nat.mul_le_mul_right _
    (Nat.div_le_div_left (Nat.mul_le_mul_left 2 h) (by omega)))

/-- **More input leaves no more of the other reserve**, up to a threshold. -/
theorem getY_antitone (hx : 0 < x) (hy : 0 < y) (hamp : 0 < amp) (ht : 1 ≤ t) {xAmount' : Nat}
    (h : GetYFits xAmount x y amp t) (h' : GetYFits xAmount' x y amp t)
    (hle : xAmount ≤ xAmount') :
    ∃ y₁ y₂, getY xAmount x y amp t = .ok y₁ ∧ getY xAmount' x y amp t = .ok y₂ ∧
      y₂ ≤ y₁ + t := by
  obtain ⟨a, ha, han⟩ := exists_an hamp
  obtain ⟨d, hd, -⟩ := getD_bracketed hx hy ha han h.solveD
  obtain ⟨y₁, hy₁, hlow, -⟩ := getY_near_root hx hy ha ht han h hd
  obtain ⟨y₂, hy₂, -, hhigh⟩ := getY_near_root hx hy ha ht han h' hd
  refine ⟨y₁, y₂, hy₁, hy₂, ?_⟩
  have hX : x + xAmount ≤ x + xAmount' := Nat.add_le_add_left hle x
  have hroots := Newton.quadRoot_mono (d := d) (Nat.cast_nonneg _)
    (Nat.cast_le.mpr (linearCoeff_mono hX (a + 1) d))
    (Nat.cast_le.mpr (constantCoeff_anti (by omega) hX (a + 1) d))
  have hlt : (y₂ : ℝ) < (y₁ + t + 1 : Nat) := by
    push_cast
    linarith
  exact Nat.lt_succ_iff.mp (Nat.cast_lt.mp hlt)

end Reserve

end StacksDex.Bridge
