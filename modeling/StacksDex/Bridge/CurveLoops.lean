import StacksDex.Model.Curve

/-!
# StacksDex — rules for the Newton loops

What a round keeps, the loop keeps (`newtonLoop_inv`), and a rank that falls with every
round that does not end the loop bounds the rounds (`newtonLoop_converges`). Both look
only at the values the loop really has at its head (`iterates`), which is where a result
may assume that nothing saturates.

On these values the rounds of `get_d` and `get_y` never fail (`getDRound_ok`,
`getYRound_ok`), so neither do the solvers.
-/

namespace StacksDex.Bridge

open StacksDex.Model

section Loop

variable {round : Nat → Except Fault (Option Nat)} {threshold : Nat}

/-- The values at the head of the loop. -/
def iterates (round : Nat → Except Fault (Option Nat)) (threshold : Nat) : Nat → Nat → List Nat
  | 0, _ => []
  | fuel + 1, cur =>
    cur ::
      match round cur with
      | .ok (some new) =>
        if absDiff new cur ≤ threshold then [] else iterates round threshold fuel new
      | _ => []

/-- A round whose denominator is zero ends the loop with the value at hand. -/
theorem newtonLoop_succ_none {fuel cur : Nat} (h : round cur = .ok none) :
    newtonLoop round threshold (fuel + 1) cur = .ok (cur, .degenerate) := by
  rw [newtonLoop, h, ok_bind]

/-- A round that moves by no more than the threshold ends the loop with the new value. -/
theorem newtonLoop_succ_stop {fuel cur new : Nat} (h : round cur = .ok (some new))
    (hstop : absDiff new cur ≤ threshold) :
    newtonLoop round threshold (fuel + 1) cur = .ok (new, .converged) := by
  rw [newtonLoop, h, ok_bind]
  exact if_pos hstop

/-- Any other round goes on from the new value, with one round less to go. -/
theorem newtonLoop_succ_next {fuel cur new : Nat} (h : round cur = .ok (some new))
    (hnext : ¬ absDiff new cur ≤ threshold) :
    newtonLoop round threshold (fuel + 1) cur = newtonLoop round threshold fuel new := by
  rw [newtonLoop, h, ok_bind]
  exact if_neg hnext

/-- Then the new value is one of those the loop takes. -/
theorem iterates_succ_next {fuel cur new : Nat} (h : round cur = .ok (some new))
    (hnext : ¬ absDiff new cur ≤ threshold) :
    iterates round threshold (fuel + 1) cur = cur :: iterates round threshold fuel new := by
  rw [iterates, h]
  exact congrArg (cur :: ·) (if_neg hnext)

/-- The loop takes its first value. -/
theorem mem_iterates_self (fuel cur : Nat) : cur ∈ iterates round threshold (fuel + 1) cur :=
  List.mem_cons_self ..

/-- **What every round keeps, the loop keeps**, whichever way it is left. -/
theorem newtonLoop_inv {I : Nat → Prop} {fuel start : Nat}
    (hround : ∀ cur ∈ iterates round threshold fuel start, I cur →
      ∃ o, round cur = .ok o ∧ ∀ new, o = some new → I new)
    (hstart : I start) :
    ∃ r exit, newtonLoop round threshold fuel start = .ok (r, exit) ∧ I r := by
  induction fuel generalizing start with
  | zero => exact ⟨start, .ranOut, rfl, hstart⟩
  | succ fuel ih =>
    obtain ⟨o, ho, hkeep⟩ := hround start (mem_iterates_self fuel start) hstart
    rcases o with _ | new
    · exact ⟨start, .degenerate, newtonLoop_succ_none ho, hstart⟩
    have hnew : I new := hkeep new rfl
    by_cases hstop : absDiff new start ≤ threshold
    · exact ⟨new, .converged, newtonLoop_succ_stop ho hstop, hnew⟩
    · -- the rest of the loop runs on values the whole loop has, too
      rw [newtonLoop_succ_next ho hstop]
      refine ih (fun cur hcur => hround cur ?_) hnew
      rw [iterates_succ_next ho hstop]
      exact List.mem_cons_of_mem _ hcur

/-- A loop whose rounds never fail does not fail: it runs out of rounds at the latest. -/
theorem newtonLoop_ok (hround : ∀ cur, ∃ o, round cur = .ok o) (fuel start : Nat) :
    ∃ r, newtonLoop round threshold fuel start = .ok r := by
  have hkeeps : ∀ cur ∈ iterates round threshold fuel start, True →
      ∃ o, round cur = .ok o ∧ ∀ new, o = some new → True := by
    intro cur _ _
    obtain ⟨o, ho⟩ := hround cur
    exact ⟨o, ho, fun _ _ => trivial⟩
  obtain ⟨r, exit, h, -⟩ := newtonLoop_inv hkeeps trivial
  exact ⟨(r, exit), h⟩

/-- **A falling rank ends the loop** through its test. `I n cur` says that from `cur` at most
`n` rounds are left, so it holds of nothing at rank zero. -/
theorem newtonLoop_converges {I : Nat → Nat → Prop} (hzero : ∀ cur, ¬ I 0 cur)
    {fuel start n : Nat}
    (hround : ∀ n, ∀ cur ∈ iterates round threshold fuel start, I (n + 1) cur →
      ∃ new, round cur = .ok (some new) ∧ (absDiff new cur ≤ threshold ∨ I n new))
    (hfuel : n ≤ fuel) (hstart : I n start) :
    ∃ r, newtonLoop round threshold fuel start = .ok (r, .converged) := by
  induction fuel generalizing start n with
  | zero =>
    obtain rfl : n = 0 := Nat.le_zero.mp hfuel
    exact absurd hstart (hzero start)
  | succ fuel ih =>
    obtain _ | n := n
    · exact absurd hstart (hzero start)
    obtain ⟨new, hnew, hor⟩ := hround n start (mem_iterates_self fuel start) hstart
    by_cases hstop : absDiff new start ≤ threshold
    · exact ⟨new, newtonLoop_succ_stop hnew hstop⟩
    · rw [newtonLoop_succ_next hnew hstop]
      refine ih (fun m cur hcur => hround m cur ?_) (by omega) (hor.resolve_left hstop)
      rw [iterates_succ_next hnew hstop]
      exact List.mem_cons_of_mem _ hcur

end Loop

/-! ## No round fails -/

/-- A saturating product of positive factors is positive, so the divisors of a round are. -/
theorem saturatingMul_pos {a b : Nat} (ha : 0 < a) (hb : 0 < b) : 0 < saturatingMul a b :=
  lt_min (Nat.mul_pos ha hb) (by decide)

/-- A round of `get_d` never fails: its divisors are products of the reserves, and its
denominator is tested. -/
theorem getDRound_ok {xBal yBal an : Nat} (hx : 0 < xBal) (hy : 0 < yBal) (han : 0 < an)
    (s d : Nat) : ∃ o, getDRound xBal yBal an s d = .ok o := by
  have hn : 0 < N_TOKENS := by decide
  have hthree : u128Add true N_TOKENS 1 = .ok 3 := rfl
  unfold getDRound
  rw [u128Div_ok (saturatingMul_pos hn hx), ok_bind, u128Div_ok (saturatingMul_pos hn hy), ok_bind]
  dsimp only
  rw [u128Sub_ok han, ok_bind, hthree, ok_bind]
  by_cases hdenom : saturatingAdd (saturatingMul (an - 1) d) (saturatingMul 3
      (saturatingMul d (saturatingMul d d / saturatingMul N_TOKENS xBal) /
        saturatingMul N_TOKENS yBal)) = 0
  · exact ⟨none, if_pos hdenom⟩
  · rw [if_neg hdenom, u128Div_ok (Nat.pos_of_ne_zero hdenom), ok_bind]
    exact ⟨_, rfl⟩

/-- A round of `get_y` never fails: the subtraction in its denominator stands behind a
comparison. -/
theorem getYRound_ok (b c d y : Nat) : ∃ o, getYRound b c d y = .ok o := by
  unfold getYRound
  dsimp only
  by_cases hbelow : saturatingAdd (saturatingMul N_TOKENS y) b < d
  · exact ⟨none, if_pos hbelow⟩
  rw [if_neg hbelow, u128Sub_ok (by omega), ok_bind]
  by_cases hzero : saturatingAdd (saturatingMul N_TOKENS y) b - d = 0
  · exact ⟨none, if_pos hzero⟩
  · rw [if_neg hzero, u128Div_ok (Nat.pos_of_ne_zero hzero), ok_bind]
    exact ⟨_, rfl⟩

/-- So `get_d` returns for all reserves, amplifications and thresholds. -/
theorem getD_ok (xBal yBal amp threshold : Nat) :
    ∃ r, getDExit xBal yBal amp threshold = .ok r ∧ getD xBal yBal amp threshold = .ok r.1 := by
  suffices hexit : ∃ r, getDExit xBal yBal amp threshold = .ok r by
    obtain ⟨r, h⟩ := hexit
    exact ⟨r, h, by rw [getD, h, ok_bind]⟩
  unfold getDExit
  by_cases hzero : xBal = 0 ∨ yBal = 0 ∨ amp = 0
  · rw [if_pos hzero]
    exact ⟨_, rfl⟩
  rw [if_neg hzero]
  have han : 0 < saturatingMul amp N_TOKENS := saturatingMul_pos (by omega) (by decide)
  exact newtonLoop_ok (getDRound_ok (by omega) (by omega) han _) _ _

/-- And so does `get_y`. -/
theorem getY_ok (xAmount xBal yBal amp threshold : Nat) :
    ∃ y, getY xAmount xBal yBal amp threshold = .ok y := by
  suffices hexit : ∃ r, getYExit xAmount xBal yBal amp threshold = .ok r by
    obtain ⟨r, h⟩ := hexit
    exact ⟨r.1, by rw [getY, h, ok_bind]⟩
  unfold getYExit
  -- the two early returns of the source
  by_cases hzero : xBal = 0 ∨ yBal = 0 ∨ amp = 0
  · rw [if_pos hzero]
    exact ⟨_, rfl⟩
  rw [if_neg hzero]
  dsimp only
  by_cases hnone : saturatingAdd xBal xAmount = 0
  · rw [if_pos hnone]
    exact ⟨_, rfl⟩
  rw [if_neg hnone]
  -- past them every divisor is positive, and the loop returns
  obtain ⟨d, -, hd⟩ := getD_ok xBal yBal amp threshold
  have hn : 0 < N_TOKENS := by decide
  have han : 0 < saturatingMul amp N_TOKENS := saturatingMul_pos (by omega) hn
  rw [hd, ok_bind, u128Div_ok (saturatingMul_pos hn (Nat.pos_of_ne_zero hnone)), ok_bind,
    u128Div_ok (saturatingMul_pos han hn), ok_bind, u128Div_ok han, ok_bind]
  exact newtonLoop_ok (getYRound_ok _ _ _) _ _

end StacksDex.Bridge
