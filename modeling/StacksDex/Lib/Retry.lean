import Mathlib.Data.Nat.Basic

/-!
# Lib — bounded retries

A request is repeated while its answer says so, but only so many times. Which answer decides
depends on nothing but the answers: it is the first that does not ask for another attempt, or
the one after the last retry.

* `decisive again n i` computes that attempt by the client's own recursion;
* `decisive_spec` describes it without the recursion;
* `decisive_unique` says that the description fits no other attempt.

The answers are a function of the attempt's number, so that nothing is assumed about how they
depend on each other, or on what else happens between two attempts.
-/

namespace StacksDex.Lib.Retry

variable (again : Nat → Bool)

/-- From attempt `i` on, with `n` retries left: the attempt whose answer decides, where `again j`
says that answer `j` asks for another attempt. -/
def decisive : (n i : Nat) → Nat
  | 0, i => i
  | n + 1, i => if again i then decisive n (i + 1) else i

variable {again} {n i k : Nat}

/-- **The deciding attempt.** It is one of the `n + 1` attempts from `i` on, every answer before
it asked for another attempt, and it does not ask itself while there is a retry left. -/
theorem decisive_spec (again : Nat → Bool) (n i : Nat) :
    i ≤ decisive again n i ∧ decisive again n i ≤ i + n ∧
      (∀ j, i ≤ j → j < decisive again n i → again j = true) ∧
      (decisive again n i < i + n → again (decisive again n i) = false) := by
  induction n generalizing i with
  | zero => exact ⟨le_rfl, le_rfl, fun j hij hj => absurd hij (Nat.not_le.mpr hj),
      fun h => absurd h (Nat.lt_irrefl _)⟩
  | succ n ih =>
    rw [decisive]
    rcases hagain : again i
    · rw [if_neg Bool.false_ne_true]
      exact ⟨le_rfl, Nat.le_add_right i _, fun j hij hj => absurd hij (Nat.not_le.mpr hj),
        fun _ => hagain⟩
    · rw [if_pos rfl]
      obtain ⟨hlow, hhigh, hbefore, hstop⟩ := ih (i + 1)
      refine ⟨by omega, by omega, fun j hij hj => ?_, fun h => hstop (by omega)⟩
      rcases Nat.eq_or_lt_of_le hij with rfl | hlt
      · exact hagain
      · exact hbefore j hlt hj

/-- The four facts of `decisive_spec` determine the attempt. To find out which answer a client
acts on, it is enough to exhibit one attempt in range that is preceded only by answers that ask
again and does not ask again itself (or is the last). -/
theorem decisive_unique (hlow : i ≤ k) (hhigh : k ≤ i + n)
    (hbefore : ∀ j, i ≤ j → j < k → again j = true) (hstop : k < i + n → again k = false) :
    decisive again n i = k := by
  obtain ⟨hlow', hhigh', hbefore', hstop'⟩ := decisive_spec again n i
  rcases Nat.lt_trichotomy (decisive again n i) k with hlt | heq | hgt
  · have hagain := hbefore _ hlow' hlt
    rw [hstop' (by omega)] at hagain
    exact absurd hagain Bool.false_ne_true
  · exact heq
  · have hagain := hbefore' k hlow hgt
    rw [hstop (by omega)] at hagain
    exact absurd hagain Bool.false_ne_true

end StacksDex.Lib.Retry
