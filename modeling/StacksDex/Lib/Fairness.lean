import Mathlib.Order.WellFounded
import StacksDex.Lib.Run

/-!
# Lib — schedules and what they come to

A schedule is an endless list of labels, one a step; `turn` says whose step a label is. A fair
schedule gives everyone a turn again and again, and promises nothing else: between two turns of
one component the others may take as many steps as they like, in any order.

* `trace` — the state a schedule has led to after `n` steps;
* `trace_along`, `trace_of_le` — what holds at some time and is preserved holds at every later
  one, possibly on the condition that the steps meet something (a network that answers, say);
* `Fair.reaches` — the rule for progress: as long as the goal is not met there is someone whose
  next turn, whatever it brings, makes a measure smaller, and nothing makes it grow or puts
  another in charge. Then the goal is met;
* `Fair.reaches_along` — the same where the steps have to meet a condition.

The measure may be in any well-founded order, so a lexicographic one is allowed: what comes
first may take many steps, each of which resets what comes second.
-/

namespace StacksDex.Lib.Run

variable {σ ι κ α : Type*} (step : σ → ι → σ)

/-- The state after the first `n` steps of a schedule. -/
def trace (sched : ℕ → ι) (s : σ) (n : ℕ) : σ := exec step s ((List.range n).map sched)

/-- Everyone gets a turn again and again. -/
def Fair (turn : ι → Option κ) (sched : ℕ → ι) : Prop :=
  ∀ k n, ∃ m, n ≤ m ∧ turn (sched m) = some k

section Trace

variable {step} {sched : ℕ → ι} {s : σ}

@[simp] theorem trace_zero : trace step sched s 0 = s := rfl

/-- The state after `n + 1` steps is one step from the state after `n`. -/
theorem trace_succ (n : ℕ) :
    trace step sched s (n + 1) = step (trace step sched s n) (sched n) := by
  rw [trace, List.range_succ, List.map_append, exec_append]
  rfl

/-- What the steps preserve, as far as they meet a condition, holds for good: from a state of
the trace where it holds, as long as all later steps meet the condition. -/
theorem trace_along {I : σ → Prop} {R : σ → ι → Prop} (hstep : ∀ s l, R s l → I s → I (step s l))
    {n m : ℕ} (hle : n ≤ m) (hR : ∀ i, n ≤ i → R (trace step sched s i) (sched i))
    (h : I (trace step sched s n)) : I (trace step sched s m) := by
  induction m, hle using Nat.le_induction with
  | base => exact h
  | succ m hm ih =>
    rw [trace_succ]
    exact hstep _ _ (hR m hm) ih

/-- What every step preserves holds for good. -/
theorem trace_of_le {I : σ → Prop} (hstep : ∀ s l, I s → I (step s l)) {n m : ℕ} (hle : n ≤ m)
    (h : I (trace step sched s n)) : I (trace step sched s m) :=
  trace_along (R := fun _ _ => True) (fun s l _ => hstep s l) hle (fun _ _ => trivial) h

end Trace

variable {step}

/-- **Progress.** A fair schedule reaches its goal, where short of the goal the measure never
grows, the one whose turn makes it smaller stays the same as long as it does not shrink, and
that turn comes. The steps may have to meet a condition. The induction is on the measure: wait
for the helper's turn, during which the measure has not grown, and start again from below. -/
theorem Fair.reaches_along [Preorder α] [WellFoundedLT α] {turn : ι → Option κ} {I P : σ → Prop}
    {R : σ → ι → Prop} (measure : σ → α) (helper : σ → κ)
    (hI : ∀ s l, R s l → I s → I (step s l))
    (hkeep : ∀ s l, R s l → I s → ¬ P s → measure (step s l) < measure s ∨
      (measure (step s l) = measure s ∧ helper (step s l) = helper s))
    (hhelp : ∀ s l, R s l → I s → ¬ P s → turn l = some (helper s) →
      measure (step s l) < measure s)
    {sched : ℕ → ι} (hfair : Fair turn sched) {s : σ} {n : ℕ}
    (hR : ∀ i, n ≤ i → R (trace step sched s i) (sched i)) (hn : I (trace step sched s n)) :
    ∃ m, n ≤ m ∧ P (trace step sched s m) := by
  -- the measure at the step in question goes down until the goal is met
  induction hm : measure (trace step sched s n) using WellFoundedLT.induction generalizing n with
  | ind a ih =>
    obtain ⟨t, hnt, hturn⟩ := hfair (helper (trace step sched s n)) n
    by_contra hnever
    have hshort : ∀ i, n ≤ i → ¬ P (trace step sched s i) := fun i hi hP => hnever ⟨i, hi, hP⟩
    have hkept : ∀ i, n ≤ i → I (trace step sched s i) := fun i hi => trace_along hI hi hR hn
    -- it cannot go down, or the smaller measure would lead to the goal
    have hsmaller : ∀ i, n ≤ i → ¬ measure (trace step sched s (i + 1)) < a := by
      intro i hi hless
      have hlater : n ≤ i + 1 := Nat.le_succ_of_le hi
      obtain ⟨m, him, hgoal⟩ :=
        ih _ hless (fun j hj => hR j (hlater.trans hj)) (hkept _ hlater) rfl
      exact hshort m (hlater.trans him) hgoal
    -- so everything stays as it is until the helper's turn
    have hsame : ∀ i, n ≤ i → measure (trace step sched s i) = a ∧
        helper (trace step sched s i) = helper (trace step sched s n) := by
      intro i hi
      induction i, hi using Nat.le_induction with
      | base => exact ⟨hm, rfl⟩
      | succ i hi ihi =>
        have hnot := hsmaller i hi
        rw [trace_succ, ← ihi.1] at hnot
        obtain ⟨hmeasure, hhelper⟩ :=
          (hkeep _ (sched i) (hR i hi) (hkept i hi) (hshort i hi)).resolve_left hnot
        rw [trace_succ]
        exact ⟨hmeasure.trans ihi.1, hhelper.trans ihi.2⟩
    obtain ⟨hmeasure, hhelper⟩ := hsame t hnt
    refine hsmaller t hnt ?_
    rw [trace_succ, ← hmeasure]
    exact hhelp _ _ (hR t hnt) (hkept t hnt) (hshort t hnt) (hhelper ▸ hturn)

/-- The rule without a condition on the steps, for machines whose invariant every label
preserves. -/
theorem Fair.reaches [Preorder α] [WellFoundedLT α] {turn : ι → Option κ} {I P : σ → Prop}
    (measure : σ → α) (helper : σ → κ) (hI : ∀ s l, I s → I (step s l))
    (hkeep : ∀ s l, I s → ¬ P s → measure (step s l) < measure s ∨
      (measure (step s l) = measure s ∧ helper (step s l) = helper s))
    (hhelp : ∀ s l, I s → ¬ P s → turn l = some (helper s) → measure (step s l) < measure s)
    {sched : ℕ → ι} (hfair : Fair turn sched) {s : σ} {n : ℕ} (hn : I (trace step sched s n)) :
    ∃ m, n ≤ m ∧ P (trace step sched s m) :=
  hfair.reaches_along (R := fun _ _ => True) measure helper (fun s l _ => hI s l)
    (fun s l _ => hkeep s l) (fun s l _ => hhelp s l) (fun _ _ => trivial) hn

end StacksDex.Lib.Run
