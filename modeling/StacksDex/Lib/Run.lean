import Mathlib.Data.List.Basic

/-!
# Lib — runs of a machine with labelled steps

A machine moves by a function `step : σ → ι → σ`. Whatever it does not decide
itself (what arrives, what fails, in which order a set is iterated) is in the
label, so a statement about every list of labels is one about every environment.

`Along P` says that every step of a run meets a condition on the state before it
and its label, `Sometime P` that some step does, `Always I` that every state of
the run meets `I`.

## Rules

* `always_of_along`: what each allowed step preserves, every run preserves;
* `always_iff_along`: the exact condition under which a property survives every step;
* `always_of_exec`: a property that never comes back, judged at the last state;
* `exec_or_sometime`: what was lost was lost in some step;
* `exec_filter`: steps that change nothing can be left out of a run.

Each is an induction on the labels, done here once. A model supplies the step lemma and
cites the rule.
-/

namespace StacksDex.Lib.Run

variable {σ ι : Type*} (step : σ → ι → σ)

/-- The state after the labels, first to last. -/
def exec (s : σ) (ls : List ι) : σ := ls.foldl step s

/-- Every step meets `P`. -/
def Along (P : σ → ι → Prop) : σ → List ι → Prop
  | _, [] => True
  | s, l :: ls => P s l ∧ Along P (step s l) ls

/-- Every state meets `I`, the first and the last included. -/
def Always (I : σ → Prop) : σ → List ι → Prop
  | s, [] => I s
  | s, l :: ls => I s ∧ Always I (step s l) ls

/-- Some step meets `P`. -/
def Sometime (P : σ → ι → Prop) : σ → List ι → Prop
  | _, [] => False
  | s, l :: ls => P s l ∨ Sometime P (step s l) ls

variable {step}

@[simp] theorem exec_nil (s : σ) : exec step s [] = s := rfl

@[simp] theorem exec_cons (s : σ) (l : ι) (ls : List ι) :
    exec step s (l :: ls) = exec step (step s l) ls := rfl

/-- A run in two parts: the second starts where the first ends. -/
theorem exec_append (s : σ) (ks ls : List ι) :
    exec step s (ks ++ ls) = exec step (exec step s ks) ls :=
  List.foldl_append

/-- A condition holds along a run in two parts when it holds along each, the second from the
state the first leads to. -/
theorem along_append {P : σ → ι → Prop} {s : σ} {ks ls : List ι} :
    Along step P s (ks ++ ls) ↔ Along step P s ks ∧ Along step P (exec step s ks) ls := by
  induction ks generalizing s with
  | nil => exact ⟨fun h => ⟨trivial, h⟩, fun h => h.2⟩
  | cons k ks ih =>
    -- the first step's condition stands in front on both sides
    show _ ∧ Along step P _ (ks ++ ls) ↔ (_ ∧ Along step P _ ks) ∧ _
    rw [ih, and_assoc]
    rfl

/-- A condition that does not depend on the state need only be checked on the labels. -/
theorem along_of_forall {P : σ → ι → Prop} {ls : List ι} (h : ∀ s, ∀ l ∈ ls, P s l) (s : σ) :
    Along step P s ls := by
  induction ls generalizing s with
  | nil => trivial
  | cons l ls ih =>
    exact ⟨h s l (List.mem_cons_self ..), ih (fun s k hk => h s k (List.mem_cons_of_mem _ hk)) _⟩

/-- A weaker condition holds along the same run. -/
theorem Along.mono {P Q : σ → ι → Prop} (h : ∀ s l, P s l → Q s l) {s : σ} {ls : List ι}
    (hrun : Along step P s ls) : Along step Q s ls := by
  induction ls generalizing s with
  | nil => trivial
  | cons l ls ih => exact ⟨h s l hrun.1, ih hrun.2⟩

/-- Two conditions that hold along a run hold there together. -/
theorem Along.and {P Q : σ → ι → Prop} {s : σ} {ls : List ι} (hP : Along step P s ls)
    (hQ : Along step Q s ls) : Along step (fun s l => P s l ∧ Q s l) s ls := by
  induction ls generalizing s with
  | nil => trivial
  | cons l ls ih => exact ⟨⟨hP.1, hQ.1⟩, ih hP.2 hQ.2⟩

/-- A weaker property holds in the same states. -/
theorem Always.mono {I J : σ → Prop} (h : ∀ s, I s → J s) {s : σ} {ls : List ι}
    (hI : Always step I s ls) : Always step J s ls := by
  induction ls generalizing s with
  | nil => exact h s hI
  | cons l ls ih => exact ⟨h s hI.1, ih hI.2⟩

/-- Two properties hold throughout together exactly when each does. -/
theorem always_and {I J : σ → Prop} {s : σ} {ls : List ι} :
    Always step (fun s => I s ∧ J s) s ls ↔ Always step I s ls ∧ Always step J s ls := by
  induction ls generalizing s with
  | nil => exact Iff.rfl
  | cons l ls ih => exact (and_congr_right fun _ => ih).trans and_and_and_comm

/-- What holds throughout holds at the start. -/
theorem Always.head {I : σ → Prop} {s : σ} {ls : List ι} (h : Always step I s ls) : I s := by
  cases ls with
  | nil => exact h
  | cons l ls => exact h.1

/-- What holds throughout holds at the end. -/
theorem Always.last {I : σ → Prop} {s : σ} {ls : List ι} (h : Always step I s ls) :
    I (exec step s ls) := by
  induction ls generalizing s with
  | nil => exact h
  | cons l ls ih => exact ih h.2

/-- Properties that agree wherever `W` holds are kept by the same runs, if `W` holds throughout.
The invariant `W` is usually proved first, and carries what both properties rely on. -/
theorem always_congr {I J W : σ → Prop} (h : ∀ s, W s → (I s ↔ J s)) {s : σ} {ls : List ι}
    (hW : Always step W s ls) : Always step I s ls ↔ Always step J s ls := by
  induction ls generalizing s with
  | nil => exact h s hW
  | cons l ls ih => exact and_congr (h s hW.1) (ih hW.2)

/-- **Invariants.** What every allowed step preserves holds of every state of the run. By
induction on the labels, so that the invariant has to be checked at one step only. -/
theorem always_of_along {I : σ → Prop} {P : σ → ι → Prop}
    (hstep : ∀ s l, I s → P s l → I (step s l)) {s : σ} {ls : List ι} (hI : I s)
    (hrun : Along step P s ls) : Always step I s ls := by
  induction ls generalizing s with
  | nil => exact hI
  | cons l ls ih => exact ⟨hI, ih (hstep s l hI hrun.1) hrun.2⟩

/-- What is lost for good was there all along when it is there at the end. `hback` says that a
step never brings the property back; then the last state speaks for all before it. -/
theorem always_of_exec {I J : σ → Prop} {V : σ → ι → Prop}
    (hJ : ∀ s l, J s → V s l → J (step s l)) (hback : ∀ s l, J s → I (step s l) → I s)
    {s : σ} {ls : List ι} (hJs : J s) (hvalid : Along step V s ls) (h : I (exec step s ls)) :
    Always step I s ls := by
  induction ls generalizing s with
  | nil => exact h
  | cons l ls ih =>
    have hrest : Always step I (step s l) ls := ih (hJ s l hJs hvalid.1) hvalid.2 h
    exact ⟨hback s l hJs hrest.head, hrest⟩

/-- **Blame.** What a run starts with and has lost at the end was lost in some step. With `E`
the event of losing it, `Sometime E` names the step to blame without saying which one it is. -/
theorem exec_or_sometime {I : σ → Prop} {P E : σ → ι → Prop}
    (hstep : ∀ s l, I s → P s l → I (step s l) ∨ E s l) {s : σ} {ls : List ι} (hI : I s)
    (hrun : Along step P s ls) : I (exec step s ls) ∨ Sometime step E s ls := by
  induction ls generalizing s with
  | nil => exact Or.inl hI
  | cons l ls ih =>
    -- either the first step is to blame, or the run goes on from a good state
    rcases hstep s l hI hrun.1 with hnext | hlost
    · exact (ih hnext hrun.2).imp_right Or.inr
    · exact Or.inr (Or.inl hlost)

/-- What every allowed step from a good state does is done along the whole run, once the states
are known to be good. -/
theorem along_of_always {I : σ → Prop} {P Q : σ → ι → Prop} (h : ∀ s l, I s → P s l → Q s l)
    {s : σ} {ls : List ι} (hI : Always step I s ls) (hP : Along step P s ls) :
    Along step Q s ls := by
  induction ls generalizing s with
  | nil => trivial
  | cons l ls ih => exact ⟨h s l hI.1 hP.1, ih hI.2 hP.2⟩

/-- **Stuttering.** Steps that do not lead away from a state that stands still can be left out
of its run. Two runs in step are related by `R`; a label that is kept moves both, and one that
is dropped moves the first only. -/
theorem exec_filter {R : σ → σ → Prop} {P : σ → ι → Prop} (keep : ι → Bool)
    (hboth : ∀ s t l, R s t → P s l → keep l = true → R (step s l) (step t l))
    (hdrop : ∀ s t l, R s t → P s l → keep l = false → R (step s l) t) {s t : σ} {ls : List ι}
    (hR : R s t) (hrun : Along step P s ls) :
    R (exec step s ls) (exec step t (ls.filter keep)) := by
  induction ls generalizing s t with
  | nil => exact hR
  | cons l ls ih =>
    rcases hkeep : keep l
    · rw [List.filter_cons_of_neg (by rw [hkeep]; exact Bool.false_ne_true)]
      exact ih (hdrop s t l hR hrun.1 hkeep) hrun.2
    · rw [List.filter_cons_of_pos hkeep]
      exact ih (hboth s t l hR hrun.1 hkeep) hrun.2

/-- **Exact conditions.** Where a step from a good state leads to a good state exactly when it
meets `P`, a run is good throughout exactly when all its steps meet `P`. Both directions come
from one local equivalence, which may use the invariant `J` of all valid runs. -/
theorem always_iff_along {I J : σ → Prop} {P V : σ → ι → Prop}
    (hJ : ∀ s l, J s → V s l → J (step s l))
    (hI : ∀ s l, J s → V s l → I s → (I (step s l) ↔ P s l)) {s : σ} {ls : List ι}
    (hJs : J s) (hIs : I s) (hvalid : Along step V s ls) :
    Always step I s ls ↔ Along step P s ls := by
  -- `J` holds throughout; from a good state each step decides the next
  induction ls generalizing s with
  | nil => exact ⟨fun _ => trivial, fun _ => hIs⟩
  | cons l ls ih =>
    have hnext := hI s l hJs hvalid.1 hIs
    constructor
    · intro h
      have hgood : I (step s l) := h.2.head
      exact ⟨hnext.mp hgood, (ih (hJ s l hJs hvalid.1) hgood hvalid.2).mp h.2⟩
    · intro h
      have hgood : I (step s l) := hnext.mpr h.1
      exact ⟨hIs, (ih (hJ s l hJs hvalid.1) hgood hvalid.2).mpr h.2⟩

end StacksDex.Lib.Run
