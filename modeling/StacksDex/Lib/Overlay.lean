import Mathlib.Data.List.Basic
import Mathlib.Data.Option.Basic

/-!
# Lib — overlays: states written by partial assignments

A state is a total assignment of values to cells (`(k : κ) → ν k`). A `Patch`
assigns some cells and leaves the others alone, whatever the state was. A log of
patches acts on a state through the *last* patch that writes each cell
(`applyAll_apply`), and everything below follows from that one fact:

* `applyAll_merge` — two logs that write different cells may be merged in any
  order that keeps each log's own order;
* `applyAll_replay` — replaying both logs from anywhere at or before the point
  a snapshot was taken at leads to the state of one complete run;
* `replay_eq_iff` — and replaying a log from past that point leaves a cell right exactly
  when a later patch writes it, or the patches in between leave it as the snapshot has it;
* `apply_of_current` — delivering a patch again is harmless exactly while it is
  still the last writer of every cell it writes (`apply_eq_iff_current`).
-/

namespace StacksDex.Lib.Overlay

variable {κ : Type*} {ν : κ → Type*}

/-- A partial assignment of cells. -/
abbrev Patch (ν : κ → Type*) := (k : κ) → Option (ν k)

/-- The patch that writes nothing. -/
def Patch.empty : Patch ν := fun _ => none

/-- Overwrite the cells the patch assigns, keep the others. -/
def Patch.apply (p : Patch ν) (s : (k : κ) → ν k) : (k : κ) → ν k :=
  fun k => (p k).getD (s k)

/-- Apply a log of patches, first to last. -/
def applyAll (ps : List (Patch ν)) (s : (k : κ) → ν k) : (k : κ) → ν k :=
  ps.foldl (fun s p => p.apply s) s

/-- What the last patch writing the cell puts there, if any patch writes it. -/
def lastWrite (ps : List (Patch ν)) (k : κ) : Option (ν k) :=
  ps.foldl (fun acc p => (p k).or acc) none

@[simp] theorem empty_apply (s : (k : κ) → ν k) : Patch.empty.apply s = s := rfl

@[simp] theorem applyAll_nil (s : (k : κ) → ν k) : applyAll [] s = s := rfl

@[simp] theorem applyAll_cons (p : Patch ν) (ps : List (Patch ν)) (s : (k : κ) → ν k) :
    applyAll (p :: ps) s = applyAll ps (p.apply s) := rfl

/-- A log acts as its first part and then its second. -/
theorem applyAll_append (ps qs : List (Patch ν)) (s : (k : κ) → ν k) :
    applyAll (ps ++ qs) s = applyAll qs (applyAll ps s) := by
  simp [applyAll]

@[simp] theorem lastWrite_nil (k : κ) : lastWrite ([] : List (Patch ν)) k = none := rfl

/-- The last writer is in the second part of a log if that part writes the cell at all. -/
theorem lastWrite_append (ps qs : List (Patch ν)) (k : κ) :
    lastWrite (ps ++ qs) k = (lastWrite qs k).or (lastWrite ps k) := by
  -- the fold over `qs` needs its start only where `qs` writes nothing
  have hfrom : ∀ (qs : List (Patch ν)) (o : Option (ν k)),
      qs.foldl (fun acc p => (p k).or acc) o = (lastWrite qs k).or o := by
    intro qs
    induction qs with
    | nil => intro o; rfl
    | cons q qs ih =>
      intro o
      rw [lastWrite, List.foldl_cons, List.foldl_cons, ih, ih]
      simp [Option.or_assoc]
  rw [lastWrite, List.foldl_append]
  exact hfrom qs _

@[simp] theorem lastWrite_cons (p : Patch ν) (ps : List (Patch ν)) (k : κ) :
    lastWrite (p :: ps) k = (lastWrite ps k).or (p k) := by
  have h := lastWrite_append [p] ps k
  simpa [lastWrite] using h

/-- **The last writer decides.** A cell of the result is what the last patch that writes it has
written, or what it was before. Neither the order of the other patches nor the rest of the state
matters. -/
theorem applyAll_apply (ps : List (Patch ν)) (s : (k : κ) → ν k) (k : κ) :
    applyAll ps s k = (lastWrite ps k).getD (s k) := by
  induction ps generalizing s with
  | nil => rfl
  | cons p ps ih =>
    rw [applyAll_cons, ih, lastWrite_cons, Patch.apply]
    cases lastWrite ps k <;> simp

/-- A cell of the result depends on that cell of the start only. -/
theorem applyAll_congr_at (ps : List (Patch ν)) {s s' : (k : κ) → ν k} {k : κ} (h : s k = s' k) :
    applyAll ps s k = applyAll ps s' k := by
  rw [applyAll_apply, applyAll_apply, h]

/-- A cell that no patch writes has no last writer. -/
theorem lastWrite_eq_none {ps : List (Patch ν)} {k : κ} (h : ∀ p ∈ ps, p k = none) :
    lastWrite ps k = none := by
  induction ps with
  | nil => rfl
  | cons p ps ih =>
    rw [lastWrite_cons, ih fun q hq => h q (List.mem_cons_of_mem _ hq),
      h p (List.mem_cons_self ..), Option.or_none]

/-- Logs with the same last writers act alike. -/
theorem applyAll_congr {ps qs : List (Patch ν)} (h : ∀ k, lastWrite ps k = lastWrite qs k)
    (s : (k : κ) → ν k) : applyAll ps s = applyAll qs s := by
  funext k
  rw [applyAll_apply, applyAll_apply, h k]

/-! ## Merging two logs -/

/-- `Merge xs ys zs`: `zs` is a merge of `xs` and `ys` that keeps each list's order. -/
inductive Merge {α : Type*} : List α → List α → List α → Prop
  | nil : Merge [] [] []
  | left {x : α} {xs ys zs : List α} : Merge xs ys zs → Merge (x :: xs) ys (x :: zs)
  | right {y : α} {xs ys zs : List α} : Merge xs ys zs → Merge xs (y :: ys) (y :: zs)

/-- The concatenation is one of the merges, the one in which all of the first log comes first. -/
theorem Merge.append {α : Type*} (xs ys : List α) : Merge xs ys (xs ++ ys) := by
  induction xs with
  | nil =>
    induction ys with
    | nil => exact .nil
    | cons y ys ih => exact .right ih
  | cons x xs ih => exact .left ih

/-- Merging commutes with translating the entries, so a merge of events is a merge of their
patches. -/
theorem Merge.map {α β : Type*} (f : α → β) {xs ys zs : List α} (h : Merge xs ys zs) :
    Merge (xs.map f) (ys.map f) (zs.map f) := by
  induction h with
  | nil => exact .nil
  | left _ ih => exact .left ih
  | right _ ih => exact .right ih

/-- No cell is written by both logs. -/
def Separate (ps qs : List (Patch ν)) : Prop :=
  ∀ k, (∀ p ∈ ps, p k = none) ∨ (∀ q ∈ qs, q k = none)

/-- Parts of separate logs are separate. -/
theorem Separate.mono {ps qs ps' qs' : List (Patch ν)} (h : Separate ps qs)
    (hps : ps' ⊆ ps) (hqs : qs' ⊆ qs) : Separate ps' qs' := fun k =>
  (h k).imp (fun hp p hp' => hp p (hps hp')) (fun hq q hq' => hq q (hqs hq'))

/-- In a merge the last writer of a cell is the last writer in the log that writes it. The other
log does not touch the cell, wherever its patches have come to stand. -/
theorem lastWrite_merge {ps qs ms : List (Patch ν)} (hsep : Separate ps qs)
    (h : Merge ps qs ms) (k : κ) :
    lastWrite ms k = (lastWrite qs k).or (lastWrite ps k) := by
  induction h with
  | nil => rfl
  | @left p ps qs ms _ ih =>
    have hsep' : Separate ps qs := hsep.mono (List.subset_cons_self p ps) (List.Subset.refl _)
    rw [lastWrite_cons, lastWrite_cons, ih hsep', Option.or_assoc]
  | @right q ps qs ms _ ih =>
    have hsep' : Separate ps qs := hsep.mono (List.Subset.refl _) (List.subset_cons_self q qs)
    rw [lastWrite_cons, lastWrite_cons, ih hsep', Option.or_assoc, Option.or_assoc]
    congr 1
    -- the cell is written by one log only, so the two writers may swap
    rcases hsep k with hp | hq
    · simp [lastWrite_eq_none hp]
    · simp [hq q (List.mem_cons_self ..)]

/-- **Merge convergence.** Every merge of two separate logs acts like running one after the
other, so any two merges act alike. -/
theorem applyAll_merge {ps qs ms : List (Patch ν)} (hsep : Separate ps qs)
    (h : Merge ps qs ms) (s : (k : κ) → ν k) :
    applyAll ms s = applyAll (ps ++ qs) s :=
  applyAll_congr (fun k => by rw [lastWrite_merge hsep h, lastWrite_append]) s

/-! ## Replaying a log -/

/-- Replaying from `i ≤ j` over the prefix of length `j` has the whole log's last writers. -/
theorem lastWrite_replay (ps : List (Patch ν)) {i j : Nat} (hij : i ≤ j) (k : κ) :
    (lastWrite (ps.drop i) k).or (lastWrite (ps.take j) k) = lastWrite ps k := by
  have hwhole : lastWrite ps k =
      (lastWrite (ps.drop i) k).or (lastWrite (ps.take i) k) := by
    rw [← lastWrite_append, List.take_append_drop]
  have hgrown : lastWrite (ps.take j) k =
      (lastWrite ((ps.take j).drop i) k).or (lastWrite (ps.take i) k) := by
    have htake : ps.take i = (ps.take j).take i := by rw [List.take_take, Nat.min_eq_left hij]
    rw [htake, ← lastWrite_append, List.take_append_drop]
  have hsuffix : lastWrite (ps.drop i) k =
      (lastWrite (ps.drop j) k).or (lastWrite ((ps.take j).drop i) k) := by
    rw [← lastWrite_append]
    congr 1
    rw [List.drop_take]
    conv_lhs => rw [← List.take_append_drop (j - i) (ps.drop i), List.drop_drop]
    simp [Nat.add_sub_cancel' hij]
  rw [hwhole, hgrown, hsuffix]
  cases lastWrite (ps.drop j) k <;> cases lastWrite ((ps.take j).drop i) k <;> simp

/-- **Replay convergence.** A snapshot taken after prefixes of two separate logs, with both logs
replayed from at or before those points, reaches the state of one complete run. A patch that is
in the snapshot and in the replay is applied twice, the second time followed by all that came
after it. -/
theorem applyAll_replay {ps qs snap rest : List (Patch ν)} (hsep : Separate ps qs)
    {p₀ p₁ q₀ q₁ : Nat} (hp : p₁ ≤ p₀) (hq : q₁ ≤ q₀)
    (hsnap : Merge (ps.take p₀) (qs.take q₀) snap)
    (hrest : Merge (ps.drop p₁) (qs.drop q₁) rest) (s : (k : κ) → ν k) :
    applyAll rest (applyAll snap s) = applyAll (ps ++ qs) s := by
  have hsep₀ : Separate (ps.take p₀) (qs.take q₀) :=
    hsep.mono (List.take_subset _ _) (List.take_subset _ _)
  have hsep₁ : Separate (ps.drop p₁) (qs.drop q₁) :=
    hsep.mono (List.drop_subset _ _) (List.drop_subset _ _)
  rw [← applyAll_append]
  refine applyAll_congr ?_ s
  intro k
  rw [lastWrite_append, lastWrite_append, lastWrite_merge hsep₀ hsnap,
    lastWrite_merge hsep₁ hrest, ← lastWrite_replay ps hp, ← lastWrite_replay qs hq]
  rcases hsep k with h | h
  · have hnone : ∀ l : List (Patch ν), l ⊆ ps → lastWrite l k = none :=
      fun l hl => lastWrite_eq_none fun p hp' => h p (hl hp')
    simp [hnone _ (List.take_subset _ _), hnone _ (List.drop_subset _ _)]
  · have hnone : ∀ l : List (Patch ν), l ⊆ qs → lastWrite l k = none :=
      fun l hl => lastWrite_eq_none fun p hp' => h p (hl hp')
    simp [hnone _ (List.take_subset _ _), hnone _ (List.drop_subset _ _)]

/-- **Replay with a gap.** Cell by cell, replaying from `j` over the prefix of length `i` gives
what the whole log does, unless a patch between the two was the last to write it and what it
wrote differs from what the snapshot has. -/
theorem replay_eq_iff (ps : List (Patch ν)) (i j : Nat) (s : (k : κ) → ν k) (k : κ) :
    applyAll (ps.drop j) (applyAll (ps.take i) s) k = applyAll ps s k ↔
      lastWrite (ps.drop j) k ≠ none ∨
        applyAll ((ps.take j).drop i) (applyAll (ps.take i) s) k = applyAll (ps.take i) s k := by
  rcases Nat.le_total j i with hji | hij
  · -- nothing lies between, and the replay is complete
    have hgap : (ps.take j).drop i = [] :=
      List.drop_eq_nil_of_le (Nat.le_trans (List.length_take_le j ps) hji)
    have hwhole : applyAll (ps.drop j) (applyAll (ps.take i) s) k = applyAll ps s k := by
      rw [← applyAll_append, applyAll_apply, applyAll_apply, lastWrite_append,
        lastWrite_replay ps hji]
    exact iff_of_true hwhole (Or.inr (by rw [hgap, applyAll_nil]))
  -- a gap lies between; the log is the snapshot's prefix, the gap and the replayed rest
  · have hsplit : ps = ps.take i ++ (ps.take j).drop i ++ ps.drop j := by
      have htake : ps.take i = (ps.take j).take i := by rw [List.take_take, Nat.min_eq_left hij]
      rw [htake, List.take_append_drop, List.take_append_drop]
    have hall : applyAll ps s =
        applyAll (ps.drop j) (applyAll ((ps.take j).drop i) (applyAll (ps.take i) s)) := by
      rw [← applyAll_append, ← applyAll_append, ← List.append_assoc, ← hsplit]
    -- a write in the rest hides the gap, and otherwise the gap has to leave the cell alone
    rw [hall, applyAll_apply (ps.drop j), applyAll_apply (ps.drop j)]
    cases lastWrite (ps.drop j) k with
    | none =>
      rw [Option.getD_none, Option.getD_none]
      exact ⟨fun h => Or.inr h.symm, fun h => (h.resolve_left fun hne => hne rfl).symm⟩
    | some v => exact iff_of_true rfl (Or.inl nofun)

/-- Patches that do not write a cell may be left out. -/
theorem lastWrite_filter {α : Type*} (f : α → Patch ν) (keep : α → Bool) {xs : List α} {k : κ}
    (h : ∀ x ∈ xs, keep x = false → f x k = none) :
    lastWrite ((xs.filter keep).map f) k = lastWrite (xs.map f) k := by
  induction xs with
  | nil => rfl
  | cons x xs ih =>
    have hrest := ih fun y hy => h y (List.mem_cons_of_mem _ hy)
    rw [List.map_cons, lastWrite_cons, ← hrest]
    cases hx : keep x with
    | true => rw [List.filter_cons_of_pos hx, List.map_cons, lastWrite_cons]
    | false =>
      rw [List.filter_cons_of_neg (by rw [hx]; exact Bool.false_ne_true),
        h x (List.mem_cons_self ..) hx, Option.or_none]

/-- A log without the patches that do not write a cell leaves that cell the same. -/
theorem applyAll_filter {α : Type*} (f : α → Patch ν) (keep : α → Bool) {xs : List α} {k : κ}
    (h : ∀ x ∈ xs, keep x = false → f x k = none) (s : (k : κ) → ν k) :
    applyAll ((xs.filter keep).map f) s k = applyAll (xs.map f) s k := by
  rw [applyAll_apply, applyAll_apply, lastWrite_filter f keep h]

/-- A cell has a last writer exactly when it has a writer. -/
theorem lastWrite_ne_none_iff {ps : List (Patch ν)} {k : κ} :
    lastWrite ps k ≠ none ↔ ∃ p ∈ ps, p k ≠ none := by
  constructor
  · intro h
    by_contra hnone
    exact h (lastWrite_eq_none fun p hp => by_contra fun hne => hnone ⟨p, hp, hne⟩)
  · rintro ⟨p, hp, hne⟩ hnone
    obtain ⟨l₁, l₂, rfl⟩ := List.append_of_mem hp
    rw [lastWrite_append, lastWrite_cons] at hnone
    cases h : lastWrite l₂ k with
    | none =>
      rw [h, Option.none_or] at hnone
      exact hne (Option.or_eq_none_iff.mp hnone).1
    | some v =>
      rw [h] at hnone
      cases hnone

/-! ## Delivering a patch again -/

/-- The patch is still the last writer of every cell it writes, up to the value written. -/
def Current (ps : List (Patch ν)) (p : Patch ν) : Prop :=
  ∀ k v, p k = some v → lastWrite ps k = some v

/-- Delivering a current patch again changes nothing: every cell it writes already holds what it
writes. -/
theorem apply_of_current {ps : List (Patch ν)} {p : Patch ν} (h : Current ps p)
    (s : (k : κ) → ν k) : p.apply (applyAll ps s) = applyAll ps s := by
  funext k
  rw [Patch.apply, applyAll_apply]
  cases hk : p k with
  | none => rfl
  | some v => simp [h k v hk]

/-- For a patch of the log itself, delivering it again is harmless exactly while it is current.
Once another patch has written one of its cells to another value, delivering it again takes that
back. -/
theorem apply_eq_iff_current {ps : List (Patch ν)} {p : Patch ν} (hp : p ∈ ps)
    (s : (k : κ) → ν k) : p.apply (applyAll ps s) = applyAll ps s ↔ Current ps p := by
  refine ⟨?_, fun h => apply_of_current h s⟩
  intro heq k v hk
  have hwritten : lastWrite ps k ≠ none :=
    lastWrite_ne_none_iff.mpr ⟨p, hp, by rw [hk]; exact nofun⟩
  obtain ⟨w, hw⟩ := Option.ne_none_iff_exists'.mp hwritten
  have hcell := congrFun heq k
  rw [Patch.apply, applyAll_apply, hk, hw] at hcell
  simp only [Option.getD_some] at hcell
  rw [hw, hcell]

end StacksDex.Lib.Overlay
