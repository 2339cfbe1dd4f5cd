import Mathlib.Data.List.Basic
import Mathlib.Order.Lattice

/-!
# Lib — ordered association lists

An ordered map kept as an association list in ascending key order, for
value types that contain the map itself (where a search tree could not be used
as a field of the inductive type). Keys are compared through an injection
`ord : κ → β` into a linear order.

* `Ascending ord l` — the invariant: keys strictly ascend along `l`;
* `insert ord k v l` — insert, replacing the value of an equal key;
* `insertAll ord l entries` — insert entries one by one, first to last.

## Results

* `ascending_insert`, `ascending_insertAll` — the operations keep the invariant;
* `mem_insertAll`, `length_insertAll_le` — they add nothing of their own;
* `insertAll_ascending` — the fact a decoder needs: inserting the entries of an
  ascending list one by one, starting from the empty map, rebuilds that list.
-/

namespace StacksDex.Lib.SortedAssoc

variable {κ ν β : Type*} [LinearOrder β] (ord : κ → β)

/-- Keys strictly ascend along the list. -/
def Ascending (l : List (κ × ν)) : Prop :=
  l.Pairwise fun a b => ord a.1 < ord b.1

instance (l : List (κ × ν)) : Decidable (Ascending ord l) :=
  inferInstanceAs (Decidable (l.Pairwise fun a b => ord a.1 < ord b.1))

/-- Insert an entry at its place, replacing the value of an equal key. -/
def insert (k : κ) (v : ν) : List (κ × ν) → List (κ × ν)
  | [] => [(k, v)]
  | (k', v') :: rest =>
    if ord k < ord k' then (k, v) :: (k', v') :: rest
    else if ord k' < ord k then (k', v') :: insert k v rest
    else (k, v) :: rest

/-- Every entry of an updated map is the new one or an old one. -/
theorem mem_insert {k : κ} {v : ν} {l : List (κ × ν)} {e : κ × ν}
    (he : e ∈ insert ord k v l) : e = (k, v) ∨ e ∈ l := by
  induction l with
  | nil => simpa [insert] using he
  | cons x rest ih =>
    rw [insert] at he
    split_ifs at he
    · simpa using he
    · rcases List.mem_cons.mp he with rfl | hrest
      · exact Or.inr (List.mem_cons_self ..)
      · exact (ih hrest).imp_right (List.mem_cons_of_mem _)
    · exact (List.mem_cons.mp he).imp_right (List.mem_cons_of_mem _)

/-- Insertion keeps the invariant. -/
theorem ascending_insert {k : κ} {v : ν} {l : List (κ × ν)} (hl : Ascending ord l) :
    Ascending ord (insert ord k v l) := by
  induction l with
  | nil => simp [insert, Ascending]
  | cons x rest ih =>
    obtain ⟨hx, hrest⟩ := List.pairwise_cons.mp hl
    rw [insert]
    split_ifs with hlt hgt
    -- the new key goes in front
    · refine List.pairwise_cons.mpr ⟨?_, hl⟩
      intro e he
      rcases List.mem_cons.mp he with rfl | he'
      · exact hlt
      · exact hlt.trans (hx e he')
    -- the new key goes further back
    · refine List.pairwise_cons.mpr ⟨?_, ih hrest⟩
      intro e he
      rcases mem_insert ord he with rfl | he'
      · exact hgt
      · exact hx e he'
    -- an equal key keeps its place
    · have heq : ord k = ord x.1 := le_antisymm (not_lt.mp hgt) (not_lt.mp hlt)
      exact List.pairwise_cons.mpr ⟨fun e he => heq ▸ hx e he, hrest⟩

/-- An insertion adds at most one entry; it adds none when the key is there. -/
theorem length_insert_le (k : κ) (v : ν) (l : List (κ × ν)) :
    (insert ord k v l).length ≤ l.length + 1 := by
  induction l with
  | nil => simp [insert]
  | cons x rest ih =>
    rw [insert]
    split_ifs
    all_goals simp only [List.length_cons]
    all_goals omega

/-- A key above every key of the map is appended, so that a list of ascending keys is built from
its front to its end. -/
theorem insert_of_above {k : κ} {v : ν} {l : List (κ × ν)}
    (h : ∀ e ∈ l, ord e.1 < ord k) : insert ord k v l = l ++ [(k, v)] := by
  induction l with
  | nil => rfl
  | cons x rest ih =>
    have hx : ord x.1 < ord k := h x (List.mem_cons_self ..)
    rw [insert, if_neg hx.asymm, if_pos hx,
      ih fun e he => h e (List.mem_cons_of_mem _ he), List.cons_append]

/-- Insert a list of entries, first to last. -/
def insertAll (l entries : List (κ × ν)) : List (κ × ν) :=
  entries.foldl (fun m e => insert ord e.1 e.2 m) l

@[simp] theorem insertAll_nil (l : List (κ × ν)) : insertAll ord l [] = l := rfl

@[simp] theorem insertAll_cons (l : List (κ × ν)) (e : κ × ν) (rest : List (κ × ν)) :
    insertAll ord l (e :: rest) = insertAll ord (insert ord e.1 e.2 l) rest := rfl

/-- The last of the entries is the last to be inserted. -/
theorem insertAll_append_singleton (l entries : List (κ × ν)) (e : κ × ν) :
    insertAll ord l (entries ++ [e]) = insert ord e.1 e.2 (insertAll ord l entries) := by
  simp [insertAll]

/-- However many entries are inserted, the keys ascend. -/
theorem ascending_insertAll {l entries : List (κ × ν)} (hl : Ascending ord l) :
    Ascending ord (insertAll ord l entries) := by
  induction entries generalizing l with
  | nil => exact hl
  | cons e rest ih => exact ih (ascending_insert ord hl)

/-- Nothing is in the map afterwards that was not in it before or among the entries. -/
theorem mem_insertAll {l entries : List (κ × ν)} {e : κ × ν}
    (he : e ∈ insertAll ord l entries) : e ∈ l ∨ e ∈ entries := by
  induction entries generalizing l with
  | nil => exact Or.inl he
  | cons x rest ih =>
    rcases ih he with h | h
    · rcases mem_insert ord h with rfl | h'
      · exact Or.inr (List.mem_cons_self ..)
      · exact Or.inl h'
    · exact Or.inr (List.mem_cons_of_mem _ h)

/-- The map grows by at most the number of entries, and by less when keys repeat. -/
theorem length_insertAll_le (l entries : List (κ × ν)) :
    (insertAll ord l entries).length ≤ l.length + entries.length := by
  induction entries generalizing l with
  | nil => simp
  | cons e rest ih =>
    have h := ih (insert ord e.1 e.2 l)
    have h' := length_insert_le ord e.1 e.2 l
    simp only [insertAll_cons, List.length_cons]
    omega

/-- Inserting an ascending continuation appends it entry by entry. This is where a decoder that
inserts what it reads meets an encoder that writes the map in order. -/
theorem insertAll_ascending {l entries : List (κ × ν)} (h : Ascending ord (l ++ entries)) :
    insertAll ord l entries = l ++ entries := by
  induction entries generalizing l with
  | nil => simp
  | cons e rest ih =>
    have habove : ∀ x ∈ l, ord x.1 < ord e.1 := fun x hx =>
      (List.pairwise_append.mp h).2.2 x hx e (List.mem_cons_self ..)
    -- `e` is above all of `l`, so its insertion lengthens `l` by one
    have hsplit : l ++ e :: rest = (l ++ [(e.1, e.2)]) ++ rest := by simp
    rw [insertAll_cons, insert_of_above ord habove, ih (hsplit ▸ h), ← hsplit]

/-- An ascending list is the map built from its own entries. -/
theorem insertAll_nil_of_ascending {entries : List (κ × ν)} (h : Ascending ord entries) :
    insertAll ord [] entries = entries :=
  insertAll_ascending (l := []) ord h

end StacksDex.Lib.SortedAssoc
