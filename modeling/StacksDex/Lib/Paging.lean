import Mathlib.Data.List.Basic

/-!
# Lib — pages of a log that is listed newest first

A log grows at its end, and a page shows a slice of it counted from that end
(`limit` entries from `offset` on, newest first). Between two requests the log
may grow, which moves the slice towards newer entries. So a walk that asks for
consecutive pages sees some entries twice, but never jumps over one
(`mem_page`, with the log's length at the time of each request).

Read backwards, such a walk climbs: every entry is a repetition or is newer than all
before it (`Climbs`), as long as no two requests are more than a page of growth apart.

## Contents

* `page`, with its length, its first entry and the entries it shows (`mem_page`);
* pages of positions (`mem_page_range`, `page_range_descending`), which is how the
  pages of two different times are compared;
* `Climbs`, preserved by one more page (`Climbs.append`).

Nothing here says what an entry is, or when the log grows: both are for the caller.
-/

namespace StacksDex.Lib.Paging

variable {α : Type*}

/-- A page of the listing. -/
def page (limit offset : Nat) (log : List α) : List α := (log.reverse.drop offset).take limit

/-- A page is as long as its limit, or as what is left of the log past its offset when that is
less. -/
theorem length_page (limit offset : Nat) (log : List α) :
    (page limit offset log).length = min limit (log.length - offset) := by
  rw [page, List.length_take, List.length_drop, List.length_reverse]

/-- A page that starts in the newer part of a log takes from the older part only what
the newer part does not fill. -/
theorem page_append {limit offset : Nat} {older newer : List α} (h : offset ≤ newer.length) :
    page limit offset (older ++ newer) =
      page limit offset newer ++ older.reverse.take (limit - (newer.length - offset)) := by
  have hdrop : (older ++ newer).reverse.drop offset =
      newer.reverse.drop offset ++ older.reverse := by
    rw [List.reverse_append, List.drop_append_of_le_length (by rwa [List.length_reverse])]
  rw [page, hdrop, List.take_append, List.length_drop, List.length_reverse]
  rfl

/-- A page shows entries of the log and nothing else. -/
theorem page_subset (limit offset : Nat) (log : List α) : page limit offset log ⊆ log := by
  intro a ha
  exact List.mem_reverse.mp (List.mem_of_mem_drop (List.mem_of_mem_take ha))

/-- Which entries a page shows: entry `j`, counted from the oldest, is `log.length - 1 - j`
places from the newest. -/
theorem mem_page {limit offset j : Nat} {log : List α} (hlt : j < log.length)
    (hj : j + offset < log.length) (hreach : log.length ≤ j + (offset + limit)) :
    log[j] ∈ page limit offset log := by
  rw [page, List.mem_iff_getElem]
  -- its place on the page is its place from the newest, less the offset
  refine ⟨log.length - 1 - j - offset, ?_, ?_⟩
  · rw [List.length_take, List.length_drop, List.length_reverse]
    omega
  · rw [List.getElem_take, List.getElem_drop, List.getElem_reverse]
    congr 1
    omega

/-- The first entry of the first page is the newest of the log, which is what a poller stores as
its watermark. -/
theorem head?_page_zero {limit : Nat} (hlimit : 0 < limit) (log : List α) :
    (page limit 0 log).head? = log.getLast? := by
  rw [page, List.drop_zero, List.head?_take, if_neg (by omega), List.head?_reverse]

/-- Paging commutes with reading one part of every entry: the page of the positions is the
positions of the page. -/
theorem page_map {β : Type*} (f : α → β) (limit offset : Nat) (log : List α) :
    page limit offset (log.map f) = (page limit offset log).map f := by
  rw [page, page, ← List.map_reverse, ← List.map_drop, ← List.map_take]

/-! ## Pages of positions -/

/-- The positions a page shows, of a log of `n` entries: the `limit` positions below `n -
offset`, cut off at the oldest. Membership is all that is stated; the order is
`page_range_descending`. -/
theorem mem_page_range {limit offset n p : Nat} :
    p ∈ page limit offset (List.range n) ↔ n - offset - limit ≤ p ∧ p < n - offset := by
  constructor
  -- an item of the page at its index
  · intro hp
    obtain ⟨i, hi, rfl⟩ := List.mem_iff_getElem.mp hp
    have hlength : i < min limit (n - offset) := by
      rw [length_page, List.length_range] at hi
      exact hi
    have hget : (page limit offset (List.range n))[i] = n - 1 - (offset + i) := by
      simp [page]
    rw [hget]
    omega
  · rintro ⟨hlow, hhigh⟩
    -- a position in the range is an index of the page
    have hlt : p < (List.range n).length := by
      rw [List.length_range]
      omega
    have hmem : (List.range n)[p] ∈ page limit offset (List.range n) := by
      refine mem_page hlt ?_ ?_
      · rw [List.length_range]
        omega
      · rw [List.length_range]
        omega
    rwa [List.getElem_range] at hmem

/-- A page lists the newest first. -/
theorem page_range_descending (limit offset n : Nat) :
    (page limit offset (List.range n)).Pairwise (· > ·) := by
  have hrange : (List.range n).reverse.Pairwise (· > ·) :=
    List.pairwise_reverse.mpr List.pairwise_lt_range
  exact hrange.sublist ((List.take_sublist _ _).trans (List.drop_sublist _ _))

/-- The start of a descending list that meets a test throughout: an entry belongs to it exactly
when it and every larger entry of the list pass. A walk that stops at the first known entry
keeps just these. -/
theorem mem_takeWhile_descending {f : Nat → Bool} {xs : List Nat} (hxs : xs.Pairwise (· > ·))
    {p : Nat} : p ∈ xs.takeWhile f ↔ p ∈ xs ∧ ∀ q ∈ xs, p ≤ q → f q = true := by
  induction xs with
  | nil => simp
  | cons x xs ih =>
    obtain ⟨hfirst, hrest⟩ := List.pairwise_cons.mp hxs
    rw [List.takeWhile_cons]
    -- the first item decides: a position before it cannot be in the list
    by_cases hx : f x = true
    · rw [if_pos hx, List.mem_cons, List.mem_cons, ih hrest]
      constructor
      · rintro (rfl | ⟨hp, hall⟩)
        · refine ⟨Or.inl rfl, fun q hq hle => ?_⟩
          rcases List.mem_cons.mp hq with rfl | hq
          · exact hx
          · exact absurd hle (Nat.not_le.mpr (hfirst q hq))
        · refine ⟨Or.inr hp, fun q hq hle => ?_⟩
          rcases List.mem_cons.mp hq with rfl | hq
          · exact hx
          · exact hall q hq hle
      · rintro ⟨rfl | hp, hall⟩
        · exact Or.inl rfl
        · exact Or.inr ⟨hp, fun q hq => hall q (List.mem_cons_of_mem _ hq)⟩
    · rw [if_neg hx]
      refine ⟨fun h => (List.not_mem_nil h).elim, fun ⟨hp, hall⟩ => absurd (hall x ?_ ?_) hx⟩
      · exact List.mem_cons_self ..
      · rcases List.mem_cons.mp hp with rfl | hp
        · exact Nat.le_refl _
        · exact Nat.le_of_lt (hfirst p hp)

/-- Read from its end, the list goes up and repeats itself, and does nothing else. -/
def Climbs : List Nat → Prop
  | [] => True
  | x :: rest => (x ∈ rest ∨ ∀ y ∈ rest, y < x) ∧ Climbs rest

/-- A single page climbs: read from its end, it goes up without a repetition. -/
theorem climbs_of_descending {xs : List Nat} (h : xs.Pairwise (· > ·)) : Climbs xs := by
  induction xs with
  | nil => trivial
  | cons x xs ih =>
    obtain ⟨hfirst, hrest⟩ := List.pairwise_cons.mp h
    exact ⟨Or.inr hfirst, ih hrest⟩

/-- What is left of a climbing walk when its newest pages are taken off still climbs. -/
theorem Climbs.suffix {xs ys : List Nat} (h : Climbs (xs ++ ys)) : Climbs ys := by
  induction xs with
  | nil => exact h
  | cons x xs ih => exact ih h.2

/-- A walk that climbs still does after a page without gaps that reaches down to the oldest
entry of it. An entry of the walk that the page shows as well is a repetition, and any other is
newer than the whole page. -/
theorem Climbs.append {xs ys : List Nat} {low high : Nat} (h : Climbs xs) (hys : Climbs ys)
    (hmem : ∀ p, p ∈ ys ↔ low ≤ p ∧ p < high) (hlow : ∀ p ∈ xs, low ≤ p) :
    Climbs (xs ++ ys) := by
  induction xs with
  | nil => exact hys
  | cons x xs ih =>
    have hrest : ∀ p ∈ xs, low ≤ p := fun p hp => hlow p (List.mem_cons_of_mem _ hp)
    refine ⟨?_, ih h.2 hrest⟩
    rcases h.1 with hagain | hnew
    · exact Or.inl (List.mem_append_left _ hagain)
    by_cases hx : x < high
    · -- the page shows it
      exact Or.inl (List.mem_append_right _ ((hmem x).mpr ⟨hlow x (List.mem_cons_self ..), hx⟩))
    · refine Or.inr fun y hy => ?_
      rcases List.mem_append.mp hy with hy | hy
      · exact hnew y hy
      · exact Nat.lt_of_lt_of_le ((hmem y).mp hy).2 (Nat.not_lt.mp hx)

end StacksDex.Lib.Paging
