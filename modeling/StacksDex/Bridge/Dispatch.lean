import StacksDex.Model.Registry

/-!
# StacksDex — dispatch, entry by entry

The dispatcher loops over candidate handles and writes each through its lock.
`get_dispatch` is what that loop does to the registry, as one equation per id: a
candidate's pool applies the event, every other entry is as it was.

The registry is an association list in arbitrary order, as a `DashMap` iterates in one. All
that is used of it is that its keys are distinct, so the equations hold for every order and
every set of locks that happen to be held.
-/

namespace StacksDex.Bridge

open StacksDex.Model

/-! ## Lookups -/

/-- Changing the values of a list of entries, each by its key, changes what is found under a key
in the same way. -/
theorem lookup_map_entry (entries : List (String × Pool)) (f : String → Pool → Pool)
    (id : String) :
    (entries.map fun e => (e.1, f e.1 e.2)).lookup id = (entries.lookup id).map (f id) := by
  induction entries with
  | nil => rfl
  | cons e rest ih =>
    rw [List.map_cons, List.lookup_cons, List.lookup_cons, ih]
    -- the entry's own key, or a later one
    by_cases h : id = e.1
    · subst h
      simp
    · have hne : (id == e.1) = false := by simpa using h
      simp [hne]

/-- What is found under a key is an entry. -/
theorem mem_of_lookup {entries : List (String × Pool)} {id : String} {p : Pool}
    (h : entries.lookup id = some p) : (id, p) ∈ entries := by
  obtain ⟨l₁, l₂, rfl, -⟩ := List.lookup_eq_some_iff.mp h
  simp

/-- With distinct keys, an entry is what its key looks up. -/
theorem lookup_of_mem {entries : List (String × Pool)} (hkeys : (entries.map Prod.fst).Nodup)
    {id : String} {p : Pool} (h : (id, p) ∈ entries) : entries.lookup id = some p := by
  induction entries with
  | nil => cases h
  | cons e rest ih =>
    obtain ⟨hnot, hrest⟩ := List.nodup_cons.mp hkeys
    rw [List.lookup_cons]
    -- a later entry has another key, so the lookup goes on
    rcases List.mem_cons.mp h with rfl | hmem
    · simp
    · have hne : (id == e.1) = false := by
        rw [beq_eq_false_iff_ne]
        rintro rfl
        exact hnot (List.mem_map.mpr ⟨_, hmem, rfl⟩)
      rw [hne]
      exact ih hrest hmem

/-- A pool is found under its id exactly when it is in the registry, as no id is there twice. -/
theorem get_eq_some_iff {registry : PoolRegistry} {id : String} {p : Pool} :
    registry.get id = some p ↔ (id, p) ∈ registry.byId :=
  ⟨mem_of_lookup, lookup_of_mem registry.keysDistinct⟩

/-! ## The loop over the candidates -/

/-- Writing through one lock changes the one pool. -/
theorem get_modify (registry : PoolRegistry) (k id : String) (f : Pool → Pool) :
    (registry.modify k f).get id =
      (registry.get id).map fun p => if id = k then f p else p := by
  have hentries : (registry.modify k f).byId =
      registry.byId.map fun e => (e.1, if e.1 = k then f e.2 else e.2) :=
    List.map_congr_left fun e _ => by
      by_cases h : e.1 = k
      · simp [h]
      · simp [h]
  rw [PoolRegistry.get, hentries, PoolRegistry.get,
    lookup_map_entry registry.byId fun id p => if id = k then f p else p]

/-- Writing each of a list of distinct handles once. -/
theorem get_foldl_modify {handles : List String} (hnodup : handles.Nodup)
    (registry : PoolRegistry) (f : String → Pool → Pool) (id : String) :
    (handles.foldl (fun reg k => reg.modify k (f k)) registry).get id =
      (registry.get id).map fun p => if id ∈ handles then f id p else p := by
  induction handles generalizing registry with
  | nil => simp
  | cons k rest ih =>
    obtain ⟨hnot, hrest⟩ := List.nodup_cons.mp hnodup
    rw [List.foldl_cons, ih hrest, get_modify, Option.map_map]
    refine congrArg (fun g => (registry.get id).map g) (funext ?_)
    intro p
    show (if id ∈ rest then f id (if id = k then f k p else p) else if id = k then f k p else p) = _
    -- the handle just written does not come again
    by_cases hk : id = k
    · subst hk
      simp [hnot]
    · simp [hk]

/-- No pool is a candidate twice, so none applies an event twice. -/
theorem candidates_nodup (contended : String → Bool) (registry : PoolRegistry)
    (contract : Principal) : (registry.poolsSubscribedTo contended contract).Nodup :=
  registry.keysDistinct.sublist (List.filter_sublist.map _)

/-- A pool is a candidate when it subscribes to the emitter, or when it is locked and cannot be
asked. -/
theorem mem_candidates {contended : String → Bool} {registry : PoolRegistry}
    {contract : Principal} {id : String} {p : Pool} (h : registry.get id = some p) :
    id ∈ registry.poolsSubscribedTo contended contract ↔
      (contended id || p.subscribedTo contract) = true := by
  have hmem := get_eq_some_iff.mp h
  constructor
  · intro hid
    obtain ⟨e, he, rfl⟩ := List.mem_map.mp hid
    obtain ⟨hentry, htrue⟩ := List.mem_filter.mp he
    -- the entry under this key is the pool itself
    have hp := get_eq_some_iff.mpr hentry
    rw [h] at hp
    rwa [Option.some.inj hp]
  · intro htrue
    exact List.mem_map.mpr ⟨(id, p), List.mem_filter.mpr ⟨hmem, htrue⟩, rfl⟩

/-- **Dispatch, entry by entry.** -/
theorem get_dispatch (now : String → Nat) (contended : String → Bool) (registry : PoolRegistry)
    (event : StacksEvent) (id : String) :
    (registry.dispatch now contended event).get id =
      (registry.get id).map fun p =>
        if (contended id || p.subscribedTo event.emitter) = true then
          p.applyEvent (now id) event
        else p := by
  rw [PoolRegistry.dispatch, get_foldl_modify (candidates_nodup ..) registry
    (fun id pool => pool.applyEvent (now id) event)]
  cases h : registry.get id with
  | none => rfl
  | some p =>
    simp only [Option.map_some, mem_candidates h]

end StacksDex.Bridge
