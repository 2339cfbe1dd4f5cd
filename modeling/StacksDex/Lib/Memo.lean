import Mathlib.Logic.Function.Basic
import StacksDex.Lib.Run

/-!
# Lib — a cache in front of a slow lookup

Callers ask queries; an answer found under the query's key is given at once, and one that is
not is fetched, put under the key and given. A lookup and the fetch after it are two steps, so
several callers may fetch for one key at a time. A fetch fails, or it tells the truth about its
query.

* `Step` — a caller asks, its fetch lands (with an answer or without), or an entry is put in
  from outside: any of these at any time;
* `Sound` — the invariant: what is stored under a key is the truth about the queries with it,
  and what has been answered is the truth about its query;
* `truthful_through` — if the key separates the truths, every answer of every run is true;
* `separates_of_through` — if every answer of every run is true, the key separates them.

A system uses the cache `through` its own labels, each of which is some step of the cache or
none. `truthful_iff` puts the two directions together: in every run every answer is the truth
about the query it was given for, exactly when queries that share a key share the truth,
provided every query of the kind can be asked and its truth be told.
-/

namespace StacksDex.Lib.Memo

variable {ι α κ β τ : Type*} [DecidableEq ι] [DecidableEq κ]

structure State (ι α κ β : Type*) where
  cache : κ → Option β
  /-- The query a caller is fetching for. -/
  waiting : ι → Option α
  /-- What was answered, last to first. -/
  answers : List (α × β)

inductive Step (ι α κ β : Type*) where
  | ask (i : ι) (q : α)
  /-- The fetch ends, with nothing if it failed. -/
  | land (i : ι) (result : Option β)
  /-- An entry is put in from outside. -/
  | insert (k : κ) (b : β)

/-- Nobody has asked, and nothing is cached. -/
def start : State ι α κ β := ⟨fun _ => none, fun _ => none, []⟩

/-- A caller asks one query at a time. -/
def step (key : α → κ) (s : State ι α κ β) : Step ι α κ β → State ι α κ β
  | .ask i q =>
    match s.waiting i, s.cache (key q) with
    | some _, _ => s
    | none, some b => { s with answers := (q, b) :: s.answers }
    | none, none => { s with waiting := Function.update s.waiting i (some q) }
  | .land i result =>
    match s.waiting i, result with
    | none, _ => s
    | some _, none => { s with waiting := Function.update s.waiting i none }
    | some q, some b =>
      { cache := Function.update s.cache (key q) (some b)
        waiting := Function.update s.waiting i none
        answers := (q, b) :: s.answers }
  | .insert k b => { s with cache := Function.update s.cache k (some b) }

section Truth

variable {key : α → κ} {truth : α → Option β} {asked : α → Prop} {s : State ι α κ β}

/-- The queries are of a kind, and what comes from outside is the truth about them. -/
def Honest (key : α → κ) (truth : α → Option β) (asked : α → Prop) (s : State ι α κ β) :
    Step ι α κ β → Prop
  | .ask _ q => asked q
  | .land i result => ∀ q b, s.waiting i = some q → result = some b → truth q = some b
  | .insert k b => ∀ q, asked q → key q = k → truth q = some b

/-- Every answer is the truth about its query. -/
def Truthful (truth : α → Option β) (s : State ι α κ β) : Prop :=
  ∀ q b, (q, b) ∈ s.answers → truth q = some b

/-- Queries of the kind that share a key share the truth. -/
def Separates (key : α → κ) (truth : α → Option β) (asked : α → Prop) : Prop :=
  ∀ q q', asked q → asked q' → key q = key q' → truth q = truth q'

/-- What is cached is the truth about every query under its key. -/
structure Sound (key : α → κ) (truth : α → Option β) (asked : α → Prop)
    (s : State ι α κ β) : Prop where
  cached : ∀ q b, asked q → s.cache (key q) = some b → truth q = some b
  waiting : ∀ i q, s.waiting i = some q → asked q
  answers : Truthful truth s

omit [DecidableEq ι] [DecidableEq κ] in
/-- An empty cache is sound: nothing has been stored, asked or answered. -/
theorem sound_start : Sound key truth asked (start : State ι α κ β) where
  cached := fun q b _ h => by cases h
  waiting := fun i q h => by cases h
  answers := fun q b h => absurd h List.not_mem_nil

/-- **One step.** An answer that is stored under a key was the truth about some query with that
key; if the key separates the truths, it is the truth about every query that will be answered
from it. -/
theorem Sound.step (hkey : Separates key truth asked) (h : Sound key truth asked s)
    {l : Step ι α κ β} (hl : Honest key truth asked s l) :
    Sound key truth asked (step key s l) := by
  -- a new entry is the truth about one query, and so about all under its key
  have hcached : ∀ {k : κ} {b : β}, (∀ q, asked q → key q = k → truth q = some b) →
      ∀ q b', asked q → Function.update s.cache k (some b) (key q) = some b' →
        truth q = some b' := by
    intro k b hnew q b' hq hcache
    by_cases hk : key q = k
    · subst hk
      rw [Function.update_self] at hcache
      rw [← hcache]
      exact hnew q hq rfl
    · rw [Function.update_of_ne hk] at hcache
      exact h.cached q b' hq hcache
  have hanswers : ∀ {q : α} {b : β}, truth q = some b →
      ∀ q' b', (q', b') ∈ (q, b) :: s.answers → truth q' = some b' := by
    intro q b hq q' b' hmem
    rcases List.mem_cons.mp hmem with heq | hold
    · obtain ⟨rfl, rfl⟩ := Prod.mk.inj heq
      exact hq
    · exact h.answers q' b' hold
  have hwaiting : ∀ (i : ι) (w : Option α), (∀ q, w = some q → asked q) →
      ∀ j q, Function.update s.waiting i w j = some q → asked q := by
    intro i w hw j q hj
    by_cases hji : j = i
    · subst hji
      rw [Function.update_self] at hj
      exact hw q hj
    · rw [Function.update_of_ne hji] at hj
      exact h.waiting j q hj
  rcases l with ⟨i, q⟩ | ⟨i, result⟩ | ⟨k, b⟩
  case ask =>
    rw [Memo.step]
    split
    · exact h
    · rename_i b _ hcache
      exact ⟨h.cached, h.waiting, hanswers (h.cached q b hl hcache)⟩
    · exact ⟨h.cached, hwaiting i (some q) fun q' hq' => Option.some.inj hq' ▸ hl, h.answers⟩
  case land =>
    have hfree := hwaiting i none fun q hq => by cases hq
    rcases hq : s.waiting i with _ | q
    · simp only [Memo.step, hq]
      exact h
    rcases result with _ | b
    · simp only [Memo.step, hq]
      exact ⟨h.cached, hfree, h.answers⟩
    · have htruth : truth q = some b := hl q b hq rfl
      have hasked : asked q := h.waiting i q hq
      simp only [Memo.step, hq]
      exact ⟨hcached fun q' hq' hk => (hkey q' q hq' hasked hk).trans htruth, hfree,
        hanswers htruth⟩
  case insert => exact ⟨hcached hl, h.waiting, h.answers⟩

/-- A step of a system whose labels come to steps of the cache, or to nothing. -/
def through (key : α → κ) (decode : State ι α κ β → τ → Option (Step ι α κ β))
    (s : State ι α κ β) (l : τ) : State ι α κ β :=
  match decode s l with
  | none => s
  | some l => step key s l

variable {decode : State ι α κ β → τ → Option (Step ι α κ β)}

/-- What the label comes to is honest. -/
def HonestThrough (key : α → κ) (truth : α → Option β) (asked : α → Prop)
    (decode : State ι α κ β → τ → Option (Step ι α κ β)) (s : State ι α κ β) (l : τ) : Prop :=
  ∀ l', decode s l = some l' → Honest key truth asked s l'

/-- **The run.** Whatever the interleaving of lookups, fetches and stores, and whichever fetches
fail, every answer that is given is true. By induction over the labels, with `Sound` as the
invariant. -/
theorem truthful_through (hkey : Separates key truth asked) {steps : List τ}
    (hrun : Run.Along (through key decode) (HonestThrough key truth asked decode) start steps) :
    Run.Always (through key decode) (Truthful truth) start steps := by
  refine (Run.always_of_along (I := Sound key truth asked) (fun s l h hl => ?_) sound_start
    hrun).mono fun _ h => h.answers
  rw [through]
  rcases hdecode : decode s l with _ | l'
  · exact h
  · exact h.step hkey (hl l' hdecode)

/-- One caller's answer is given to another with a query under the same key. So if every run is
truthful, two queries with a key in common have a truth in common: ask one, store its answer,
and ask the other. -/
theorem separates_of_through (i : ι)
    (hask : ∀ s q, asked q → ∃ l, decode s l = some (.ask i q))
    (hland : ∀ s q b, s.waiting i = some q → asked q → truth q = some b →
      ∃ l, decode s l = some (.land i (some b)))
    (h : ∀ steps : List τ,
      Run.Along (through key decode) (HonestThrough key truth asked decode) start steps →
        Run.Always (through key decode) (Truthful truth) start steps) :
    Separates key truth asked := by
  -- two questions with one key have one answer: a run of three steps would show any other
  have hshared : ∀ q q' b, asked q → asked q' → key q = key q' → truth q = some b →
      truth q' = some b := by
    intro q q' b hq hq' hk htruth
    -- the first question is asked and its answer stored
    let s₁ : State ι α κ β := step key start (.ask i q)
    let s₂ := step key s₁ (.land i (some b))
    have hwaiting : s₁.waiting i = some q := Function.update_self ..
    obtain ⟨l₁, h₁⟩ := hask start q hq
    have hlands : Honest key truth asked s₁ (.land i (some b)) := by
      intro q₀ b₀ hq₀ hb
      rw [hwaiting] at hq₀
      obtain rfl := Option.some.inj hq₀
      rw [← hb]
      exact htruth
    -- the second finds it under the same key
    obtain ⟨l₂, h₂⟩ := hland s₁ q b hwaiting hq htruth
    obtain ⟨l₃, h₃⟩ := hask s₂ q' hq'
    have hs₁ : through key decode start l₁ = s₁ := by rw [through, h₁]
    have hs₂ : through key decode s₁ l₂ = s₂ := by rw [through, h₂]
    have hhonest : ∀ {s l l'}, decode s l = some l' → Honest key truth asked s l' →
        HonestThrough key truth asked decode s l := by
      intro s l l' hl hl' m hm
      rw [hl] at hm
      exact Option.some.inj hm ▸ hl'
    -- the run is honest, so its last answer is the truth
    have hend := (h [l₁, l₂, l₃] ⟨hhonest h₁ hq, by rw [hs₁]; exact hhonest h₂ hlands,
      by rw [hs₁, hs₂]; exact hhonest h₃ hq', trivial⟩).last
    refine hend q' b ?_
    rw [Run.exec_cons, Run.exec_cons, hs₁, hs₂, Run.exec_cons, Run.exec_nil, through, h₃]
    simp [s₂, s₁, step, start, hk]
  intro q q' hq hq' hk
  -- a question without an answer agrees only with another one
  rcases htruth : truth q with _ | b
  · rcases htruth' : truth q' with _ | b'
    · rfl
    · rw [hshared q' q b' hq' hq hk.symm htruth'] at htruth
      cases htruth
  · exact (hshared q q' b hq hq' hk htruth).symm

/-- **What a cache needs.** Every answer of every run is the truth about its query exactly when
the key tells the queries apart as far as the truth does. -/
theorem truthful_iff (i : ι)
    (hask : ∀ s q, asked q → ∃ l, decode s l = some (.ask i q))
    (hland : ∀ s q b, s.waiting i = some q → asked q → truth q = some b →
      ∃ l, decode s l = some (.land i (some b))) :
    (∀ steps : List τ,
      Run.Along (through key decode) (HonestThrough key truth asked decode) start steps →
        Run.Always (through key decode) (Truthful truth) start steps) ↔
      Separates key truth asked :=
  ⟨separates_of_through i hask hland, fun hkey _ hrun => truthful_through hkey hrun⟩

end Truth

end StacksDex.Lib.Memo
