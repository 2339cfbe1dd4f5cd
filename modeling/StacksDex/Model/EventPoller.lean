import StacksDex.Model.EventQueue

/-!
# StacksDex — the per-contract event poller

`collector/event_poller.rs`: one poll cycle walks the contract's events newest
first, page by page, until it meets the watermark transaction or runs out of
budget, then sends what it collected oldest first and moves the watermark to the
newest event it saw.

The pages are network answers and come from a parameter,
`fetchPage request limit offset`, where `request` counts the requests of the
cycle: each may fail, and each sees the history of its own moment. The walk is that of a
build with overflow checks, where the offset of a page that is no `u32` is a panic. It takes
a walk past more than four billion events to come to such a page, as a short page ends it.

`pollOnce` is a cycle as the pages decide it. `pollM` is the same cycle as a sequence of
effects on the queue and the registry, and `pollM_run` says that they agree, failures
included: a cycle that fails does so before its first effect.
-/

namespace StacksDex.Model

/-- What the poller reads of an `EventEnvelope`. -/
structure EventEnvelope where
  txId : String
  /-- `None` for a print that does not decode. -/
  decoded : Option StacksEvent

/-- The counts a poll cycle reads, with the range of their type. -/
structure CollectorConfig where
  pageSize : Nat
  maxEventsPerCycle : Nat
  /-- How many pages a contract without a watermark is walked back. -/
  coldStartPages : Nat
  pageSize_le : pageSize ≤ u32Max
  maxEventsPerCycle_le : maxEventsPerCycle ≤ u32Max
  coldStartPages_le : coldStartPages ≤ u32Max

/-- What a walk has collected: newest first, across pages. -/
structure Walk where
  toApply : List EventEnvelope
  /-- The first transaction of the first page. -/
  newestSeen : Option String
  reachedWatermark : Bool

/-- The inner loop: collect a page's events, up to the watermark transaction. -/
def collect (watermark : Option String) :
    List EventEnvelope → List EventEnvelope → List EventEnvelope × Bool
  | [], toApply => (toApply, false)
  | env :: rest, toApply =>
    -- the watermark is a transaction, and all of its events are old
    if watermark = some env.txId then (toApply, true)
    else collect watermark rest (toApply ++ [env])

section Poll

variable (config : CollectorConfig)
variable (fetchPage : (request limit offset : Nat) → Except Fault (List EventEnvelope))

/-- The outer loop, from page `pageIdx` with `n` pages to go. -/
def walkPages (watermark : Option String) : Nat → Nat → Walk → Except Fault Walk
  | 0, _, w => .ok w
  | n + 1, pageIdx, w => do
    let offset ← u32Mul true pageIdx config.pageSize
    let page ← fetchPage pageIdx config.pageSize offset
    match page with
    -- an empty page: the listing has no more
    | [] => .ok w
    | newest :: _ =>
      -- only the first page sets it
      let newestSeen := w.newestSeen.orElse fun _ => some newest.txId
      let (toApply, reachedWatermark) := collect watermark page w.toApply
      let w' : Walk := { toApply, newestSeen, reachedWatermark }
      if reachedWatermark then .ok w'
      -- a short page is the last of the listing
      else if asU32 page.length < config.pageSize then .ok w'
      -- the cap is tested after a page is taken, so a page may run over it
      else if asU32 toApply.length ≥ config.maxEventsPerCycle then .ok w'
      else walkPages watermark n (pageIdx + 1) w'

/-- How many pages a cycle may walk. -/
def maxPages (watermark : Option String) : Except Fault Nat :=
  match watermark with
  -- a cold start has no mark to stop at
  | none => .ok config.coldStartPages
  | some _ => u128DivCeil config.maxEventsPerCycle config.pageSize

/-- The sends of a cycle, in order, and how many of them were new; `iters i` is the order
in which the dedup set is iterated at the `i`-th send. -/
def enqueue (iters : Nat → List EventKey) (queue : EventQueue) :
    List StacksEvent → EventQueue × Nat
  | [] => (queue, 0)
  | event :: rest =>
    let s := queue.sendDedup (iters 0) event
    let r := enqueue (fun i => iters (i + 1)) s.1 rest
    (r.1, (if s.2 then 1 else 0) + r.2)

/-- What a cycle that returns leaves behind; `offered` is what it passed to `send_dedup`. -/
structure Polled where
  queue : EventQueue
  registry : PoolRegistry
  offered : List StacksEvent
  enqueued : Nat

/-- `poll_once`. -/
def pollOnce (iters : Nat → List EventKey) (contract : Principal) (queue : EventQueue)
    (registry : PoolRegistry) : Except Fault Polled := do
  let watermark := registry.watermark contract
  let pages ← maxPages config watermark
  let w ← walkPages config fetchPage watermark pages 0
    { toApply := [], newestSeen := none, reachedWatermark := false }
  -- collected newest first, so reverse
  let offered := w.toApply.reverse.filterMap (·.decoded)
  let (queue, enqueued) := enqueue iters queue offered
  -- the watermark moves whether or not the walk has met the old one
  let registry :=
    match w.newestSeen with
    | some txId => registry.setWatermark contract txId
    | none => registry
  .ok { queue, registry, offered, enqueued }

/-! ## One page -/

/-- A walk with one more page collected. -/
def Walk.withPage (w : Walk) (watermark : Option String) (newest : EventEnvelope)
    (rest : List EventEnvelope) : Walk where
  toApply := (collect watermark (newest :: rest) w.toApply).1
  newestSeen := w.newestSeen.orElse fun _ => some newest.txId
  reachedWatermark := (collect watermark (newest :: rest) w.toApply).2

/-- The walk ends with the page it has just collected, one of `length` events. -/
def Walk.Ends (w : Walk) (length : Nat) : Prop :=
  w.reachedWatermark = true ∨ asU32 length < config.pageSize ∨
    asU32 w.toApply.length ≥ config.maxEventsPerCycle

variable {config} {fetchPage} in
/-- What a walk that returns has done with its next page: it was empty, it ended the walk
(watermark, short page or cap), or the walk went on past it. -/
theorem walkPages_cases {watermark : Option String} {n i : Nat} {w w' : Walk}
    (hok : walkPages config fetchPage watermark (n + 1) i w = .ok w') :
    ∃ page, fetchPage i config.pageSize (i * config.pageSize) = .ok page ∧
      ((page = [] ∧ w' = w) ∨
        ∃ newest rest, page = newest :: rest ∧
          (((w.withPage watermark newest rest).Ends config page.length ∧
              w' = w.withPage watermark newest rest) ∨
            (¬ (w.withPage watermark newest rest).Ends config page.length ∧
              walkPages config fetchPage watermark n (i + 1) (w.withPage watermark newest rest) =
                .ok w'))) := by
  obtain ⟨offset, hoffset, hok⟩ := bind_eq_ok.mp hok
  obtain rfl := u32Mul_eq_ok hoffset
  obtain ⟨page, hpage, hok⟩ := bind_eq_ok.mp hok
  refine ⟨page, hpage, ?_⟩
  cases page with
  | nil =>
    cases hok
    exact Or.inl ⟨rfl, rfl⟩
  | cons newest rest =>
    refine Or.inr ⟨newest, rest, rfl, ?_⟩
    -- the three tests that end the walk, in the order of the source
    dsimp only at hok
    split at hok
    · rename_i hreached
      exact Or.inl ⟨Or.inl hreached, (Except.ok.inj hok).symm⟩
    rename_i hreached
    split at hok
    · rename_i hshort
      exact Or.inl ⟨Or.inr (Or.inl hshort), (Except.ok.inj hok).symm⟩
    rename_i hfull
    split at hok
    · rename_i hcap
      exact Or.inl ⟨Or.inr (Or.inr hcap), (Except.ok.inj hok).symm⟩
    rename_i hcap
    refine Or.inr ⟨?_, hok⟩
    -- none of them did
    rintro (h | h | h)
    · exact hreached h
    · exact hfull h
    · exact hcap h

/-! ## What a cycle that fails leaves behind -/

/-- A computation that writes to the sender and the registry, and keeps its writes when
it fails. -/
abbrev PollM := ExceptT Fault (StateM (EventQueue × PoolRegistry))

/-- The sending loop, with its effects. -/
def enqueueM (iters : Nat → List EventKey) : List EventEnvelope → PollM Nat
  | [] => pure 0
  | env :: rest =>
    match env.decoded with
    | none => enqueueM iters rest
    | some event => do
      let new ← modifyGet fun s : EventQueue × PoolRegistry =>
        ((s.1.sendDedup (iters 0) event).2, (s.1.sendDedup (iters 0) event).1, s.2)
      let enqueued ← enqueueM (fun i => iters (i + 1)) rest
      pure ((if new then 1 else 0) + enqueued)

/-- `poll_once`, with its effects in the order it has them. -/
def pollM (iters : Nat → List EventKey) (contract : Principal) : PollM Nat := do
  let watermark := (← get).2.watermark contract
  let pages ← maxPages config watermark
  let w ← walkPages config fetchPage watermark pages 0
    { toApply := [], newestSeen := none, reachedWatermark := false }
  let enqueued ← enqueueM iters w.toApply.reverse
  match w.newestSeen with
  | some txId =>
    modify fun s => (s.1, s.2.setWatermark contract txId)
    pure enqueued
  | none => pure enqueued

/-- A step of the monadic cycle, with the queue and the registry passed on also where it fails:
what was sent before a failure stays sent. -/
theorem pollM_bind {α β : Type} (x : PollM α) (f : α → PollM β) (s : EventQueue × PoolRegistry) :
    (x >>= f).run.run s =
      match x.run.run s with
      | (.ok a, s') => (f a).run.run s'
      | (.error fault, s') => (.error fault, s') := by
  rw [ExceptT.run_bind, StateT.run_bind]
  rcases x.run.run s with ⟨fault | a, s'⟩
  · rfl
  · rfl

/-- The sending loop does not fail, and is the one of `pollOnce`. -/
theorem enqueueM_run (iters : Nat → List EventKey) (envs : List EventEnvelope)
    (queue : EventQueue) (registry : PoolRegistry) :
    (enqueueM iters envs).run.run (queue, registry) =
      (.ok (enqueue iters queue (envs.filterMap (·.decoded))).2,
        (enqueue iters queue (envs.filterMap (·.decoded))).1, registry) := by
  induction envs generalizing iters queue with
  | nil => rfl
  | cons env envs ih =>
    cases hdecoded : env.decoded with
    | none =>
      simp only [enqueueM, hdecoded, List.filterMap_cons_none]
      exact ih iters queue
    | some event =>
      have hrest := ih (fun i => iters (i + 1)) (queue.sendDedup (iters 0) event).1
      have hsend : (modifyGet fun s : EventQueue × PoolRegistry =>
          ((s.1.sendDedup (iters 0) event).2, (s.1.sendDedup (iters 0) event).1, s.2) :
          PollM Bool).run.run (queue, registry) =
            (.ok (queue.sendDedup (iters 0) event).2, (queue.sendDedup (iters 0) event).1,
              registry) := rfl
      simp only [enqueueM, hdecoded, List.filterMap_cons_some hdecoded]
      rw [pollM_bind, hsend]
      dsimp only
      rw [pollM_bind, hrest]
      rfl

/-- A cycle that returns does what `pollOnce` says, and one that fails does nothing. -/
theorem pollM_run (iters : Nat → List EventKey) (contract : Principal)
    (queue : EventQueue) (registry : PoolRegistry) :
    (pollM config fetchPage iters contract).run.run (queue, registry) =
      match pollOnce config fetchPage iters contract queue registry with
      | .ok r => (.ok r.enqueued, r.queue, r.registry)
      | .error fault => (.error fault, queue, registry) := by
  -- a call that touches no state leaves it
  have hlift : ∀ {α : Type} (x : Except Fault α) s, (liftM x : PollM α).run.run s = (x, s) :=
    fun x s => rfl
  have hget : (get : PollM _).run.run (queue, registry) =
      (.ok (queue, registry), queue, registry) := rfl
  rw [pollM, pollOnce, pollM_bind, hget]
  dsimp only
  rw [pollM_bind]
  -- the two runs are the same up to the first line that fails
  cases hpages : maxPages config (registry.watermark contract) with
  | error fault => rfl
  | ok pages =>
    rw [hlift]
    dsimp only [ok_bind]
    rw [pollM_bind]
    cases hwalk : walkPages config fetchPage (registry.watermark contract) pages 0
        { toApply := [], newestSeen := none, reachedWatermark := false } with
    | error fault => rfl
    | ok w =>
      rw [hlift]
      dsimp only [ok_bind]
      rw [pollM_bind, enqueueM_run]
      cases hnewest : w.newestSeen with
      | none => rfl
      | some txId => rfl

end Poll

end StacksDex.Model
