import Mathlib.Data.List.Nodup
import StacksDex.Bridge.Cells
import StacksDex.Bridge.Dispatch
import StacksDex.Lib.Run
import StacksDex.Model.EventQueue

/-!
# StacksDex — the pipeline from the dedup queue to a pool

Events of one emitter, `chain` first to last, go through `send_dedup` and the
processor to the pools of a registry. First sends come in chain order (`sent`
counts them); any event already sent may be sent again. The order in which `seen`
is iterated, the times of application and the contended locks are all in the
labels. `applied` is what a pool holds once the processor has worked off the
channel, and the step lemmas say how each step changes it.
-/

namespace StacksDex.Bridge

open StacksDex.Lib StacksDex.Model

/-- The queue and the registry behind it, with the number of events sent so far. -/
structure Pipeline where
  queue : EventQueue
  registry : PoolRegistry
  /-- How many events of the chain have been sent at least once. -/
  sent : Nat

inductive PipelineStep where
  /-- The next event of the chain is sent. -/
  | first (iter : List EventKey)
  /-- An event is sent once more. -/
  | again (event : StacksEvent) (iter : List EventKey)
  /-- The processor takes one event from the channel. -/
  | process (now : String → Nat) (contended : String → Bool)

namespace Pipeline

/-- One call of `send_dedup`, or one turn of the processor loop. -/
def step (chain : List StacksEvent) (s : Pipeline) : PipelineStep → Pipeline
  | .first iter =>
    match chain[s.sent]? with
    | some event => { s with queue := (s.queue.sendDedup iter event).1, sent := s.sent + 1 }
    | none => s
  | .again event iter => { s with queue := (s.queue.sendDedup iter event).1 }
  | .process now contended =>
    match s.queue.recv with
    | some (event, queue) =>
      { s with queue, registry := s.registry.dispatch now contended event }
    | none => s

/-- Which steps can happen: the next event, or one already sent; a send that forwards
waits for room in the channel. -/
def Valid (chain : List StacksEvent) (s : Pipeline) : PipelineStep → Prop
  | .first iter => s.sent < chain.length ∧ EventQueue.Iterates iter s.queue.seen ∧
    s.queue.channel.length < s.queue.capacity
  | .again event iter => event ∈ chain.take s.sent ∧ EventQueue.Iterates iter s.queue.seen ∧
    (event.key ∈ s.queue.seen ∨ s.queue.channel.length < s.queue.capacity)
  | .process _ _ => True

/-! ## What every run preserves -/

/-- The pool `id` is still the one that was registered, `seen` holds keys of events that
were sent, and the channel is open and holds events of the emitter. -/
structure WellFormed (chain : List StacksEvent) (emitter : Principal) (id : String) (pool : Pool)
    (s : Pipeline) : Prop where
  isOpen : s.queue.closed = false
  seen_sent : ∀ k ∈ s.queue.seen, k ∈ (chain.take s.sent).map StacksEvent.key
  emitted : ∀ event ∈ s.queue.channel, event.emitter = emitter
  registered : ∃ p, s.registry.get id = some p ∧ frame p = frame pool

/-- What a pool subscribes to is in its frame, so events do not change it. -/
theorem subscribedTo_congr {p q : Pool} (h : frame p = frame q) (c : Principal) :
    p.subscribedTo c = q.subscribedTo c := by
  -- topics are made of contracts, and the frame keeps those
  have htopics : ∀ p : Pool, (frame p).topics = p.topics := by
    intro p
    cases p <;> rfl
  rw [Pool.subscribedTo, Pool.subscribedTo, ← htopics p, h, htopics q]

/-- Dispatching an event of the emitter applies it to the pool. -/
theorem get_dispatch_emitted {registry : PoolRegistry} {id : String} {p pool : Pool}
    {event : StacksEvent} {emitter : Principal} (hget : registry.get id = some p)
    (hframe : frame p = frame pool) (hsub : pool.subscribedTo emitter = true)
    (hemitter : event.emitter = emitter) (now : String → Nat) (contended : String → Bool) :
    (registry.dispatch now contended event).get id = some (p.applyEvent (now id) event) := by
  have hp : p.subscribedTo event.emitter = true := by
    rw [subscribedTo_congr hframe, hemitter, hsub]
  rw [get_dispatch, hget, Option.map_some, if_pos (by rw [hp, Bool.or_true])]

section Steps

variable {chain : List StacksEvent} {emitter : Principal} {id : String} {pool : Pool}
variable {s : Pipeline} {event : StacksEvent} {iter : List EventKey}

/-- A prefix and the next event. -/
theorem take_succ_of_getElem? (h : chain[s.sent]? = some event) :
    chain.take (s.sent + 1) = chain.take s.sent ++ [event] := by
  rw [List.take_add_one, h]
  rfl

/-- **The invariant**, by the three kinds of step. -/
theorem wellFormed_step (hemitter : ∀ e ∈ chain, e.emitter = emitter)
    (hsub : pool.subscribedTo emitter = true) (s : Pipeline) (l : PipelineStep)
    (hs : WellFormed chain emitter id pool s) (hvalid : Valid chain s l) :
    WellFormed chain emitter id pool (step chain s l) := by
  cases l with
  | first iter =>
    obtain ⟨hlt, -, -⟩ := hvalid
    have hnext : chain[s.sent]? = some chain[s.sent] := List.getElem?_eq_getElem hlt
    rw [step, hnext]
    refine ⟨(EventQueue.closed_sendDedup ..).trans hs.isOpen, ?_, ?_, hs.registered⟩
    · -- the new key is that of the event just sent
      intro k hk
      show k ∈ (chain.take (s.sent + 1)).map StacksEvent.key
      rw [take_succ_of_getElem? hnext, List.map_append, List.mem_append]
      rcases EventQueue.mem_seen_sendDedup hk with rfl | hold
      · exact Or.inr (List.mem_singleton.mpr rfl)
      · exact Or.inl (hs.seen_sent k hold)
    · intro e he
      rcases EventQueue.mem_channel_sendDedup he with hold | rfl
      · exact hs.emitted e hold
      · exact hemitter _ (List.getElem_mem hlt)
  | again event iter =>
    obtain ⟨hmem, -, -⟩ := hvalid
    refine ⟨(EventQueue.closed_sendDedup ..).trans hs.isOpen, ?_, ?_, hs.registered⟩
    · intro k hk
      rcases EventQueue.mem_seen_sendDedup hk with rfl | hold
      · exact List.mem_map_of_mem hmem
      · exact hs.seen_sent k hold
    · intro e he
      rcases EventQueue.mem_channel_sendDedup he with hold | rfl
      · exact hs.emitted e hold
      · exact hemitter _ (List.mem_of_mem_take hmem)
  | process now contended =>
    unfold step EventQueue.recv
    cases hchannel : s.queue.channel with
    | nil => exact hs
    | cons event rest =>
      -- the event was sent by the emitter, so it reaches the pool, and leaves its frame
      obtain ⟨p, hget, hframe⟩ := hs.registered
      have hevent : event.emitter = emitter := hs.emitted event (by simp [hchannel])
      refine ⟨hs.isOpen, hs.seen_sent, fun e he => hs.emitted e ?_, ?_⟩
      · rw [hchannel]
        exact List.mem_cons_of_mem _ he
      -- the pool is still there, and its frame is as before
      · exact ⟨_, get_dispatch_emitted hget hframe hsub hevent now contended,
          (applyEvent_overlays (now id) p event).2.trans hframe⟩

/-! ## The pool behind the channel -/

/-- The cells of the pool once the processor has worked off the channel are `cells`. -/
def Applied (id : String) (s : Pipeline) (cells : (k : QuoteCell) → CellValue k) : Prop :=
  ∃ p, s.registry.get id = some p ∧
    Overlay.applyAll (s.queue.channel.map (patch p)) (view p) = cells

/-- The cells after the events sent so far, each applied once in chain order. -/
def reference (chain : List StacksEvent) (pool : Pool) (s : Pipeline) :
    (k : QuoteCell) → CellValue k :=
  Overlay.applyAll ((chain.take s.sent).map (patch pool)) (view pool)

/-- An event that `seen` does not hold is applied on top of what is in the channel. -/
theorem applied_sendDedup (iter : List EventKey) (hs : WellFormed chain emitter id pool s)
    (hnew : event.key ∉ s.queue.seen) {cells : (k : QuoteCell) → CellValue k}
    (h : Applied id s cells) (n : Nat) :
    Applied id { s with queue := (s.queue.sendDedup iter event).1, sent := n }
      ((patch pool event).apply cells) := by
  obtain ⟨p, hget, hcells⟩ := h
  obtain ⟨p', hget', hframe⟩ := hs.registered
  obtain rfl : p = p' := Option.some.inj (hget.symm.trans hget')
  refine ⟨p, hget, ?_⟩
  show Overlay.applyAll ((s.queue.sendDedup iter event).1.channel.map (patch p)) (view p) = _
  -- the event joins the channel behind everything sent before
  rw [EventQueue.sendDedup_of_not_mem hnew hs.isOpen]
  show Overlay.applyAll ((s.queue.channel ++ [event]).map (patch p)) (view p) = _
  rw [List.map_append, Overlay.applyAll_append, hcells, ← patch_congr hframe event]
  rfl

/-- Working off the channel does not change what it comes to. -/
theorem applied_process (hsub : pool.subscribedTo emitter = true)
    (hs : WellFormed chain emitter id pool s) (now : String → Nat) (contended : String → Bool)
    (cells : (k : QuoteCell) → CellValue k) :
    Applied id (step chain s (.process now contended)) cells ↔ Applied id s cells := by
  unfold step EventQueue.recv
  cases hchannel : s.queue.channel with
  | nil => exact Iff.rfl
  | cons event rest =>
    obtain ⟨p, hget, hframe⟩ := hs.registered
    have hevent : event.emitter = emitter := hs.emitted event (by simp [hchannel])
    have hget' := get_dispatch_emitted hget hframe hsub hevent now contended
    -- one event moves from the channel into the pool, so the whole comes to the same
    obtain ⟨hview, hframe'⟩ := applyEvent_overlays (now id) p event
    have hpatch : patch (p.applyEvent (now id) event) = patch p :=
      funext fun e => patch_congr hframe' e
    have hsame : Overlay.applyAll (rest.map (patch (p.applyEvent (now id) event)))
        (view (p.applyEvent (now id) event)) =
          Overlay.applyAll (s.queue.channel.map (patch p)) (view p) := by
      rw [hpatch, hview, hchannel]
      rfl
    constructor
    · rintro ⟨q, hq, hcells⟩
      obtain rfl : p.applyEvent (now id) event = q := Option.some.inj (hget'.symm.trans hq)
      exact ⟨p, hget, hsame.symm.trans hcells⟩
    · rintro ⟨q, hq, hcells⟩
      obtain rfl : p = q := Option.some.inj (hget.symm.trans hq)
      exact ⟨_, hget', hsame.trans hcells⟩

/-- A repeated send is harmless while its key is still in `seen`, or while every cell the
event writes still holds the value it writes, as the last write of the events sent. -/
def Harmless (chain : List StacksEvent) (pool : Pool) (s : Pipeline) : PipelineStep → Prop
  | .again event _ => event.key ∈ s.queue.seen ∨
    Overlay.Current ((chain.take s.sent).map (patch pool)) (patch pool event)
  | .first _ | .process _ _ => True

/-- A repetition does no harm when it is refused, or when no later event has written what it
writes. -/
theorem harmless_again_iff {s : Pipeline} {event : StacksEvent} {iter : List EventKey} :
    Harmless chain pool s (.again event iter) ↔ event.key ∈ s.queue.seen ∨
      Overlay.Current ((chain.take s.sent).map (patch pool)) (patch pool event) := Iff.rfl

/-- **One step.** From a pipeline that comes to the reference, a step leads to one that
does exactly when it is harmless. -/
theorem applied_step_iff (hkeys : (chain.map StacksEvent.key).Nodup)
    (hsub : pool.subscribedTo emitter = true) (s : Pipeline) (l : PipelineStep)
    (hs : WellFormed chain emitter id pool s) (hvalid : Valid chain s l)
    (h : Applied id s (reference chain pool s)) :
    Applied id (step chain s l) (reference chain pool (step chain s l)) ↔
      Harmless chain pool s l := by
  cases l with
  | first iter =>
    obtain ⟨hlt, -, -⟩ := hvalid
    have hnext : chain[s.sent]? = some chain[s.sent] := List.getElem?_eq_getElem hlt
    -- the keys are distinct, so a first send never finds its key
    have hnew : chain[s.sent].key ∉ s.queue.seen := by
      intro hseen
      have hbefore := hs.seen_sent _ hseen
      have hkeys' : ((chain.take (s.sent + 1)).map StacksEvent.key).Nodup :=
        hkeys.sublist ((List.take_sublist _ _).map _)
      rw [take_succ_of_getElem? hnext, List.map_append] at hkeys'
      exact (List.nodup_append.mp hkeys').2.2 _ hbefore _ (List.mem_singleton.mpr rfl) rfl
    refine iff_of_true ?_ trivial
    have happlied := applied_sendDedup iter hs hnew h (s.sent + 1)
    rw [step, hnext]
    -- the reference grows by the same event
    have href : reference chain pool
        { s with queue := (s.queue.sendDedup iter chain[s.sent]).1, sent := s.sent + 1 } =
          (patch pool chain[s.sent]).apply (reference chain pool s) := by
      show Overlay.applyAll ((chain.take (s.sent + 1)).map (patch pool)) (view pool) = _
      rw [take_succ_of_getElem? hnext, List.map_append, Overlay.applyAll_append]
      rfl
    rw [href]
    exact happlied
  | again event iter =>
    obtain ⟨hmem, -, -⟩ := hvalid
    by_cases hseen : event.key ∈ s.queue.seen
    · -- a key still in `seen`: nothing is sent
      refine iff_of_true ?_ (Or.inl hseen)
      show Applied id { s with queue := (s.queue.sendDedup iter event).1 } _
      rw [EventQueue.sendDedup_of_mem hseen]
      exact h
    · -- forgotten: the event is applied on top, which must change nothing
      have hlog : patch pool event ∈ (chain.take s.sent).map (patch pool) :=
        List.mem_map_of_mem hmem
      have hcurrent := Overlay.apply_eq_iff_current hlog (view pool)
      have hafter : Applied id (step chain s (.again event iter))
          ((patch pool event).apply (reference chain pool s)) :=
        applied_sendDedup iter hs hseen h s.sent
      constructor
      · rintro ⟨p, hget, hcells⟩
        obtain ⟨q, hget', hcells'⟩ := hafter
        obtain rfl : p = q := Option.some.inj (hget.symm.trans hget')
        exact Or.inr (hcurrent.mp (hcells'.symm.trans hcells))
      · rintro (hin | hcur)
        · exact absurd hin hseen
        · have hsame : (patch pool event).apply (reference chain pool s) = reference chain pool s :=
            hcurrent.mpr hcur
          rw [hsame] at hafter
          exact hafter
  | process now contended =>
    refine iff_of_true ?_ trivial
    -- the processor sends nothing, so the reference stays
    have hsent : (step chain s (.process now contended)).sent = s.sent := by
      simp only [step]
      cases s.queue.recv <;> rfl
    rw [reference, hsent]
    exact (applied_process hsub hs now contended _).mpr h

/-- The pipeline before anything was sent. -/
def start (queue : EventQueue) (registry : PoolRegistry) : Pipeline :=
  { queue, registry, sent := 0 }

/-- At the start nothing was sent, and the pool is what it is. -/
theorem wellFormed_start (chain : List StacksEvent) (emitter : Principal) {queue : EventQueue}
    {registry : PoolRegistry} {capacity : Nat}
    (hqueue : EventQueue.build capacity = .ok queue) (hget : registry.get id = some pool) :
    WellFormed chain emitter id pool (start queue registry) ∧
      Applied id (start queue registry) (reference chain pool (start queue registry)) := by
  obtain ⟨hchannel, hclosed, hseen⟩ := EventQueue.build_eq_ok hqueue
  refine ⟨⟨hclosed, ?_, ?_, pool, hget, rfl⟩, pool, hget, ?_⟩
  · intro k hk
    rw [start, hseen] at hk
    exact absurd hk (Finset.notMem_empty k)
  · intro e he
    rw [start, hchannel] at he
    cases he
  · rw [start, hchannel]
    rfl

/-- **A run.** The pipeline comes to the reference throughout exactly when every step of
the run is harmless. -/
theorem always_applied_iff (hemitter : ∀ e ∈ chain, e.emitter = emitter)
    (hkeys : (chain.map StacksEvent.key).Nodup) (hsub : pool.subscribedTo emitter = true)
    (hs : WellFormed chain emitter id pool s) (h : Applied id s (reference chain pool s))
    {steps : List PipelineStep} (hvalid : Run.Along (step chain) (Valid chain) s steps) :
    Run.Always (step chain) (fun s => Applied id s (reference chain pool s)) s steps ↔
      Run.Along (step chain) (Harmless chain pool) s steps :=
  Run.always_iff_along (wellFormed_step hemitter hsub)
    (fun s l hs hv ha => applied_step_iff hkeys hsub s l hs hv ha) hs h hvalid

/-- Every valid run is well formed throughout. -/
theorem always_wellFormed (hemitter : ∀ e ∈ chain, e.emitter = emitter)
    (hsub : pool.subscribedTo emitter = true) (hs : WellFormed chain emitter id pool s)
    {steps : List PipelineStep} (hvalid : Run.Along (step chain) (Valid chain) s steps) :
    Run.Always (step chain) (WellFormed chain emitter id pool) s steps :=
  Run.always_of_along (wellFormed_step hemitter hsub) hs hvalid

end Steps

end Pipeline

/-! ## The pools behind a log -/

/-- Every pool registered before holds what the dispatched events of its contracts make of
it. -/
def Reflected (before : PoolRegistry) (dispatched : List StacksEvent) (registry : PoolRegistry) :
    Prop :=
  ∀ id pool, before.get id = some pool → ∃ p, registry.get id = some p ∧
    frame p = frame pool ∧ view p = Overlay.applyAll
      ((dispatched.filter fun e => pool.subscribedTo e.emitter).map (patch pool)) (view pool)

section Log

variable {before registry registry' : PoolRegistry} {dispatched : List StacksEvent}

/-- The log says nothing about the parts of a registry that hold no pools. -/
theorem Reflected.congr (h : Reflected before dispatched registry)
    (hsame : ∀ id, registry'.get id = registry.get id) : Reflected before dispatched registry' := by
  intro id pool hpool
  obtain ⟨p, hget, hp⟩ := h id pool hpool
  exact ⟨p, (hsame id).trans hget, hp⟩

/-- One more event, with no lock in the way. -/
theorem Reflected.dispatch (h : Reflected before dispatched registry) (now : String → Nat)
    {contended : String → Bool} (hfree : ∀ id, contended id = false) (event : StacksEvent) :
    Reflected before (dispatched ++ [event]) (registry.dispatch now contended event) := by
  intro id pool hpool
  obtain ⟨p, hget, hframe, hview⟩ := h id pool hpool
  have hdispatched := get_dispatch now contended registry event id
  rw [hget, Option.map_some, hfree id, Bool.false_or,
    Pipeline.subscribedTo_congr hframe] at hdispatched
  rcases hsub : pool.subscribedTo event.emitter
  · -- routed past this pool
    rw [hsub, if_neg Bool.false_ne_true] at hdispatched
    refine ⟨p, hdispatched, hframe, ?_⟩
    rw [List.filter_append, List.filter_singleton, hsub, cond_false, List.append_nil]
    exact hview
  · rw [hsub, if_pos rfl] at hdispatched
    obtain ⟨hcells, hkept⟩ := applyEvent_overlays (now id) p event
    refine ⟨_, hdispatched, hkept.trans hframe, ?_⟩
    rw [List.filter_append, List.filter_singleton, hsub, cond_true, List.map_append,
      Overlay.applyAll_append, hcells, hview, patch_congr hframe]
    rfl

/-- Up to its stamps, a pool is its events applied to it, whatever the times. -/
theorem Reflected.get (h : Reflected before dispatched registry) {id : String} {pool : Pool}
    (hpool : before.get id = some pool) (clock : Nat → Nat) : ∃ p, registry.get id = some p ∧
      unstamped p = unstamped (applyEvents clock pool
        (dispatched.filter fun e => pool.subscribedTo e.emitter)) := by
  obtain ⟨p, hget, hframe, hview⟩ := h id pool hpool
  obtain ⟨hview', hframe'⟩ := applyEvents_overlays clock pool
    (dispatched.filter fun e => pool.subscribedTo e.emitter)
  exact ⟨p, hget, unstamped_eq (hframe.trans hframe'.symm) (hview.trans hview'.symm)⟩

end Log

end StacksDex.Bridge
