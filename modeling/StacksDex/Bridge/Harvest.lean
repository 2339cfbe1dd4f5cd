import StacksDex.Bridge.Joining

/-!
# StacksDex — the pollers of all contracts

The per-contract source as one system (`Harvest`): the chain grows, cycles of the polled
contracts run `poll_once` over their streams, with any requests failing, and the processor
works off the channel, all in any order. `Harvested` says where the events of each stream
are: dispatched, in the channel, or still due.

The conditions on a run are those the code leaves open: a cycle that ends without an error has
reached its watermark, and no lock is held while candidates are collected. A burst that a
cycle's budget does not reach through breaks the first, and its events are lost for good; so
what is said here is said of runs without one.

`Harvested` is kept by each kind of step, and in a state where nothing is due and the channel
is empty it says that every stream has been dispatched.
-/

namespace StacksDex.Bridge

open StacksDex.Lib StacksDex.Model

structure Harvest where
  /-- What the chain had printed before. -/
  older : List StacksEvent
  /-- The events since, first to last. -/
  chain : List StacksEvent
  queue : EventQueue
  registry : PoolRegistry
  /-- What the processor has taken from the channel, first to last. -/
  dispatched : List StacksEvent

inductive HarvestStep where
  /-- The polled contracts' events of a block. -/
  | append (events : List StacksEvent)
  /-- A poll cycle of a contract, with what its requests are answered. -/
  | cycle (c : Principal)
      (fetchPage : (request limit offset : Nat) → Except Fault (List EventEnvelope))
      (iters : Nat → List EventKey)
  /-- A turn of the processor loop. -/
  | process (now : String → Nat) (contended : String → Bool)

namespace Harvest

/-- Nothing sent yet. -/
def start (older : List StacksEvent) (queue : EventQueue) (registry : PoolRegistry) : Harvest :=
  { older, chain := [], queue, registry, dispatched := [] }

/-- A contract's whole stream. -/
def history (s : Harvest) (c : Principal) : List StacksEvent := streamOf c (s.older ++ s.chain)

/-- The events of a contract after its watermark. -/
def pending (s : Harvest) (c : Principal) : List StacksEvent :=
  due (s.registry.watermark c) (s.history c)

/-- What has been enqueued, first to last. -/
def delivered (s : Harvest) : List StacksEvent := s.dispatched ++ s.queue.channel

section System

variable (config : CollectorConfig)

def step (s : Harvest) : HarvestStep → Harvest
  | .append events => { s with chain := s.chain ++ events }
  | .cycle c fetchPage iters =>
    match pollOnce config fetchPage iters c s.queue s.registry with
    | .ok r => { s with queue := r.queue, registry := r.registry }
    -- the loop logs the error and waits for its next turn
    | .error _ => s
  | .process now contended =>
    match s.queue.recv with
    | none => s
    | some (event, queue) =>
      { s with
        queue
        registry := s.registry.dispatch now contended event
        dispatched := s.dispatched ++ [event] }

/-- The conditions on a step. -/
def Smooth (polled : List Principal) (s : Harvest) : HarvestStep → Prop
  | .append events =>
    (∀ e ∈ events, e.emitter ∈ polled) ∧
      (∀ e ∈ events, ∀ e' ∈ s.older ++ s.chain, e'.txId ≠ e.txId) ∧
      (events.map StacksEvent.key).Nodup
  | .cycle c fetchPage iters =>
    c ∈ polled ∧ ServesStream (s.history c) fetchPage ∧
      -- the walk has reached the watermark
      ∀ r, pollOnce config fetchPage iters c s.queue s.registry = .ok r → r.offered = s.pending c
  | .process _ contended => ∀ id, contended id = false

end System

/-- Where the events are. -/
structure Harvested (polled : List Principal) (s : Harvest) : Prop where
  isOpen : s.queue.closed = false
  mine : ∀ e ∈ s.chain, e.emitter ∈ polled
  keys : (s.chain.map StacksEvent.key).Nodup
  known : ∀ e ∈ s.delivered, e ∈ s.chain
  seen : ∀ k ∈ s.queue.seen, k ∈ s.delivered.map StacksEvent.key
  fed : ∀ c ∈ polled, streamOf c s.delivered ++ s.pending c = streamOf c s.chain
  marked : ∀ c ∈ polled, ∀ txId, s.registry.watermark c = some txId →
    ∃ e ∈ s.older ++ s.chain, e.txId = txId

/-- Nothing is due, and nothing waits in the channel. -/
def Quiescent (polled : List Principal) (s : Harvest) : Prop :=
  s.queue.channel = [] ∧ ∀ c ∈ polled, s.pending c = []

section Steps

variable {config : CollectorConfig} {polled : List Principal} {s : Harvest}

/-- A block: the streams grow behind their watermarks. -/
theorem Harvested.append (h : Harvested polled s) {events : List StacksEvent}
    (hsmooth : s.Smooth config polled (.append events)) :
    Harvested polled (s.step config (.append events)) := by
  obtain ⟨hmine, hnew, hnodup⟩ := hsmooth
  refine ⟨h.isOpen, fun e he => (List.mem_append.mp he).elim (h.mine e) (hmine e), ?_,
    fun e he => List.mem_append_left _ (h.known e he), h.seen, ?_, ?_⟩
  -- the ids of the new transactions are new, and so are their keys
  · show ((s.chain ++ events).map StacksEvent.key).Nodup
    rw [List.map_append]
    refine h.keys.append hnodup ?_
    intro k hk hk'
    obtain ⟨e', he', rfl⟩ := List.mem_map.mp hk
    obtain ⟨e, he, heq⟩ := List.mem_map.mp hk'
    exact hnew e he e' (List.mem_append_right _ he') (congrArg Prod.fst heq).symm
  -- a watermark cannot be among them, so all of them are due
  · intro c hc
    have hdue : ∀ e ∈ streamOf c events, s.registry.watermark c ≠ some e.txId := by
      intro e he hmark
      obtain ⟨e', he', hid⟩ := h.marked c hc e.txId hmark
      exact hnew e (mem_streamOf.mp he).1 e' he' hid
    have hpending : (s.step config (.append events)).pending c =
        s.pending c ++ streamOf c events := by
      show due (s.registry.watermark c) (streamOf c (s.older ++ (s.chain ++ events))) = _
      rw [← List.append_assoc, streamOf_append, due_append hdue]
      rfl
    show streamOf c s.delivered ++ _ = streamOf c (s.chain ++ events)
    rw [hpending, ← List.append_assoc, h.fed c hc, streamOf_append]
  · intro c hc txId hmark
    obtain ⟨e, he, hid⟩ := h.marked c hc txId hmark
    refine ⟨e, ?_, hid⟩
    show e ∈ s.older ++ (s.chain ++ events)
    rw [← List.append_assoc]
    exact List.mem_append_left _ he

/-- What is pending is new. -/
theorem Harvested.mem_pending (h : Harvested polled s) {c : Principal} (hc : c ∈ polled)
    {e : StacksEvent} (he : e ∈ s.pending c) : e ∈ s.chain ∧ e.emitter = c := by
  have hfed := h.fed c hc
  have hin : e ∈ streamOf c s.chain := hfed ▸ List.mem_append_right _ he
  exact mem_streamOf.mp hin

/-- What is pending has not been enqueued, so a cycle that gets to it sends all of it. -/
theorem Harvested.pending_fresh (h : Harvested polled s) {c : Principal} (hc : c ∈ polled) :
    ∀ e ∈ s.pending c, e.key ∉ s.queue.seen := by
  intro e he hseen
  obtain ⟨hchain, hemitter⟩ := h.mem_pending hc he
  obtain ⟨e', he', hkey⟩ := List.mem_map.mp (h.seen _ hseen)
  obtain rfl := List.inj_on_of_nodup_map h.keys (h.known e' he') hchain hkey
  -- it would stand in the stream twice
  have hstream : (streamOf c s.chain).Nodup := h.keys.of_map.filter _
  rw [← h.fed c hc] at hstream
  exact (List.disjoint_of_nodup_append hstream) (mem_streamOf.mpr ⟨he', hemitter⟩) he

/-- **A cycle** that ends without an error enqueues what is pending of its contract. -/
theorem Harvested.cycle (h : Harvested polled s) (hsize : 0 < config.pageSize)
    (hpages : 0 < config.coldStartPages) (hbudget : 0 < config.maxEventsPerCycle) {c : Principal}
    {fetchPage : (request limit offset : Nat) → Except Fault (List EventEnvelope)}
    {iters : Nat → List EventKey} (hsmooth : s.Smooth config polled (.cycle c fetchPage iters)) :
    Harvested polled (s.step config (.cycle c fetchPage iters)) := by
  obtain ⟨hc, hserves, hreaches⟩ := hsmooth
  -- a cycle that fails changes nothing
  rcases hpoll : pollOnce config fetchPage iters c s.queue s.registry with fault | r
  · have hsame : s.step config (.cycle c fetchPage iters) = s := by rw [step, hpoll]
    rw [hsame]
    exact h
  have hstep : s.step config (.cycle c fetchPage iters) =
      { s with queue := r.queue, registry := r.registry } := by rw [step, hpoll]
  obtain ⟨hqueue, hregistry⟩ :=
    pollOnce_cycle hsize hpages hbudget hserves hpoll (hreaches r hpoll)
  change r.queue = (enqueue iters s.queue (s.pending c)).1 at hqueue
  rw [hstep, hqueue, hregistry]
  -- what is due has distinct keys that nobody has sent, so all of it is accepted
  have hnodup : ((s.pending c).map StacksEvent.key).Nodup := by
    have hstream : ((streamOf c s.chain).map StacksEvent.key).Nodup :=
      h.keys.sublist (List.filter_sublist.map _)
    rw [← h.fed c hc, List.map_append] at hstream
    exact hstream.of_append_right
  obtain ⟨hchannel, hclosed, hkeys⟩ := enqueue_fresh h.isOpen hnodup (h.pending_fresh hc) iters
  have hdelivered : s.dispatched ++ (enqueue iters s.queue (s.pending c)).1.channel =
      s.delivered ++ s.pending c := by
    rw [hchannel, ← List.append_assoc]
    rfl
  refine ⟨hclosed, h.mine, h.keys, ?_, ?_, ?_, ?_⟩
  -- what a poller sends is of the chain, and `seen` has grown by its keys
  · intro e he
    rw [delivered, hdelivered] at he
    rcases List.mem_append.mp he with hold | hnew
    · exact h.known e hold
    · exact (h.mem_pending hc hnew).1
  · intro k hk
    rw [delivered, hdelivered, List.map_append, List.mem_append]
    exact (hkeys k hk).imp_left (h.seen k)
  · intro c' hc'
    rw [delivered, hdelivered, streamOf_append]
    by_cases hcc : c' = c
    · -- its own stream is delivered to the end
      subst hcc
      have hown : streamOf c' (s.pending c') = s.pending c' :=
        List.filter_eq_self.mpr fun e he => decide_eq_true (h.mem_pending hc he).2
      have hempty : due ((advance c' (s.history c') s.registry).watermark c') (s.history c') = [] :=
        due_advance ..
      show _ ++ due _ (s.history c') = _
      rw [hown, hempty, List.append_nil]
      exact h.fed c' hc
    -- the other streams are as they were
    · have hnone : streamOf c' (s.pending c) = [] :=
        List.filter_eq_nil_iff.mpr fun e he => by
          simpa using fun heq => hcc (heq.symm.trans (h.mem_pending hc he).2)
      show _ ++ due ((advance c (s.history c) s.registry).watermark c') (s.history c') = _
      rw [hnone, watermark_advance_of_ne hcc, List.append_nil]
      exact h.fed c' hc'
  -- the watermark has moved to the last event of its stream
  · intro c' hc' txId hmark
    by_cases hcc : c' = c
    · subst hcc
      change (advance c' (s.history c') s.registry).watermark c' = some txId at hmark
      unfold advance at hmark
      rcases hlast : (s.history c').getLast? with _ | newest
      · rw [hlast] at hmark
        exact h.marked c' hc txId hmark
      · rw [hlast] at hmark
        dsimp only at hmark
        rw [PoolRegistry.watermark_setWatermark] at hmark
        exact ⟨newest, (mem_streamOf.mp (List.mem_of_getLast? hlast)).1, Option.some.inj hmark⟩
    · refine h.marked c' hc' txId ?_
      rw [← watermark_advance_of_ne hcc (s.history c)]
      exact hmark

/-- The processor moves one event across. -/
theorem Harvested.process (h : Harvested polled s) (now : String → Nat)
    (contended : String → Bool) : Harvested polled (s.step config (.process now contended)) := by
  unfold step EventQueue.recv
  rcases hchannel : s.queue.channel with _ | ⟨event, rest⟩
  · exact h
  -- an event goes from the channel to the processor; the two together are the same
  have hdelivered : s.dispatched ++ [event] ++ rest = s.delivered := by
    rw [delivered, hchannel, List.append_assoc]
    rfl
  refine ⟨h.isOpen, h.mine, h.keys, ?_, ?_, ?_, ?_⟩
  · intro e he
    exact h.known e (hdelivered ▸ he)
  · intro k hk
    show k ∈ (s.dispatched ++ [event] ++ rest).map _
    rw [hdelivered]
    exact h.seen k hk
  · intro c hc
    show streamOf c (s.dispatched ++ [event] ++ rest) ++
      due ((s.registry.dispatch now contended event).watermark c) (s.history c) = _
    rw [hdelivered, PoolRegistry.watermark_dispatch]
    exact h.fed c hc
  · intro c hc txId hmark
    rw [PoolRegistry.watermark_dispatch] at hmark
    exact h.marked c hc txId hmark

end Steps

end Harvest

end StacksDex.Bridge
