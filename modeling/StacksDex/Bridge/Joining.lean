import Mathlib.Data.List.TakeWhile
import StacksDex.Bridge.Pipeline
import StacksDex.Bridge.Polling
import StacksDex.Model.CollectorHandle

/-!
# StacksDex — a pool joins a running collector

The chain appends transactions to the streams of a shared core contract and of a pool's own
contract. Meanwhile cycles run for the contracts already polled, the processor works off the
channel, and somewhere in between the pool is fetched and then added: four activities whose
steps come in any order. A cycle is one step that enqueues every event after the watermark
and moves it, which is what `poll_once` does whenever it reaches the watermark
(`pollOnce_cycle`). `WellFormed` says where each stream's events are, and what the added
pool holds: its snapshot, and whatever was dispatched since.
-/

namespace StacksDex.Bridge

open StacksDex.Lib StacksDex.Model

/-! ## Streams and cycles -/

/-- A contract's events. -/
def streamOf (c : Principal) (chain : List StacksEvent) : List StacksEvent :=
  chain.filter fun e => e.emitter = c

/-- The events after the newest one of the watermark's transaction. -/
def due (watermark : Option String) (stream : List StacksEvent) : List StacksEvent :=
  (stream.reverse.takeWhile fun e => decide (watermark ≠ some e.txId)).reverse

/-- The registry after a cycle over the stream. -/
def advance (c : Principal) (stream : List StacksEvent) (registry : PoolRegistry) : PoolRegistry :=
  match stream.getLast? with
  | some newest => registry.setWatermark c newest.txId
  | none => registry

/-- Events that are no repetition of the watermark's transaction join those that are due. -/
theorem due_append {watermark : Option String} {stream events : List StacksEvent}
    (h : ∀ e ∈ events, watermark ≠ some e.txId) :
    due watermark (stream ++ events) = due watermark stream ++ events := by
  rw [due, List.reverse_append, List.takeWhile_append_of_pos, List.reverse_append,
    List.reverse_reverse, due]
  exact fun e he => decide_eq_true (h e (List.mem_reverse.mp he))

/-- With the watermark at the newest transaction nothing is due. -/
theorem due_newest {stream : List StacksEvent} {newest : StacksEvent}
    (h : stream.getLast? = some newest) : due (some newest.txId) stream = [] := by
  have hhead : stream.reverse.head? = some newest := by rw [List.head?_reverse, h]
  obtain ⟨rest, hrest⟩ := List.head?_eq_some_iff.mp hhead
  rw [due, hrest, List.takeWhile_cons_of_neg (by simp), List.reverse_nil]

/-- What is due is the end of the stream. -/
theorem due_suffix (watermark : Option String) (stream : List StacksEvent) :
    due watermark stream <:+ stream := by
  rw [due, ← List.reverse_prefix, List.reverse_reverse]
  exact List.takeWhile_prefix _

/-- Sends of new keys all go through. -/
theorem enqueue_fresh {queue : EventQueue} (hopen : queue.closed = false)
    {offered : List StacksEvent} (hnodup : (offered.map StacksEvent.key).Nodup)
    (hfresh : ∀ e ∈ offered, e.key ∉ queue.seen) (iters : Nat → List EventKey) :
    (enqueue iters queue offered).1.channel = queue.channel ++ offered ∧
      (enqueue iters queue offered).1.closed = false ∧
      ∀ k ∈ (enqueue iters queue offered).1.seen,
        k ∈ queue.seen ∨ k ∈ offered.map StacksEvent.key := by
  induction offered generalizing queue iters with
  | nil => exact ⟨by rw [List.append_nil]; rfl, hopen, fun k hk => Or.inl hk⟩
  | cons event rest ih =>
    obtain ⟨hnot, hrest⟩ := List.nodup_cons.mp hnodup
    have hsend := EventQueue.sendDedup_of_not_mem (hfresh event (List.mem_cons_self ..)) hopen
      (iters 0)
    -- the key just sent is not that of a later event
    have hseen : ∀ k ∈ (queue.sendDedup (iters 0) event).1.seen, k = event.key ∨ k ∈ queue.seen :=
      fun k hk => EventQueue.mem_seen_sendDedup hk
    have hfresh' : ∀ e ∈ rest, e.key ∉ (queue.sendDedup (iters 0) event).1.seen := by
      intro e he hk
      rcases hseen _ hk with heq | hold
      · exact hnot (heq ▸ List.mem_map_of_mem he)
      · exact hfresh e (List.mem_cons_of_mem _ he) hold
    obtain ⟨hchannel, hclosed, hkeys⟩ := ih
      (by rw [EventQueue.closed_sendDedup]; exact hopen) hrest hfresh' fun i => iters (i + 1)
    refine ⟨?_, hclosed, fun k hk => ?_⟩
    · show (enqueue (fun i => iters (i + 1)) (queue.sendDedup (iters 0) event).1 rest).1.channel = _
      rw [hchannel, hsend]
      exact List.append_assoc queue.channel [event] rest
    · rw [List.map_cons, List.mem_cons]
      rcases hkeys k hk with hk | hk
      · rcases hseen k hk with rfl | hk
        · exact Or.inr (Or.inl rfl)
        · exact Or.inl hk
      · exact Or.inr (Or.inr hk)

section Cycle

variable {config : CollectorConfig} {stream : List StacksEvent}

/-- The pages of a stream that does not grow during the cycle. -/
def servePages (stream : List StacksEvent) (_request limit offset : Nat) :
    Except Fault (List EventEnvelope) :=
  .ok (Paging.page limit offset (stream.map fun e => ⟨e.txId, some e⟩))

/-- A request that is answered is answered with a page of the stream. -/
def ServesStream (stream : List StacksEvent)
    (fetchPage : (request limit offset : Nat) → Except Fault (List EventEnvelope)) : Prop :=
  ∀ request limit offset page, fetchPage request limit offset = .ok page →
    servePages stream request limit offset = .ok page

variable {fetchPage : (request limit offset : Nat) → Except Fault (List EventEnvelope)}

/-- The first page of a cycle tells the newest transaction of the stream. -/
theorem newestSeen_eq (hsize : 0 < config.pageSize) (hserves : ServesStream stream fetchPage)
    {watermark : Option String} {n : Nat} {w : Walk}
    (h : walkPages config fetchPage watermark (n + 1) 0
      { toApply := [], newestSeen := none, reachedWatermark := false } = .ok w) :
    w.newestSeen = stream.getLast?.map StacksEvent.txId := by
  obtain ⟨page, hpage, hnewest⟩ := walkPages_newest rfl h
  cases hserves _ _ _ _ hpage
  rw [hnewest, Paging.head?_page_zero hsize, List.getLast?_map, Option.map_map]
  rfl

/-- **A cycle.** A call of `poll_once` that may read a page, and that offers everything
after the watermark, leaves the queue and the registry as a cycle does. -/
theorem pollOnce_cycle (hsize : 0 < config.pageSize) (hpages : 0 < config.coldStartPages)
    (hbudget : 0 < config.maxEventsPerCycle) (hserves : ServesStream stream fetchPage)
    {iters : Nat → List EventKey} {c : Principal}
    {queue : EventQueue} {registry : PoolRegistry} {r : Polled}
    (h : pollOnce config fetchPage iters c queue registry = .ok r)
    (hoffered : r.offered = due (registry.watermark c) stream) :
    r.queue = (enqueue iters queue (due (registry.watermark c) stream)).1 ∧
      r.registry = advance c stream registry := by
  obtain ⟨pages, hmax, hrest⟩ := bind_eq_ok.mp h
  obtain ⟨w, hwalk, hret⟩ := bind_eq_ok.mp hrest
  -- there is at least one page to ask for
  have hpos : ∃ n, pages = n + 1 := by
    refine Nat.exists_eq_succ_of_ne_zero ?_
    rintro rfl
    cases hmark : registry.watermark c with
    | none =>
      rw [hmark] at hmax
      have := Except.ok.inj hmax
      omega
    | some txId =>
      rw [hmark, maxPages, u128DivCeil, if_neg (by omega)] at hmax
      have := Nat.div_pos (Nat.le_sub_of_add_le (by omega :
        config.pageSize + 1 ≤ config.maxEventsPerCycle + config.pageSize)) hsize
      have := Except.ok.inj hmax
      omega
  obtain ⟨n, rfl⟩ := hpos
  -- what the first page shows first is the last event of the stream
  have hnewest := newestSeen_eq hsize hserves hwalk
  cases hret
  refine ⟨congrArg (fun offered => (enqueue iters queue offered).1) hoffered, ?_⟩
  unfold advance
  cases hlast : stream.getLast? with
  | none =>
    rw [hlast] at hnewest
    simp only [hnewest]
    rfl
  | some newest =>
    rw [hlast] at hnewest
    simp only [hnewest]
    rfl

end Cycle

/-! ## The machine -/

/-- What a fetch reads at a point of the chain: the state its events have led to. -/
def snapshot (origin : DLMMPool) (chain : List StacksEvent) : DLMMPool :=
  (origin.applyEvents (fun _ => 0) chain).unstamped

/-- The chain, and a collector with the queue behind its pollers. -/
structure Joining where
  /-- The events of both contracts, first to last. -/
  chain : List StacksEvent
  handle : CollectorHandle
  queue : EventQueue
  /-- What the processor has taken from the channel, first to last. -/
  dispatched : List StacksEvent
  /-- How much of the chain the fetched snapshot has. -/
  fetched : Option Nat
  /-- Once the pool is added: how much of the chain its snapshot has, and how much had been
  dispatched before. -/
  added : Option (Nat × Nat)

inductive JoiningStep where
  /-- A transaction with its events. -/
  | append (events : List StacksEvent)
  /-- A poll cycle of a contract. -/
  | cycle (c : Principal) (iters : Nat → List EventKey)
  /-- The processor takes one event from the channel. -/
  | process (now : String → Nat) (contended : String → Bool)
  /-- `fetch_dlmm_pool` reads the chain. -/
  | fetch
  /-- `add_pool`, with what was fetched last. -/
  | add

/-- What the two contracts print: the pool's own prints no core action, and the core no
action of a pool. -/
def EmittedBy (origin : DLMMPool) (e : StacksEvent) : Prop :=
  (e.emitter = origin.poolContract ∧ e.action ∉ CORE_EMITTED_ACTIONS) ∨
    (e.emitter = origin.coreContract ∧ e.action ∉ POOL_EMITTED_ACTIONS)

namespace Joining

variable (id : String) (origin : DLMMPool)

def start (handle : CollectorHandle) (queue : EventQueue) : Joining where
  chain := []
  handle
  queue
  dispatched := []
  fetched := none
  added := none

/-- The events of a contract that its next cycle enqueues. -/
def pending (s : Joining) (c : Principal) : List StacksEvent :=
  due (s.handle.registry.watermark c) (streamOf c s.chain)

/-- What has been enqueued, first to last. -/
def delivered (s : Joining) : List StacksEvent := s.dispatched ++ s.queue.channel

def step (s : Joining) : JoiningStep → Joining
  | .append events => { s with chain := s.chain ++ events }
  | .cycle c iters =>
    { s with
      queue := (enqueue iters s.queue (s.pending c)).1
      handle := { s.handle with
        registry := advance c (streamOf c s.chain) s.handle.registry } }
  | .process now contended =>
    match s.queue.recv with
    | some (event, queue) =>
      { s with
        queue
        handle := { s.handle with registry := s.handle.registry.dispatch now contended event }
        dispatched := s.dispatched ++ [event] }
    | none => s
  | .fetch => { s with fetched := some s.chain.length }
  | .add =>
    match s.fetched with
    | some n =>
      { s with
        handle := s.handle.addPool id (.dlmm (snapshot origin (s.chain.take n)))
        added := some (n, s.dispatched.length) }
    | none => s

/-- Which steps can happen. A transaction has an id of its own, and its events distinct
indices; the pool is added once. -/
def Valid (s : Joining) : JoiningStep → Prop
  | .append events =>
    (∃ txId, (∀ e ∈ events, e.txId = txId) ∧ ∀ e ∈ s.chain, e.txId ≠ txId) ∧
      (events.map StacksEvent.key).Nodup ∧ ∀ e ∈ events, EmittedBy origin e
  | .cycle c _ => c ∈ s.handle.polled
  | .process _ _ => True
  | .fetch => s.added = none
  | .add => s.fetched ≠ none ∧ s.added = none

/-- The contracts the pool listens to. -/
def Heard (c : Principal) : Prop := c = origin.poolContract ∨ c = origin.coreContract

/-- What the added pool holds: its snapshot, and what was dispatched since. -/
def Holds (s : Joining) (n m : Nat) (p : Pool) : Prop :=
  frame p = frame (.dlmm origin) ∧
    view p = Overlay.applyAll ((s.dispatched.drop m).map (patch (.dlmm origin)))
      (view (.dlmm (snapshot origin (s.chain.take n))))

/-- What every run keeps: distinct events, each stream enqueued in order as far as its
watermark, no key remembered of an event still to come, and the pool as added. -/
structure WellFormed (s : Joining) : Prop where
  isOpen : s.queue.closed = false
  emitted : ∀ e ∈ s.chain, EmittedBy origin e
  keys : (s.chain.map StacksEvent.key).Nodup
  known : ∀ e ∈ s.delivered, e ∈ s.chain
  seen : ∀ k ∈ s.queue.seen, k ∈ s.delivered.map StacksEvent.key
  fed : ∀ c, Heard origin c → streamOf c s.delivered ++ s.pending c = streamOf c s.chain
  marked : ∀ c, Heard origin c → ∀ txId, s.handle.registry.watermark c = some txId →
    ∃ e ∈ s.chain, e.txId = txId
  reads : ∀ n, s.fetched = some n → n ≤ s.chain.length
  joined : ∀ n m, s.added = some (n, m) → n ≤ s.chain.length ∧ m ≤ s.dispatched.length ∧
    ∃ p, s.handle.registry.get id = some p ∧ Holds origin s n m p

end Joining

/-! ## What every step keeps -/

/-- What quotes read of a snapshot: the chain's events, laid over the pool they started from. -/
theorem snapshot_view (origin : DLMMPool) (chain : List StacksEvent) :
    view (.dlmm (snapshot origin chain)) =
      Overlay.applyAll (chain.map (patch (.dlmm origin))) (view (.dlmm origin)) := by
  obtain ⟨hview, -⟩ := applyEvents_overlays (fun _ => 0) (.dlmm origin) chain
  rw [applyEvents_dlmm] at hview
  rw [← hview]
  exact view_unstamped (.dlmm (origin.applyEvents (fun _ => 0) chain))

/-- What no event writes is in the snapshot as it was at the origin. -/
theorem snapshot_frame (origin : DLMMPool) (chain : List StacksEvent) :
    frame (.dlmm (snapshot origin chain)) = frame (.dlmm origin) := by
  obtain ⟨-, hframe⟩ := applyEvents_overlays (fun _ => 0) (.dlmm origin) chain
  rw [applyEvents_dlmm] at hframe
  exact hframe

/-- A contract's stream grows by its own events. -/
theorem streamOf_append (c : Principal) (xs ys : List StacksEvent) :
    streamOf c (xs ++ ys) = streamOf c xs ++ streamOf c ys := List.filter_append ..

/-- A contract's stream has the chain's events with that emitter. -/
theorem mem_streamOf {c : Principal} {chain : List StacksEvent} {e : StacksEvent} :
    e ∈ streamOf c chain ↔ e ∈ chain ∧ e.emitter = c := by
  rw [streamOf, List.mem_filter, decide_eq_true_eq]

/-- Moving a watermark touches no pool. -/
theorem get_advance (c : Principal) (stream : List StacksEvent) (registry : PoolRegistry)
    (id : String) : (advance c stream registry).get id = registry.get id := by
  unfold advance
  split <;> rfl

/-- Nor another contract's watermark. -/
theorem watermark_advance_of_ne {c c' : Principal} (h : c' ≠ c) (stream : List StacksEvent)
    (registry : PoolRegistry) :
    (advance c stream registry).watermark c' = registry.watermark c' := by
  unfold advance
  split
  · exact PoolRegistry.watermark_setWatermark_of_ne registry h _
  · rfl

/-- After a cycle nothing of the contract is due. -/
theorem due_advance (c : Principal) (stream : List StacksEvent) (registry : PoolRegistry) :
    due ((advance c stream registry).watermark c) stream = [] := by
  unfold advance
  split
  · rename_i newest hlast
    rw [PoolRegistry.watermark_setWatermark, due_newest hlast]
  · rename_i hlast
    rw [List.getLast?_eq_none_iff.mp hlast]
    rfl

/-- An event of the pool comes from one of the two contracts the pool hears. -/
theorem emittedBy_heard {origin : DLMMPool} {e : StacksEvent} (h : EmittedBy origin e) :
    Joining.Heard origin e.emitter := h.imp And.left And.left

/-- The pool is subscribed to both contracts it hears. -/
theorem subscribedTo_heard {origin : DLMMPool} {c : Principal} (h : Joining.Heard origin c) :
    (Pool.dlmm origin).subscribedTo c = true := by
  refine List.any_eq_true.mpr ?_
  rcases h with rfl | rfl
  · exact ⟨⟨origin.poolContract, "update-bin-balances"⟩,
      List.mem_append_left _ (List.mem_map.mpr ⟨_, by decide, rfl⟩), decide_eq_true rfl⟩
  · exact ⟨⟨origin.coreContract, "swap-x-for-y"⟩,
      List.mem_append_right _ (List.mem_map.mpr ⟨_, by decide, rfl⟩), decide_eq_true rfl⟩

namespace Joining

section Steps

variable {id : String} {origin : DLMMPool} {s : Joining}

/-- What is pending is part of the stream. -/
theorem pending_subset (s : Joining) (c : Principal) : s.pending c ⊆ streamOf c s.chain :=
  (due_suffix _ _).subset

/-- At the start the chain is empty, and nothing has been polled. -/
theorem wellFormed_start {handle : CollectorHandle} {queue : EventQueue} {capacity : Nat}
    (hbuild : EventQueue.build capacity = .ok queue)
    (hcold : ∀ c, Heard origin c → handle.registry.watermark c = none) :
    WellFormed id origin (start handle queue) := by
  obtain ⟨hchannel, hclosed, hseen⟩ := EventQueue.build_eq_ok hbuild
  have hdelivered : (start handle queue).delivered = [] := hchannel
  exact
    { isOpen := hclosed
      emitted := nofun
      keys := .nil
      known := fun e he => by
        rw [hdelivered] at he
        cases he
      seen := fun k hk => by
        have hnot : k ∉ queue.seen := hseen ▸ Finset.notMem_empty k
        exact absurd hk hnot
      fed := fun c _ => by
        rw [hdelivered]
        rfl
      marked := fun c hc txId hmark => by
        rw [show (start handle _).handle.registry.watermark c = none from hcold c hc] at hmark
        cases hmark
      reads := nofun
      joined := nofun }

/-- A transaction arrives: both streams grow behind their watermarks. -/
theorem WellFormed.append (h : WellFormed id origin s) {events : List StacksEvent}
    (hvalid : s.Valid origin (.append events)) :
    WellFormed id origin (s.step id origin (.append events)) := by
  obtain ⟨⟨txId, howns, hnew⟩, hnodup, hemitted⟩ := hvalid
  -- the new transactions have ids of their own
  have hfresh : ∀ e ∈ events, ∀ e' ∈ s.chain, e'.txId ≠ e.txId := fun e he e' he' => by
    rw [howns e he]
    exact hnew e' he'
  exact
    { h with
      emitted := fun e he => (List.mem_append.mp he).elim (h.emitted e) (hemitted e)
      keys := by
        show ((s.chain ++ events).map StacksEvent.key).Nodup
        rw [List.map_append]
        refine h.keys.append hnodup ?_
        rintro k hk hk'
        obtain ⟨e', he', rfl⟩ := List.mem_map.mp hk
        obtain ⟨e, he, heq⟩ := List.mem_map.mp hk'
        exact hfresh e he e' he' (congrArg Prod.fst heq).symm
      known := fun e he => List.mem_append_left _ (h.known e he)
      fed := fun c hc => by
        -- so none of them is at a watermark, and all of them are due
        have hdue : ∀ e ∈ streamOf c events, s.handle.registry.watermark c ≠ some e.txId := by
          intro e he hmark
          obtain ⟨e', he', heq⟩ := h.marked c hc e.txId hmark
          exact hfresh e (mem_streamOf.mp he).1 e' he' heq
        show streamOf c s.delivered ++ due (s.handle.registry.watermark c)
          (streamOf c (s.chain ++ events)) = _
        rw [streamOf_append, due_append hdue, ← List.append_assoc]
        exact (congrArg (· ++ streamOf c events) (h.fed c hc)).trans (streamOf_append ..).symm
      marked := fun c hc txId hmark => by
        obtain ⟨e, he, heq⟩ := h.marked c hc txId hmark
        exact ⟨e, List.mem_append_left _ he, heq⟩
      reads := fun n hn => by
        have := h.reads n hn
        show n ≤ (s.chain ++ events).length
        rw [List.length_append]
        omega
      joined := fun n m hadded => by
        obtain ⟨hn, hm, p, hget, hframe, hview⟩ := h.joined n m hadded
        -- the snapshot was taken of a prefix that does not change
        have htake : (s.chain ++ events).take n = s.chain.take n := List.take_append_of_le_length hn
        refine ⟨by
          show n ≤ (s.chain ++ events).length
          rw [List.length_append]
          omega, hm, p, hget, hframe, ?_⟩
        show view p =
          Overlay.applyAll _ (view (.dlmm (snapshot origin ((s.chain ++ events).take n))))
        rw [htake]
        exact hview }

/-- What is pending is on the chain, and the contract's own. -/
theorem mem_pending {c : Principal} {e : StacksEvent} (he : e ∈ s.pending c) :
    e ∈ s.chain ∧ e.emitter = c := mem_streamOf.mp (pending_subset s c he)

/-- What is pending has not been enqueued. -/
theorem WellFormed.pending_fresh (h : WellFormed id origin s) {c : Principal} :
    ∀ e ∈ s.pending c, e.key ∉ s.queue.seen := by
  intro e he hseen
  obtain ⟨hchain, hemitter⟩ := mem_pending he
  obtain ⟨e', he', hkey⟩ := List.mem_map.mp (h.seen _ hseen)
  obtain rfl := List.inj_on_of_nodup_map h.keys (h.known e' he') hchain hkey
  -- it would stand in the stream twice
  have hstream : (streamOf c s.chain).Nodup := h.keys.of_map.filter _
  rw [← h.fed c (hemitter ▸ emittedBy_heard (h.emitted e' hchain))] at hstream
  exact (List.disjoint_of_nodup_append hstream) (mem_streamOf.mpr ⟨he', hemitter⟩) he

/-- A cycle of a contract enqueues what is pending, and nothing of it is refused. -/
theorem WellFormed.cycle (h : WellFormed id origin s) (c : Principal)
    (iters : Nat → List EventKey) : WellFormed id origin (s.step id origin (.cycle c iters)) := by
  have hnodup : ((s.pending c).map StacksEvent.key).Nodup :=
    h.keys.sublist (((due_suffix _ _).sublist.trans List.filter_sublist).map _)
  -- what is due has distinct keys that nobody has sent, so all of it is accepted
  obtain ⟨hchannel, hclosed, hkeys⟩ := enqueue_fresh h.isOpen hnodup h.pending_fresh iters
  have hdelivered : (s.step id origin (.cycle c iters)).delivered = s.delivered ++ s.pending c := by
    show s.dispatched ++ (enqueue iters s.queue (s.pending c)).1.channel = _
    rw [hchannel, ← List.append_assoc]
    rfl
  exact
    { isOpen := hclosed
      emitted := h.emitted
      keys := h.keys
      known := fun e he => by
        rw [hdelivered] at he
        exact (List.mem_append.mp he).elim (h.known e) fun he => (mem_pending he).1
      seen := fun k hk => by
        rw [hdelivered, List.map_append, List.mem_append]
        exact (hkeys k hk).imp_left (h.seen k)
      fed := fun c' hc' => by
        rw [hdelivered, streamOf_append]
        by_cases hcc : c' = c
        -- its own stream is delivered to the end
        · subst hcc
          have hown : streamOf c' (s.pending c') = s.pending c' :=
            List.filter_eq_self.mpr fun e he => decide_eq_true (mem_pending he).2
          have hempty : (s.step id origin (.cycle c' iters)).pending c' = [] := due_advance ..
          rw [hown, hempty, List.append_nil]
          exact h.fed c' hc'
        -- the other streams are as they were
        · have hnone : streamOf c' (s.pending c) = [] :=
            List.filter_eq_nil_iff.mpr fun e he => by
              simpa using fun heq => hcc (heq.symm.trans (mem_pending he).2)
          have hsame : (s.step id origin (.cycle c iters)).pending c' = s.pending c' :=
            congrArg (fun w => due w (streamOf c' s.chain))
              (watermark_advance_of_ne hcc _ s.handle.registry)
          rw [hnone, hsame, List.append_nil]
          exact h.fed c' hc'
      marked := fun c' hc' txId hmark => by
        -- the watermark has moved to the last event of its stream
        by_cases hcc : c' = c
        · subst hcc
          change (advance c' (streamOf c' s.chain) s.handle.registry).watermark c' = _ at hmark
          unfold advance at hmark
          split at hmark
          · rename_i newest hlast
            rw [PoolRegistry.watermark_setWatermark] at hmark
            exact ⟨newest, (mem_streamOf.mp (List.mem_of_getLast? hlast)).1, Option.some.inj hmark⟩
          · exact h.marked c' hc' txId hmark
        · refine h.marked c' hc' txId ?_
          rw [← watermark_advance_of_ne hcc (streamOf c s.chain)]
          exact hmark
      reads := h.reads
      joined := fun n m hadded => by
        obtain ⟨hn, hm, p, hget, hholds⟩ := h.joined n m hadded
        exact ⟨hn, hm, p, (get_advance ..).trans hget, hholds⟩ }

/-- The processor dispatches one event; the added pool applies it. -/
theorem WellFormed.process (h : WellFormed id origin s) (now : String → Nat)
    (contended : String → Bool) :
    WellFormed id origin (s.step id origin (.process now contended)) := by
  cases hchannel : s.queue.channel with
  | nil =>
    have hstep : s.step id origin (.process now contended) = s := by
      simp only [step, EventQueue.recv, hchannel]
    rw [hstep]
    exact h
  | cons event rest =>
    have hstep : s.step id origin (.process now contended) =
        { s with
          queue := { s.queue with channel := rest }
          handle := { s.handle with registry := s.handle.registry.dispatch now contended event }
          dispatched := s.dispatched ++ [event] } := by
      simp only [step, EventQueue.recv, hchannel]
    rw [hstep]
    -- an event goes from the channel to the processor; the two together are the same
    have hdelivered : (s.dispatched ++ [event]) ++ rest = s.delivered := by
      rw [delivered, hchannel, List.append_assoc]
      rfl
    have hpending : ∀ c, due ((s.handle.registry.dispatch now contended event).watermark c)
        (streamOf c s.chain) = s.pending c := fun c => by
      rw [PoolRegistry.watermark_dispatch]
      rfl
    have hevent : event ∈ s.chain := h.known event (by rw [← hdelivered]; simp)
    exact
      { isOpen := h.isOpen
        emitted := h.emitted
        keys := h.keys
        known := fun e he => h.known e (hdelivered ▸ he)
        seen := fun k hk => by
          show k ∈ ((s.dispatched ++ [event]) ++ rest).map _
          rw [hdelivered]
          exact h.seen k hk
        fed := fun c hc => by
          show streamOf c ((s.dispatched ++ [event]) ++ rest) ++ due _ (streamOf c s.chain) = _
          rw [hdelivered]
          exact (congrArg (streamOf c s.delivered ++ ·) (hpending c)).trans (h.fed c hc)
        marked := fun c hc txId hmark => h.marked c hc txId (by
          rw [← PoolRegistry.watermark_dispatch now contended _ event]
          exact hmark)
        reads := h.reads
        -- the pool subscribes to its emitter, so it takes the event on top of those before
        joined := fun n m hadded => by
          obtain ⟨hn, hm, p, hget, hframe, hview⟩ := h.joined n m hadded
          obtain ⟨hview', hframe'⟩ := applyEvent_overlays (now id) p event
          have hsub := subscribedTo_heard (emittedBy_heard (h.emitted event hevent))
          refine ⟨hn, ?_, p.applyEvent (now id) event,
            Pipeline.get_dispatch_emitted hget hframe hsub rfl now contended,
            hframe'.trans hframe, ?_⟩
          · show m ≤ (s.dispatched ++ [event]).length
            rw [List.length_append]
            omega
          · show _ = Overlay.applyAll (((s.dispatched ++ [event]).drop m).map _) _
            rw [List.drop_append_of_le_length hm, List.map_append, Overlay.applyAll_append, ← hview,
              hview', patch_congr hframe]
            rfl }

/-- Fetching takes a snapshot and changes nothing else. -/
theorem WellFormed.fetch (h : WellFormed id origin s) :
    WellFormed id origin (s.step id origin .fetch) :=
  { h with
    reads := fun n hn => by
      cases hn
      exact Nat.le_refl _ }

/-- The pool is added: it holds its snapshot. -/
theorem WellFormed.add (h : WellFormed id origin s) :
    WellFormed id origin (s.step id origin .add) := by
  -- without a snapshot there is nothing to add
  cases hfetched : s.fetched with
  | none =>
    have hstep : s.step id origin .add = s := by simp only [step, hfetched]
    rw [hstep]
    exact h
  | some n =>
    have hstep : s.step id origin .add =
        { s with
          handle := s.handle.addPool id (.dlmm (snapshot origin (s.chain.take n)))
          added := some (n, s.dispatched.length) } := by
      simp only [step, hfetched]
    rw [hstep]
    have hmarks : ∀ c, (s.handle.addPool id
        (.dlmm (snapshot origin (s.chain.take n)))).registry.watermark c =
        s.handle.registry.watermark c := fun c => by
      rw [CollectorHandle.registry_addPool, PoolRegistry.watermark_insert]
    exact
      { h with
        fed := fun c hc => by
          refine Eq.trans ?_ (h.fed c hc)
          exact congrArg (fun w => streamOf c s.delivered ++ due w (streamOf c s.chain)) (hmarks c)
        marked := fun c hc txId hmark => h.marked c hc txId ((hmarks c).symm.trans hmark)
        -- the pool begins as its snapshot, with nothing dispatched to it yet
        joined := fun n' m' hadded => by
          cases hadded
          refine ⟨h.reads n hfetched, Nat.le_refl _,
            .dlmm (snapshot origin (s.chain.take n)), ?_, snapshot_frame _ _, ?_⟩
          · rw [CollectorHandle.registry_addPool, PoolRegistry.get_insert]
          · show _ = Overlay.applyAll ((s.dispatched.drop s.dispatched.length).map _) _
            rw [List.drop_length]
            rfl }

/-- **Every valid step keeps the run well formed**, one lemma for each of the activities. -/
theorem WellFormed.step (h : WellFormed id origin s) {l : JoiningStep}
    (hvalid : s.Valid origin l) : WellFormed id origin (s.step id origin l) :=
  match l with
  | .append _ => h.append hvalid
  | .cycle c iters => h.cycle c iters
  | .process now contended => h.process now contended
  | .fetch => h.fetch
  | .add => h.add

end Steps

/-! ## When everything has been dispatched -/

section Quiet

variable (id : String) (origin : DLMMPool)

/-- Nothing is due, and nothing waits in the channel. -/
def Quiescent (s : Joining) : Prop :=
  s.queue.channel = [] ∧ ∀ c, Heard origin c → s.pending c = []

/-- The added pool has the fields that the whole chain leads to. -/
def Complete (s : Joining) : Prop :=
  ∃ p, s.handle.registry.get id = some p ∧ unstamped p = .dlmm (snapshot origin s.chain)

/-- The events dispatched before the pool was added that its snapshot does not have. -/
def missed (s : Joining) (n m : Nat) : List StacksEvent :=
  (s.dispatched.take m).filter fun e => e.key ∉ (s.chain.take n).map StacksEvent.key

/-- Whatever field the missed events would have changed is written by a later event. -/
def Recovered (s : Joining) (n m : Nat) : Prop :=
  ∀ k, (∃ e ∈ s.dispatched.drop m, patch (.dlmm origin) e k ≠ none) ∨
    view (.dlmm ((snapshot origin (s.chain.take n)).applyEvents (fun _ => 0) (s.missed n m))) k =
      view (.dlmm (snapshot origin (s.chain.take n))) k

variable {id} {origin} {s : Joining}

/-- Every cell is written by the events of one contract. -/
theorem exists_owner (origin : DLMMPool) (k : QuoteCell) :
    ∃ c, Heard origin c ∧ ∀ e, EmittedBy origin e → e.emitter ≠ c →
      patch (.dlmm origin) e k = none := by
  by_cases hk : ∃ binId, k = .bin binId
  · obtain ⟨binId, rfl⟩ := hk
    refine ⟨origin.poolContract, Or.inl rfl, fun e he hne => ?_⟩
    exact dlmmPatch_bin (he.resolve_left fun hpool => hne hpool.1).2 binId
  · refine ⟨origin.coreContract, Or.inr rfl, fun e he hne => ?_⟩
    exact dlmmPatch_of_not_bin (he.resolve_right fun hcore => hne hcore.1).2
      fun binId h => hk ⟨binId, h⟩

/-- Leaving out the keys of a prefix leaves what comes behind it. -/
theorem filter_new {S : List StacksEvent} {K : List EventKey} (i j : Nat)
    (hold : ∀ e ∈ S.take i, e.key ∈ K) (hnew : ∀ e ∈ S.drop i, e.key ∉ K) :
    ((S.take j).filter fun e => e.key ∉ K) = (S.take j).drop i := by
  conv_lhs => rw [← List.take_append_drop i (S.take j)]
  rw [List.filter_append]
  have hfront : (((S.take j).take i).filter fun e => e.key ∉ K) = [] := by
    refine List.filter_eq_nil_iff.mpr fun e he => ?_
    rw [List.take_take, Nat.min_comm, ← List.take_take] at he
    simpa using hold e (List.take_subset _ _ he)
  have hback : (((S.take j).drop i).filter fun e => e.key ∉ K) = (S.take j).drop i := by
    refine List.filter_eq_self.mpr fun e he => ?_
    rw [List.drop_take] at he
    simpa using hnew e (List.take_subset _ _ he)
  rw [hfront, hback, List.nil_append]

/-- Two parts of a chain are two parts of each of its streams. -/
theorem streamOf_parts {c : Principal} {xs ys S : List StacksEvent}
    (h : streamOf c (xs ++ ys) = S) :
    ∃ i, streamOf c xs = S.take i ∧ streamOf c ys = S.drop i := by
  rw [streamOf_append] at h
  refine ⟨(streamOf c xs).length, ?_, ?_⟩
  · rw [← h, List.take_left]
  · rw [← h, List.drop_left]

/-- A cell sees the events of its own contract only. -/
theorem applyAll_owner {c : Principal} {k : QuoteCell}
    (howner : ∀ e, EmittedBy origin e → e.emitter ≠ c → patch (.dlmm origin) e k = none)
    {xs : List StacksEvent} (hxs : ∀ e ∈ xs, EmittedBy origin e)
    (v : (k : QuoteCell) → CellValue k) :
    Overlay.applyAll (xs.map (patch (.dlmm origin))) v k =
      Overlay.applyAll ((streamOf c xs).map (patch (.dlmm origin))) v k :=
  (Overlay.applyAll_filter _ _ (fun e he hne =>
    howner e (hxs e he) (of_decide_eq_false hne)) v).symm

/-- The events of a contract that were missed are those behind the snapshot and before the
addition. -/
theorem streamOf_missed (h : WellFormed id origin s) {c : Principal} {n m i j : Nat}
    (hread : streamOf c (s.chain.take n) = (streamOf c s.chain).take i)
    (hunread : streamOf c (s.chain.drop n) = (streamOf c s.chain).drop i)
    (hbefore : streamOf c (s.dispatched.take m) = (streamOf c s.chain).take j) :
    streamOf c (s.missed n m) = ((streamOf c s.chain).take j).drop i := by
  rw [streamOf, missed, List.filter_comm, ← streamOf, hbefore]
  refine filter_new i j (fun e he => ?_) fun e he => ?_
  · rw [← hread] at he
    exact List.mem_map_of_mem (mem_streamOf.mp he).1
  · rw [← hunread] at he
    have hkeys := h.keys
    rw [← List.take_append_drop n s.chain, List.map_append] at hkeys
    exact fun hk => List.disjoint_of_nodup_append hkeys hk
      (List.mem_map_of_mem (mem_streamOf.mp he).1)

/-- One cell: it is right exactly when the events missed do not matter for it. -/
theorem view_complete_iff (h : WellFormed id origin s) (hquiet : s.Quiescent origin) (n m : Nat)
    (k : QuoteCell) :
    Overlay.applyAll ((s.dispatched.drop m).map (patch (.dlmm origin)))
        (view (.dlmm (snapshot origin (s.chain.take n)))) k =
          view (.dlmm (snapshot origin s.chain)) k ↔
      (∃ e ∈ s.dispatched.drop m, patch (.dlmm origin) e k ≠ none) ∨
        view (.dlmm ((snapshot origin (s.chain.take n)).applyEvents (fun _ => 0)
          (s.missed n m))) k = view (.dlmm (snapshot origin (s.chain.take n))) k := by
  obtain ⟨c, hc, howner⟩ := exists_owner origin k
  -- everything on the contract's stream has been dispatched, in order
  have hall : streamOf c s.dispatched = streamOf c s.chain := by
    have hfed := h.fed c hc
    rw [hquiet.2 c hc, List.append_nil, delivered, hquiet.1, List.append_nil] at hfed
    exact hfed
  have hdispatched : ∀ e ∈ s.dispatched, EmittedBy origin e := fun e he =>
    h.emitted e (h.known e (List.mem_append_left _ he))
  have hlater : ∀ e ∈ s.dispatched.drop m, EmittedBy origin e := fun e he =>
    hdispatched e (List.drop_subset _ _ he)
  have hmissedBy : ∀ e ∈ s.missed n m, EmittedBy origin e := fun e he =>
    hdispatched e (List.take_subset _ _ (List.mem_of_mem_filter he))
  -- before and after the addition, before and after the snapshot
  obtain ⟨j, hbefore, hafter⟩ := streamOf_parts
    ((congrArg (streamOf c) (List.take_append_drop m s.dispatched)).trans hall)
  obtain ⟨i, hread, hunread⟩ := streamOf_parts
    (congrArg (streamOf c) (List.take_append_drop n s.chain))
  have hmissed := streamOf_missed h hread hunread hbefore
  -- so the whole question is about the contract's log of patches
  obtain ⟨log, hlog⟩ : ∃ log, log = (streamOf c s.chain).map (patch (.dlmm origin)) := ⟨_, rfl⟩
  have hsnap : view (.dlmm (snapshot origin (s.chain.take n))) k =
      Overlay.applyAll (log.take i) (view (.dlmm origin)) k := by
    rw [snapshot_view, applyAll_owner howner fun e he => h.emitted e (List.take_subset _ _ he),
      hread, List.map_take, hlog]
  have hwhole : view (.dlmm (snapshot origin s.chain)) k =
      Overlay.applyAll log (view (.dlmm origin)) k := by
    rw [snapshot_view, applyAll_owner howner h.emitted, hlog]
  have hheld : Overlay.applyAll ((s.dispatched.drop m).map (patch (.dlmm origin)))
      (view (.dlmm (snapshot origin (s.chain.take n)))) k =
      Overlay.applyAll (log.drop j) (Overlay.applyAll (log.take i) (view (.dlmm origin))) k := by
    rw [applyAll_owner howner hlater, hafter, List.map_drop, ← hlog]
    exact Overlay.applyAll_congr_at _ hsnap
  have hgap : view (.dlmm ((snapshot origin (s.chain.take n)).applyEvents (fun _ => 0)
      (s.missed n m))) k =
      Overlay.applyAll ((log.take j).drop i)
        (Overlay.applyAll (log.take i) (view (.dlmm origin))) k := by
    obtain ⟨hview, -⟩ := applyEvents_overlays (fun _ => 0)
      (.dlmm (snapshot origin (s.chain.take n))) (s.missed n m)
    rw [applyEvents_dlmm] at hview
    have hpatch : patch (.dlmm (snapshot origin (s.chain.take n))) = patch (.dlmm origin) :=
      funext (patch_congr (snapshot_frame origin _))
    rw [hview, hpatch, applyAll_owner howner hmissedBy, hmissed, List.map_drop, List.map_take,
      ← hlog]
    exact Overlay.applyAll_congr_at _ hsnap
  have hwritten : (∃ e ∈ s.dispatched.drop m, patch (.dlmm origin) e k ≠ none) ↔
      Overlay.lastWrite (log.drop j) k ≠ none := by
    rw [hlog, ← List.map_drop, ← hafter, streamOf, Overlay.lastWrite_filter _ _ (fun e he hne =>
      howner e (hlater e he) (of_decide_eq_false hne)), Overlay.lastWrite_ne_none_iff]
    constructor
    · rintro ⟨e, he, hne⟩
      exact ⟨_, List.mem_map_of_mem he, hne⟩
    · rintro ⟨_, hp, hne⟩
      obtain ⟨e, he, rfl⟩ := List.mem_map.mp hp
      exact ⟨e, he, hne⟩
  rw [hheld, hwhole, hwritten, hgap, hsnap]
  exact Overlay.replay_eq_iff log i j _ k

end Quiet

end Joining

end StacksDex.Bridge
