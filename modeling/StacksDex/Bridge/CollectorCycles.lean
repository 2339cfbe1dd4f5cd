import StacksDex.Bridge.Collector

/-!
# StacksDex — a cycle, step by step

A task that is not overtaken in a cycle, and that finds room in the channel, does what `pollOnce`
and `tick` compute in one go. So what is proved of whole cycles is about these tasks.

`Alone` says that a task has come from one state to another by turns of its own. The lemmas
follow a cycle along its points: a round of requests that fails (`alone_failed`), one that
ends the cycle (`alone_done`), one that offers events and the sends that follow
(`alone_offers`), and the walk of a tick, block by block (`alone_walk`).
-/

namespace StacksDex.Bridge

open StacksDex.Lib StacksDex.Model

namespace Collector

open StacksDex.Model.Collector

variable {env : CollectorEnv} {s s' : Collector} {i : Nat} {task : LoopTask}

/-- A task alone takes the collector from one state to another. -/
def Alone (env : CollectorEnv) (i : Nat) (s s' : Collector) : Prop :=
  ∃ outsides : List LoopEnv, Run.exec (Collector.step env) s (outsides.map (.task i)) = s'

/-- A task that has done nothing yet has not been overtaken. -/
theorem Alone.refl (s : Collector) : Alone env i s s := ⟨[], rfl⟩

/-- Two stretches without being overtaken make one. -/
theorem Alone.trans {s'' : Collector} (h : Alone env i s s') (h' : Alone env i s' s'') :
    Alone env i s s'' := by
  obtain ⟨first, rfl⟩ := h
  obtain ⟨rest, rfl⟩ := h'
  exact ⟨first ++ rest, by rw [List.map_append, Run.exec_append]⟩

variable (env) in
/-- One turn of the task, whatever the outside answers. -/
theorem alone_loop {point : LoopAt} (hi : s.tasks[i]? = some { task with point })
    (outside : LoopEnv) : Alone env i s (s.stepLoop env i outside task.kind point) := by
  refine ⟨[outside], ?_⟩
  show s.step env (.task i outside) = _
  rw [Collector.step, hi]

variable (env) in
/-- The same, in the terms of the inversion lemma. -/
theorem alone_effect {point : LoopAt} (hi : s.tasks[i]? = some { task with point })
    (outside : LoopEnv) :
    ∃ s', Alone env i s s' ∧ LoopEffect env s i outside task.kind point s' :=
  ⟨_, alone_loop env hi outside, stepLoop_effect env s i outside task.kind point⟩

/-- A loop that was moved stands where it was moved to. -/
theorem setTask_getElem (hi : s.tasks[i]? = some task) (point : LoopAt) :
    (s.setTask i point).tasks[i]? = some { task with point } := by
  rw [setTask, List.getElem?_modify, hi]
  simp

/-- What a cycle leaves behind besides its own point. -/
structure Leaves (s' : Collector) (i : Nat) (task : LoopTask) (point : LoopAt)
    (queue : EventQueue) (registry : PoolRegistry) : Prop where
  task : s'.tasks[i]? = some { task with point }
  queue : s'.queue = queue
  registry : s'.handle.registry = registry

/-- One `send_dedup` into a channel with room: the key goes in, and then the event. -/
theorem alone_send {event : StacksEvent} {rest : List StacksEvent} {cycle : Cycle}
    (hi : s.tasks[i]? = some { task with point := .sending (event :: rest) cycle })
    (hopen : s.queue.closed = false) (hroom : s.hasRoom = true) (outside : LoopEnv) :
    ∃ s', Alone env i s s' ∧ Leaves s' i task (.sending rest cycle)
      (s.queue.sendDedup outside.iter event).1 s.handle.registry := by
  obtain ⟨s₁, halone, heffect⟩ := alone_effect env hi outside
  rcases heffect with ⟨hjump⟩ | _ | ⟨hnew⟩ | _ | _ | ⟨hwaits⟩
  -- the check alone decides, and the event is skipped
  case jumps =>
    rcases hjump with _ | _ | _ | _ | _ | _ | _ | _ | ⟨hseen⟩
    refine ⟨_, halone, setTask_getElem hi _, ?_, rfl⟩
    rw [EventQueue.sendDedup_of_mem hseen]
    rfl
  -- the event is new: the check is one turn and the push the next
  case accepts =>
    obtain ⟨s₂, halone₂, heffect₂⟩ :=
      alone_effect env (s := { s.setTask i (.pushing event rest cycle) with
        queue := { s.queue with seen := insert event.key (s.queue.retained outside.iter) }
        accepted := s.accepted ++ [event] })
        (setTask_getElem hi (.pushing event rest cycle)) outside
    refine ⟨s₂, halone.trans halone₂, ?_⟩
    rw [EventQueue.sendDedup_of_not_mem hnew hopen]
    rcases heffect₂ with ⟨hjump⟩ | _ | _ | ⟨hclosed⟩ | _ | ⟨hwaits⟩
    case jumps => cases hjump
    case refuses => exact absurd hclosed (ne_true_of_eq_false hopen)
    case pushes => exact ⟨setTask_getElem (setTask_getElem hi _) _, rfl, rfl⟩
    -- there is room, so the push does not wait
    case waits =>
      rcases hwaits with _ | _ | ⟨-, hfull⟩
      exact absurd hroom (ne_true_of_eq_false hfull)
  case waits => cases hwaits

/-- A send takes at most one place in the channel. -/
theorem room_sendDedup {queue : EventQueue} {event : StacksEvent} {iter : List EventKey} {n : Nat}
    (hroom : queue.channel.length + (n + 1) ≤ queue.capacity) :
    (queue.sendDedup iter event).1.channel.length + n ≤
      (queue.sendDedup iter event).1.capacity := by
  have hcapacity : (queue.sendDedup iter event).1.capacity = queue.capacity := by
    unfold EventQueue.sendDedup
    split
    · rfl
    · split <;> rfl
  rw [hcapacity]
  rcases EventQueue.channel_sendDedup iter queue event with hsame | ⟨-, hpushed⟩
  · rw [hsame]
    omega
  · rw [hpushed, List.length_append, List.length_singleton]
    omega

variable (env) in
/-- The sends of a cycle, with room for all of them. -/
theorem alone_enqueue {rest : List StacksEvent} {cycle : Cycle}
    (hi : s.tasks[i]? = some { task with point := .sending rest cycle })
    (hopen : s.queue.closed = false)
    (hroom : s.queue.channel.length + rest.length ≤ s.queue.capacity)
    (outside : LoopEnv) (iters : Nat → List EventKey) :
    ∃ s', Alone env i s s' ∧ Leaves s' i task (.requesting cycle)
      (enqueue iters s.queue rest).1 s.handle.registry := by
  induction rest generalizing s iters with
  | nil => exact ⟨_, alone_loop env hi outside, setTask_getElem hi _, rfl, rfl⟩
  | cons event rest ih =>
    have hfree : s.hasRoom = true := by
      rw [List.length_cons] at hroom
      exact decide_eq_true (by omega)
    obtain ⟨s₁, halone, htask, hqueue, hregistry⟩ :=
      alone_send hi hopen hfree { outside with iter := iters 0 }
    have hopen₁ : s₁.queue.closed = false := by
      rw [hqueue, EventQueue.closed_sendDedup]
      exact hopen
    have hroom₁ : s₁.queue.channel.length + rest.length ≤ s₁.queue.capacity := by
      rw [hqueue]
      exact room_sendDedup hroom
    obtain ⟨s₂, halone₂, htask₂, hqueue₂, hregistry₂⟩ :=
      ih htask hopen₁ hroom₁ fun j => iters (j + 1)
    refine ⟨s₂, halone.trans halone₂, htask₂, ?_, hregistry₂.trans hregistry⟩
    rw [hqueue₂, hqueue]
    rfl

/-- A cycle that returns, with its walk as one computation. -/
theorem pollOnce_eq_ok {config : CollectorConfig}
    {fetchPage : (request limit offset : Nat) → Except Fault (List EventEnvelope)}
    {iters : Nat → List EventKey} {contract : Principal} {queue : EventQueue}
    {registry : PoolRegistry} {r : Polled}
    (h : pollOnce config fetchPage iters contract queue registry = .ok r) :
    ∃ w, pollWalk config fetchPage (registry.watermark contract) = .ok w ∧
      r =
        { queue := (enqueue iters queue (w.toApply.reverse.filterMap (·.decoded))).1
          registry := match w.newestSeen with
            | some txId => registry.setWatermark contract txId
            | none => registry
          offered := w.toApply.reverse.filterMap (·.decoded)
          enqueued := (enqueue iters queue (w.toApply.reverse.filterMap (·.decoded))).2 } := by
  obtain ⟨pages, hpages, h⟩ := bind_eq_ok.mp h
  obtain ⟨w, hwalk, h⟩ := bind_eq_ok.mp h
  exact ⟨w, bind_eq_ok.mpr ⟨pages, hpages, hwalk⟩, (Except.ok.inj h).symm⟩

/-- **A poll cycle on its own is `pollOnce`.** -/
theorem alone_poll {contract : Principal} (hkind : task.kind = .poller contract)
    (hi : s.tasks[i]? = some { task with point := .sleeping })
    (hopen : s.queue.closed = false) (outside : LoopEnv) (iters : Nat → List EventKey)
    {r : Polled}
    (hr : pollOnce env.config outside.fetchPage iters contract s.queue s.handle.registry = .ok r)
    (hroom : s.queue.channel.length + r.offered.length ≤ s.queue.capacity) :
    ∃ s', Alone env i s s' ∧ Leaves s' i task .top r.queue r.registry := by
  obtain ⟨w, hwalk, rfl⟩ := pollOnce_eq_ok hr
  let begun := s.setTask i (.requesting (.poll contract (s.handle.registry.watermark contract)))
  -- the wait is over
  have hbegin : Alone env i s begun := by
    have hfirst := alone_loop env hi { outside with isDue := true }
    rwa [stepLoop, if_pos rfl, hkind] at hfirst
  have hat := setTask_getElem hi
    (.requesting (.poll contract (s.handle.registry.watermark contract)))
  let walked := begun.setTask i
    (.sending (w.toApply.reverse.filterMap (·.decoded)) (.polled contract w.newestSeen))
  -- one request walks the pages
  have hrequest : Alone env i begun walked := by
    have hnext := alone_loop env hat outside
    simp only [stepLoop, Cycle.resume, hwalk] at hnext
    exact hnext
  -- its events are checked and pushed one by one
  obtain ⟨s₁, hsends, htask, hqueue, hregistry⟩ :=
    alone_enqueue env (setTask_getElem hat _) hopen hroom outside iters
  have hsame : s₁.handle.registry = s.handle.registry := hregistry
  -- the last turn moves the watermark
  have hdone := alone_loop env htask outside
  refine ⟨_, ((hbegin.trans hrequest).trans hsends).trans hdone, setTask_getElem htask _, hqueue,
    ?_⟩
  rw [← hsame]
  rfl

/-- Where a cycle's result leaves its loop. -/
def pointAfter {α : Type} : Except Fault α → LoopAt
  | .error (.panic _) => .stopped
  | _ => .top

/-- A round of requests that fails ends the cycle: with an `Err` the loop is back at its head,
with a panic it is over. -/
theorem alone_failed {cycle : Cycle} {fault : Fault} {α : Type} (outside : LoopEnv)
    (hi : s.tasks[i]? = some { task with point := .requesting cycle })
    (hfailed : cycle.resume env s.handle.registry outside = .failed fault) :
    ∃ s', Alone env i s s' ∧
      Leaves s' i task (pointAfter (.error fault : Except Fault α)) s.queue s.handle.registry := by
  have hnext := alone_loop env hi outside
  rcases fault with msg | msg
  · simp only [stepLoop, hfailed] at hnext
    exact ⟨_, hnext, setTask_getElem hi _, rfl, rfl⟩
  · simp only [stepLoop, hfailed] at hnext
    exact ⟨_, hnext, setTask_getElem hi _, rfl, rfl⟩

/-- A round that ends the cycle commits the registry and goes back to the head of the loop. -/
theorem alone_done {cycle : Cycle} {registry : PoolRegistry} (outside : LoopEnv)
    (hi : s.tasks[i]? = some { task with point := .requesting cycle })
    (hdone : cycle.resume env s.handle.registry outside = .done registry) :
    ∃ s', Alone env i s s' ∧ Leaves s' i task .top s.queue registry := by
  have hnext := alone_loop env hi outside
  simp only [stepLoop, hdone] at hnext
  exact ⟨_, hnext, setTask_getElem hi _, rfl, rfl⟩

variable (env) in
/-- A round of requests, and the sends it leads to. -/
theorem alone_offers {cycle cycle' : Cycle} {events : List StacksEvent} {outside : LoopEnv}
    (hi : s.tasks[i]? = some { task with point := .requesting cycle })
    (hopen : s.queue.closed = false)
    (hroom : s.queue.channel.length + events.length ≤ s.queue.capacity)
    (hoffers : cycle.resume env s.handle.registry outside = .offers events cycle')
    (iters : Nat → List EventKey) :
    ∃ s', Alone env i s s' ∧ Leaves s' i task (.requesting cycle')
      (enqueue iters s.queue events).1 s.handle.registry := by
  have hnext := alone_loop env hi outside
  simp only [stepLoop, hoffers] at hnext
  obtain ⟨s₁, hsends, hleaves⟩ :=
    alone_enqueue env (setTask_getElem hi (.sending events cycle')) hopen hroom outside iters
  exact ⟨s₁, hnext.trans hsends, hleaves.task, hleaves.queue, hleaves.registry⟩

/-! ## A tick -/

/-- Sending does not close the channel, however much is sent. -/
theorem closed_enqueue (iters : Nat → List EventKey) (queue : EventQueue)
    (events : List StacksEvent) : (enqueue iters queue events).1.closed = queue.closed := by
  induction events generalizing iters queue with
  | nil => rfl
  | cons event events ih =>
    exact (ih _ _).trans (EventQueue.closed_sendDedup (iters 0) queue event)

/-- A list of sends takes at most as many places as it is long. -/
theorem room_enqueue {iters : Nat → List EventKey} {queue : EventQueue}
    {events : List StacksEvent} {n : Nat}
    (hroom : queue.channel.length + (events.length + n) ≤ queue.capacity) :
    (enqueue iters queue events).1.channel.length + n ≤
      (enqueue iters queue events).1.capacity := by
  induction events generalizing iters queue with
  | nil =>
    rw [List.length_nil, Nat.zero_add] at hroom
    exact hroom
  | cons event events ih =>
    refine ih (room_sendDedup ?_)
    rw [List.length_cons] at hroom
    omega

/-- A turn of the block loop is a round of requests and the sends after it. -/
theorem walkBlock_cases (env : CollectorEnv) (tickEnv : TickEnv) (registered : List Principal)
    (height left last : Nat) (w : WalkState) :
    (∃ fault, resumeBlock env tickEnv registered height left last = .failed fault ∧
        walkBlock env.sha256 env.walking tickEnv registered height w = .error fault) ∨
      ∃ events w', resumeBlock env tickEnv registered height left last =
          .offers events (.walk registered (height + 1) left last) ∧
        walkBlock env.sha256 env.walking tickEnv registered height w = .ok w' ∧
        w'.queue = (enqueue (tickEnv.iters height) w.queue events).1 ∧
        w'.offered = w.offered ++ events := by
  simp only [resumeBlock, walkBlock]
  rcases fetchBlockTransactions env.sha256 env.walking.pageSize height
    (tickEnv.blockPage height) with fault | txs
  · exact .inl ⟨fault, rfl, rfl⟩
  by_cases hempty : txs = []
  · subst hempty
    exact .inr ⟨[], w, rfl, rfl, rfl, (List.append_nil _).symm⟩
  rw [ok_bind, if_neg hempty]
  simp only [if_neg hempty]
  rcases ingestBlockTxs env.sha256 registered (tickEnv.txDetail height) txs with fault | ingested
  · exact .inl ⟨fault, rfl, rfl⟩
  · exact .inr ⟨ingested.offered, _, rfl, rfl, rfl, rfl⟩

/-- What a walk has offered it does not take back. -/
theorem offered_walkBlocks_le (env : CollectorEnv) (tickEnv : TickEnv)
    (registered : List Principal) (height n : Nat) (w : WalkState) :
    w.offered.length ≤
      (walkBlocks env.sha256 env.walking tickEnv registered n height w).1.offered.length := by
  induction n generalizing height w with
  | zero => exact le_refl _
  | succ n ih =>
    rw [walkBlocks]
    rcases walkBlock_cases env tickEnv registered height 0 0 w with
      ⟨fault, -, hfault⟩ | ⟨events, w', -, hok, -, hoffered⟩
    · rw [hfault]
    · have hlonger : w.offered.length ≤ w'.offered.length := by
        rw [hoffered, List.length_append]
        exact Nat.le_add_right _ _
      rw [hok]
      exact hlonger.trans (ih _ w')

/-- What a tick that has come to the end of its walk leaves behind. -/
def walkEnd (registry : PoolRegistry) (last : Nat) : Option Fault → PoolRegistry
  | none => registry.setLastProcessedBlock last
  | some _ => registry

def walkResult (w : WalkState) : Option Fault → Except Fault TickStats
  | none => .ok w.stats
  | some fault => .error fault

/-- The blocks of a walk, one after the other, by induction on how many are left: each is a
round of requests and the sends it leads to. -/
theorem alone_walk (outside : LoopEnv) {registered : List Principal} {height n last : Nat}
    {w : WalkState}
    (hi : s.tasks[i]? = some { task with point := .requesting (.walk registered height n last) })
    (hopen : s.queue.closed = false) (hqueue : w.queue = s.queue) {w' : WalkState}
    {fault : Option Fault}
    (hwalk : walkBlocks env.sha256 env.walking outside.tick registered n height w = (w', fault))
    (hroom : s.queue.channel.length + (w'.offered.length - w.offered.length) ≤
      s.queue.capacity) :
    ∃ s', Alone env i s s' ∧ Leaves s' i task (pointAfter (walkResult w' fault)) w'.queue
      (walkEnd s.handle.registry last fault) := by
  induction n generalizing s height w with
  | zero =>
    obtain ⟨rfl, rfl⟩ := Prod.mk.inj hwalk
    rw [hqueue]
    exact alone_done outside hi rfl
  | succ n ih =>
    rw [walkBlocks] at hwalk
    rcases walkBlock_cases env outside.tick registered height n last w with
      ⟨f, hresume, hfault⟩ | ⟨events, next, hresume, hok, hnext, hoffered⟩
    · rw [hfault] at hwalk
      obtain ⟨rfl, rfl⟩ := Prod.mk.inj hwalk
      rw [hqueue]
      exact alone_failed outside hi hresume
    · rw [hok] at hwalk
      dsimp only at hwalk
      have hmore := offered_walkBlocks_le env outside.tick registered (height + 1) n next
      rw [hwalk] at hmore
      have hlength : next.offered.length = w.offered.length + events.length := by
        rw [hoffered, List.length_append]
      have hroom' : s.queue.channel.length +
          (events.length + (w'.offered.length - next.offered.length)) ≤ s.queue.capacity := by
        dsimp only at hmore
        omega
      obtain ⟨s₁, halone, htask, hqueue₁, hregistry₁⟩ :=
        alone_offers env hi hopen (by omega) hresume (outside.tick.iters height)
      obtain ⟨s₂, halone₂, hleaves⟩ := ih htask
        (by rw [hqueue₁, closed_enqueue]; exact hopen) (by rw [hnext, hqueue₁, hqueue]) hwalk
        (by rw [hqueue₁]; exact room_enqueue hroom')
      exact ⟨s₂, halone.trans halone₂, hleaves.task, hleaves.queue, hregistry₁ ▸ hleaves.registry⟩

/-- **A tick on its own is `tick`.** -/
theorem alone_tick (outside : LoopEnv)
    (hi : s.tasks[i]? = some { task with point := .requesting .tick })
    (hopen : s.queue.closed = false)
    (hroom : s.queue.channel.length +
      (tick env.sha256 env.walking outside.tick s.queue s.handle.registry).offered.length ≤
        s.queue.capacity) :
    let r := tick env.sha256 env.walking outside.tick s.queue s.handle.registry
    ∃ s', Alone env i s s' ∧ Leaves s' i task (pointAfter r.result) r.queue r.registry := by
  dsimp only
  unfold tick at hroom ⊢
  rcases htip : outside.tick.tip with fault | tip
  · have hresume : Cycle.tick.resume env s.handle.registry outside = .failed fault := by
      simp only [Cycle.resume, htip]
    exact alone_failed outside hi hresume
  have hresume : Cycle.tick.resume env s.handle.registry outside =
      resumeTick env s.handle.registry outside.tick.overflowChecks tip := by
    simp only [Cycle.resume, htip]
  rw [htip] at hroom
  dsimp only [resumeTick] at hresume hroom ⊢
  by_cases hcold : s.handle.registry.lastProcessedBlock = 0
  · rw [if_pos hcold] at hresume ⊢
    exact alone_done outside hi hresume
  rw [if_neg hcold] at hresume hroom ⊢
  by_cases hbehind : tip ≤ s.handle.registry.lastProcessedBlock
  · rw [if_pos hbehind] at hresume ⊢
    exact alone_done outside hi hresume
  rw [if_neg hbehind] at hresume hroom ⊢
  by_cases hnone : s.handle.registry.polledContracts = []
  · rw [if_pos hnone] at hresume ⊢
    exact alone_done outside hi hresume
  rw [if_neg hnone] at hresume hroom ⊢
  rcases hahead : u64Add outside.tick.overflowChecks s.handle.registry.lastProcessedBlock
    env.walking.maxBlocksPerTick with fault | ahead
  · rw [hahead] at hresume
    exact alone_failed outside hi hresume
  rw [hahead] at hresume hroom
  dsimp only at hresume hroom ⊢
  rcases hwalk : walkBlocks env.sha256 env.walking outside.tick
    s.handle.registry.polledContracts (min ahead tip - s.handle.registry.lastProcessedBlock)
    (s.handle.registry.lastProcessedBlock + 1)
    { queue := s.queue, offered := [], stats := TickStats.zero } with ⟨w', fault⟩
  rw [hwalk] at hroom
  have hroom' : s.queue.channel.length + w'.offered.length ≤ s.queue.capacity := by
    rcases fault with _ | _ <;> exact hroom
  -- the tip, and then the blocks
  obtain ⟨s₁, halone, htask, hqueue, hregistry⟩ := alone_offers env hi hopen
    ((Nat.le_add_right _ _).trans hroom') hresume fun _ => outside.iter
  obtain ⟨s₂, halone₂, hleaves⟩ := alone_walk outside htask (by rw [hqueue]; exact hopen)
    hqueue.symm hwalk (by rw [hqueue]; exact hroom')
  have hlast : s₁.handle.registry = s.handle.registry := hregistry
  rw [hlast] at hleaves
  rcases fault with _ | fault
  · exact ⟨s₂, halone.trans halone₂, hleaves⟩
  · exact ⟨s₂, halone.trans halone₂, hleaves⟩

end Collector

end StacksDex.Bridge
