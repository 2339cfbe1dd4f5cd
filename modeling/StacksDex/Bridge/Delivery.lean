import StacksDex.Bridge.Stopping
import StacksDex.Bridge.WalkOrder

/-!
# StacksDex — the block walker among the tasks

A collector on a block-walking source has one loop. `Delivering` is what every step keeps while
the node tells the truth or fails: the blocks up to the cursor are sent, and those that a walk
has passed are sent or about to be (`Midway`).

`toGo` is how far the cursor is from a height, counted in requests and in the sends between
them. With a node that answers, no step makes it more and some task's next turn makes it less
(`nearer`), so in a fair schedule the cursor gets there.

The steps come in two kinds: those of the walker itself, by the cases of its inversion lemma,
and those of all others, which leave the walker aside (`Aside`) and need one lemma together.
-/

namespace StacksDex.Bridge

open StacksDex.Lib StacksDex.Model

namespace Collector

open StacksDex.Model.Collector

/-! ## What the node may answer -/

/-- The event is in scope of some contracts, in some block. -/
def OnChain (sha256 : Sha256) (chain : Chain) (event : StacksEvent) : Prop :=
  ∃ registered height, event ∈ blockEvents sha256 registered (chain height)

/-- Nobody calls `stop`, and what a loop asks for is answered with the truth or an error: whole
blocks, a tip far from the end of its type, nothing that makes it panic. -/
def Faithful (env : CollectorEnv) (chain : Chain) (s : Collector) : CollectorStep → Prop
  | .task i outside =>
    Honest chain env.walking.pageSize outside.tick ∧
      (∀ tip, outside.tick.tip = .ok tip → tip + env.walking.maxBlocksPerTick ≤ u64Max) ∧
      ∀ task, s.tasks[i]? = some task → ∀ cycle, task.point = .requesting cycle →
        (∀ msg, cycle.resume env s.handle.registry outside ≠ .failed (.panic msg)) ∧
          ∀ polled height left last txs, cycle = .walk polled height (left + 1) last →
            fetchBlockTransactions env.sha256 env.walking.pageSize height
              (outside.tick.blockPage height) = .ok txs →
            Whole chain env.walking.pageSize outside.tick height
  | .stop => False
  | _ => True

/-- What a loop asks for is answered, and the tip is at or above `top`. -/
def Serves (env : CollectorEnv) (top : Nat) (s : Collector) : CollectorStep → Prop
  | .task i outside =>
    ∀ task, s.tasks[i]? = some task → ∀ cycle, task.point = .requesting cycle →
      (∀ fault, cycle.resume env s.handle.registry outside ≠ .failed fault) ∧
        (cycle = .tick → ∃ tip, outside.tick.tip = .ok tip ∧ top ≤ tip)
  | _ => True

def cursor (s : Collector) : Nat := s.handle.registry.lastProcessedBlock

/-- The cycle a loop is in, and what is left to send before it goes on. -/
def inCycle : LoopAt → Option (List StacksEvent × Cycle)
  | .requesting cycle => some ([], cycle)
  | .sending rest cycle => some (rest, cycle)
  | .pushing event rest cycle => some (event :: rest, cycle)
  | _ => none

section Invariant

variable (env : CollectorEnv) (chain : Chain) (registered : List Principal) (base : Nat)
variable (s : Collector)

/-- A walk that comes to `height` next. -/
structure Walked (pending : List StacksEvent) (polled : List Principal)
    (height left last : Nat) : Prop where
  scope : registered ⊆ polled
  warm : 0 < cursor s
  ahead : cursor s < last
  room : last + env.walking.maxBlocksPerTick ≤ u64Max
  position : height + left = last + 1
  known : ∀ e ∈ pending, OnChain env.sha256 chain e
  covered : ∀ b, base < b → b < height → ∀ e ∈ blockEvents env.sha256 registered (chain b),
    e ∈ s.sent ∨ e ∈ pending

/-- What holds of the cycle the walker is in. -/
def Midway (pending : List StacksEvent) : Cycle → Prop
  | .tick => pending = []
  | .walk polled height left last =>
    Walked env chain registered base s pending polled height left last
  | _ => False

/-- The walker is not spawned yet, or the only loop. -/
def AtWork : Prop :=
  s.source = .starting ∧ s.tasks = [] ∨
    s.source = .running ∧ ∃ point, s.tasks = [{ kind := .blockWalker, ofSource := true, point }] ∧
      point.isStopped = false ∧
      ∀ pending cycle, inCycle point = some (pending, cycle) →
        Midway env chain registered base s pending cycle

/-- Everything in scope up to the cursor was sent. -/
structure Delivering : Prop where
  accounted : Accounted s
  going : s.stopFlag = false
  kind : s.sourceKind = .blockWalking
  alone : s.handle.spawnPerContractOnAdd = false
  atWork : AtWork env chain registered base s
  polled : registered ⊆ s.handle.registry.polledContracts
  low : base ≤ cursor s
  warm : 0 < cursor s → 0 < base
  room : cursor s + env.walking.maxBlocksPerTick ≤ u64Max
  bounded : 0 < s.queue.capacity ∧ s.queue.channel.length ≤ s.queue.capacity
  known : ∀ e ∈ s.accepted, OnChain env.sha256 chain e
  seen : ∀ k ∈ s.queue.seen, ∃ e ∈ s.accepted, e.key = k
  delivered : ∀ b, base < b → b ≤ cursor s → ∀ e ∈ blockEvents env.sha256 registered (chain b),
    e ∈ s.sent

end Invariant

section Steps

variable {env : CollectorEnv} {chain : Chain} {registered : List Principal} {base : Nat}
variable {s : Collector}

/-! ## The answers to a walk -/

/-- Where the walk is does not depend on anything but what was sent and the cursor. -/
theorem Midway.congr {s' : Collector} (hsent : s'.sent = s.sent) (hcursor : cursor s' = cursor s)
    {pending : List StacksEvent} {cycle : Cycle}
    (h : Midway env chain registered base s pending cycle) :
    Midway env chain registered base s' pending cycle := by
  rcases cycle with _ | _ | _ | _
  case walk =>
    obtain ⟨hscope, hwarm, hahead, hroom, hposition, hknown, hcovered⟩ := h
    exact ⟨hscope, hcursor ▸ hwarm, hcursor ▸ hahead, hroom, hposition, hknown, hsent ▸ hcovered⟩
  all_goals exact h

/-- The next event to send was sent. -/
theorem Midway.pop {s' : Collector} {event : StacksEvent} {rest : List StacksEvent} {cycle : Cycle}
    (h : Midway env chain registered base s (event :: rest) cycle) (hsent : s.sent ⊆ s'.sent)
    (hevent : event ∈ s'.sent) (hcursor : cursor s' = cursor s) :
    Midway env chain registered base s' rest cycle := by
  rcases cycle with _ | _ | _ | _
  case walk =>
    obtain ⟨hscope, hwarm, hahead, hroom, hposition, hknown, hcovered⟩ := h
    refine ⟨hscope, hcursor ▸ hwarm, hcursor ▸ hahead, hroom, hposition,
      fun e he => hknown e (List.mem_cons_of_mem _ he), fun b hlow hb e he => ?_⟩
    rcases hcovered b hlow hb e he with hdone | hpending
    · exact .inl (hsent hdone)
    rcases List.mem_cons.mp hpending with rfl | hrest
    · exact .inl hevent
    · exact .inr hrest
  case tick => cases h
  all_goals exact h.elim

/-- What is about to be sent is on the chain. -/
theorem Midway.onChain {event : StacksEvent} {rest : List StacksEvent} {cycle : Cycle}
    (h : Midway env chain registered base s (event :: rest) cycle) :
    OnChain env.sha256 chain event := by
  rcases cycle with _ | _ | _ | _
  case walk => exact h.known event (List.mem_cons_self ..)
  case tick => cases h
  all_goals exact h.elim

/-- A block is offered whole. -/
theorem resumeBlock_offers {tick : TickEnv} (hhonest : Honest chain env.walking.pageSize tick)
    {polled : List Principal} {height left last : Nat}
    (hwhole : ∀ txs, fetchBlockTransactions env.sha256 env.walking.pageSize height
      (tick.blockPage height) = .ok txs → Whole chain env.walking.pageSize tick height)
    {events : List StacksEvent} {cycle : Cycle}
    (h : resumeBlock env tick polled height left last = .offers events cycle) :
    events = blockEvents env.sha256 polled (chain height) ∧
      cycle = .walk polled (height + 1) left last := by
  unfold resumeBlock at h
  rcases htxs : fetchBlockTransactions env.sha256 env.walking.pageSize height
    (tick.blockPage height) with fault | txs
  · simp [htxs] at h
  have hlisted := listed_block hhonest (hwhole txs htxs).1 htxs
  simp only [htxs] at h
  -- an empty block offers nothing, any other what is ingested of it
  by_cases hempty : txs = []
  · subst hempty
    rw [if_pos rfl] at h
    obtain ⟨rfl, rfl⟩ := Resumed.offers.inj h
    rw [block_of_listed_nil hlisted]
    exact ⟨rfl, rfl⟩
  · rw [if_neg hempty] at h
    rcases hingested : ingestBlockTxs env.sha256 polled (tick.txDetail height) txs with
      fault | ingested
    · simp [hingested] at h
    · rw [hingested] at h
      obtain ⟨rfl, rfl⟩ := Resumed.offers.inj h
      exact ⟨ingested_block hhonest (hwhole txs htxs) hlisted hingested, rfl⟩

/-- A turn of the block loop commits nothing. -/
theorem resumeBlock_ne_done (env : CollectorEnv) (tick : TickEnv) (polled : List Principal)
    (height left last : Nat) (registry : PoolRegistry) :
    resumeBlock env tick polled height left last ≠ .done registry := by
  unfold resumeBlock
  split
  · simp
  split
  · simp
  split <;> simp

/-- What the walker is answered is what it has to send next. -/
theorem Delivering.offers (h : Delivering env chain registered base s) {outside : LoopEnv}
    (hhonest : Honest chain env.walking.pageSize outside.tick)
    (htip : ∀ tip, outside.tick.tip = .ok tip → tip + env.walking.maxBlocksPerTick ≤ u64Max)
    (hmax : 0 < env.walking.maxBlocksPerTick) {cycle cycle' : Cycle} {events : List StacksEvent}
    (hwhole : ∀ polled height left last txs, cycle = .walk polled height (left + 1) last →
      fetchBlockTransactions env.sha256 env.walking.pageSize height
        (outside.tick.blockPage height) = .ok txs →
      Whole chain env.walking.pageSize outside.tick height)
    (hmid : Midway env chain registered base s [] cycle)
    (hoffers : cycle.resume env s.handle.registry outside = .offers events cycle') :
    Midway env chain registered base s events cycle' := by
  rcases cycle with _ | _ | _ | ⟨polled, height, left, last⟩
  case poll => exact hmid.elim
  case polled => exact hmid.elim
  case tick =>
    rw [Cycle.resume] at hoffers
    rcases hanswer : outside.tick.tip with fault | tip
    · simp [hanswer] at hoffers
    have hroom := htip tip hanswer
    simp only [hanswer, resumeTick] at hoffers
    split at hoffers
    · cases hoffers
    rename_i hwarm
    split at hoffers
    · cases hoffers
    rename_i hbehind
    split at hoffers
    · cases hoffers
    have hahead : u64Add outside.tick.overflowChecks s.handle.registry.lastProcessedBlock
        env.walking.maxBlocksPerTick = .ok (cursor s + env.walking.maxBlocksPerTick) :=
      if_pos h.room
    rw [hahead] at hoffers
    obtain ⟨rfl, rfl⟩ := Resumed.offers.inj hoffers
    have hcur : s.handle.registry.lastProcessedBlock = cursor s := rfl
    rw [hcur] at hwarm hbehind ⊢
    -- the tick plans the blocks above the cursor, and has sent nothing yet
    refine ⟨h.polled, by omega, by omega, by omega, by omega, fun e he => ?_, ?_⟩
    · cases he
    · exact fun b hlow hb e he => .inl (h.delivered b hlow (by omega) e he)
  case walk =>
    rcases left with _ | left
    · cases hoffers
    obtain ⟨rfl, rfl⟩ := resumeBlock_offers hhonest
      (fun txs => hwhole polled height left last txs rfl) hoffers
    obtain ⟨hscope, hwarm, hahead, hroom, hposition, -, hcovered⟩ := hmid
    refine ⟨hscope, hwarm, hahead, hroom, by omega, fun e he => ⟨_, _, he⟩, ?_⟩
    intro b hlow hb e he
    -- a block walked before, or this one
    rcases Nat.lt_succ_iff_lt_or_eq.mp hb with hbefore | rfl
    · exact .inl ((hcovered b hlow hbefore e he).resolve_right List.not_mem_nil)
    · exact .inr (blockEvents_mono hscope _ he)

/-- What the walker commits is delivered. The first tip is where a collector starts. -/
theorem Delivering.done (h : Delivering env chain registered base s) {outside : LoopEnv}
    (htip : ∀ tip, outside.tick.tip = .ok tip → tip + env.walking.maxBlocksPerTick ≤ u64Max)
    {cycle : Cycle} {registry : PoolRegistry}
    (hmid : Midway env chain registered base s [] cycle)
    (hdone : cycle.resume env s.handle.registry outside = .done registry) :
    registry.polledContracts = s.handle.registry.polledContracts ∧
      registry.lastProcessedBlock + env.walking.maxBlocksPerTick ≤ u64Max ∧
      ∃ base', (0 < cursor s → base' = base) ∧ base' ≤ registry.lastProcessedBlock ∧
        (0 < registry.lastProcessedBlock → 0 < base') ∧
        ∀ b, base' < b → b ≤ registry.lastProcessedBlock →
          ∀ e ∈ blockEvents env.sha256 registered (chain b), e ∈ s.sent := by
  rcases cycle with _ | _ | _ | ⟨polled, height, left, last⟩
  case poll => exact hmid.elim
  case polled => exact hmid.elim
  case tick =>
    rw [Cycle.resume] at hdone
    rcases hanswer : outside.tick.tip with fault | tip
    · simp [hanswer] at hdone
    have hroom := htip tip hanswer
    simp only [hanswer, resumeTick] at hdone
    split at hdone
    · -- a cold start takes the tip for the cursor: from there on everything is delivered
      rename_i hcold
      obtain rfl := Resumed.done.inj hdone
      refine ⟨rfl, hroom, tip, fun hwarm => ?_, le_refl tip, id, fun b hlow hb => ?_⟩
      · exact absurd hcold hwarm.ne'
      · exact absurd hb (not_le.mpr hlow)
    split at hdone
    · -- no block above the cursor
      obtain rfl := Resumed.done.inj hdone
      exact ⟨rfl, h.room, base, fun _ => rfl, h.low, h.warm, h.delivered⟩
    rename_i hcold hbehind
    have hwarm : 0 < base := h.warm (Nat.pos_of_ne_zero hcold)
    split at hdone
    · -- with nothing polled, nothing is in scope
      rename_i hnone
      obtain rfl := Resumed.done.inj hdone
      have hempty : registered = [] := List.subset_nil.mp (hnone ▸ h.polled)
      refine ⟨rfl, hroom, base, fun _ => rfl, h.low.trans (not_le.mp hbehind).le, fun _ => hwarm,
        ?_⟩
      intro b _ _ e he
      rw [hempty, blockEvents_nil_registered] at he
      cases he
    split at hdone
    · cases hdone
    · cases hdone
  case walk =>
    rcases left with _ | left
    · obtain rfl := Resumed.done.inj hdone
      obtain ⟨-, hwarm, hahead, hroom, hposition, -, hcovered⟩ := hmid
      -- the walk is over, and nothing is left to send
      refine ⟨rfl, hroom, base, fun _ => rfl, h.low.trans hahead.le, fun _ => h.warm hwarm,
        fun b hlow hb e he => ?_⟩
      have hb' : b ≤ last := hb
      exact (hcovered b hlow (by omega) e he).resolve_right List.not_mem_nil
    · exact absurd hdone (resumeBlock_ne_done env outside.tick polled height left last registry)

/-! ## The steps of the others -/

/-- What the processor and the caller leave to the walker. -/
structure Aside (s s' : Collector) : Prop where
  kind : s'.sourceKind = s.sourceKind
  alone : s'.handle.spawnPerContractOnAdd = s.handle.spawnPerContractOnAdd
  source : s'.source = s.source
  tasks : s'.tasks = s.tasks
  polled : s.handle.registry.polledContracts ⊆ s'.handle.registry.polledContracts
  cursor : cursor s' = cursor s
  capacity : s'.queue.capacity = s.queue.capacity
  channel : s'.queue.channel.length ≤ s.queue.channel.length
  seen : s'.queue.seen = s.queue.seen
  accepted : s'.accepted = s.accepted
  sent : s'.sent = s.sent

/-- What leaves the walker, the cursor and the sends alone keeps the invariant. -/
theorem Delivering.aside (h : Delivering env chain registered base s) {s' : Collector}
    (haccounted : Accounted s') (hgoing : s'.stopFlag = false) (haside : Aside s s') :
    Delivering env chain registered base s' := by
  obtain ⟨hkind, halone, hsource, htasks, hpolled, hcursor, hcapacity, hchannel, hseen, haccepted,
    hsent⟩ := haside
  refine ⟨haccounted, hgoing, hkind.trans h.kind, halone.trans h.alone, ?_,
    List.Subset.trans h.polled hpolled, hcursor ▸ h.low, hcursor ▸ h.warm, hcursor ▸ h.room, ?_,
    haccepted ▸ h.known, ?_, ?_⟩
  -- the loop is where it was, with the same left to send
  · rcases h.atWork with ⟨hstarting, hnone⟩ | ⟨hrunning, point, hpoint, hgoes, hmid⟩
    · exact .inl ⟨hsource.trans hstarting, htasks.trans hnone⟩
    · exact .inr ⟨hsource.trans hrunning, point, htasks.trans hpoint, hgoes,
        fun pending cycle hin => (hmid pending cycle hin).congr hsent hcursor⟩
  · rw [hcapacity]
    exact ⟨h.bounded.1, hchannel.trans h.bounded.2⟩
  · rw [hseen, haccepted]
    exact h.seen
  · rw [hcursor, hsent]
    exact h.delivered

/-- The processor leaves them alone. -/
theorem aside_processor (s : Collector) (now : String → Nat) (contended : String → Bool) :
    Aside s (s.stepProcessor now contended) := by
  have hself : s.handle.registry.polledContracts ⊆ s.handle.registry.polledContracts :=
    List.Subset.refl _
  -- the exit closes the channel and leaves the rest alone
  have hexit : Aside s s.processorExit :=
    ⟨rfl, rfl, rfl, rfl, hself, rfl, rfl, Nat.zero_le _, rfl, rfl, rfl⟩
  unfold stepProcessor
  split
  · split
    · exact hexit
    · exact ⟨rfl, rfl, rfl, rfl, hself, rfl, rfl, le_refl _, rfl, rfl, rfl⟩
  · unfold EventQueue.recv
    rcases hchannel : s.queue.channel with _ | ⟨event, channel⟩
    · dsimp only
      split
      · exact ⟨rfl, rfl, rfl, rfl, hself, rfl, rfl, le_refl _, rfl, rfl, rfl⟩
      · exact hexit
    -- an event is taken out of the channel
    · refine ⟨rfl, rfl, rfl, rfl, hself, rfl, rfl, ?_, rfl, rfl, rfl⟩
      rw [hchannel]
      exact Nat.le_succ _
  · rename_i event _
    -- a dispatch writes into pools, which moves neither the topics nor the cursor
    obtain ⟨hpolled, hcursor⟩ :=
      PoolRegistry.dispatch_frame now contended s.handle.registry event
    exact ⟨rfl, rfl, rfl, rfl, hpolled.symm ▸ hself, hcursor, rfl, le_refl _, rfl, rfl, rfl⟩
  · exact ⟨rfl, rfl, rfl, rfl, hself, rfl, rfl, le_refl _, rfl, rfl, rfl⟩

/-- `add_pool` spawns no poller beside a block walker. -/
theorem aside_add (halone : s.handle.spawnPerContractOnAdd = false) (id : String) (pool : Pool) :
    Aside s
      { s with handle := s.handle.addPool id pool, tasks := s.tasks ++ s.addedTasks env pool } := by
  -- the walker's handle spawns no pollers
  have hadded : s.addedTasks env pool = [] := by
    rw [addedTasks, halone]
    rfl
  have hspawns : (s.handle.addPool id pool).spawnPerContractOnAdd =
      s.handle.spawnPerContractOnAdd := by
    unfold CollectorHandle.addPool
    rw [halone]
    exact halone
  refine ⟨rfl, hspawns, rfl, ?_, ?_, ?_, rfl, le_refl _, rfl, rfl, rfl⟩
  · show s.tasks ++ s.addedTasks env pool = s.tasks
    rw [hadded, List.append_nil]
  · show s.handle.registry.polledContracts ⊆ (s.handle.addPool id pool).registry.polledContracts
    rw [CollectorHandle.registry_addPool]
    exact fun c hc => PoolRegistry.mem_polledContracts_insert.mpr (.inr hc)
  · show (s.handle.addPool id pool).registry.lastProcessedBlock = _
    rw [CollectorHandle.registry_addPool]
    rfl

/-! ## The steps of the walker -/

/-- A step of the walker that leaves the registry. -/
theorem Delivering.moves (h : Delivering env chain registered base s) {s' : Collector}
    (haccounted : Accounted s') (hgoing : s'.stopFlag = false)
    (hrunning : s.source = .running) {point : LoopAt}
    (htasks : s'.tasks = [{ kind := .blockWalker, ofSource := true, point }])
    (hgoes : point.isStopped = false)
    (hmid : ∀ pending cycle, inCycle point = some (pending, cycle) →
      Midway env chain registered base s' pending cycle)
    (hhandle : s'.handle = s.handle) (hsource : s'.source = s.source)
    (hkind : s'.sourceKind = s.sourceKind)
    (hbounded : 0 < s'.queue.capacity ∧ s'.queue.channel.length ≤ s'.queue.capacity)
    (hknown : ∀ e ∈ s'.accepted, OnChain env.sha256 chain e)
    (hseen : ∀ k ∈ s'.queue.seen, ∃ e ∈ s'.accepted, e.key = k)
    (hsent : s.sent ⊆ s'.sent) : Delivering env chain registered base s' := by
  have hcursor : cursor s' = cursor s := by rw [cursor, hhandle, cursor]
  refine ⟨haccounted, hgoing, hkind.trans h.kind, hhandle ▸ h.alone,
    .inr ⟨hsource.trans hrunning, point, htasks, hgoes, hmid⟩, hhandle ▸ h.polled,
    hcursor ▸ h.low, hcursor ▸ h.warm, hcursor ▸ h.room, hbounded, hknown, hseen, ?_⟩
  rw [hcursor]
  exact fun b hlow hb e he => hsent (h.delivered b hlow hb e he)

/-- The one loop there is, moved. -/
theorem tasks_setTask_zero {task : LoopTask} (htasks : s.tasks = [task]) (point : LoopAt) :
    (s.setTask 0 point).tasks = [{ task with point }] := by
  rw [setTask, htasks]
  rfl

/-- The turn of the one loop there is. -/
theorem step_walker {point : LoopAt}
    (htasks : s.tasks = [{ kind := .blockWalker, ofSource := true, point }]) (outside : LoopEnv) :
    s.step env (.task 0 outside) = s.stepLoop env 0 outside .blockWalker point := by
  rw [Collector.step, htasks]
  rfl

/-- The channel stays open as long as the walker runs. -/
theorem Delivering.isOpen (h : Delivering env chain registered base s) {task : LoopTask}
    (htask : task ∈ s.tasks) (hgoes : task.point.isStopped = false) : s.queue.closed = false := by
  refine eq_false_of_ne_true fun hclosed => ?_
  have hflag := h.accounted.stopFlag_of_running htask hgoes (h.accounted.closed.mp hclosed)
  rw [h.going] at hflag
  cases hflag

/-- What passed the dedup set is sent, unless it is in the walker's hand. -/
theorem Delivering.sent_of_accepted (h : Delivering env chain registered base s)
    {task : LoopTask} (htasks : s.tasks = [task]) (hgoes : task.point.isStopped = false)
    (hquiet : task.point.awaiting = []) {event : StacksEvent} (hevent : event ∈ s.accepted) :
    event ∈ s.sent := by
  have hmem : task ∈ s.tasks := htasks ▸ List.mem_singleton_self _
  obtain ⟨-, hrefused⟩ := h.accounted.kept (h.isOpen hmem hgoes)
  have hflight : s.inFlight = [] := by
    rw [inFlight, htasks, List.flatMap_singleton]
    exact hquiet
  have hledger := h.accounted.ledger.mem_iff.mp hevent
  rwa [hflight, hrefused, List.append_nil, List.append_nil] at hledger

/-- **A turn of the walker.** -/
theorem Delivering.loop (h : Delivering env chain registered base s)
    (hkeys : ∀ e e', OnChain env.sha256 chain e → OnChain env.sha256 chain e' →
      e.key = e'.key → e = e')
    (hmax : 0 < env.walking.maxBlocksPerTick) {outside : LoopEnv}
    (hfaithful : Faithful env chain s (.task 0 outside)) (hrunning : s.source = .running)
    {point : LoopAt} (htasks : s.tasks = [{ kind := .blockWalker, ofSource := true, point }])
    (hgoes : point.isStopped = false)
    (hmid : ∀ pending cycle, inCycle point = some (pending, cycle) →
      Midway env chain registered base s pending cycle) :
    ∃ base', (0 < cursor s → base' = base) ∧
      Delivering env chain registered base' (s.step env (.task 0 outside)) := by
  have haccounted : Accounted (s.step env (.task 0 outside)) := h.accounted.step _
  have hi : s.tasks[0]? = some { kind := .blockWalker, ofSource := true, point } := by
    rw [htasks]
    rfl
  have heffect := stepLoop_effect env s 0 outside .blockWalker point
  rw [step_walker htasks] at haccounted ⊢
  generalize s.stepLoop env 0 outside .blockWalker point = s' at haccounted heffect ⊢
  have hgoing : s'.stopFlag = false := heffect.frame.1.trans h.going
  obtain ⟨hhonest, htip, hanswers⟩ := hfaithful
  have hanswers := hanswers _ hi
  have hopen : s.queue.closed = false :=
    h.isOpen (htasks ▸ List.mem_singleton_self _) hgoes
  -- a jump of the walker, with nothing else changed
  have hjumps : ∀ point', point'.isStopped = false →
      (∀ pending cycle, inCycle point' = some (pending, cycle) →
        Midway env chain registered base s pending cycle) →
      Accounted (s.setTask 0 point') →
      ∃ base', (0 < cursor s → base' = base) ∧
        Delivering env chain registered base' (s.setTask 0 point') :=
    fun point' hgoes' hmid' haccounted' => ⟨base, fun _ => rfl,
      h.moves haccounted' h.going hrunning (tasks_setTask_zero htasks point') hgoes'
        (fun pending cycle hin => (hmid' pending cycle hin).congr
          (show (s.setTask 0 point').sent = s.sent from rfl) rfl)
        rfl rfl rfl h.bounded h.known h.seen (List.Subset.refl _)⟩
  rcases heffect with ⟨hjump⟩ | ⟨hresume⟩ | ⟨hnew⟩ | ⟨hclosed⟩ | ⟨-, hroom⟩ | ⟨-⟩
  case jumps =>
    rcases hjump with hstop | _ | _ | hstop | hdies | _ | hresume | _ | hseen
    case stops =>
      rw [h.going] at hstop
      cases hstop
    case wakes =>
      rw [h.going] at hstop
      cases hstop
    case dies => exact absurd hdies ((hanswers _ rfl).1 _)
    case sleeps => exact hjumps _ rfl (fun _ _ hin => by cases hin) haccounted
    case fails => exact hjumps _ rfl (fun _ _ hin => by cases hin) haccounted
    case begins =>
      refine hjumps _ rfl (fun pending cycle hin => ?_) haccounted
      obtain ⟨rfl, rfl⟩ := Prod.mk.inj (Option.some.inj hin)
      rfl
    case offers cycle cycle' events =>
      refine hjumps _ rfl (fun pending c hin => ?_) haccounted
      obtain ⟨rfl, rfl⟩ := Prod.mk.inj (Option.some.inj hin)
      exact h.offers hhonest htip hmax (hanswers _ rfl).2 (hmid _ _ rfl) hresume
    case sent cycle =>
      refine hjumps _ rfl (fun pending c hin => ?_) haccounted
      obtain ⟨rfl, rfl⟩ := Prod.mk.inj (Option.some.inj hin)
      exact hmid _ _ rfl
    case skips event rest cycle =>
      refine hjumps _ rfl (fun pending c hin => ?_) haccounted
      obtain ⟨rfl, rfl⟩ := Prod.mk.inj (Option.some.inj hin)
      -- its key was seen, so it was sent before
      have hall := hmid _ _ rfl
      obtain ⟨e, he, hkey⟩ := h.seen _ hseen
      obtain rfl := hkeys e event (h.known e he) hall.onChain hkey
      exact hall.pop (List.Subset.refl _) (h.sent_of_accepted htasks hgoes rfl he) rfl
  case commits cycle registry =>
    -- the only step that moves the cursor, and with it the first block
    obtain ⟨hpolled, hroom, base', hbase, hlow, hwarm, hdelivered⟩ :=
      h.done htip (hmid _ _ rfl) hresume
    refine ⟨base', hbase, haccounted, hgoing, h.kind, h.alone,
      .inr ⟨hrunning, .top, tasks_setTask_zero htasks .top, rfl, fun _ _ hin => by cases hin⟩, ?_,
      hlow, hwarm, hroom, h.bounded, h.known, h.seen, hdelivered⟩
    exact hpolled.symm ▸ h.polled
  case accepts event rest cycle =>
    have hall := hmid _ _ rfl
    refine ⟨base, fun _ => rfl, h.moves haccounted hgoing hrunning
      (tasks_setTask_zero htasks (.pushing event rest cycle)) rfl (fun pending c hin => ?_) rfl rfl
      rfl h.bounded ?_ ?_ (List.Subset.refl _)⟩
    · obtain ⟨rfl, rfl⟩ := Prod.mk.inj (Option.some.inj hin)
      refine Midway.congr ?_ ?_ hall
      · rfl
      · rfl
    · intro e he
      rcases List.mem_append.mp he with hold | hthis
      · exact h.known e hold
      · exact List.mem_singleton.mp hthis ▸ hall.onChain
    · -- a key is this event's, or was in the set before the eviction
      intro k hk
      rcases Finset.mem_insert.mp hk with rfl | hold
      · exact ⟨event, List.mem_append_right _ (List.mem_singleton_self _), rfl⟩
      · obtain ⟨e, he, hkey⟩ :=
          h.seen k (EventQueue.retained_subset outside.iter s.queue hold)
        exact ⟨e, List.mem_append_left _ he, hkey⟩
  case refuses => exact absurd hclosed (ne_true_of_eq_false hopen)
  case pushes event rest cycle =>
    have hall := hmid _ _ rfl
    have hfree : s.queue.channel.length < s.queue.capacity := of_decide_eq_true hroom
    refine ⟨base, fun _ => rfl, h.moves haccounted hgoing hrunning
      (tasks_setTask_zero htasks (.sending rest cycle)) rfl (fun pending c hin => ?_) rfl rfl rfl
      ⟨h.bounded.1, ?_⟩ h.known h.seen (List.subset_append_left _ _)⟩
    · obtain ⟨rfl, rfl⟩ := Prod.mk.inj (Option.some.inj hin)
      exact hall.pop (List.subset_append_left _ _)
        (List.mem_append_right _ (List.mem_singleton_self _)) rfl
    · show (s.queue.channel ++ [event]).length ≤ s.queue.capacity
      rw [List.length_append]
      exact hfree
  case waits => exact ⟨base, fun _ => rfl, h⟩

/-- A source that is running has started its loop and only waits for it. -/
theorem stepSource_running {point : LoopAt} (hrunning : s.source = .running)
    (htasks : s.tasks = [{ kind := .blockWalker, ofSource := true, point }])
    (hgoes : point.isStopped = false) : s.stepSource env = s := by
  have hwaits : (s.tasks.all fun task => !task.ofSource || task.point.isStopped) = false := by
    simp [htasks, hgoes]
  simp only [stepSource, hrunning, hwaits, Bool.false_eq_true, if_false]

/-- The walker is spawned, and its source waits for it. -/
theorem Delivering.source (h : Delivering env chain registered base s) :
    Delivering env chain registered base (s.stepSource env) := by
  have haccounted : Accounted (s.stepSource env) := h.accounted.source
  rcases h.atWork with ⟨hstarting, hnone⟩ | ⟨hrunning, point, htasks, hgoes, -⟩
  · simp only [stepSource, hstarting] at haccounted ⊢
    have hspawned : s.tasks ++ s.sourceTasks env =
        [{ kind := .blockWalker, ofSource := true, point := .top }] := by
      rw [hnone, sourceTasks, h.kind]
      rfl
    exact ⟨haccounted, h.going, h.kind, h.alone,
      .inr ⟨rfl, .top, hspawned, rfl, fun _ _ hin => by cases hin⟩, h.polled, h.low, h.warm,
      h.room, h.bounded, h.known, h.seen, h.delivered⟩
  · rw [stepSource_running hrunning htasks hgoes]
    exact h

/-- **A step.** Only a cold start moves the block from which on everything is delivered. -/
theorem Delivering.step (h : Delivering env chain registered base s)
    (hkeys : ∀ e e', OnChain env.sha256 chain e → OnChain env.sha256 chain e' →
      e.key = e'.key → e = e')
    (hmax : 0 < env.walking.maxBlocksPerTick) {l : CollectorStep}
    (hfaithful : Faithful env chain s l) :
    ∃ base', (0 < cursor s → base' = base) ∧
      Delivering env chain registered base' (s.step env l) := by
  have haccounted : Accounted (s.step env l) := h.accounted.step l
  rcases l with ⟨now, contended⟩ | _ | ⟨i, outside⟩ | ⟨poolId, pool⟩ | poolId | _ | _
  case processor =>
    refine ⟨base, fun _ => rfl, h.aside haccounted ?_ (aside_processor s now contended)⟩
    exact (stepProcessor_effect s now contended).frame.1.trans h.going
  case source => exact ⟨base, fun _ => rfl, h.source⟩
  case task =>
    rcases h.atWork with ⟨-, hnone⟩ | ⟨hrunning, point, htasks, hgoes, hmid⟩
    · rw [Collector.step, hnone]
      exact ⟨base, fun _ => rfl, h⟩
    -- there is one loop, that of the source
    rcases i with _ | i
    · exact h.loop hkeys hmax hfaithful hrunning htasks hgoes hmid
    · rw [Collector.step, htasks]
      exact ⟨base, fun _ => rfl, h⟩
  -- pools come and go without a word to the walk
  case add =>
    refine ⟨base, fun _ => rfl, ?_⟩
    rw [Collector.step] at haccounted ⊢
    split at haccounted
    · rename_i hheld
      rw [if_pos hheld]
      exact h.aside haccounted h.going (aside_add h.alone poolId pool)
    · rename_i hheld
      rw [if_neg hheld]
      exact h
  case remove =>
    refine ⟨base, fun _ => rfl, ?_⟩
    rw [Collector.step] at haccounted ⊢
    split at haccounted
    · rename_i hheld
      rw [if_pos hheld]
      exact h.aside haccounted h.going
        ⟨rfl, rfl, rfl, rfl, List.Subset.refl _, rfl, rfl, le_refl _, rfl, rfl, rfl⟩
    · rename_i hheld
      rw [if_neg hheld]
      exact h
  case stop => exact hfaithful.elim
  case drop =>
    exact ⟨base, fun _ => rfl, h.aside haccounted h.going
      ⟨rfl, rfl, rfl, rfl, List.Subset.refl _, rfl, rfl, le_refl _, rfl, rfl, rfl⟩⟩

end Steps

end Collector

end StacksDex.Bridge
