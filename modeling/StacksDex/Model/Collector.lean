import StacksDex.Model.BlockWalkingSource
import StacksDex.Model.CollectorHandle

/-!
# StacksDex — the tasks of a collector

`collector/bootstrap.rs`, with the loops it starts: `event_processor_loop`, the source's
`run` and `poll_contract_loop`. A step is what a task does between two points where it can be
overtaken or made to wait: the test of the stop flag, a slice of sleep, the requests of a cycle,
the two halves of a `send_dedup`, a `recv`, a dispatch. What it waits for is in the label.

* `LoopTask` is a polling or ticking task with the point it stands at (`LoopAt`);
* `ProcessorAt` and `SourceAt` are the points of the processor and of the source;
* `Collector` holds the tasks, the queue, the registry and the stop flag;
* `CollectorStep` names whose turn it is and what the outside answers, and `step` is the
  turn; a step that is not enabled changes nothing.

So a run is a list of steps, and every interleaving of the tasks, every failure and every
moment of a `stop` is one of them. `Finished` is the state in which every loop has ended.
-/

namespace StacksDex.Model

/-! ## The polling loops -/

/-- Where a cycle stands when it is not sending. -/
inductive Cycle where
  /-- `poll_once` has read the watermark. -/
  | poll (contract : Principal) (watermark : Option String)
  /-- `poll_once` has walked the pages. -/
  | polled (contract : Principal) (newestSeen : Option String)
  /-- `tick` asks for the tip. -/
  | tick
  /-- `tick` walks the blocks: `left` more, the next at `height`. -/
  | walk (registered : List Principal) (height left last : Nat)

/-- Whose loop it is. -/
inductive LoopKind where
  /-- `poll_contract_loop`. -/
  | poller (contract : Principal)
  /-- `BlockWalkingEventSource::run`. -/
  | blockWalker

/-- The points of a loop. -/
inductive LoopAt where
  /-- `while !stop_flag`. -/
  | top
  /-- Between two slices of the sleep. -/
  | sleeping
  | requesting (cycle : Cycle)
  /-- In front of the next `send_dedup`. -/
  | sending (rest : List StacksEvent) (cycle : Cycle)
  /-- Past the check of `seen`: `self.tx.send(..)` waits for room. -/
  | pushing (event : StacksEvent) (rest : List StacksEvent) (cycle : Cycle)
  | stopped

def LoopAt.isStopped : LoopAt → Bool
  | .stopped => true
  | _ => false

/-- The event that waits to be sent. -/
def LoopAt.awaiting : LoopAt → List StacksEvent
  | .pushing event _ _ => [event]
  | _ => []

/-- What a loop's step finds outside. -/
structure LoopEnv where
  /-- The next cycle is due. -/
  isDue : Bool
  fetchPage : (request limit offset : Nat) → Except Fault (List EventEnvelope)
  tick : TickEnv
  /-- The order the dedup set is iterated in. -/
  iter : List EventKey

/-- What the requests of a cycle come to. -/
inductive Resumed where
  | failed (fault : Fault)
  /-- Events for `send_dedup`, oldest first, and where the cycle goes on. -/
  | offers (events : List StacksEvent) (cycle : Cycle)
  | done (registry : PoolRegistry)

structure CollectorEnv where
  sha256 : Sha256
  config : CollectorConfig
  walking : BlockWalkingConfig

section Loop

variable (env : CollectorEnv)

/-- The walk of `poll_once`. -/
def pollWalk (config : CollectorConfig)
    (fetchPage : (request limit offset : Nat) → Except Fault (List EventEnvelope))
    (watermark : Option String) : Except Fault Walk := do
  let pages ← maxPages config watermark
  walkPages config fetchPage watermark pages 0
    { toApply := [], newestSeen := none, reachedWatermark := false }

/-- The start of a cycle. -/
def LoopKind.begin (registry : PoolRegistry) : LoopKind → Cycle
  | .poller contract => .poll contract (registry.watermark contract)
  | .blockWalker => .tick

/-- `tick`, once it has the tip. -/
def resumeTick (registry : PoolRegistry) (overflowChecks : Bool) (tip : Nat) : Resumed :=
  let cursor := registry.lastProcessedBlock
  let registered := registry.polledContracts
  if cursor = 0 then .done (registry.setLastProcessedBlock tip)
  else if tip ≤ cursor then .done registry
  else if registered = [] then .done (registry.setLastProcessedBlock tip)
  else
    match u64Add overflowChecks cursor env.walking.maxBlocksPerTick with
    | .error fault => .failed fault
    | .ok ahead =>
      let last := min ahead tip
      .offers [] (.walk registered (cursor + 1) (last - cursor) last)

/-- A turn of the block loop, up to its sends. -/
def resumeBlock (tick : TickEnv) (registered : List Principal) (height left last : Nat) :
    Resumed :=
  let next : Cycle := .walk registered (height + 1) left last
  match fetchBlockTransactions env.sha256 env.walking.pageSize height (tick.blockPage height) with
  | .error fault => .failed fault
  | .ok txs =>
    if txs = [] then .offers [] next
    else
      match ingestBlockTxs env.sha256 registered (tick.txDetail height) txs with
      | .error fault => .failed fault
      | .ok ingested => .offers ingested.offered next

/-- A cycle, from the answers to its next requests on. -/
def Cycle.resume (registry : PoolRegistry) (outside : LoopEnv) : Cycle → Resumed
  | .poll contract watermark =>
    match pollWalk env.config outside.fetchPage watermark with
    | .error fault => .failed fault
    | .ok w => .offers (w.toApply.reverse.filterMap (·.decoded)) (.polled contract w.newestSeen)
  | .polled contract newestSeen =>
    .done (match newestSeen with
      | some txId => registry.setWatermark contract txId
      | none => registry)
  | .tick =>
    match outside.tick.tip with
    | .error fault => .failed fault
    | .ok tip => resumeTick env registry outside.tick.overflowChecks tip
  | .walk _ _ 0 last => .done (registry.setLastProcessedBlock last)
  | .walk registered height (left + 1) last =>
    resumeBlock env outside.tick registered height left last

end Loop

/-! ## The collector -/

structure LoopTask where
  kind : LoopKind
  /-- The source awaits it; the handle awaits the others. -/
  ofSource : Bool
  point : LoopAt

/-- A spawned `poll_contract_loop`. The first thing it does is write its contract as text. -/
def LoopTask.poller (sha256 : Sha256) (ofSource : Bool) (contract : Principal) : LoopTask where
  kind := .poller contract
  ofSource
  point :=
    match contract.display sha256 with
    | .ok _ => .top
    | .error _ => .stopped

/-- The points of `event_processor_loop`. -/
inductive ProcessorAt where
  | top
  | receiving
  | dispatching (event : StacksEvent)
  | stopped

inductive SourceAt where
  /-- `run` has not been polled yet. -/
  | starting
  /-- Its loops run. -/
  | running
  | returned
  deriving DecidableEq

/-- Which `EventSource` drives the collector. -/
inductive SourceKind where
  | perContract
  | blockWalking

structure Collector where
  /-- The handle; its registry is the one all tasks share. -/
  handle : CollectorHandle
  /-- The caller still has the handle, and the handle its sender. -/
  held : Bool
  stopFlag : Bool
  queue : EventQueue
  processor : ProcessorAt
  sourceKind : SourceKind
  source : SourceAt
  /-- The polling loops, in the order they were spawned. -/
  tasks : List LoopTask
  /-- The events that were new to the dedup set, first to last. -/
  accepted : List StacksEvent
  /-- The events that went into the channel. -/
  sent : List StacksEvent
  /-- The events that were dispatched. -/
  dispatched : List StacksEvent
  /-- What the channel held when its receiver went. -/
  dropped : List StacksEvent
  /-- The events the closed channel sent back. -/
  refused : List StacksEvent

/-- Whose step it is. -/
inductive Party where
  | processor
  | source
  | task (i : Nat)

inductive CollectorStep where
  | processor (now : String → Nat) (contended : String → Bool)
  | source
  | task (i : Nat) (outside : LoopEnv)
  /-- `add_pool`. -/
  | add (id : String) (pool : Pool)
  /-- `remove_pool`. -/
  | remove (id : String)
  /-- `stop`, up to its first `await`. -/
  | stop
  /-- The handle goes out of scope. -/
  | drop

namespace CollectorStep

/-- The tasks take turns; the caller does what it does. -/
def turn : CollectorStep → Option Party
  | .processor .. => some .processor
  | .source => some .source
  | .task i _ => some (.task i)
  | _ => none

end CollectorStep

namespace Collector

/-- `start_collector` and `start_collector_with_source`. -/
def start (sourceKind : SourceKind) (capacity : Nat) (registry : PoolRegistry) :
    Except Fault Collector := do
  let queue ← EventQueue.build capacity
  .ok
    { handle := .start (match sourceKind with | .perContract => true | .blockWalking => false)
        registry
      held := true
      stopFlag := false
      queue
      processor := .top
      sourceKind
      source := .starting
      tasks := []
      accepted := []
      sent := []
      dispatched := []
      dropped := []
      refused := [] }

/-- Some `EventSender` is left. -/
def hasSender (s : Collector) : Bool :=
  s.held || s.source ≠ .returned || s.tasks.any fun task => !task.point.isStopped

/-- The processor returns, and the receiver goes with what it holds. -/
def processorExit (s : Collector) : Collector :=
  { s with
    processor := .stopped
    queue := { s.queue with closed := true, channel := [] }
    dropped := s.dropped ++ s.queue.channel }

/-- `event_processor_loop`. A `recv` that finds nothing runs into its timeout. -/
def stepProcessor (now : String → Nat) (contended : String → Bool) (s : Collector) : Collector :=
  match s.processor with
  | .top => if s.stopFlag then s.processorExit else { s with processor := .receiving }
  | .receiving =>
    match s.queue.recv with
    | some (event, queue) => { s with queue, processor := .dispatching event }
    | none => if s.hasSender then { s with processor := .top } else s.processorExit
  | .dispatching event =>
    { s with
      handle := { s.handle with registry := s.handle.registry.dispatch now contended event }
      processor := .top
      dispatched := s.dispatched ++ [event] }
  | .stopped => s

/-- The channel has room for one more. -/
def hasRoom (s : Collector) : Bool := s.queue.channel.length < s.queue.capacity

def setTask (i : Nat) (point : LoopAt) (s : Collector) : Collector :=
  { s with tasks := s.tasks.modify i fun task => { task with point } }

section Step

variable (env : CollectorEnv)

/-- The step of a loop that stands at `point`. -/
def stepLoop (i : Nat) (outside : LoopEnv) (kind : LoopKind) (s : Collector) :
    LoopAt → Collector
  | .top => s.setTask i (if s.stopFlag then .stopped else .sleeping)
  | .sleeping =>
    -- the flag is not looked at once the cycle is due
    if outside.isDue then s.setTask i (.requesting (kind.begin s.handle.registry))
    else if s.stopFlag then s.setTask i .stopped
    else s
  | .requesting cycle =>
    match cycle.resume env s.handle.registry outside with
    | .failed (.panic _) => s.setTask i .stopped
    -- an error is logged, and the next cycle comes
    | .failed (.err _) => s.setTask i .top
    | .offers events cycle => s.setTask i (.sending events cycle)
    | .done registry => { s.setTask i .top with handle := { s.handle with registry } }
  | .sending [] cycle => s.setTask i (.requesting cycle)
  | .sending (event :: rest) cycle =>
    if (s.queue.checkInsert outside.iter event).2 then
      { s.setTask i (.pushing event rest cycle) with
        queue := (s.queue.checkInsert outside.iter event).1
        accepted := s.accepted ++ [event] }
    else s.setTask i (.sending rest cycle)
  | .pushing event rest cycle =>
    if s.queue.closed then
      { s.setTask i (.sending rest cycle) with refused := s.refused ++ [event] }
    else if s.hasRoom then
      { s.setTask i (.sending rest cycle) with
        queue := (s.queue.push event).1
        sent := s.sent ++ [event] }
    -- a full channel keeps the task waiting
    else s
  | .stopped => s

/-- What the source's `run` spawns, or is. -/
def sourceTasks (s : Collector) : List LoopTask :=
  match s.sourceKind with
  | .perContract => (perContractRun s.handle.registry).map (LoopTask.poller env.sha256 true)
  | .blockWalking => [{ kind := .blockWalker, ofSource := true, point := .top }]

def stepSource (s : Collector) : Collector :=
  match s.source with
  | .starting => { s with source := .running, tasks := s.tasks ++ s.sourceTasks env }
  | .running =>
    if s.tasks.all fun task => !task.ofSource || task.point.isStopped then
      { s with source := .returned }
    else s
  | .returned => s

/-- The pollers `add_pool` spawns. -/
def addedTasks (pool : Pool) (s : Collector) : List LoopTask :=
  if s.handle.spawnPerContractOnAdd then
    (s.handle.newContracts pool).map (LoopTask.poller env.sha256 false)
  else []

def step (s : Collector) : CollectorStep → Collector
  | .processor now contended => s.stepProcessor now contended
  | .source => s.stepSource env
  | .task i outside =>
    match s.tasks[i]? with
    | none => s
    | some task => s.stepLoop env i outside task.kind task.point
  -- the caller has to have the handle
  | .add id pool =>
    if s.held then
      { s with handle := s.handle.addPool id pool, tasks := s.tasks ++ s.addedTasks env pool }
    else s
  | .remove id => if s.held then { s with handle := s.handle.removePool id } else s
  | .stop => if s.held then { s with held := false, stopFlag := true } else s
  | .drop => { s with held := false }

end Step

/-- The event the processor has taken out and not dispatched yet. -/
def inHand (s : Collector) : List StacksEvent :=
  match s.processor with
  | .dispatching event => [event]
  | _ => []

/-- The events that wait to be sent. -/
def inFlight (s : Collector) : List StacksEvent := s.tasks.flatMap (·.point.awaiting)

/-- All tasks have returned, and with them `stop`. -/
def Finished (s : Collector) : Prop :=
  s.processor = .stopped ∧ s.source = .returned ∧ ∀ task ∈ s.tasks, task.point = .stopped

end Collector

end StacksDex.Model
