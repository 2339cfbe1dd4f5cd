import StacksDex.Bridge.PageWalk
import StacksDex.Bridge.Polling
import StacksDex.Results.BlockCompleteness

/-!
# StacksDex — one entry that does not decode stalls its stream

The two event sources read the same prints (`page_agrees_with_walker`), but not with the same
care: the block walker skips an entry that does not decode, the events page passes the failure
on. So a poll cycle moves its watermark exactly when every entry on the pages it comes to
decodes (`turn_moves_iff`), and while an undecodable entry stays within a cycle's reach, the
cycles of that contract change nothing: the run is the one without them
(`poisoned_stream_stalls`). The other streams go on, and a panic ends the task for good.

## The steps

* one entry and one page, read by either source;
* one turn of a poller, by the pages it comes to;
* a run of all pollers (`Streams`), with the turns of the stalled contract left out by the
  stuttering rule (`Run.exec_filter`).

A turn is one step in the run. What its cycle reads is in the label, so the history may grow
and requests may fail from turn to turn. The page offsets are computed as a build with overflow
checks does.
-/

namespace StacksDex.Results

open StacksDex.Lib StacksDex.Model StacksDex.Bridge

/-! ## The two readers -/

/-- The entry as the block walker gets it with its transaction. -/
def walkerEvent (contractId : String) (r : PageEvent) : RawEvent where
  eventType := "smart_contract_log"
  eventIndex := r.eventIndex
  contractLog := r.contractLog.map fun cl => { contractId, topic := cl.topic, value := cl.value }

section Readers

variable {sha256 : Sha256} {contractId : String} {emitter : Principal}

/-- On one entry the walker is the page's reader with its errors dropped. -/
theorem decodeRawEvent_walkerEvent (hparse : Principal.parse sha256 contractId = .ok emitter)
    (r : PageEvent) :
    decodeRawEvent sha256 r.txId (walkerEvent contractId r) =
      (dropErr (parseEnvelope emitter r)).map (·.bind (·.decoded)) := by
  unfold decodeRawEvent parseEnvelope PageEvent.printHex walkerEvent
  rw [if_neg (not_not.mpr rfl)]
  -- both readers go through the same tests, the walker passing over what is no `panic`
  rcases r.contractLog with _ | ⟨topic, value⟩
  · rfl
  dsimp only [Option.map_some]
  by_cases htopic : topic ≠ "print"
  · rw [if_pos htopic, if_pos htopic]
    rfl
  rw [if_neg htopic, if_neg htopic]
  rcases value.bind RawLogValue.hex with _ | hex
  · rfl
  dsimp only
  rw [hparse, dropErr_ok, ok_bind]
  dsimp only
  rcases hexDecode (stripHexMark hex) with (_ | _) | bytes
  · rfl
  · rfl
  · rw [dropErr_ok, ok_bind, ok_bind]
    dsimp only
    rcases cvDecode bytes 0 with (_ | _) | ⟨payload, n⟩
    · rfl
    · rfl
    · rfl

/-- Of a page that is read the walker gets the same. -/
theorem walker_of_page (hparse : Principal.parse sha256 contractId = .ok emitter)
    {rs : List PageEvent} {envs : List PageEnvelope}
    (h : rs.mapM (parseEnvelope emitter) = .ok envs) :
    (rs.mapM fun r => decodeRawEvent sha256 r.txId (walkerEvent contractId r)) =
      .ok (envs.map (·.decoded)) := by
  have hall := forall₂_of_mapM h
  clear h
  induction hall with
  | nil => rfl
  | cons hr _ ih =>
    rw [List.mapM_cons, ih, decodeRawEvent_walkerEvent hparse, hr]
    rfl

/--
**The two readers agree** on what decodes, and on nothing else. A page of the contract's
events is read exactly when none of its entries is undecodable, and then the block walker has
the same events. The walker returns exactly when no entry makes it panic, and then it has
dropped the undecodable entries and kept the others in their order. The page comes with a
success status that is not a rate limit, for a contract id that parses.
-/
theorem page_agrees_with_walker (hparse : Principal.parse sha256 contractId = .ok emitter)
    {status : Nat} (hlimited : status ≠ 429) (hsuccess : isSuccess status = true) (reason : String)
    (rs : List PageEvent) :
    ((∃ envs, fetchEventsPage sha256 contractId (.response status reason (.ok rs)) = .ok envs) ↔
        ∀ r ∈ rs, ¬ Undecodable r) ∧
      (∀ envs, fetchEventsPage sha256 contractId (.response status reason (.ok rs)) = .ok envs →
        (rs.mapM fun r => decodeRawEvent sha256 r.txId (walkerEvent contractId r)) =
          .ok (envs.map (·.decoded))) ∧
      ((∃ events,
          (rs.mapM fun r => decodeRawEvent sha256 r.txId (walkerEvent contractId r)) =
            .ok events) ↔
        ∀ r ∈ rs, ∀ msg, parseEnvelope emitter r ≠ .error (.panic msg)) ∧
      ∀ events,
        (rs.mapM fun r => decodeRawEvent sha256 r.txId (walkerEvent contractId r)) = .ok events →
        List.Forall₂ (fun r event => (Undecodable r ∧ event = none) ∨
          ∃ env, parseEnvelope emitter r = .ok env ∧ event = env.decoded) rs events := by
  -- a page that came with a success is its entries, one by one
  have hpage : fetchEventsPage sha256 contractId (.response status reason (.ok rs)) =
      rs.mapM (parseEnvelope emitter) := by
    rw [fetchEventsPage, if_neg hlimited, if_neg (not_not.mpr hsuccess), hparse]
    rfl
  rw [hpage, mapM_returns_iff, mapM_returns_iff]
  refine ⟨?_, fun envs henvs => walker_of_page hparse henvs, ?_, ?_⟩
  · exact forall₂_congr fun r _ => (not_undecodable_iff emitter).symm
  · refine forall₂_congr fun r _ => ?_
    rw [decodeRawEvent_walkerEvent hparse]
    -- an `Err`, a panic or a value
    rcases parseEnvelope emitter r with (msg | msg) | env
    · simp [dropErr]
    · simp [dropErr]
    · simp [dropErr]
  -- what the walker returns is the entry's event, or nothing for an `Err`
  · intro events hevents
    refine (forall₂_of_mapM hevents).imp fun r event hread => ?_
    rw [decodeRawEvent_walkerEvent hparse] at hread
    rcases henv : parseEnvelope emitter r with (msg | msg) | env
    · rw [henv] at hread
      cases hread
      refine Or.inl ⟨fun other env henv' => ?_, rfl⟩
      obtain ⟨env', henv''⟩ := (parseEnvelope_ok henv').2 emitter
      rw [henv] at henv''
      cases henv''
    · rw [henv] at hread
      cases hread
    · rw [henv] at hread
      cases hread
      exact Or.inr ⟨env, rfl, rfl⟩

end Readers

/-- A print whose payload is of a type the decoder does not know. -/
def unknownEntry : PageEvent where
  txId := "0x02"
  eventIndex := 0
  contractLog := some { topic := "print", value := some { hex := some "0xff" } }

/-- A print whose tag is none of the format's. -/
theorem undecodable_unknownEntry : Undecodable unknownEntry := by
  have hhex : hexDecode (stripHexMark "0xff") = .ok [255] := by decide +kernel
  have hprint : unknownEntry.printHex = some "0xff" := rfl
  intro emitter env h
  unfold parseEnvelope at h
  rw [hprint] at h
  dsimp only at h
  rw [hhex, ok_bind] at h
  obtain ⟨payload, hpayload, -⟩ := bind_eq_ok.mp h
  cases hpayload

/-- A page of that entry alone. -/
theorem page_agrees_with_walker_unknown :
    ((∃ envs, fetchEventsPage burnSha256 "SP000000000000000000002Q6VF78.pool"
          (.response 200 "OK" (.ok [unknownEntry])) = .ok envs) ↔
        ∀ r ∈ [unknownEntry], ¬ Undecodable r) ∧
      (∀ envs, fetchEventsPage burnSha256 "SP000000000000000000002Q6VF78.pool"
          (.response 200 "OK" (.ok [unknownEntry])) = .ok envs →
        ([unknownEntry].mapM fun r => decodeRawEvent burnSha256 r.txId
          (walkerEvent "SP000000000000000000002Q6VF78.pool" r)) =
          .ok (envs.map (·.decoded))) ∧
      ((∃ events, ([unknownEntry].mapM fun r => decodeRawEvent burnSha256 r.txId
          (walkerEvent "SP000000000000000000002Q6VF78.pool" r)) = .ok events) ↔
        ∀ r ∈ [unknownEntry], ∀ msg,
          parseEnvelope (deployed "pool") r ≠ .error (.panic msg)) ∧
      ∀ events, ([unknownEntry].mapM fun r => decodeRawEvent burnSha256 r.txId
          (walkerEvent "SP000000000000000000002Q6VF78.pool" r)) = .ok events →
        List.Forall₂ (fun r event => (Undecodable r ∧ event = none) ∨
          ∃ env, parseEnvelope (deployed "pool") r = .ok env ∧ event = env.decoded)
          [unknownEntry] events :=
  page_agrees_with_walker parse_burnPool (by decide) (by decide) "OK" [unknownEntry]

/-! ## One cycle -/

section Turn

variable {sha256 : Sha256} {baseUrl : String} {config : CollectorConfig} {task : PollTask}
variable {env : PollEnv} {queue : EventQueue} {registry : PoolRegistry}

variable (sha256 baseUrl config) in
/-- A turn is a cycle, or nothing but perhaps the end of the task. -/
theorem turn_cases (task : PollTask) (env : PollEnv) (queue : EventQueue)
    (registry : PoolRegistry) :
    (∃ r, task.alive = true ∧
        pollOnce config (env.fetchPage sha256 baseUrl task.contractId) env.iters task.contract queue
          registry = .ok r ∧
        task.turn sha256 baseUrl config env queue registry = (task, r.queue, r.registry)) ∨
      ((task.alive = true → ∃ fault,
          pollOnce config (env.fetchPage sha256 baseUrl task.contractId) env.iters task.contract
            queue registry = .error fault) ∧
        ∃ alive, task.turn sha256 baseUrl config env queue registry =
          ({ task with alive }, queue, registry)) := by
  unfold PollTask.turn PollTask.poll
  rw [pollM_run]
  rcases halive : task.alive
  · refine Or.inr ⟨fun h => absurd h Bool.false_ne_true, false, ?_⟩
    rw [if_neg Bool.false_ne_true, ← halive]
  rw [if_pos rfl]
  rcases hpoll : pollOnce config (env.fetchPage sha256 baseUrl task.contractId) env.iters
      task.contract queue registry with (msg | msg) | r
  · refine Or.inr ⟨fun _ => ⟨_, rfl⟩, true, ?_⟩
    rw [← halive]
  · exact Or.inr ⟨fun _ => ⟨_, rfl⟩, false, rfl⟩
  · exact Or.inl ⟨r, rfl, rfl, rfl⟩

/-- A cycle returns when its walk does. -/
theorem pollOnce_returns_iff
    {fetchPage : (request limit offset : Nat) → Except Fault (List EventEnvelope)}
    (queue : EventQueue) (iters : Nat → List EventKey) {contract : Principal} {n : Nat}
    (hpages : maxPages config (registry.watermark contract) = .ok n) :
    (∃ r, pollOnce config fetchPage iters contract queue registry = .ok r) ↔
      ∃ w, walkPages config fetchPage (registry.watermark contract) n 0
        { toApply := [], newestSeen := none, reachedWatermark := false } = .ok w := by
  unfold pollOnce
  dsimp only
  rw [hpages, ok_bind]
  constructor
  · rintro ⟨r, hok⟩
    obtain ⟨w, hwalk, -⟩ := bind_eq_ok.mp hok
    exact ⟨w, hwalk⟩
  · rintro ⟨w, hwalk⟩
    rw [hwalk]
    exact ⟨_, rfl⟩

/-- Every entry on the pages a cycle comes to decodes. -/
def Clear (config : CollectorConfig) (watermark : Option String) (n : Nat)
    (pages : Nat → List PageEvent) : Prop :=
  ∀ i, ComesTo config watermark (pageIds pages) n 0 i →
    i * config.pageSize ≤ u32Max ∧ ∀ r ∈ pages i, ¬ Undecodable r

/--
**One undecodable entry holds the watermark back.** Take a cycle of a live task whose requests
are all answered and that finds something new on its first page, in a build with overflow
checks. It moves the watermark there exactly when every entry on the pages it comes to on its
way back decodes, and their offsets fit `u32`; otherwise the sender and the registry are as
before, although earlier pages of the cycle may have been fine.
-/
theorem turn_moves_iff (halive : task.alive = true) {emitter : Principal}
    (hparse : Principal.parse sha256 task.contractId = .ok emitter)
    {pages : Nat → List PageEvent} (hserves : Serves baseUrl task.contractId config env pages)
    {n : Nat} (hpages : maxPages config (registry.watermark task.contract) = .ok (n + 1))
    {newest : PageEvent} {rest : List PageEvent} (hfirst : pages 0 = newest :: rest)
    (hnew : registry.watermark task.contract ≠ some newest.txId) :
    ((task.turn sha256 baseUrl config env queue registry).2.2.watermark task.contract =
        some newest.txId ↔
      Clear config (registry.watermark task.contract) (n + 1) pages) ∧
    (¬ Clear config (registry.watermark task.contract) (n + 1) pages →
      (task.turn sha256 baseUrl config env queue registry).2 = (queue, registry)) := by
  have hreturns := (pollOnce_returns_iff queue env.iters hpages).trans
    (hserves.walk_returns_iff hparse _ _)
  rcases turn_cases sha256 baseUrl config task env queue registry with
    ⟨r, -, hok, hturn⟩ | ⟨hfault, alive, hturn⟩
  · have hclear : Clear config (registry.watermark task.contract) (n + 1) pages :=
      hreturns.mp ⟨r, hok⟩
    refine ⟨iff_of_true ?_ hclear, fun h => absurd hclear h⟩
    rw [hturn]
    obtain ⟨pages', hpages', hok⟩ := bind_eq_ok.mp hok
    rw [hpages] at hpages'
    cases hpages'
    obtain ⟨w, hwalk, hok⟩ := bind_eq_ok.mp hok
    cases hok
    -- the first page tells the newest transaction
    obtain ⟨page, hpage, hnewest⟩ := walkPages_newest rfl hwalk
    have hfetch := hserves.fetchPage_eq hparse 0
    rw [Nat.zero_mul, hpage] at hfetch
    rcases henvs : (pages 0).mapM (parseEnvelope emitter) with fault | envs
    · rw [henvs] at hfetch
      cases hfetch
    · rw [henvs] at hfetch
      cases hfetch
      have hids := txIds_parsePage henvs
      rcases envs with _ | ⟨env', envs⟩
      · rw [hfirst] at hids
        cases hids
      · rw [hfirst, List.map_cons, List.map_cons] at hids
        have hhead : w.newestSeen = some newest.txId := by
          rw [hnewest]
          exact congrArg some (List.cons.inj hids).1
        dsimp only
        rw [hhead]
        exact PoolRegistry.watermark_setWatermark ..
  · obtain ⟨fault, hfault⟩ := hfault halive
    have hnot : ¬ Clear config (registry.watermark task.contract) (n + 1) pages := by
      intro hclear
      obtain ⟨r, hok⟩ := hreturns.mpr hclear
      rw [hfault] at hok
      cases hok
    rw [hturn]
    exact ⟨iff_of_false hnew hnot, fun _ => rfl⟩

end Turn

/-- Pages of five entries, seven of them at most without a watermark. -/
def sevenPages : CollectorConfig where
  pageSize := 5
  maxEventsPerCycle := 10
  coldStartPages := 7
  pageSize_le := by decide
  maxEventsPerCycle_le := by decide
  coldStartPages_le := by decide

/-- The one entry there is does not decode. -/
def unknownPages : PollEnv where
  reply := fun request _ => .response 200 "OK" (.ok (if request = 0 then [unknownEntry] else []))
  iters := fun _ => []

/-- A node that serves it as its first page. -/
theorem serves_unknownPages (contractId : String) :
    Serves "" contractId sevenPages unknownPages fun i => if i = 0 then [unknownEntry] else [] :=
  fun _ => ⟨200, "OK", by decide, by decide, rfl⟩

def poolTask : PollTask where
  contract := deployed "pool"
  contractId := "SP000000000000000000002Q6VF78.pool"
  alive := true

/-- Nothing has been polled, and nothing sent. -/
def coldRegistry : PoolRegistry where
  byId := []
  keysDistinct := List.nodup_nil
  watermarks := []
  topics := [⟨deployed "pool", "ping"⟩]
  lastProcessedBlock := 0

def coldQueue : EventQueue :=
  { channel := [], capacity := 64, closed := false, seen := ∅, seenCap := 256 }

/-- A cycle over it, whose watermark does not move. -/
theorem turn_moves_iff_unknown :
    ((poolTask.turn burnSha256 "" sevenPages unknownPages coldQueue coldRegistry).2.2.watermark
        poolTask.contract = some "0x02" ↔
      Clear sevenPages (coldRegistry.watermark poolTask.contract) 7
        (fun i => if i = 0 then [unknownEntry] else [])) ∧
    (¬ Clear sevenPages (coldRegistry.watermark poolTask.contract) 7
        (fun i => if i = 0 then [unknownEntry] else []) →
      (poolTask.turn burnSha256 "" sevenPages unknownPages coldQueue coldRegistry).2 =
        (coldQueue, coldRegistry)) :=
  turn_moves_iff rfl parse_burnPool (serves_unknownPages _) rfl rfl nofun

/-! ## A run -/

/-- The collector with one queue and any number of poller tasks, by contract and number. -/
structure Streams where
  queue : EventQueue
  registry : PoolRegistry
  tasks : Principal → Nat → Option PollTask

inductive StreamStep where
  /-- A poller of the contract starts, under a number that is free. -/
  | spawn (contract : Principal) (number : Nat)
  /-- A turn of a poller's loop. -/
  | turn (contract : Principal) (number : Nat) (env : PollEnv)
  /-- A turn of the processor loop. -/
  | process (now : String → Nat) (contended : String → Bool)
  | insert (id : String) (pool : Pool)
  | remove (id : String)

/-- The step is a turn of one of the contract's pollers. -/
def StreamStep.isTurnOf (contract : Principal) : StreamStep → Bool
  | .turn c _ _ => decide (c = contract)
  | _ => false

namespace Streams

def start (queue : EventQueue) (registry : PoolRegistry) : Streams :=
  { queue, registry, tasks := fun _ _ => none }

/-- The tasks with one of them replaced. -/
def setTask (s : Streams) (contract : Principal) (number : Nat) (task : Option PollTask) :
    Principal → Nat → Option PollTask :=
  fun c k => if c = contract ∧ k = number then task else s.tasks c k

section System

variable (sha256 : Sha256) (baseUrl : String) (config : CollectorConfig)

def step (s : Streams) : StreamStep → Streams
  | .spawn contract number =>
    -- a contract without a text form ends its task before the first cycle
    { s with
      tasks := s.setTask contract number
        ((s.tasks contract number).orElse fun _ => (PollTask.spawn sha256 contract).toOption) }
  | .turn contract number env =>
    match s.tasks contract number with
    | none => s
    | some task =>
      let (task, queue, registry) := task.turn sha256 baseUrl config env s.queue s.registry
      { queue, registry, tasks := s.setTask contract number (some task) }
  | .process now contended =>
    match s.queue.recv with
    | none => s
    | some (event, queue) => { s with queue, registry := s.registry.dispatch now contended event }
  | .insert id pool => { s with registry := s.registry.insert id pool }
  | .remove id => { s with registry := s.registry.remove id }

/-- A cycle back to the watermark comes to an undecodable entry. -/
def Poisoned (contractId : String) (watermark : Option String) (env : PollEnv) : Prop :=
  ∃ pages n i r, Serves baseUrl contractId config env pages ∧
    maxPages config watermark = .ok n ∧ ComesTo config watermark (pageIds pages) n 0 i ∧
    r ∈ pages i ∧ Undecodable r

/-- Every cycle of the contract's living pollers is poisoned. -/
def Stalled (contract : Principal) (watermark : Option String) (s : Streams) : StreamStep → Prop
  | .turn c number env => c = contract → ∀ task, s.tasks c number = some task →
      task.alive = true → Poisoned baseUrl config task.contractId watermark env
  | _ => True

/-- Every task polls the contract it is listed under. -/
def WellFormed (s : Streams) : Prop :=
  ∀ c k task, s.tasks c k = some task → task.contract = c

end System

section Runs

variable {sha256 : Sha256} {baseUrl : String} {config : CollectorConfig} {contract : Principal}
variable {watermark : Option String} {s t : Streams}

/-- A cycle writes no watermark but its own contract's. -/
theorem watermark_turn (task : PollTask) (env : PollEnv) (queue : EventQueue)
    (registry : PoolRegistry) {c : Principal} (h : c ≠ task.contract) :
    (task.turn sha256 baseUrl config env queue registry).2.2.watermark c =
      registry.watermark c := by
  rcases turn_cases sha256 baseUrl config task env queue registry with
    ⟨r, -, hok, hturn⟩ | ⟨-, alive, hturn⟩
  · rw [hturn]
    obtain ⟨pages, -, hok⟩ := bind_eq_ok.mp hok
    obtain ⟨w, -, hok⟩ := bind_eq_ok.mp hok
    cases hok
    rcases w.newestSeen with _ | txId
    · rfl
    · exact PoolRegistry.watermark_setWatermark_of_ne registry h txId
  · rw [hturn]

/-- A task polls the contract it was spawned for. -/
theorem contract_turn (task : PollTask) (env : PollEnv) (queue : EventQueue)
    (registry : PoolRegistry) :
    (task.turn sha256 baseUrl config env queue registry).1.contract = task.contract := by
  rcases turn_cases sha256 baseUrl config task env queue registry with
    ⟨r, -, -, hturn⟩ | ⟨-, alive, hturn⟩
  · rw [hturn]
  · rw [hturn]

/-- Tasks of the right contract. -/
theorem WellFormed.setTask (h : s.WellFormed) {c : Principal} {k : Nat} {task : Option PollTask}
    (htask : ∀ t ∈ task, t.contract = c) (queue : EventQueue) (registry : PoolRegistry) :
    WellFormed { queue, registry, tasks := s.setTask c k task } := by
  intro c' k' task' htask'
  unfold Streams.setTask at htask'
  dsimp only at htask'
  split at htask'
  · rename_i hc
    exact (htask _ htask').trans hc.1.symm
  · exact h _ _ _ htask'

/-- So does a task that has just been spawned. -/
theorem contract_spawn {c : Principal} {task : PollTask}
    (h : (PollTask.spawn sha256 c).toOption = some task) : task.contract = c := by
  unfold PollTask.spawn at h
  rcases hdisplay : c.display sha256 with fault | contractId
  · rw [hdisplay] at h
    cases h
  · rw [hdisplay] at h
    cases h
    rfl

variable (sha256 baseUrl config) in
/-- Every step keeps each task with its contract. -/
theorem WellFormed.step (h : s.WellFormed) (l : StreamStep) :
    (s.step sha256 baseUrl config l).WellFormed := by
  -- a spawn and a turn write one task, with the contract it is for
  rcases l with ⟨c, k⟩ | ⟨c, k, env⟩ | ⟨now, contended⟩ | ⟨id, pool⟩ | id
  · refine h.setTask ?_ _ _
    intro task htask
    rcases hold : s.tasks c k with _ | old
    · rw [hold] at htask
      exact contract_spawn htask
    · rw [hold] at htask
      cases htask
      exact h _ _ _ hold
  · rw [Streams.step]
    rcases htask : s.tasks c k with _ | task
    · exact h
    · refine h.setTask ?_ _ _
      rintro _ ⟨⟩
      exact (contract_turn ..).trans (h _ _ _ htask)
  · rw [Streams.step]
    rcases s.queue.recv with _ | ⟨event, queue⟩
    · exact h
    · exact h
  · exact h
  · exact h

/-- A poisoned cycle does not return. -/
theorem Poisoned.fails {task : PollTask} {env : PollEnv} {queue : EventQueue}
    {registry : PoolRegistry}
    (h : Poisoned baseUrl config task.contractId (registry.watermark task.contract) env) :
    ¬ ∃ r, pollOnce config (env.fetchPage sha256 baseUrl task.contractId) env.iters task.contract
      queue registry = .ok r := by
  obtain ⟨pages, n, i, r, hserves, hpages, hcomes, hr, hundecodable⟩ := h
  rw [pollOnce_returns_iff _ _ hpages]
  rcases hparse : Principal.parse sha256 task.contractId with fault | emitter
  · -- without an emitter not even the first page is read
    rw [walkPages_returns_iff rfl]
    intro hall
    obtain ⟨page, -, hpage⟩ := hall 0 ⟨Nat.zero_lt_of_lt hcomes.1, fun j hj => by omega⟩
    obtain ⟨status, reason, hlimited, hsuccess, hreply⟩ := hserves 0
    rw [Nat.add_zero, PollEnv.fetchPage, hreply, fetchEventsPage, if_neg hlimited,
      if_neg (not_not.mpr hsuccess), hparse] at hpage
    rcases fault with msg | msg
    · cases hpage
    · cases hpage
  · rw [hserves.walk_returns_iff hparse]
    exact fun hall => (hall i hcomes).2 r hr hundecodable

/-- The same but for the contract's tasks, and the watermark where it was. -/
structure Apart (contract : Principal) (watermark : Option String) (s t : Streams) : Prop where
  queue : s.queue = t.queue
  registry : s.registry = t.registry
  tasks : ∀ c, c ≠ contract → s.tasks c = t.tasks c
  wellFormed : s.WellFormed
  watermark : s.registry.watermark contract = watermark

/-- A turn of a stalled contract's poller does nothing but perhaps end it. -/
theorem Apart.turn (h : Apart contract watermark s t) {number : Nat} {env : PollEnv}
    (hstalled : s.Stalled baseUrl config contract watermark (.turn contract number env)) :
    Apart contract watermark (s.step sha256 baseUrl config (.turn contract number env)) t := by
  have hwell := h.wellFormed.step sha256 baseUrl config (.turn contract number env)
  rcases htask : s.tasks contract number with _ | task
  -- a task that was never spawned has no turn
  · have hsame : s.step sha256 baseUrl config (.turn contract number env) = s := by
      rw [step, htask]
    rw [hsame]
    exact h
  have hcontract : task.contract = contract := h.wellFormed _ _ _ htask
  -- a turn that returns would have come past the undecodable entry
  obtain ⟨alive, hturn⟩ : ∃ alive, task.turn sha256 baseUrl config env s.queue s.registry =
      ({ task with alive }, s.queue, s.registry) := by
    rcases turn_cases sha256 baseUrl config task env s.queue s.registry with
      ⟨r, halive, hok, -⟩ | ⟨-, hturn⟩
    · have hpoisoned := hstalled rfl task htask halive
      rw [← h.watermark, ← hcontract] at hpoisoned
      exact absurd ⟨r, hok⟩ hpoisoned.fails
    · exact hturn
  have hstep : s.step sha256 baseUrl config (.turn contract number env) =
      { s with tasks := s.setTask contract number (some { task with alive }) } := by
    rw [step, htask]
    dsimp only
    rw [hturn]
  rw [hstep] at hwell ⊢
  refine ⟨h.queue, h.registry, fun c hc => ?_, hwell, h.watermark⟩
  rw [← h.tasks c hc]
  funext k
  exact if_neg fun hck => hc hck.1

/-- Every other step is the same on both sides. -/
theorem Apart.other (h : Apart contract watermark s t) {l : StreamStep}
    (hl : l.isTurnOf contract = false) :
    Apart contract watermark (s.step sha256 baseUrl config l) (t.step sha256 baseUrl config l) := by
  have hwell := h.wellFormed.step sha256 baseUrl config l
  obtain ⟨hqueue, hregistry, htasks, hold, hwatermark⟩ := h
  -- tasks that were the same and are replaced by the same task
  have hset : ∀ c k (old new : Option PollTask), (c ≠ contract → old = new) → ∀ c',
      c' ≠ contract → s.setTask c k old c' = t.setTask c k new c' := by
    intro c k old new hsame c' hc'
    funext k'
    unfold setTask
    by_cases hck : c' = c ∧ k' = k
    · rw [if_pos hck, if_pos hck, hsame (hck.1 ▸ hc')]
    · rw [if_neg hck, if_neg hck, htasks c' hc']
  rcases l with ⟨c, k⟩ | ⟨c, k, env⟩ | ⟨now, contended⟩ | ⟨id, pool⟩ | id
  · exact ⟨hqueue, hregistry, hset c k _ _ fun hc => by rw [htasks c hc], hwell, hwatermark⟩
  · have hc : c ≠ contract := of_decide_eq_false hl
    rw [Streams.step, Streams.step, ← htasks c hc, ← hqueue, ← hregistry]
    rw [Streams.step] at hwell
    rcases htask : s.tasks c k with _ | task
    · exact ⟨hqueue, hregistry, htasks, hold, hwatermark⟩
    · rw [htask] at hwell
      refine ⟨rfl, rfl, hset c k _ _ fun _ => rfl, hwell, ?_⟩
      rw [← hwatermark]
      exact watermark_turn _ _ _ _ fun h => hc ((hold _ _ _ htask).symm.trans h.symm)
  · rw [Streams.step, Streams.step, ← hqueue, ← hregistry]
    rcases s.queue.recv with _ | ⟨event, queue⟩
    · exact ⟨hqueue, hregistry, htasks, hold, hwatermark⟩
    · exact ⟨rfl, rfl, htasks, hold, (PoolRegistry.watermark_dispatch ..).trans hwatermark⟩
  · exact ⟨hqueue, congrArg (·.insert id pool) hregistry, htasks, hold, hwatermark⟩
  · exact ⟨hqueue, congrArg (·.remove id) hregistry, htasks, hold, hwatermark⟩

end Runs

end Streams

section System

variable {sha256 : Sha256} {baseUrl : String} {config : CollectorConfig} {contract : Principal}
variable {queue : EventQueue} {registry : PoolRegistry} {steps : List StreamStep}

/--
**A poisoned stream stalls, and only that one.** As long as each cycle of a contract that
still runs comes to an undecodable entry on its way back to the watermark, all of them
together change nothing: queue, registry and the pollers of every other contract are those of
the run without them, and the contract's watermark never moves. The other contracts may do
anything meanwhile, fail and stall themselves included.
-/
theorem poisoned_stream_stalls
    (hrun : Run.Along (Streams.step sha256 baseUrl config)
      (Streams.Stalled baseUrl config contract (registry.watermark contract))
      (Streams.start queue registry) steps) :
    let stalled := Run.exec (Streams.step sha256 baseUrl config)
      (Streams.start queue registry) steps
    let without := Run.exec (Streams.step sha256 baseUrl config) (Streams.start queue registry)
      (steps.filter fun l => !l.isTurnOf contract)
    stalled.queue = without.queue ∧ stalled.registry = without.registry ∧
      (∀ c, c ≠ contract → stalled.tasks c = without.tasks c) ∧
      Run.Always (Streams.step sha256 baseUrl config)
        (fun s => s.registry.watermark contract = registry.watermark contract)
        (Streams.start queue registry) steps := by
  have hstart : Streams.Apart contract (registry.watermark contract)
      (Streams.start queue registry) (Streams.start queue registry) :=
    ⟨rfl, rfl, fun _ _ => rfl, nofun, rfl⟩
  have hdrop : ∀ s t l, Streams.Apart contract (registry.watermark contract) s t →
      s.Stalled baseUrl config contract (registry.watermark contract) l →
      (!l.isTurnOf contract) = false →
      Streams.Apart contract (registry.watermark contract) (s.step sha256 baseUrl config l) t := by
    intro s t l h hstalled hturn
    rcases l with _ | ⟨c, k, env⟩ | _ | _ | _
    · cases hturn
    · obtain rfl : c = contract := by simpa [StreamStep.isTurnOf] using hturn
      exact h.turn hstalled
    · cases hturn
    · cases hturn
    · cases hturn
  have hend := Run.exec_filter (fun l => !l.isTurnOf contract)
    (fun s t l h _ hturn => h.other (by simpa using hturn)) hdrop hstart hrun
  refine ⟨hend.queue, hend.registry, hend.tasks, ?_⟩
  -- every step keeps a state apart from some other, whatever that is
  have hall : Run.Always (Streams.step sha256 baseUrl config)
      (fun s => ∃ t, Streams.Apart contract (registry.watermark contract) s t)
      (Streams.start queue registry) steps := by
    refine Run.always_of_along ?_ ⟨_, hstart⟩ hrun
    rintro s l ⟨t, h⟩ hstalled
    rcases hturn : l.isTurnOf contract
    · exact ⟨_, h.other hturn⟩
    · exact ⟨_, hdrop s t l h hstalled (by rw [hturn]; rfl)⟩
  exact hall.mono fun s ⟨t, h⟩ => h.watermark

end System

/-- A poller starts, runs into the entry, and the processor gets a turn. -/
def stalledSteps : List StreamStep :=
  [.spawn (deployed "pool") 0, .turn (deployed "pool") 0 unknownPages,
    .process (fun _ => 0) fun _ => false]

/-- The stream of that entry, beside another one. -/
theorem poisoned_stream_stalls_unknown :
    let stalled := Run.exec (Streams.step burnSha256 "" sevenPages)
      (Streams.start coldQueue coldRegistry) stalledSteps
    let without := Run.exec (Streams.step burnSha256 "" sevenPages)
      (Streams.start coldQueue coldRegistry)
      (stalledSteps.filter fun l => !l.isTurnOf (deployed "pool"))
    stalled.queue = without.queue ∧ stalled.registry = without.registry ∧
      (∀ c, c ≠ deployed "pool" → stalled.tasks c = without.tasks c) ∧
      Run.Always (Streams.step burnSha256 "" sevenPages)
        (fun s => s.registry.watermark (deployed "pool") =
          coldRegistry.watermark (deployed "pool"))
        (Streams.start coldQueue coldRegistry) stalledSteps := by
  have hpoisoned : ∀ contractId, Streams.Poisoned "" sevenPages contractId
      (coldRegistry.watermark (deployed "pool")) unknownPages := fun contractId =>
    ⟨_, 7, 0, unknownEntry, serves_unknownPages contractId, rfl, comesTo_zero 6 0,
      List.mem_singleton.mpr rfl, undecodable_unknownEntry⟩
  exact poisoned_stream_stalls
    ⟨trivial, fun _ task _ _ => hpoisoned task.contractId, trivial, trivial⟩

end StacksDex.Results
