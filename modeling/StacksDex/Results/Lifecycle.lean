import Mathlib.Data.Nat.Pairing
import Mathlib.Tactic.IntervalCases
import StacksDex.Bridge.Stopping
import StacksDex.Results.EventStreams

/-!
# StacksDex — from `start_collector` to `stop`

The collector as a whole: a source, polling or ticking loops, the channel, the processor, and
a caller with a handle, each with turns of its own.

* `stop` sets a flag and waits for every task. Whatever the tasks are at, also with senders in
  front of a full channel, they all return (`stop_returns`).
* Until then no event is lost or overtaken, and afterwards every event that was not dispatched
  is dropped (`stop_account`): at most one more is dispatched, the one the processor was
  committed to.
* What the channel has taken is dispatched unless somebody calls `stop`
  (`sent_is_dispatched`).
* Nothing but `stop` ends the tasks: they run on when the handle is dropped
  (`dropped_collector_runs_on`).

The first and the third are about infinite schedules that give every party its turn again and
again (`Run.Fair`); the other two are about every run, fair or not. What a turn can do is read
off the inversion lemmas of `Bridge/Collector.lean`, and the measure that goes down after a
`stop` is in `Bridge/Stopping.lean`.

Requests may be answered in any way, by failures and by panics, and the answers are in the
labels of the run.
-/

namespace StacksDex.Results

open StacksDex.Lib StacksDex.Model StacksDex.Model.Collector StacksDex.Bridge
open StacksDex.Bridge.Collector

section Lifecycle

variable {env : CollectorEnv} {kind : SourceKind} {capacity : Nat} {registry : PoolRegistry}
variable {s : Collector} {sched : ℕ → CollectorStep}

/-! ## `stop` returns -/

/-- Once everything has ended, nothing starts again. -/
theorem finished_step (h : Accounted s) (hflag : s.stopFlag = true) (hfinished : s.Finished)
    (l : CollectorStep) : (s.step env l).Finished := by
  rcases settles h hflag l with hless | ⟨hsame, -⟩
  · -- there is nothing left to do
    obtain ⟨hprocessor, hsource, htasks⟩ := hfinished
    have hzero : ∀ f : LoopAt → Nat, f .stopped = 0 → (s.tasks.map (f ·.point)).sum = 0 := by
      intro f hf
      refine List.sum_eq_zero fun n hn => ?_
      obtain ⟨task, htask, rfl⟩ := List.mem_map.mp hn
      rw [htasks task htask, hf]
    have hbottom : pace env s = toLex (0, toLex (0, 0)) := by
      rw [pace, hzero (toRequest env) rfl, hzero toSend rfl, hprocessor, hsource]
      rfl
    rw [hbottom] at hless
    simp only [pace, Prod.Lex.toLex_lt_toLex, Nat.not_lt_zero, and_false, or_self] at hless
  · rw [hsame]
    exact hfinished

/-- Every state of a schedule is accounted for. -/
theorem accounted_trace (hstart : Collector.start kind capacity registry = .ok s) (n : ℕ) :
    Accounted (Run.trace (Collector.step env) sched s n) :=
  Run.trace_of_le (fun _ l h => h.step l) (Nat.zero_le n) (accounted_start hstart)

/-- The caller has the handle until it calls `stop`, or drops it. -/
theorem stopFlag_after_stop (hheld : s.held = true) {k : ℕ} (hstop : sched k = .stop)
    (hkept : ∀ j < k, sched j ≠ .drop) :
    (Run.trace (Collector.step env) sched s (k + 1)).stopFlag = true := by
  have hbefore : ∀ j ≤ k, (Run.trace (Collector.step env) sched s j).held = true ∨
      (Run.trace (Collector.step env) sched s j).stopFlag = true := by
    intro j hj
    induction j with
    | zero => exact .inl hheld
    | succ j ih =>
      rw [Run.trace_succ]
      rcases ih (Nat.le_of_succ_le hj) with hheld | hflag
      · exact held_step hheld (hkept j hj)
      · exact .inr (stopFlag_step hflag _)
  rw [Run.trace_succ, hstop]
  rcases hbefore k (le_refl k) with hheld | hflag
  · rw [Collector.step, if_pos hheld]
  · exact stopFlag_step hflag _

/--
**`stop` returns.** On every schedule that gives all tasks their turns, once the caller has
called `stop` on a handle it has not dropped, a state comes from which on all tasks have
ended. With the flag set, every turn of a party that is not at rest lowers the pace, and as
long as one task runs there is a party that is not at rest; so a fair schedule cannot go on
for ever. The node may answer anything or fail, and senders may be waiting for room in a full
channel: they are let go when the processor ends.
-/
theorem stop_returns (hstart : Collector.start kind capacity registry = .ok s)
    (hfair : Run.Fair CollectorStep.turn sched) {k : ℕ} (hstop : sched k = .stop)
    (hkept : ∀ j < k, sched j ≠ .drop) :
    ∃ n, ∀ m, n ≤ m → (Run.trace (Collector.step env) sched s m).Finished := by
  -- from the call on the flag is set, and it stays set
  have hstopping : ∀ n, k + 1 ≤ n →
      Accounted (Run.trace (Collector.step env) sched s n) ∧
        (Run.trace (Collector.step env) sched s n).stopFlag = true := fun n hn =>
    ⟨accounted_trace hstart n, Run.trace_of_le (I := fun t : Collector => t.stopFlag = true)
      (fun _ l h => stopFlag_step h l) hn
      (stopFlag_after_stop (held_start hstart) hstop hkept)⟩
  -- each turn of a party not at rest lowers the pace, and somebody is not at rest
  obtain ⟨n, hn, hfinished⟩ := hfair.reaches
    (I := fun t : Collector => Accounted t ∧ t.stopFlag = true) (P := Collector.Finished)
    (pace env) helper
    (fun _ l h => And.intro (Accounted.step h.1 l) (stopFlag_step h.2 l))
    (fun _ l h _ => (settles h.1 h.2 l).imp_right fun hrest => by rw [hrest.1]; exact ⟨rfl, rfl⟩)
    (fun _ l h hrunning hturn => (settles h.1 h.2 l).resolve_right fun hrest =>
      helper_restless h.1 hrunning hturn hrest.2)
    (hstopping (k + 1) (le_refl _))
  -- what has ended stays ended
  refine ⟨n, fun m hm => ?_⟩
  induction m, hm using Nat.le_induction with
  | base => exact hfinished
  | succ m hm ih =>
    obtain ⟨haccounted, hflag⟩ := hstopping m (hn.trans hm)
    rw [Run.trace_succ]
    exact finished_step haccounted hflag ih _

/-! ## Where the events are -/

/-- The dispatches a processor is still committed to when it is told to stop. -/
def committed : ProcessorAt → Nat
  | .receiving | .dispatching _ => 1
  | .top | .stopped => 0

/-- Once the flag is set, a dispatch is the last. -/
theorem committed_step (env : CollectorEnv) (hflag : s.stopFlag = true) (l : CollectorStep) :
    ∃ last : List StacksEvent, (s.step env l).dispatched = s.dispatched ++ last ∧
      last.length + committed (s.step env l).processor ≤ committed s.processor := by
  by_cases hl : ∃ now contended, l = .processor now contended
  -- only the processor dispatches
  case neg =>
    obtain ⟨hdispatched, hprocessor⟩ :=
      step_of_others fun now contended h => hl ⟨now, contended, h⟩
    refine ⟨[], by rw [hdispatched, List.append_nil], ?_⟩
    rw [hprocessor, List.length_nil, Nat.zero_add]
  obtain ⟨now, contended, rfl⟩ := hl
  have heffect := stepProcessor_effect s now contended
  show ∃ last : List StacksEvent, (s.stepProcessor now contended).dispatched = _ ∧
    last.length + committed (s.stepProcessor now contended).processor ≤ _
  generalize s.stepProcessor now contended = s' at heffect
  -- it may have an event in hand, which is the one that is committed to
  rcases heffect with ⟨htop, -⟩ | ⟨-, hgo⟩ | ⟨hat, -⟩ | ⟨hat, -, -⟩ | ⟨hat, -, -⟩ | ⟨hat⟩ | ⟨hat⟩
  case exits => exact ⟨[], (List.append_nil _).symm, Nat.zero_le _⟩
  case listens =>
    rw [hflag] at hgo
    cases hgo
  case takes => exact ⟨[], (List.append_nil _).symm, by rw [hat]; exact le_refl 1⟩
  case timesOut => exact ⟨[], (List.append_nil _).symm, Nat.zero_le _⟩
  case ends => exact ⟨[], (List.append_nil _).symm, Nat.zero_le _⟩
  case dispatches event _ => exact ⟨[event], rfl, by rw [hat]; exact le_refl 1⟩
  case done => exact ⟨[], (List.append_nil _).symm, le_of_eq (Nat.zero_add _)⟩

/-- So in a run from there, at most the one event the processor was committed to is dispatched. -/
theorem committed_exec (h : Accounted s) (hflag : s.stopFlag = true) (steps : List CollectorStep) :
    ∃ last : List StacksEvent,
      (Run.exec (Collector.step env) s steps).dispatched = s.dispatched ++ last ∧
        last.length ≤ committed s.processor := by
  induction steps generalizing s with
  | nil => exact ⟨[], (List.append_nil _).symm, Nat.zero_le _⟩
  | cons l steps ih =>
    obtain ⟨first, hfirst, hcommitted⟩ := committed_step env hflag l
    obtain ⟨rest, hrest, hless⟩ := ih (h.step l) (stopFlag_step hflag l)
    refine ⟨first ++ rest, ?_, ?_⟩
    · rw [Run.exec_cons, hrest, hfirst, List.append_assoc]
    · rw [List.length_append]
      omega

/-- The processor is committed to one event at most. -/
theorem committed_le (point : ProcessorAt) : committed point ≤ 1 := by
  rcases point with _ | _ | _ | _
  · exact Nat.zero_le 1
  · exact le_refl 1
  · exact le_refl 1
  · exact Nat.zero_le 1

/--
**Nothing is lost before `stop`, and at most one event is dispatched after it.** In every
state of every run, whatever the order of the tasks' steps, what passed the dedup set is
dispatched, in the processor's hand, in the channel, waiting for room in it, or lost, each
event once. What went into the channel comes out in the same order. Nothing is lost as long as
`stop` was not called, and from then on at most one event more is dispatched: the processor
looks at the flag before each event, and may have looked just before it was set.
-/
theorem stop_account (hstart : Collector.start kind capacity registry = .ok s)
    (steps : List CollectorStep) :
    let s' := Run.exec (Collector.step env) s steps
    s'.accepted.Perm
      (s'.dispatched ++ s'.inHand ++ s'.queue.channel ++ s'.inFlight ++
        (s'.dropped ++ s'.refused)) ∧
    s'.sent = s'.dispatched ++ s'.inHand ++ s'.queue.channel ++ s'.dropped ∧
    (s'.stopFlag = false → s'.dropped ++ s'.refused = []) ∧
    (s'.stopFlag = true → ∀ more, ∃ last : List StacksEvent,
      (Run.exec (Collector.step env) s' more).dispatched = s'.dispatched ++ last ∧
        last.length ≤ 1) := by
  intro s'
  -- the ledger and the order hold in every state of every run
  have h : Accounted s' := by
    refine (Run.always_of_along (I := Accounted) (P := fun _ _ => True)
      (fun _ l h _ => h.step l) (accounted_start hstart)
      (Run.along_of_forall (fun _ _ _ => trivial) s)).last
  refine ⟨?_, h.flow, fun hgo => ?_, fun hflag more => ?_⟩
  · refine h.ledger.trans ?_
    rw [h.flow]
    simp only [List.append_assoc]
    refine List.Perm.append_left _ (List.Perm.append_left _ (List.Perm.append_left _ ?_))
    rw [← List.append_assoc, ← List.append_assoc]
    exact List.perm_append_comm.append_right _
  -- the channel is open, or was closed for want of senders; nothing is lost then
  · by_cases hgone : s'.processor = .stopped
    · rcases h.told hgone with hflag | ⟨-, -, hdropped, hrefused⟩
      · rw [hgo] at hflag
        cases hflag
      · rw [hdropped, hrefused]
        rfl
    · have hopen : s'.queue.closed = false :=
        eq_false_of_ne_true fun hclosed => hgone (h.closed.mp hclosed)
      obtain ⟨hdropped, hrefused⟩ := h.kept hopen
      rw [hdropped, hrefused]
      rfl
  -- past the flag the processor is committed to one event at most
  · obtain ⟨last, hlast, hle⟩ := committed_exec h hflag more
    exact ⟨last, hlast, hle.trans (committed_le _)⟩

/-! ## What was sent is dispatched -/

/-- The turns until the next dispatch, while there is an event to dispatch. -/
def untilDispatch : ProcessorAt → Nat
  | .top => 3
  | .receiving => 2
  | .dispatching _ => 1
  | .stopped => 0

/-- What the channel has taken keeps its place in the order. -/
theorem sent_step {j : Nat} {event : StacksEvent} (hsent : s.sent[j]? = some event)
    (l : CollectorStep) : (s.step env l).sent[j]? = some event := by
  rcases l with ⟨now, contended⟩ | _ | ⟨i, outside⟩ | ⟨poolId, pool⟩ | poolId | _ | _
  case processor =>
    rw [Collector.step, (stepProcessor_effect s now contended).frame.2.2.2]
    exact hsent
  case source =>
    simp only [Collector.step, stepSource]
    split
    · exact hsent
    · split <;> exact hsent
    · exact hsent
  case task =>
    rw [Collector.step]
    split
    · exact hsent
    rename_i task hi
    have heffect := stepLoop_effect env s i outside task.kind task.point
    generalize s.stepLoop env i outside task.kind task.point = s' at heffect
    generalize task.point = point at heffect
    -- a push adds at the end of what was sent, and nothing else touches it
    rcases heffect with ⟨-⟩ | ⟨-⟩ | ⟨-⟩ | ⟨-⟩ | ⟨-, -⟩ | ⟨-⟩
    case pushes =>
      have hlt : j < s.sent.length := (List.getElem?_eq_some_iff.mp hsent).1
      exact (List.getElem?_append_left hlt).trans hsent
    all_goals exact hsent
  case add =>
    rw [Collector.step]
    split <;> exact hsent
  case remove =>
    rw [Collector.step]
    split <;> exact hsent
  case stop =>
    rw [Collector.step]
    split <;> exact hsent
  case drop => exact hsent

/-- What is sent first is dispatched first. -/
theorem dispatched_of_lt (h : Accounted s) {j : Nat} {event : StacksEvent}
    (hsent : s.sent[j]? = some event) (hlt : j < s.dispatched.length) :
    s.dispatched[j]? = some event := by
  rw [← hsent, h.flow, List.append_assoc, List.append_assoc, List.getElem?_append_left hlt]

/-- With an event to dispatch, every turn of the processor brings the next dispatch nearer. -/
theorem dispatch_nearer (h : Accounted s) (hgo : s.stopFlag = false) {j : Nat}
    (hsent : j < s.sent.length) (hlate : s.dispatched.length ≤ j) {s' : Collector}
    (heffect : ProcessorEffect s s') :
    4 * (j + 1 - s'.dispatched.length) + untilDispatch s'.processor <
      4 * (j + 1 - s.dispatched.length) + untilDispatch s.processor := by
  have hless : s.dispatched.length < s.sent.length := hlate.trans_lt hsent
  -- an empty channel means that all is dispatched
  have hwaiting : s.inHand = [] → s.dropped = [] → s.queue.channel ≠ [] := by
    intro hidle hdropped hempty
    rw [h.flow, hidle, hempty, hdropped, List.append_nil, List.append_nil, List.append_nil] at hless
    exact lt_irrefl _ hless
  have hkept : s.processor ≠ .stopped → s.dropped = [] := fun hgoing =>
    (h.kept (eq_false_of_ne_true fun hclosed => hgoing (h.closed.mp hclosed))).1
  rcases heffect with ⟨-, hstop⟩ | ⟨htop, -⟩ | ⟨hat, -⟩ | ⟨hat, hempty, -⟩ | ⟨hat, hempty, -⟩ |
    ⟨hat⟩ | ⟨hat⟩
  case exits =>
    rw [hgo] at hstop
    cases hstop
  case listens =>
    rw [htop]
    exact Nat.lt_succ_self _
  case takes =>
    rw [hat]
    exact Nat.lt_succ_self _
  case timesOut =>
    exact absurd hempty (hwaiting (by simp [inHand, hat]) (hkept (by simp [hat])))
  case ends =>
    exact absurd hempty (hwaiting (by simp [inHand, hat]) (hkept (by simp [hat])))
  case dispatches =>
    rw [hat, List.length_append, List.length_singleton]
    simp only [untilDispatch]
    omega
  case done =>
    rcases h.told hat with hstop | ⟨-, hempty, hdropped, -⟩
    · rw [hgo] at hstop
      cases hstop
    · exact absurd hempty (hwaiting (by simp [inHand, hat]) hdropped)

/-- What the channel has taken follows, from any state on. -/
theorem dispatch_follows (hfair : Run.Fair CollectorStep.turn sched) {n j : ℕ}
    {event : StacksEvent} (h : Accounted (Run.trace (Collector.step env) sched s n))
    (hsent : (Run.trace (Collector.step env) sched s n).sent[j]? = some event) :
    ∃ m, n ≤ m ∧
      ((Run.trace (Collector.step env) sched s m).dispatched[j]? = some event ∨
        (Run.trace (Collector.step env) sched s m).stopFlag = true) := by
  -- as long as it is not dispatched each turn of the processor brings it nearer
  have hnearer : ∀ (t : Collector) l, (Accounted t ∧ t.sent[j]? = some event) →
      ¬ (t.dispatched[j]? = some event ∨ t.stopFlag = true) → l.turn = some Party.processor →
      4 * (j + 1 - (t.step env l).dispatched.length) + untilDispatch (t.step env l).processor <
        4 * (j + 1 - t.dispatched.length) + untilDispatch t.processor := by
    intro t l ⟨h, hevent⟩ hshort hturn
    obtain ⟨hnot, hflag⟩ := not_or.mp hshort
    have hlate : t.dispatched.length ≤ j :=
      not_lt.mp fun hlt => hnot (dispatched_of_lt h hevent hlt)
    rcases l with ⟨now, contended⟩ | _ | _ | _ | _ | _ | _
    case processor =>
      exact dispatch_nearer h (eq_false_of_ne_true hflag) (List.getElem?_eq_some_iff.mp hevent).1
        hlate (stepProcessor_effect t now contended)
    all_goals cases hturn
  refine hfair.reaches (I := fun t : Collector => Accounted t ∧ t.sent[j]? = some event)
    (P := fun t : Collector => t.dispatched[j]? = some event ∨ t.stopFlag = true)
    (fun t => 4 * (j + 1 - t.dispatched.length) + untilDispatch t.processor)
    (fun _ => Party.processor) (fun _ l h => ⟨h.1.step l, sent_step h.2 l⟩) ?_ hnearer
    ⟨h, hsent⟩
  -- the turns of all others leave the distance as it is
  intro t l h hshort
  by_cases hl : ∃ now contended, l = .processor now contended
  · obtain ⟨now, contended, rfl⟩ := hl
    exact .inl (hnearer t _ h hshort rfl)
  · obtain ⟨hdispatched, hprocessor⟩ : (t.step env l).dispatched = t.dispatched ∧
        (t.step env l).processor = t.processor :=
      step_of_others fun now contended heq => hl ⟨now, contended, heq⟩
    exact .inr ⟨by rw [hdispatched, hprocessor], rfl⟩

/--
**What is sent is dispatched.** On every schedule that gives the tasks their turns, each event
that went into the channel is dispatched in its turn, the `j`-th as the `j`-th, unless
somebody calls `stop`. Everything in front of it is dispatched first, so the distance is
counted in dispatches and in the processor's turns between two of them.
-/
theorem sent_is_dispatched (hstart : Collector.start kind capacity registry = .ok s)
    (hfair : Run.Fair CollectorStep.turn sched) {n j : ℕ} {event : StacksEvent}
    (hsent : (Run.trace (Collector.step env) sched s n).sent[j]? = some event) :
    ∃ m, n ≤ m ∧
      ((Run.trace (Collector.step env) sched s m).dispatched[j]? = some event ∨
        (Run.trace (Collector.step env) sched s m).stopFlag = true) :=
  dispatch_follows hfair (accounted_trace hstart n) hsent

/-! ## Nothing but `stop` ends the tasks -/

/-- A poller whose contract has no text panics before its first turn. -/
def HasAddress (sha256 : Sha256) (task : LoopTask) : Prop :=
  ∀ c, task.kind = .poller c → ∃ text, c.display sha256 = .ok text

/-- No call of `stop`, and no panic in a cycle. -/
def Undisturbed (env : CollectorEnv) (s : Collector) (l : CollectorStep) : Prop :=
  l ≠ .stop ∧ ∀ i outside, l = .task i outside → ∀ task, s.tasks[i]? = some task →
    ∀ cycle, task.point = .requesting cycle →
      ∀ msg, cycle.resume env s.handle.registry outside ≠ .failed (.panic msg)

/-- The flag is not set, and every task that could start is running. -/
structure Running (env : CollectorEnv) (s : Collector) : Prop where
  accounted : Accounted s
  flag : s.stopFlag = false
  tasks : ∀ task ∈ s.tasks, HasAddress env.sha256 task → task.point.isStopped = false

/-- A loop stops when it is told to, or by a panic. -/
theorem tasks_of_effect {i : Nat} {outside : LoopEnv} {kind : LoopKind} {point : LoopAt}
    {s' : Collector} (heffect : LoopEffect env s i outside kind point s')
    (hgo : s.stopFlag = false)
    (hcalm : ∀ cycle, point = .requesting cycle →
      ∀ msg, cycle.resume env s.handle.registry outside ≠ .failed (.panic msg)) :
    s'.tasks = s.tasks ∨
      ∃ point', s'.tasks = (s.setTask i point').tasks ∧ point'.isStopped = false := by
  rcases heffect with ⟨hjump⟩ | ⟨-⟩ | ⟨-⟩ | ⟨-⟩ | ⟨-, -⟩ | ⟨-⟩
  case jumps point' =>
    refine .inr ⟨point', rfl, ?_⟩
    rcases hjump with hstop | _ | _ | hstop | hdies | _ | _ | _ | _
    case stops =>
      rw [hgo] at hstop
      cases hstop
    case wakes =>
      rw [hgo] at hstop
      cases hstop
    case dies => exact absurd hdies (hcalm _ rfl _)
    all_goals rfl
  case waits => exact .inl rfl
  all_goals exact .inr ⟨_, rfl, rfl⟩

/-- A poller of a contract with an address starts at the head of its loop. -/
theorem running_poller {ofSource : Bool} {contract : Principal}
    (haddress : HasAddress env.sha256 (.poller env.sha256 ofSource contract)) :
    (LoopTask.poller env.sha256 ofSource contract).point.isStopped = false := by
  obtain ⟨text, htext⟩ := haddress contract rfl
  simp only [LoopTask.poller, htext]
  rfl

/-- So the loops that the source spawns are running at first. -/
theorem running_sourceTasks : ∀ task ∈ s.sourceTasks env, HasAddress env.sha256 task →
    task.point.isStopped = false := by
  intro task htask haddress
  rw [sourceTasks] at htask
  split at htask
  · obtain ⟨c, -, rfl⟩ := List.mem_map.mp htask
    exact running_poller haddress
  · obtain rfl := List.mem_singleton.mp htask
    rfl

/-- The loops that the handle spawns are running at first, too. -/
theorem running_addedTasks {pool : Pool} : ∀ task ∈ s.addedTasks env pool,
    HasAddress env.sha256 task → task.point.isStopped = false := by
  intro task htask haddress
  rw [addedTasks] at htask
  split at htask
  · obtain ⟨c, -, rfl⟩ := List.mem_map.mp htask
    exact running_poller haddress
  · exact absurd htask List.not_mem_nil

/-- **Every undisturbed step** keeps the loops running. -/
theorem Running.step (h : Running env s) {l : CollectorStep} (hcalm : Undisturbed env s l) :
    Running env (s.step env l) := by
  suffices hnext : (s.step env l).stopFlag = false ∧ ∀ task ∈ (s.step env l).tasks,
      HasAddress env.sha256 task → task.point.isStopped = false from
    ⟨h.accounted.step l, hnext.1, hnext.2⟩
  obtain ⟨hnotStop, hnoPanic⟩ := hcalm
  -- new loops beside those that run
  have hmore : ∀ {more : List LoopTask},
      (∀ task ∈ more, HasAddress env.sha256 task → task.point.isStopped = false) →
      ∀ task ∈ s.tasks ++ more, HasAddress env.sha256 task → task.point.isStopped = false := by
    intro more hnew task htask
    rcases List.mem_append.mp htask with hold | hnew'
    · exact h.tasks task hold
    · exact hnew task hnew'
  rcases l with ⟨now, contended⟩ | _ | ⟨i, outside⟩ | ⟨poolId, pool⟩ | poolId | _ | _
  case processor =>
    obtain ⟨hflag, -, htasks, -⟩ := (stepProcessor_effect s now contended).frame
    rw [Collector.step, htasks]
    exact ⟨hflag.trans h.flag, h.tasks⟩
  case source =>
    simp only [Collector.step, stepSource]
    split
    · exact ⟨h.flag, hmore running_sourceTasks⟩
    · split <;> exact ⟨h.flag, h.tasks⟩
    · exact ⟨h.flag, h.tasks⟩
  case task =>
    rw [Collector.step]
    split
    · exact ⟨h.flag, h.tasks⟩
    rename_i task hi
    have heffect := stepLoop_effect env s i outside task.kind task.point
    refine ⟨heffect.frame.1.trans h.flag, ?_⟩
    rcases tasks_of_effect heffect h.flag (hnoPanic i outside rfl task hi) with
      htasks | ⟨point, htasks, hpoint⟩
    · rw [htasks]
      exact h.tasks
    · obtain ⟨others, hbefore, hafter⟩ := tasks_setTask hi point
      rw [htasks]
      intro task' htask' haddress
      rcases List.mem_cons.mp (hafter.mem_iff.mp htask') with rfl | hother
      · exact hpoint
      · exact h.tasks task' (hbefore.mem_iff.mpr (List.mem_cons_of_mem _ hother)) haddress
  case add =>
    rw [Collector.step]
    split
    · exact ⟨h.flag, hmore running_addedTasks⟩
    · exact ⟨h.flag, h.tasks⟩
  case remove =>
    rw [Collector.step]
    split <;> exact ⟨h.flag, h.tasks⟩
  case stop => exact absurd rfl hnotStop
  case drop => exact ⟨h.flag, h.tasks⟩

/--
**Dropping the handle ends nothing.** As long as nobody calls `stop` and no cycle panics, the
polling loop of every contract that has an address runs on in every run, and with one of them
the processor, whether or not somebody still has the handle. The tasks own their clones of the
registry and of the sender, and the flag is all they look at; the handle's doc comment
promises otherwise.
-/
theorem dropped_collector_runs_on (hstart : Collector.start kind capacity registry = .ok s)
    {steps : List CollectorStep}
    (hrun : Run.Along (Collector.step env) (Undisturbed env) s steps) :
    Run.Always (Collector.step env)
      (fun s => ∀ task ∈ s.tasks, HasAddress env.sha256 task →
        task.point ≠ .stopped ∧ s.processor ≠ .stopped) s steps := by
  have hbegin : Running env s := by
    refine ⟨accounted_start hstart, ?_, ?_⟩
    all_goals
      obtain ⟨queue, -, hs⟩ := bind_eq_ok.mp hstart
      obtain rfl := Except.ok.inj hs
    · rfl
    · exact fun task htask => absurd htask List.not_mem_nil
  refine (Run.always_of_along (fun _ l h hl => h.step hl) hbegin hrun).mono ?_
  intro t h task htask haddress
  have hrunning := h.tasks task htask haddress
  refine ⟨fun hstopped => ?_, fun hgone => ?_⟩
  · rw [hstopped] at hrunning
    cases hrunning
  · have hflag := h.accounted.stopFlag_of_running htask hrunning hgone
    rw [h.flag] at hflag
    cases hflag

end Lifecycle

/-! ## One poller -/

def pollingEnv : CollectorEnv where
  sha256 := burnSha256
  config := sevenPages
  walking := smallPages

/-- A page with one event, again and again. -/
def pingOutside : LoopEnv where
  isDue := true
  fetchPage := fun _ _ _ => .ok [⟨"0x01", some ping⟩]
  tick := servingTick fun _ => []
  iter := []

def coldCollector : Collector where
  handle := .start true coldRegistry
  held := true
  stopFlag := false
  queue := coldQueue
  processor := .top
  sourceKind := .perContract
  source := .starting
  tasks := []
  accepted := []
  sent := []
  dispatched := []
  dropped := []
  refused := []

/-- Some steps, and then everyone in turn. -/
def inTurn (first : List CollectorStep) (n : ℕ) : CollectorStep :=
  match first[n]? with
  | some l => l
  | none =>
    match (Nat.unpair n).1 with
    | 0 => .processor (fun _ => 0) fun _ => false
    | 1 => .source
    | i + 2 => .task i pingOutside

/-- After its first steps the schedule gives everybody a turn again and again. -/
theorem fair_inTurn (first : List CollectorStep) :
    Run.Fair CollectorStep.turn (inTurn first) := by
  -- everyone has a code that comes up again and again
  have hcode : ∀ code n, ∃ m, n ≤ m ∧ first[m]? = none ∧ (Nat.unpair m).1 = code := by
    intro code n
    have hle : n + first.length ≤ Nat.pair code (n + first.length) := Nat.right_le_pair _ _
    exact ⟨_, (Nat.le_add_right _ _).trans hle,
      List.getElem?_eq_none ((Nat.le_add_left _ _).trans hle), by rw [Nat.unpair_pair]⟩
  intro k n
  rcases k with _ | _ | i
  · obtain ⟨m, hle, hnone, hm⟩ := hcode 0 n
    exact ⟨m, hle, by simp only [inTurn, hnone, hm]; rfl⟩
  · obtain ⟨m, hle, hnone, hm⟩ := hcode 1 n
    exact ⟨m, hle, by simp only [inTurn, hnone, hm]; rfl⟩
  · obtain ⟨m, hle, hnone, hm⟩ := hcode (i + 2) n
    exact ⟨m, hle, by simp only [inTurn, hnone, hm]; rfl⟩

/-- A collector with one contract to poll. -/
theorem start_coldCollector :
    Collector.start .perContract 64 coldRegistry = .ok coldCollector := rfl

/-- The poller has an event in hand when `stop` is called, and the processor leaves first. -/
def lateSend : List CollectorStep :=
  [.source, .task 0 pingOutside, .task 0 pingOutside, .task 0 pingOutside, .task 0 pingOutside,
    .stop, .processor (fun _ => 0) fun _ => false, .task 0 pingOutside]

/-- A `stop` with an event in front of the channel. -/
theorem stop_returns_lateSend :
    ∃ n, ∀ m, n ≤ m →
      (Run.trace (Collector.step pollingEnv) (inTurn lateSend) coldCollector m).Finished :=
  stop_returns start_coldCollector (fair_inTurn lateSend) (show inTurn lateSend 5 = .stop from rfl)
    fun j hj => by
      interval_cases j <;> exact fun h => by cases h

/-- The event was accepted, and is lost. -/
theorem stop_account_lateSend :
    let s' := Run.exec (Collector.step pollingEnv) coldCollector lateSend
    s'.accepted.Perm
      (s'.dispatched ++ s'.inHand ++ s'.queue.channel ++ s'.inFlight ++
        (s'.dropped ++ s'.refused)) ∧
    s'.sent = s'.dispatched ++ s'.inHand ++ s'.queue.channel ++ s'.dropped ∧
    (s'.stopFlag = false → s'.dropped ++ s'.refused = []) ∧
    (s'.stopFlag = true → ∀ more, ∃ last : List StacksEvent,
      (Run.exec (Collector.step pollingEnv) s' more).dispatched = s'.dispatched ++ last ∧
        last.length ≤ 1) :=
  stop_account start_coldCollector lateSend

example : (Run.exec (Collector.step pollingEnv) coldCollector lateSend).refused = [ping] := rfl

/-- The same poller, left to itself. -/
def sentInTime : List CollectorStep :=
  [.source, .task 0 pingOutside, .task 0 pingOutside, .task 0 pingOutside, .task 0 pingOutside,
    .task 0 pingOutside]

/-- The event was sent in time. -/
theorem sent_is_dispatched_ping :
    ∃ m, 6 ≤ m ∧
      ((Run.trace (Collector.step pollingEnv) (inTurn sentInTime) coldCollector m).dispatched[0]? =
          some ping ∨
        (Run.trace (Collector.step pollingEnv) (inTurn sentInTime) coldCollector m).stopFlag =
          true) :=
  sent_is_dispatched start_coldCollector (fair_inTurn _) rfl

/-- A turn of a loop whose cycle does not panic. -/
theorem undisturbed_task {i : Nat} {outside : LoopEnv} {task : LoopTask}
    (hi : s.tasks[i]? = some task)
    (hcalm : ∀ cycle, task.point = .requesting cycle →
      ∀ msg, cycle.resume env s.handle.registry outside ≠ .failed (.panic msg)) :
    Undisturbed env s (.task i outside) := by
  refine ⟨by simp, fun j outside' hstep task' hi' => ?_⟩
  obtain ⟨rfl, rfl⟩ := CollectorStep.task.inj hstep
  obtain rfl := Option.some.inj (hi.symm.trans hi')
  exact hcalm

/-- The handle is dropped first of all. -/
theorem dropped_collector_runs_on_ping :
    Run.Always (Collector.step pollingEnv)
      (fun s => ∀ task ∈ s.tasks, HasAddress burnSha256 task →
        task.point ≠ .stopped ∧ s.processor ≠ .stopped)
      coldCollector
      [.drop, .source, .task 0 pingOutside, .task 0 pingOutside, .task 0 pingOutside] := by
  refine dropped_collector_runs_on start_coldCollector
    ⟨⟨by simp, by simp⟩, ⟨by simp, by simp⟩, undisturbed_task rfl ?_, undisturbed_task rfl ?_,
      undisturbed_task rfl ?_, trivial⟩
  · intro cycle hpoint
    cases hpoint
  · intro cycle hpoint
    cases hpoint
  · intro cycle hpoint msg hpanic
    cases hpoint
    cases hpanic

end StacksDex.Results
