import Mathlib.Data.List.Perm.Basic
import StacksDex.Lib.Fairness
import StacksDex.Model.Collector

/-!
# StacksDex — what a collector's tasks can do

One inversion lemma for the loops (`stepLoop_effect`) and one for the processor
(`stepProcessor_effect`); everything that is later said about a step is read off their cases,
and the step function is not unfolded again.

From them comes the account of every event that passed the dedup set (`Accounted`): it is
waiting to be sent, was refused by a closed channel, or was sent; and what was sent has been
dispatched, is in the processor's hand or in the channel, or was dropped when the processor
left. Each part of the account is a list, in the order in which things happened, so that it
says what becomes of repeated events, too.

`Accounted.step` is the step lemma; the runs are in the results.
-/

namespace StacksDex.Bridge

open StacksDex.Lib StacksDex.Model

namespace Collector

open StacksDex.Model.Collector

variable {env : CollectorEnv} {s : Collector}

/-! ## What a step can do -/

/-- How a loop goes from one point to another when it changes nothing else. -/
inductive Jump (env : CollectorEnv) (s : Collector) (outside : LoopEnv) (kind : LoopKind) :
    LoopAt → LoopAt → Prop
  | stops (hstop : s.stopFlag = true) : Jump env s outside kind .top .stopped
  | sleeps (hgo : s.stopFlag = false) : Jump env s outside kind .top .sleeping
  | begins : Jump env s outside kind .sleeping (.requesting (kind.begin s.handle.registry))
  | wakes (hstop : s.stopFlag = true) : Jump env s outside kind .sleeping .stopped
  | dies {cycle msg} (h : cycle.resume env s.handle.registry outside = .failed (.panic msg)) :
    Jump env s outside kind (.requesting cycle) .stopped
  | fails {cycle msg} (h : cycle.resume env s.handle.registry outside = .failed (.err msg)) :
    Jump env s outside kind (.requesting cycle) .top
  | offers {cycle cycle' events}
    (h : cycle.resume env s.handle.registry outside = .offers events cycle') :
    Jump env s outside kind (.requesting cycle) (.sending events cycle')
  | sent {cycle} : Jump env s outside kind (.sending [] cycle) (.requesting cycle)
  | skips {event rest cycle} (hseen : event.key ∈ s.queue.seen) :
    Jump env s outside kind (.sending (event :: rest) cycle) (.sending rest cycle)

/-- Why a loop stays where it is. -/
inductive Waits (s : Collector) : LoopAt → Prop
  | done : Waits s .stopped
  | sleeping (hgo : s.stopFlag = false) : Waits s .sleeping
  | full {event rest cycle} (hopen : s.queue.closed = false) (hfull : s.hasRoom = false) :
    Waits s (.pushing event rest cycle)

/-- The state after a loop's step, guards included. -/
inductive LoopEffect (env : CollectorEnv) (s : Collector) (i : Nat) (outside : LoopEnv)
    (kind : LoopKind) : LoopAt → Collector → Prop
  | jumps {point point'} (h : Jump env s outside kind point point') :
    LoopEffect env s i outside kind point (s.setTask i point')
  | commits {cycle registry} (h : cycle.resume env s.handle.registry outside = .done registry) :
    LoopEffect env s i outside kind (.requesting cycle)
      { s.setTask i .top with handle := { s.handle with registry } }
  | accepts {event rest cycle} (hnew : event.key ∉ s.queue.seen) :
    LoopEffect env s i outside kind (.sending (event :: rest) cycle)
      { s.setTask i (.pushing event rest cycle) with
        queue := { s.queue with seen := insert event.key (s.queue.retained outside.iter) }
        accepted := s.accepted ++ [event] }
  | refuses {event rest cycle} (hclosed : s.queue.closed = true) :
    LoopEffect env s i outside kind (.pushing event rest cycle)
      { s.setTask i (.sending rest cycle) with refused := s.refused ++ [event] }
  | pushes {event rest cycle} (hopen : s.queue.closed = false) (hroom : s.hasRoom = true) :
    LoopEffect env s i outside kind (.pushing event rest cycle)
      { s.setTask i (.sending rest cycle) with
        queue := { s.queue with channel := s.queue.channel ++ [event] }
        sent := s.sent ++ [event] }
  | waits {point} (h : Waits s point) : LoopEffect env s i outside kind point s

/-- **Inversion**, for a polling or ticking loop. Every case says what led to it, so that what
follows can be read off the case. -/
theorem stepLoop_effect (env : CollectorEnv) (s : Collector) (i : Nat) (outside : LoopEnv)
    (kind : LoopKind) (point : LoopAt) :
    LoopEffect env s i outside kind point (s.stepLoop env i outside kind point) := by
  rcases point with _ | _ | cycle | ⟨_ | ⟨event, rest⟩, cycle⟩ | ⟨event, rest, cycle⟩ | _
  -- the flag is read at the top of the loop, and again after the wait
  case top =>
    rcases hflag : s.stopFlag with _ | _
    · rw [stepLoop, hflag]
      exact .jumps (.sleeps hflag)
    · rw [stepLoop, hflag]
      exact .jumps (.stops hflag)
  case sleeping =>
    by_cases hdue : outside.isDue = true
    · rw [stepLoop, if_pos hdue]
      exact .jumps .begins
    rw [stepLoop, if_neg hdue]
    by_cases hflag : s.stopFlag = true
    · rw [if_pos hflag]
      exact .jumps (.wakes hflag)
    · rw [if_neg hflag]
      exact .waits (.sleeping (eq_false_of_ne_true hflag))
  -- a request ends the loop, fails the cycle, offers its events, or is the last of it
  case requesting =>
    rw [stepLoop]
    split
    · rename_i hresume
      exact .jumps (.dies hresume)
    · rename_i hresume
      exact .jumps (.fails hresume)
    · rename_i hresume
      exact .jumps (.offers hresume)
    · rename_i hresume
      exact .commits hresume
  case sending.nil => exact .jumps .sent
  -- the check of `send_dedup`: a key that is known is skipped, a new one is remembered
  case sending.cons =>
    by_cases hseen : event.key ∈ s.queue.seen
    · have hcheck : s.queue.checkInsert outside.iter event = (s.queue, false) := if_pos hseen
      simp only [stepLoop, hcheck, Bool.false_eq_true, if_false]
      exact .jumps (.skips hseen)
    · have hcheck : s.queue.checkInsert outside.iter event =
          ({ s.queue with seen := insert event.key (s.queue.retained outside.iter) }, true) :=
        if_neg hseen
      simp only [stepLoop, hcheck, if_true]
      exact .accepts hseen
  -- the push: refused by a closed channel, and put off by a full one
  case pushing =>
    by_cases hclosed : s.queue.closed = true
    · rw [stepLoop, if_pos hclosed]
      exact .refuses hclosed
    have hopen : s.queue.closed = false := eq_false_of_ne_true hclosed
    rw [stepLoop, if_neg hclosed]
    by_cases hroom : s.hasRoom = true
    · have hpush : (s.queue.push event).1 =
          { s.queue with channel := s.queue.channel ++ [event] } := by
        rw [EventQueue.push, if_neg hclosed]
      rw [if_pos hroom, hpush]
      exact .pushes hopen hroom
    · rw [if_neg hroom]
      exact .waits (.full hopen (eq_false_of_ne_true hroom))
  case stopped => exact .waits .done

/-- The state after a turn of the processor. -/
inductive ProcessorEffect (s : Collector) : Collector → Prop
  | exits (htop : s.processor = .top) (hstop : s.stopFlag = true) :
    ProcessorEffect s s.processorExit
  | listens (htop : s.processor = .top) (hgo : s.stopFlag = false) :
    ProcessorEffect s { s with processor := .receiving }
  | takes {event channel} (hat : s.processor = .receiving)
    (hchannel : s.queue.channel = event :: channel) :
    ProcessorEffect s
      { s with queue := { s.queue with channel }, processor := .dispatching event }
  | timesOut (hat : s.processor = .receiving) (hempty : s.queue.channel = [])
    (hsender : s.hasSender = true) : ProcessorEffect s { s with processor := .top }
  | ends (hat : s.processor = .receiving) (hempty : s.queue.channel = [])
    (hnone : s.hasSender = false) : ProcessorEffect s s.processorExit
  | dispatches {event registry} (hat : s.processor = .dispatching event) :
    ProcessorEffect s
      { s with
        handle := { s.handle with registry }
        processor := .top
        dispatched := s.dispatched ++ [event] }
  | done (hat : s.processor = .stopped) : ProcessorEffect s s

/-- **Inversion**, for the processor. -/
theorem stepProcessor_effect (s : Collector) (now : String → Nat) (contended : String → Bool) :
    ProcessorEffect s (s.stepProcessor now contended) := by
  unfold stepProcessor
  split
  · rename_i htop
    by_cases hflag : s.stopFlag = true
    · rw [if_pos hflag]
      exact .exits htop hflag
    · rw [if_neg hflag]
      exact .listens htop (eq_false_of_ne_true hflag)
  · rename_i hat
    rcases hchannel : s.queue.channel with _ | ⟨event, channel⟩
    · have hrecv : s.queue.recv = none := by rw [EventQueue.recv, hchannel]
      rw [hrecv]
      by_cases hsender : s.hasSender = true
      · dsimp only
        rw [if_pos hsender]
        exact .timesOut hat hchannel hsender
      · dsimp only
        rw [if_neg hsender]
        exact .ends hat hchannel (eq_false_of_ne_true hsender)
    · have hrecv : s.queue.recv = some (event, { s.queue with channel }) := by
        rw [EventQueue.recv, hchannel]
      rw [hrecv]
      exact .takes hat hchannel
  · rename_i hat
    exact .dispatches hat
  · rename_i hat
    exact .done hat

/-- What a loop leaves to the others. -/
theorem LoopEffect.frame {i : Nat} {outside : LoopEnv} {kind : LoopKind} {point : LoopAt}
    {s' : Collector} (h : LoopEffect env s i outside kind point s') :
    s'.stopFlag = s.stopFlag ∧ s'.held = s.held ∧ s'.processor = s.processor ∧
      s'.dispatched = s.dispatched := by
  induction h <;> exact ⟨rfl, rfl, rfl, rfl⟩

/-- What the processor leaves to the others. -/
theorem ProcessorEffect.frame {s' : Collector} (h : ProcessorEffect s s') :
    s'.stopFlag = s.stopFlag ∧ s'.held = s.held ∧ s'.tasks = s.tasks ∧ s'.sent = s.sent := by
  induction h <;> exact ⟨rfl, rfl, rfl, rfl⟩

/-! ## Moving one loop -/

/-- Moving one loop leaves the others where they are. The tasks are compared up to their order,
as sums over them are. -/
theorem tasks_setTask {i : Nat} {task : LoopTask} (hi : s.tasks[i]? = some task)
    (point : LoopAt) : ∃ others, s.tasks.Perm (task :: others) ∧
      (s.setTask i point).tasks.Perm ({ task with point } :: others) := by
  obtain ⟨hlt, rfl⟩ := List.getElem?_eq_some_iff.mp hi
  have hset : (s.setTask i point).tasks = s.tasks.set i { s.tasks[i] with point } := by
    refine List.ext_getElem? fun j => ?_
    rw [setTask, List.getElem?_modify, List.getElem?_set]
    by_cases hj : i = j
    · subst hj
      simp [hlt]
    · simp [hj]
  rw [hset]
  exact ⟨s.tasks.eraseIdx i, (List.getElem_cons_eraseIdx_perm hlt).symm,
    List.set_perm_cons_eraseIdx hlt _⟩

/-- So the events in flight change by what the one loop holds. -/
theorem inFlight_setTask {i : Nat} {task : LoopTask} (hi : s.tasks[i]? = some task)
    (point : LoopAt) :
    (task.point.awaiting ++ (s.setTask i point).inFlight).Perm
      (point.awaiting ++ s.inFlight) := by
  obtain ⟨others, hbefore, hafter⟩ := tasks_setTask hi point
  have hbefore' : s.inFlight.Perm (task.point.awaiting ++ others.flatMap (·.point.awaiting)) :=
    hbefore.flatMap_right _
  have hafter' : (s.setTask i point).inFlight.Perm
      (point.awaiting ++ others.flatMap (·.point.awaiting)) := hafter.flatMap_right _
  refine (hafter'.append_left _).trans (.trans ?_ (hbefore'.append_left _).symm)
  rw [← List.append_assoc, ← List.append_assoc]
  exact List.perm_append_comm.append_right _

/-- A loop that only jumps holds no event before or after. -/
theorem Jump.awaiting {outside : LoopEnv} {kind : LoopKind} {point point' : LoopAt}
    (h : Jump env s outside kind point point') : point.awaiting = [] ∧ point'.awaiting = [] := by
  induction h <;> exact ⟨rfl, rfl⟩

/-- No sender is left when the caller has parted with the handle and the source and all loops
have ended. -/
theorem hasSender_eq_false : s.hasSender = false ↔
    s.held = false ∧ s.source = .returned ∧ ∀ task ∈ s.tasks, task.point.isStopped = true := by
  simp [hasSender, and_assoc]

/-! ## Where every event is -/

/-- Nothing waits, and nothing was lost. -/
def Drained (s : Collector) : Prop := s.queue.channel = [] ∧ s.dropped = [] ∧ s.refused = []

/-- What passed the dedup set went into the channel, waits to, or was sent back; the channel
is first in, first out; and nothing is lost before the processor is gone. -/
structure Accounted (s : Collector) : Prop where
  flow : s.sent = s.dispatched ++ s.inHand ++ s.queue.channel ++ s.dropped
  ledger : s.accepted.Perm (s.sent ++ s.inFlight ++ s.refused)
  closed : s.queue.closed = true ↔ s.processor = .stopped
  kept : s.queue.closed = false → s.dropped = [] ∧ s.refused = []
  /-- The processor goes when it is told to, or when there is nobody left to send. -/
  told : s.processor = .stopped →
    s.stopFlag = true ∨ (s.hasSender = false ∧ Drained s)
  /-- `stop` takes the handle. -/
  taken : s.stopFlag = true → s.held = false

/-- At the start there is nothing to account for. -/
theorem accounted_start {kind : SourceKind} {capacity : Nat} {registry : PoolRegistry}
    (hstart : Collector.start kind capacity registry = .ok s) : Accounted s := by
  obtain ⟨queue, hqueue, hs⟩ := bind_eq_ok.mp hstart
  obtain ⟨hchannel, hclosed, -⟩ := EventQueue.build_eq_ok hqueue
  obtain rfl := Except.ok.inj hs
  refine ⟨?_, .refl _, ?_, fun _ => ⟨rfl, rfl⟩, fun h => by simp at h, fun h => by simp at h⟩
  · simp [inHand, hchannel]
  · simp [hclosed]

/-- When the processor leaves it drops what is still in the channel. It leaves because it was
told to, or because no sender is left and the channel is empty. -/
theorem Accounted.exit (h : Accounted s) (hidle : s.inHand = [])
    (htold : s.stopFlag = true ∨ (s.hasSender = false ∧ s.queue.channel = []))
    (hgoing : s.processor ≠ .stopped) : Accounted s.processorExit := by
  have hopen : s.queue.closed = false :=
    eq_false_of_ne_true fun hclosed => hgoing (h.closed.mp hclosed)
  obtain ⟨hdropped, hrefused⟩ := h.kept hopen
  refine ⟨?_, h.ledger, ⟨fun _ => rfl, fun _ => rfl⟩, fun hcl => by simp [processorExit] at hcl,
    fun _ => ?_, h.taken⟩
  · have hflow := h.flow
    rw [hidle, hdropped] at hflow
    simp [processorExit, inHand, hflow, hdropped]
  · rcases htold with hstop | ⟨hnone, hempty⟩
    · exact .inl hstop
    · exact .inr ⟨hnone, rfl, by simp [processorExit, hdropped, hempty], hrefused⟩

/-- A step of the processor keeps the account: an event moves from the channel into its hand,
and from there to those dispatched. -/
theorem Accounted.processor (h : Accounted s) {s' : Collector} (heffect : ProcessorEffect s s') :
    Accounted s' := by
  obtain ⟨flow, ledger, closed, kept, told, taken⟩ := h
  rcases heffect with ⟨htop, hstop⟩ | ⟨htop, -⟩ | ⟨hat, hchannel⟩ | ⟨hat, hempty, -⟩ |
    ⟨hat, hempty, hnone⟩ | ⟨hat⟩ | ⟨hat⟩
  case exits =>
    exact Accounted.exit ⟨flow, ledger, closed, kept, told, taken⟩ (by simp [inHand, htop])
      (.inl hstop) (by simp [htop])
  case ends =>
    exact Accounted.exit ⟨flow, ledger, closed, kept, told, taken⟩ (by simp [inHand, hat])
      (.inr ⟨hnone, hempty⟩) (by simp [hat])
  case listens =>
    have hopen : s.queue.closed ≠ true := fun hc => by simp [closed.mp hc] at htop
    exact ⟨by simpa [inHand, htop] using flow, ledger, by simp [hopen], kept, by simp, taken⟩
  case takes =>
    have hopen : s.queue.closed ≠ true := fun hc => by simp [closed.mp hc] at hat
    exact ⟨by simpa [inHand, hat, hchannel] using flow, ledger, by simp [hopen], kept, by simp,
      taken⟩
  case timesOut =>
    have hopen : s.queue.closed ≠ true := fun hc => by simp [closed.mp hc] at hat
    exact ⟨by simpa [inHand, hat] using flow, ledger, by simp [hopen], kept, by simp, taken⟩
  case dispatches =>
    have hopen : s.queue.closed ≠ true := fun hc => by simp [closed.mp hc] at hat
    exact ⟨by simpa [inHand, hat] using flow, ledger, by simp [hopen], kept, by simp, taken⟩
  case done => exact ⟨flow, ledger, closed, kept, told, taken⟩

/-- A loop that still runs keeps the processor from leaving of itself. -/
theorem Accounted.stopFlag_of_running (h : Accounted s) {task : LoopTask} (htask : task ∈ s.tasks)
    (hrunning : task.point.isStopped = false) (hgone : s.processor = .stopped) :
    s.stopFlag = true := by
  rcases h.told hgone with hstop | ⟨hnone, -⟩
  · exact hstop
  · have hstopped := (hasSender_eq_false.mp hnone).2.2 task htask
    exact absurd hstopped (by rw [hrunning]; exact Bool.false_ne_true)

/-- A step of a loop keeps the account: an event is accepted, sent or refused. -/
theorem Accounted.loop (h : Accounted s) {i : Nat} {task : LoopTask} {outside : LoopEnv}
    (hi : s.tasks[i]? = some task) {s' : Collector}
    (heffect : LoopEffect env s i outside task.kind task.point s') : Accounted s' := by
  have hmem : task ∈ s.tasks := List.mem_of_getElem? hi
  -- a loop that makes a step has not stopped
  have htold : task.point.isStopped = false → s.processor = .stopped → s.stopFlag = true :=
    h.stopFlag_of_running hmem
  have hmoved := inFlight_setTask hi
  generalize hpoint : task.point = point at heffect
  rw [hpoint] at htold hmoved
  rcases heffect with ⟨hjump⟩ | ⟨-⟩ | ⟨hnew⟩ | ⟨hclosed⟩ | ⟨hopen, -⟩ | ⟨-⟩
  case jumps point' =>
    obtain ⟨hbefore, hafter⟩ := hjump.awaiting
    have hsame := hmoved point'
    rw [hbefore, hafter, List.nil_append, List.nil_append] at hsame
    have hrunning : point.isStopped = false := by
      rcases hjump <;> rfl
    exact ⟨h.flow, h.ledger.trans ((hsame.symm.append_left _).append_right _), h.closed, h.kept,
      fun hgone => .inl (htold hrunning hgone), h.taken⟩
  case commits =>
    have hsame : (s.setTask i .top).inFlight.Perm s.inFlight := hmoved .top
    exact ⟨h.flow, h.ledger.trans ((hsame.symm.append_left _).append_right _), h.closed, h.kept,
      fun hgone => .inl (htold rfl hgone), h.taken⟩
  case accepts event rest cycle =>
    have hmore : (s.setTask i (.pushing event rest cycle)).inFlight.Perm (event :: s.inFlight) :=
      hmoved _
    refine ⟨h.flow, ?_, h.closed, h.kept, fun hgone => .inl (htold rfl hgone), h.taken⟩
    show (s.accepted ++ [event]).Perm
      (s.sent ++ (s.setTask i (.pushing event rest cycle)).inFlight ++ s.refused)
    refine (h.ledger.append_right [event]).trans ?_
    refine .trans ?_ ((hmore.symm.append_left s.sent).append_right s.refused)
    rw [List.append_assoc, List.append_assoc, List.append_assoc]
    refine List.Perm.append_left _ ?_
    rw [← List.append_assoc]
    exact List.perm_append_singleton _ _
  case refuses event rest cycle =>
    have hless : (event :: (s.setTask i (.sending rest cycle)).inFlight).Perm s.inFlight :=
      hmoved _
    refine ⟨h.flow, ?_, h.closed, fun hopen => absurd hclosed (ne_true_of_eq_false hopen),
      fun hgone => .inl (htold rfl hgone), h.taken⟩
    show s.accepted.Perm
      (s.sent ++ (s.setTask i (.sending rest cycle)).inFlight ++ (s.refused ++ [event]))
    refine h.ledger.trans ?_
    refine ((hless.symm.append_left s.sent).append_right s.refused).trans ?_
    rw [List.append_assoc, List.append_assoc]
    refine List.Perm.append_left _ ?_
    rw [← List.append_assoc]
    exact (List.perm_append_singleton _ _).symm
  case pushes event rest cycle =>
    have hless : (event :: (s.setTask i (.sending rest cycle)).inFlight).Perm s.inFlight :=
      hmoved _
    obtain ⟨hdropped, -⟩ := h.kept hopen
    refine ⟨?_, ?_, h.closed, h.kept, fun hgone => .inl (htold rfl hgone), h.taken⟩
    · show s.sent ++ [event] =
        s.dispatched ++ s.inHand ++ (s.queue.channel ++ [event]) ++ s.dropped
      rw [h.flow, hdropped]
      simp
    · show s.accepted.Perm
        (s.sent ++ [event] ++ (s.setTask i (.sending rest cycle)).inFlight ++ s.refused)
      rw [List.append_assoc s.sent]
      exact h.ledger.trans ((hless.symm.append_left s.sent).append_right s.refused)
  case waits => exact h

/-- New loops have sent nothing. -/
theorem awaiting_poller (sha256 : Sha256) (ofSource : Bool) (contract : Principal) :
    (LoopTask.poller sha256 ofSource contract).point.awaiting = [] := by
  unfold LoopTask.poller
  dsimp only
  split <;> rfl

/-- Loops that are added bring no event with them. -/
theorem inFlight_append {tasks : List LoopTask} (hnew : ∀ task ∈ tasks, task.point.awaiting = []) :
    inFlight { s with tasks := s.tasks ++ tasks } = s.inFlight := by
  have hnone : tasks.flatMap (·.point.awaiting) = [] := List.flatMap_eq_nil_iff.mpr hnew
  rw [inFlight, List.flatMap_append, hnone, List.append_nil]
  rfl

/-- The source's loops start with nothing to send. -/
theorem awaiting_sourceTasks : ∀ task ∈ s.sourceTasks env, task.point.awaiting = [] := by
  intro task htask
  rw [sourceTasks] at htask
  split at htask
  · obtain ⟨c, -, rfl⟩ := List.mem_map.mp htask
    exact awaiting_poller _ _ _
  · obtain rfl := List.mem_singleton.mp htask
    rfl

/-- The handle's loops start with nothing to send. -/
theorem awaiting_addedTasks {pool : Pool} :
    ∀ task ∈ s.addedTasks env pool, task.point.awaiting = [] := by
  intro task htask
  rw [addedTasks] at htask
  split at htask
  · obtain ⟨c, -, rfl⟩ := List.mem_map.mp htask
    exact awaiting_poller _ _ _
  · exact absurd htask List.not_mem_nil

/-- The source and the caller send nothing. While the processor has left of itself, there is
no source and no caller to make a step. -/
theorem Accounted.of_idle (h : Accounted s) {s' : Collector}
    (hghost : s'.accepted = s.accepted ∧ s'.sent = s.sent ∧ s'.dispatched = s.dispatched ∧
      s'.dropped = s.dropped ∧ s'.refused = s.refused)
    (hqueue : s'.queue = s.queue) (hprocessor : s'.processor = s.processor)
    (hflight : s'.inFlight = s.inFlight)
    (hflag : s.stopFlag = true → s'.stopFlag = true) (htaken : s'.stopFlag = true → s'.held = false)
    (hnone : s.hasSender = false → s'.hasSender = false) : Accounted s' := by
  obtain ⟨haccepted, hsent, hdispatched, hdropped, hrefused⟩ := hghost
  have hhand : s'.inHand = s.inHand := by rw [inHand, hprocessor, inHand]
  refine ⟨?_, ?_, ?_, ?_, ?_, htaken⟩
  · rw [hsent, hdispatched, hhand, hqueue, hdropped]
    exact h.flow
  · rw [haccepted, hsent, hflight, hrefused]
    exact h.ledger
  · rw [hqueue, hprocessor]
    exact h.closed
  · rw [hqueue, hdropped, hrefused]
    exact h.kept
  · rw [hprocessor, Drained, hqueue, hdropped, hrefused]
    exact fun hgone => (h.told hgone).imp hflag fun hlost => ⟨hnone hlost.1, hlost.2⟩

/-- The source's own step starts loops and nothing else. -/
theorem Accounted.source (h : Accounted s) : Accounted (s.stepSource env) := by
  unfold stepSource
  split
  · rename_i hstarting
    refine h.of_idle ⟨rfl, rfl, rfl, rfl, rfl⟩ rfl rfl (inFlight_append awaiting_sourceTasks) id
      h.taken fun hnone => ?_
    simp [hasSender_eq_false.mp hnone] at hstarting
  · split
    · exact h.of_idle ⟨rfl, rfl, rfl, rfl, rfl⟩ rfl rfl rfl id h.taken fun hnone =>
        hasSender_eq_false.mpr ⟨(hasSender_eq_false.mp hnone).1, rfl,
          (hasSender_eq_false.mp hnone).2.2⟩
    · exact h
  · exact h

/-- **Every step keeps the account.** -/
theorem Accounted.step (h : Accounted s) (l : CollectorStep) : Accounted (s.step env l) := by
  rcases l with ⟨now, contended⟩ | _ | ⟨i, outside⟩ | ⟨poolId, pool⟩ | poolId | _ | _
  case processor => exact h.processor (stepProcessor_effect s now contended)
  case source => exact h.source
  case task =>
    rw [Collector.step]
    split
    · exact h
    · rename_i task hi
      exact h.loop hi (stepLoop_effect env s i outside task.kind task.point)
  case add =>
    rw [Collector.step]
    split
    · rename_i hheld
      refine h.of_idle ⟨rfl, rfl, rfl, rfl, rfl⟩ rfl rfl (inFlight_append awaiting_addedTasks) id
        h.taken fun hnone => ?_
      rw [(hasSender_eq_false.mp hnone).1] at hheld
      exact absurd hheld Bool.false_ne_true
    · exact h
  case remove =>
    rw [Collector.step]
    split
    · exact h.of_idle ⟨rfl, rfl, rfl, rfl, rfl⟩ rfl rfl rfl id h.taken id
    · exact h
  case stop =>
    rw [Collector.step]
    split
    · refine h.of_idle ⟨rfl, rfl, rfl, rfl, rfl⟩ rfl rfl rfl (fun _ => rfl) (fun _ => rfl) ?_
      exact fun hnone => hasSender_eq_false.mpr ⟨rfl, (hasSender_eq_false.mp hnone).2⟩
    · exact h
  case drop =>
    exact h.of_idle ⟨rfl, rfl, rfl, rfl, rfl⟩ rfl rfl rfl id (fun _ => rfl) fun hnone =>
      hasSender_eq_false.mpr ⟨rfl, (hasSender_eq_false.mp hnone).2⟩

/-- Whoever starts a collector has its handle. -/
theorem held_start {kind : SourceKind} {capacity : Nat} {registry : PoolRegistry}
    (hstart : Collector.start kind capacity registry = .ok s) : s.held = true := by
  obtain ⟨queue, -, hs⟩ := bind_eq_ok.mp hstart
  obtain rfl := Except.ok.inj hs
  rfl

/-- The caller parts with the handle by `stop` and by dropping it. -/
theorem held_step (hheld : s.held = true) {l : CollectorStep} (hkept : l ≠ .drop) :
    (s.step env l).held = true ∨ (s.step env l).stopFlag = true := by
  rcases l with ⟨now, contended⟩ | _ | ⟨i, outside⟩ | ⟨poolId, pool⟩ | poolId | _ | _
  case processor => exact .inl ((stepProcessor_effect s now contended).frame.2.1.trans hheld)
  case source =>
    simp only [Collector.step, stepSource]
    split
    · exact .inl hheld
    · split <;> exact .inl hheld
    · exact .inl hheld
  case task =>
    rw [Collector.step]
    split
    · exact .inl hheld
    · rename_i task hi
      exact .inl ((stepLoop_effect env s i outside task.kind task.point).frame.2.1.trans hheld)
  case add =>
    rw [Collector.step, if_pos hheld]
    exact .inl hheld
  case remove =>
    rw [Collector.step, if_pos hheld]
    exact .inl hheld
  case stop =>
    rw [Collector.step, if_pos hheld]
    exact .inr rfl
  case drop => exact absurd rfl hkept

/-- Only the processor moves itself and dispatches. -/
theorem step_of_others {l : CollectorStep} (hl : ∀ now contended, l ≠ .processor now contended) :
    (s.step env l).dispatched = s.dispatched ∧ (s.step env l).processor = s.processor := by
  rcases l with ⟨now, contended⟩ | _ | ⟨i, outside⟩ | ⟨poolId, pool⟩ | poolId | _ | _
  case processor => exact absurd rfl (hl now contended)
  case source =>
    simp only [Collector.step, stepSource]
    split
    · exact ⟨rfl, rfl⟩
    · split <;> exact ⟨rfl, rfl⟩
    · exact ⟨rfl, rfl⟩
  case task =>
    rw [Collector.step]
    split
    · exact ⟨rfl, rfl⟩
    · rename_i task hi
      obtain ⟨-, -, hprocessor, hdispatched⟩ :=
        (stepLoop_effect env s i outside task.kind task.point).frame
      exact ⟨hdispatched, hprocessor⟩
  case add =>
    rw [Collector.step]
    split <;> exact ⟨rfl, rfl⟩
  case remove =>
    rw [Collector.step]
    split <;> exact ⟨rfl, rfl⟩
  case stop =>
    rw [Collector.step]
    split <;> exact ⟨rfl, rfl⟩
  case drop => exact ⟨rfl, rfl⟩

end Collector

end StacksDex.Bridge
