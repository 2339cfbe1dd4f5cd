import Mathlib.Data.Prod.Lex
import StacksDex.Bridge.Collector

/-!
# StacksDex — a collector that has been told to stop

With the stop flag set every step of a task either does nothing or brings the collector nearer
to its end (`settles`): a cycle makes fewer and fewer requests, and between two requests it
sends fewer and fewer events. It does nothing only in a task that has returned, in a source that
awaits its loops, and in front of a full channel.

The distance is lexicographic (`pace`): whether the source has still to start its loops, then
the requests that are left, then the sends that are left. `helper` is a party whose next turn
is not at rest, so that a schedule in which everybody gets a turn again and again reaches the
end (`Lib.Fairness`).
-/

namespace StacksDex.Bridge

open StacksDex.Lib StacksDex.Model

namespace Collector

open StacksDex.Model.Collector

variable {env : CollectorEnv} {s : Collector}

/-! ## How far a task has to go -/

/-- The rounds of requests a cycle can still make. -/
def rounds (env : CollectorEnv) : Cycle → Nat
  | .poll .. => 1
  | .polled .. => 0
  | .tick => env.walking.maxBlocksPerTick + 1
  | .walk _ _ left _ => left

/-- A loop's share, in requests. A sleeping loop may begin one more cycle. -/
def toRequest (env : CollectorEnv) : LoopAt → Nat
  | .stopped => 0
  | .top => 1
  | .sleeping => env.walking.maxBlocksPerTick + 4
  | .requesting cycle | .sending _ cycle | .pushing _ _ cycle => rounds env cycle + 2

/-- A loop's share, in sends. -/
def toSend : LoopAt → Nat
  | .sending rest _ => 2 * rest.length + 1
  | .pushing _ rest _ => 2 * rest.length + 2
  | _ => 0

def toProcess : ProcessorAt → Nat
  | .receiving => 3
  | .dispatching _ => 2
  | .top => 1
  | .stopped => 0

def toRun : SourceAt → Nat
  | .starting => 2
  | .running => 1
  | .returned => 0

/-- The pace of a collector: first its source, then the requests, then the sends. -/
def pace (env : CollectorEnv) (s : Collector) : ℕ ×ₗ ℕ ×ₗ ℕ :=
  toLex (toRun s.source, toLex ((s.tasks.map (toRequest env ·.point)).sum,
    (s.tasks.map (toSend ·.point)).sum + toProcess s.processor))

/-- Moving one loop changes a sum over the loops by what the move is worth. -/
theorem sum_setTask (f : LoopAt → Nat) {i : Nat} {task : LoopTask}
    (hi : s.tasks[i]? = some task) (point : LoopAt) :
    f task.point + ((s.setTask i point).tasks.map (f ·.point)).sum =
      f point + (s.tasks.map (f ·.point)).sum := by
  obtain ⟨others, hbefore, hafter⟩ := tasks_setTask hi point
  rw [(hbefore.map _).sum_eq, (hafter.map _).sum_eq, List.map_cons, List.map_cons,
    List.sum_cons, List.sum_cons]
  exact Nat.add_left_comm ..

/-- A step of a loop that leaves it with less to do. -/
theorem pace_lt_of_loop {i : Nat} {task : LoopTask} (hi : s.tasks[i]? = some task)
    {point : LoopAt} {s' : Collector} (htasks : s'.tasks = (s.setTask i point).tasks)
    (hsource : s'.source = s.source) (hprocessor : s'.processor = s.processor)
    (hless : toRequest env point < toRequest env task.point ∨
      (toRequest env point = toRequest env task.point ∧ toSend point < toSend task.point)) :
    pace env s' < pace env s := by
  have hrequest := sum_setTask (toRequest env) hi point
  have hsend := sum_setTask toSend hi point
  refine Prod.Lex.toLex_lt_toLex.mpr (.inr ⟨congrArg toRun hsource, ?_⟩)
  refine Prod.Lex.toLex_lt_toLex.mpr ?_
  rw [htasks, hprocessor]
  rcases hless with hless | ⟨hsame, hless⟩
  · exact .inl (by omega)
  · exact .inr ⟨by omega, by omega⟩

/-! ## Cycles are finite -/

/-- The sum that bounds a tick's range is at most the exact one, in either build. -/
theorem ahead_le {overflowChecks : Bool} {a b ahead : Nat}
    (h : u64Add overflowChecks a b = .ok ahead) : ahead ≤ a + b := by
  unfold u64Add at h
  split at h
  · exact (Except.ok.inj h).ge
  · split at h
    · exact absurd h (by simp)
    · exact (Except.ok.inj h) ▸ Nat.mod_le _ _

/-- What a cycle's requests come to, it has one round less to go. -/
theorem rounds_resume {registry : PoolRegistry} {outside : LoopEnv} {cycle cycle' : Cycle}
    {events : List StacksEvent} (h : cycle.resume env registry outside = .offers events cycle') :
    rounds env cycle' < rounds env cycle := by
  rcases cycle with ⟨c, mark⟩ | ⟨c, newest⟩ | _ | ⟨registered, height, left, last⟩
  -- a page walk offers once, and then only the watermark is left
  case poll =>
    rw [Cycle.resume] at h
    split at h
    · exact absurd h (by simp)
    · obtain ⟨-, rfl⟩ := Resumed.offers.inj h
      exact Nat.one_pos
  case polled => exact absurd h (by simp [Cycle.resume])
  -- a tick that offers turns into a walk of at most as many blocks as it may
  case tick =>
    rw [Cycle.resume] at h
    split at h
    · exact absurd h (by simp)
    rename_i tip _
    simp only [resumeTick] at h
    split at h
    · exact absurd h (by simp)
    split at h
    · exact absurd h (by simp)
    split at h
    · exact absurd h (by simp)
    split at h
    · exact absurd h (by simp)
    rename_i ahead hahead
    obtain ⟨-, rfl⟩ := Resumed.offers.inj h
    have hle := ahead_le hahead
    show min ahead tip - registry.lastProcessedBlock < env.walking.maxBlocksPerTick + 1
    omega
  -- a walk that offers has one block less before it
  case walk =>
    rcases left with _ | left
    · exact absurd h (by simp [Cycle.resume])
    have hnext : cycle' = .walk registered (height + 1) left last := by
      simp only [Cycle.resume, resumeBlock] at h
      split at h
      · exact absurd h (by simp)
      split at h
      · exact (Resumed.offers.inj h).2.symm
      split at h
      · exact absurd h (by simp)
      · exact (Resumed.offers.inj h).2.symm
    rw [hnext]
    exact Nat.lt_succ_self left

/-- A cycle starts with at most one request for the tip and one for each block it may walk. -/
theorem rounds_begin (env : CollectorEnv) (registry : PoolRegistry) (kind : LoopKind) :
    rounds env (kind.begin registry) ≤ env.walking.maxBlocksPerTick + 1 := by
  rcases kind with c | _
  · exact Nat.le_add_left 1 _
  · exact le_refl _

/-! ## Every step counts -/

/-- The steps that do nothing. -/
inductive Rests (s : Collector) : CollectorStep → Prop
  | processor {now contended} (h : s.processor = .stopped) : Rests s (.processor now contended)
  | returned (h : s.source = .returned) : Rests s .source
  | awaits {task} (htask : task ∈ s.tasks) (h : task.point.isStopped = false) : Rests s .source
  | none {i outside} (h : s.tasks[i]? = none) : Rests s (.task i outside)
  | done {i outside task} (hi : s.tasks[i]? = some task) (h : task.point.isStopped = true) :
    Rests s (.task i outside)
  | full {i outside} (hopen : s.queue.closed = false) : Rests s (.task i outside)
  | caller {l} (h : l.turn = none) : Rests s l

/-- A jump of a loop saves a request, or a send at the same number of requests. -/
theorem jump_less {outside : LoopEnv} {kind : LoopKind} {point point' : LoopAt}
    (hflag : s.stopFlag = true) (h : Jump env s outside kind point point') :
    toRequest env point' < toRequest env point ∨
      (toRequest env point' = toRequest env point ∧ toSend point' < toSend point) := by
  rcases h with _ | hgo | _ | _ | _ | _ | hresume | _ | _
  case stops => exact .inl Nat.one_pos
  case sleeps =>
    rw [hflag] at hgo
    cases hgo
  case begins =>
    have hle := rounds_begin env s.handle.registry kind
    exact .inl (by simp only [toRequest]; omega)
  case wakes => exact .inl (Nat.succ_pos _)
  case dies => exact .inl (Nat.succ_pos _)
  case fails => exact .inl (by simp only [toRequest]; omega)
  case offers =>
    have hless := rounds_resume hresume
    exact .inl (by simp only [toRequest]; omega)
  case sent => exact .inr ⟨rfl, Nat.one_pos⟩
  case skips => exact .inr ⟨rfl, by simp only [toSend, List.length_cons]; omega⟩

/-- A loop's step, case by case of its inversion lemma. -/
theorem settles_loop (hflag : s.stopFlag = true) {i : Nat} {task : LoopTask} {outside : LoopEnv}
    (hi : s.tasks[i]? = some task) {s' : Collector}
    (heffect : LoopEffect env s i outside task.kind task.point s') :
    pace env s' < pace env s ∨ (s' = s ∧ Rests s (.task i outside)) := by
  generalize hpoint : task.point = point at heffect
  rcases heffect with ⟨hjump⟩ | ⟨-⟩ | ⟨-⟩ | ⟨-⟩ | ⟨-, -⟩ | ⟨hwaits⟩
  case jumps =>
    exact .inl (pace_lt_of_loop hi rfl rfl rfl (hpoint ▸ jump_less hflag hjump))
  -- each of these is a request, a check or a push less for this loop
  case commits =>
    refine .inl (pace_lt_of_loop hi rfl rfl rfl (.inl ?_))
    rw [hpoint]
    simp only [toRequest]
    omega
  case accepts =>
    refine .inl (pace_lt_of_loop hi rfl rfl rfl (.inr ?_))
    rw [hpoint]
    exact ⟨rfl, by simp only [toSend, List.length_cons]; omega⟩
  case refuses =>
    refine .inl (pace_lt_of_loop hi rfl rfl rfl (.inr ?_))
    rw [hpoint]
    exact ⟨rfl, Nat.lt_succ_self _⟩
  case pushes =>
    refine .inl (pace_lt_of_loop hi rfl rfl rfl (.inr ?_))
    rw [hpoint]
    exact ⟨rfl, Nat.lt_succ_self _⟩
  -- with the flag set a loop waits only where it has ended or the channel is full
  case waits =>
    refine .inr ⟨rfl, ?_⟩
    rcases hwaits with _ | hgo | ⟨hopen, -⟩
    · exact .done hi (by rw [hpoint]; rfl)
    · rw [hflag] at hgo
      cases hgo
    · exact .full hopen

/-- The processor's step: with the flag set it does not listen again, so it takes at most the
one event it is waiting for, dispatches it and leaves. -/
theorem settles_processor (hflag : s.stopFlag = true) {now : String → Nat}
    {contended : String → Bool} {s' : Collector} (heffect : ProcessorEffect s s') :
    pace env s' < pace env s ∨ (s' = s ∧ Rests s (.processor now contended)) := by
  -- the processor's share is the last of the three
  have hless : ∀ point, toProcess point < toProcess s.processor → s'.source = s.source →
      s'.tasks = s.tasks → s'.processor = point → pace env s' < pace env s := by
    intro point hless hsource htasks hprocessor
    refine Prod.Lex.toLex_lt_toLex.mpr (.inr ⟨congrArg toRun hsource, ?_⟩)
    refine Prod.Lex.toLex_lt_toLex.mpr ?_
    rw [htasks, hprocessor]
    exact .inr ⟨rfl, Nat.add_lt_add_left hless _⟩
  rcases heffect with ⟨htop, -⟩ | ⟨-, hgo⟩ | ⟨hat, -⟩ | ⟨hat, -, -⟩ | ⟨hat, -, -⟩ | ⟨hat⟩ | ⟨hat⟩
  case exits => exact .inl (hless .stopped (by rw [htop]; exact Nat.one_pos) rfl rfl rfl)
  case listens =>
    rw [hflag] at hgo
    cases hgo
  case takes event _ =>
    exact .inl (hless (.dispatching event) (by rw [hat]; exact Nat.lt_succ_self 2) rfl rfl rfl)
  case timesOut =>
    exact .inl (hless .top (by rw [hat]; simp [toProcess]) rfl rfl rfl)
  case ends =>
    exact .inl (hless .stopped (by rw [hat]; simp [toProcess]) rfl rfl rfl)
  case dispatches =>
    exact .inl (hless .top (by rw [hat]; exact Nat.lt_succ_self 1) rfl rfl rfl)
  case done => exact .inr ⟨rfl, .processor hat⟩

/-- The source's step: it starts its loops once, and then waits for them. -/
theorem settles_source : pace env (s.stepSource env) < pace env s ∨
    (s.stepSource env = s ∧ Rests s .source) := by
  unfold stepSource
  split
  · rename_i hat
    exact .inl (Prod.Lex.toLex_lt_toLex.mpr (.inl (by rw [hat]; exact Nat.lt_succ_self 1)))
  · rename_i hat
    by_cases hall : (s.tasks.all fun task => !task.ofSource || task.point.isStopped) = true
    · rw [if_pos hall]
      exact .inl (Prod.Lex.toLex_lt_toLex.mpr (.inl (by rw [hat]; exact Nat.one_pos)))
    · rw [if_neg hall]
      refine .inr ⟨rfl, ?_⟩
      obtain ⟨task, htask, hrunning⟩ := List.all_eq_false.mp (eq_false_of_ne_true hall)
      have hpoint : task.point.isStopped = false :=
        eq_false_of_ne_true fun hstopped => hrunning (by rw [hstopped, Bool.or_true])
      exact .awaits htask hpoint
  · rename_i hat
    exact .inr ⟨rfl, .returned hat⟩

/-- **Every step counts.** -/
theorem settles (h : Accounted s) (hflag : s.stopFlag = true) (l : CollectorStep) :
    pace env (s.step env l) < pace env s ∨ (s.step env l = s ∧ Rests s l) := by
  have hgone : ¬ s.held = true := by
    rw [h.taken hflag]
    exact Bool.false_ne_true
  rcases l with ⟨now, contended⟩ | _ | ⟨i, outside⟩ | ⟨poolId, pool⟩ | poolId | _ | _
  case processor => exact settles_processor hflag (stepProcessor_effect s now contended)
  case source => exact settles_source
  case task =>
    rw [Collector.step]
    split
    · rename_i hnone
      exact .inr ⟨rfl, .none hnone⟩
    · rename_i task hi
      exact settles_loop hflag hi (stepLoop_effect env s i outside task.kind task.point)
  case add => exact .inr ⟨if_neg hgone, .caller rfl⟩
  case remove => exact .inr ⟨if_neg hgone, .caller rfl⟩
  case stop => exact .inr ⟨if_neg hgone, .caller rfl⟩
  case drop =>
    refine .inr ⟨?_, .caller rfl⟩
    rw [Collector.step, ← h.taken hflag]

/-! ## Somebody can always go on -/

/-- Nothing takes the stop flag back. -/
theorem stopFlag_step (hflag : s.stopFlag = true) (l : CollectorStep) :
    (s.step env l).stopFlag = true := by
  rcases l with ⟨now, contended⟩ | _ | ⟨i, outside⟩ | ⟨poolId, pool⟩ | poolId | _ | _
  case processor => exact (stepProcessor_effect s now contended).frame.1.trans hflag
  case source =>
    simp only [Collector.step, stepSource]
    split
    · exact hflag
    · split <;> exact hflag
    · exact hflag
  case task =>
    rw [Collector.step]
    split
    · exact hflag
    · rename_i task hi
      exact (stepLoop_effect env s i outside task.kind task.point).frame.1.trans hflag
  case add =>
    rw [Collector.step]
    split <;> exact hflag
  case remove =>
    rw [Collector.step]
    split <;> exact hflag
  case stop =>
    rw [Collector.step]
    split
    · rfl
    · exact hflag
  case drop => exact hflag

/-- As long as a task runs, there is one with no reason to rest. Where it is a loop, the
processor is gone and the channel closed. -/
theorem exists_restless (h : Accounted s) (hrunning : ¬ s.Finished) :
    ∃ k, ∀ l, l.turn = some k → ¬ Rests s l := by
  -- the processor first: while it runs, its own turn is never at rest
  by_cases hprocessor : s.processor = .stopped
  · have hclosed : s.queue.closed = true := h.closed.mpr hprocessor
    -- it has ended; are all loops at their end, or is one of them still going?
    by_cases hall : ∀ task ∈ s.tasks, task.point.isStopped = true
    · refine ⟨.source, fun l hturn hrests => ?_⟩
      rcases hrests with ⟨-⟩ | hreturned | ⟨htask, hpoint⟩ | ⟨-⟩ | ⟨-, -⟩ | ⟨-⟩ | hnone
      case returned => exact hrunning ⟨hprocessor, hreturned, fun task htask => by
        have hpoint := hall task htask
        generalize task.point = point at hpoint
        rcases point with _ | _ | _ | _ | _ | _ <;> simp_all [LoopAt.isStopped]⟩
      case awaits =>
        rw [hall _ htask] at hpoint
        cases hpoint
      case caller =>
        rw [hnone] at hturn
        cases hturn
      all_goals cases hturn
    -- a loop that goes on is not waiting for room, since the channel is closed
    · simp only [not_forall] at hall
      obtain ⟨task, htask, hpoint⟩ := hall
      obtain ⟨i, hi⟩ := List.mem_iff_getElem?.mp htask
      refine ⟨.task i, fun l hturn hrests => ?_⟩
      rcases hrests with ⟨-⟩ | ⟨-⟩ | ⟨-, -⟩ | hnone | ⟨hi', hstopped⟩ | hopen | hcaller
      case none =>
        obtain rfl := Party.task.inj (Option.some.inj hturn)
        rw [hi] at hnone
        cases hnone
      case done =>
        obtain rfl := Party.task.inj (Option.some.inj hturn)
        rw [hi] at hi'
        obtain rfl := Option.some.inj hi'
        exact hpoint hstopped
      case full =>
        rw [hclosed] at hopen
        cases hopen
      case caller =>
        rw [hcaller] at hturn
        cases hturn
      all_goals cases hturn
  · refine ⟨.processor, fun l hturn hrests => ?_⟩
    rcases hrests with hgone | ⟨-⟩ | ⟨-, -⟩ | ⟨-⟩ | ⟨-, -⟩ | ⟨-⟩ | hcaller
    case processor => exact hprocessor hgone
    case caller =>
      rw [hcaller] at hturn
      cases hturn
    all_goals cases hturn

open Classical in
/-- A party with no reason to rest, where there is one. -/
noncomputable def helper (s : Collector) : Party :=
  if h : ∃ k, ∀ l : CollectorStep, l.turn = some k → ¬ Rests s l then h.choose else .source

/-- While something still runs there is a party with no reason to rest, and the helper is such a
party: its next turn brings the collector nearer to its end. -/
theorem helper_restless (h : Accounted s) (hrunning : ¬ s.Finished) {l : CollectorStep}
    (hturn : l.turn = some (helper s)) : ¬ Rests s l := by
  have hexists := exists_restless h hrunning
  have hchosen : helper s = hexists.choose := dif_pos hexists
  exact hexists.choose_spec l (hchosen ▸ hturn)

end Collector

end StacksDex.Bridge
