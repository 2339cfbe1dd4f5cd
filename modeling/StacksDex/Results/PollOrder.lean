import StacksDex.Bridge.PollOrder
import StacksDex.Results.Isolation

/-!
# StacksDex — a poller enqueues in chain order

Whatever arrives between and during the cycles, and whatever fails: the events that a
single poller gets into the queue stand at ascending positions of the history, as long as
the dedup set forgets nothing. A cycle's own sends ascend, and the watermark it leaves is
the newest transaction of its first page, below which no later cycle collects anything.

## Main results

* `pollOnce_collected`: what one cycle has offered, in terms of positions;
* `feedInvariant_step`: the positions that were accepted keep ascending, step by step;
* `polled_in_chain_order`: every run, from a cold start or a warm one, and that a cycle that
  fails changes nothing.

That a page repeats entries of the one before, because the history has grown in between, is
where order could be lost; the walk's pages climb (`Lib/Paging.lean`), and the dedup set takes
out what they repeat.
-/

namespace StacksDex.Results

open StacksDex.Lib StacksDex.Model StacksDex.Bridge

section Cycle

variable {config : CollectorConfig} {contract : Principal} {chain : Nat → EventEnvelope}
variable {initial : Option String} {start : Nat} {s : Feed}

/-- **One cycle.** If it returns, it has offered everything from some position on, none of
it of the watermark's transaction, and has moved the watermark to the newest event of its
first page, if there was a page. -/
theorem pollOnce_collected {env : FeedEnv} (hpage : 0 < config.pageSize)
    (hvalid : s.Valid config (.cycle env)) {r : Polled}
    (hok : pollOnce config (env.fetchPage chain) env.iters contract s.queue s.registry = .ok r) :
    ∃ xs low, Collected chain (s.registry.watermark contract) (env.sizeAt 0) xs low ∧
      r.offered = offers chain xs ∧ r.queue = (enqueue env.iters s.queue r.offered).1 ∧
      ((xs = [] ∧ r.registry = s.registry) ∨ (0 < env.sizeAt 0 ∧
        r.registry = s.registry.setWatermark contract (chain (env.sizeAt 0 - 1)).txId)) := by
  obtain ⟨-, hgrows, hdrift, -⟩ := hvalid
  have hserved : Drifting (env.fetchPage chain) config.pageSize chain env.sizeAt env.fails :=
    ⟨fun _ _ _ => rfl, hgrows, hdrift⟩
  obtain ⟨pages, -, hok⟩ := bind_eq_ok.mp hok
  obtain ⟨w, hwalk, hok⟩ := bind_eq_ok.mp hok
  -- nothing has been collected in front of the first page
  have hnothing : Collected chain (s.registry.watermark contract) (env.sizeAt 0) []
      (env.sizeAt 0) :=
    ⟨trivial, fun p => ⟨fun hp => (List.not_mem_nil hp).elim, fun hp => by omega⟩,
      fun p hp => (List.not_mem_nil hp).elim⟩
  obtain ⟨xs, low, hcol, happly, hnewest⟩ := hserved.walk_collected hpage hnothing rfl
    (by omega) (by omega) (Or.inl ⟨rfl, rfl, rfl⟩) hwalk
  cases hok
  refine ⟨xs, low, hcol, by rw [happly]; rfl, rfl, ?_⟩
  rcases hnewest with ⟨hxs, hnone⟩ | ⟨hpos, hsome⟩
  · exact Or.inl ⟨hxs, by rw [hnone]⟩
  · exact Or.inr ⟨hpos, by rw [hsome]⟩

/-- A cycle, failures included, by what its walk comes to. -/
theorem poll_eq (s : Feed) (env : FeedEnv) : s.poll config contract chain env =
    match pollOnce config (env.fetchPage chain) env.iters contract s.queue s.registry with
    | .ok r => (.ok r.enqueued, r.queue, r.registry)
    | .error fault => (.error fault, s.queue, s.registry) := pollM_run ..

/-- A cycle that fails is growth and nothing else. -/
theorem step_cycle_error {env : FeedEnv} {fault : Fault}
    (hok : pollOnce config (env.fetchPage chain) env.iters contract s.queue s.registry =
      .error fault) :
    s.step config contract chain (.cycle env) = { s with size := env.size } := by
  simp [Feed.step, poll_eq, hok]

/-- A cycle that returns has accepted events at ascending positions, all of them of its
first request's history and above the watermark's transaction. -/
theorem step_cycle_ok {env : FeedEnv} (hpage : 0 < config.pageSize)
    (hvalid : s.Valid config (.cycle env))
    (hkept : s.NoEviction config contract chain (.cycle env)) {r : Polled}
    (hok : pollOnce config (env.fetchPage chain) env.iters contract s.queue s.registry = .ok r) :
    ∃ new events, s.step config contract chain (.cycle env) =
        ⟨env.size, r.queue, r.registry, s.accepted ++ events⟩ ∧ Placed chain new events ∧
      (∀ p ∈ new, p < env.sizeAt 0 ∧ ∀ q < env.sizeAt 0,
        s.registry.watermark contract = some (chain q).txId → q < p) ∧
      ((new = [] ∧ r.registry = s.registry) ∨ (0 < env.sizeAt 0 ∧
        r.registry = s.registry.setWatermark contract (chain (env.sizeAt 0 - 1)).txId)) := by
  obtain ⟨xs, low, hcol, hoffered, hqueue, hregistry⟩ := pollOnce_collected hpage hvalid hok
  have hkeeps := hkept r hok
  rw [hoffered] at hkeeps hqueue
  have hclimbs : Paging.Climbs (xs ++ []) := by
    rw [List.append_nil]
    exact hcol.climbs
  obtain ⟨new, events, hplaced, hnew, hchannel⟩ :=
    enqueue_climbs hclimbs (fun p hp => (List.not_mem_nil hp).elim) hkeeps
  have hdrop : r.queue.channel.drop s.queue.channel.length = events := by
    rw [hqueue, hchannel, List.drop_left]
  refine ⟨new, events, by simp [Feed.step, poll_eq, hok, hdrop], hplaced, fun p hp => ?_, ?_⟩
  · obtain ⟨hlow, hhigh⟩ := (hcol.mem p).mp (hnew p hp).1
    refine ⟨hhigh, fun q hq hmark => ?_⟩
    -- nothing at or below an event of the watermark's transaction was collected
    by_contra hge
    exact hcol.unmarked q ((hcol.mem q).mpr ⟨by omega, hq⟩) hmark
  · refine hregistry.imp_left ?_
    rintro ⟨rfl, hsame⟩
    -- no page, so nothing was sent
    exact ⟨List.eq_nil_iff_forall_not_mem.mpr fun p hp => List.not_mem_nil (hnew p hp).1, hsame⟩

/-- What every run preserves: the accepted events ascend, and the watermark is where it was
or stands at an event that none of them is above. -/
structure FeedInvariant (contract : Principal) (chain : Nat → EventEnvelope)
    (initial : Option String) (start : Nat) (s : Feed) (ps : List Nat) : Prop where
  placed : Placed chain ps s.accepted
  bounded : ∀ p ∈ ps, p < s.size
  above : ∀ q < start, initial = some (chain q).txId → ∀ p ∈ ps, q < p
  started : start ≤ s.size
  mark : (ps = [] ∧ s.registry.watermark contract = initial) ∨
    ∃ m < s.size, s.registry.watermark contract = some (chain m).txId ∧ (∀ p ∈ ps, p ≤ m) ∧
      ∀ q < start, initial = some (chain q).txId → q ≤ m

/-- What is above the current watermark is above everything accepted, and above the
transaction the run began with. -/
theorem FeedInvariant.lt_of_marked {ps : List Nat}
    (h : FeedInvariant contract chain initial start s ps) {size p : Nat} (hsize : s.size ≤ size)
    (hp : ∀ q < size, s.registry.watermark contract = some (chain q).txId → q < p) :
    (∀ q ∈ ps, q < p) ∧ ∀ q < start, initial = some (chain q).txId → q < p := by
  have hstarted := h.started
  rcases h.mark with ⟨rfl, hsame⟩ | ⟨m, hm, hmark, hbelow, hfloor⟩
  · refine ⟨fun q hq => (List.not_mem_nil hq).elim, fun q hq hinitial => hp q (by omega) ?_⟩
    rw [hsame, hinitial]
  · have hmp : m < p := hp m (by omega) hmark
    refine ⟨fun q hq => ?_, fun q hq hinitial => ?_⟩
    · have := hbelow q hq
      omega
    · have := hfloor q hq hinitial
      omega

/-- More of the history becomes visible. -/
theorem FeedInvariant.grow {ps : List Nat} (h : FeedInvariant contract chain initial start s ps)
    {size : Nat} (hsize : s.size ≤ size) :
    FeedInvariant contract chain initial start { s with size } ps := by
  refine ⟨h.placed, fun p hp => Nat.lt_of_lt_of_le (h.bounded p hp) hsize, h.above,
    Nat.le_trans h.started hsize, h.mark.imp_right ?_⟩
  rintro ⟨m, hm, hmark⟩
  exact ⟨m, Nat.lt_of_lt_of_le hm hsize, hmark⟩

/-- **Step.** Every step keeps the invariant, with more positions at the end. -/
theorem feedInvariant_step (hpage : 0 < config.pageSize) {ps : List Nat} {l : FeedStep}
    (h : FeedInvariant contract chain initial start s ps) (hvalid : s.Valid config l)
    (hkept : s.NoEviction config contract chain l) :
    ∃ ps', FeedInvariant contract chain initial start (s.step config contract chain l) ps' := by
  cases l with
  | grow arrived => exact ⟨ps, h.grow (Nat.le_add_right ..)⟩
  | recv =>
    refine ⟨ps, ?_⟩
    rw [Feed.step]
    split
    · exact h
    · exact ⟨h.placed, h.bounded, h.above, h.started, h.mark⟩
  | cycle env =>
    have hsize := hvalid.1
    have hlast := hvalid.2.2.2 0
    cases hok : pollOnce config (env.fetchPage chain) env.iters contract s.queue s.registry with
    -- a failed cycle writes nothing, and the history has only grown
    | error fault =>
      rw [step_cycle_error hok]
      exact ⟨ps, h.grow (Nat.le_trans hsize hlast)⟩
    | ok r =>
      -- a cycle that returns accepts what lies above the watermark of its start
      obtain ⟨new, events, hstep, ⟨hascending, hdecoded⟩, hnew, hregistry⟩ :=
        step_cycle_ok hpage hvalid hkept hok
      have habove := fun p hp => h.lt_of_marked hsize (hnew p hp).2
      have hold : ∀ p ∈ ps, p < env.sizeAt 0 := fun p hp =>
        Nat.lt_of_lt_of_le (h.bounded p hp) hsize
      have hall : ∀ p ∈ ps ++ new, p < env.sizeAt 0 := fun p hp =>
        (List.mem_append.mp hp).elim (hold p) fun hp => (hnew p hp).1
      rw [hstep]
      refine ⟨ps ++ new, ⟨?_, ?_⟩, ?_, ?_, ?_, ?_⟩
      · exact List.pairwise_append.mpr ⟨h.placed.1, hascending, fun q hq p hp =>
          (habove p hp).1 q hq⟩
      · rw [List.map_append, List.map_append, h.placed.2, hdecoded]
      · exact fun p hp => Nat.lt_of_lt_of_le (hall p hp) hlast
      -- what is new lies above everything accepted before, and above the initial watermark
      · intro q hq hinitial p hp
        rcases List.mem_append.mp hp with hp | hp
        · exact h.above q hq hinitial p hp
        · exact (habove p hp).2 q hq hinitial
      · exact Nat.le_trans h.started (Nat.le_trans hsize hlast)
      · have hstarted := h.started
        rcases hregistry with ⟨rfl, hsame⟩ | ⟨hpos, hset⟩
        · -- the watermark stays
          rw [List.append_nil, hsame]
          refine h.mark.imp_right ?_
          rintro ⟨m, hm, hmark⟩
          exact ⟨m, Nat.lt_of_lt_of_le hm (Nat.le_trans hsize hlast), hmark⟩
        -- the watermark moves to the newest event that the first page showed
        · refine Or.inr ⟨env.sizeAt 0 - 1, ?_, ?_, fun p hp => ?_, fun q hq _ => ?_⟩
          · show env.sizeAt 0 - 1 < env.size
            omega
          · rw [hset]
            exact PoolRegistry.watermark_setWatermark _ _ _
          · have := hall p hp
            omega
          · omega

/-- A cycle that fails leaves the queue and the watermark as they were. -/
theorem failsClean (l : FeedStep) : s.FailsClean config contract chain l := by
  cases l with
  | grow arrived => trivial
  | recv => trivial
  | cycle env =>
    intro fault hfault
    cases hok : pollOnce config (env.fetchPage chain) env.iters contract s.queue s.registry with
    | error other =>
      rw [step_cycle_error hok]
      exact ⟨rfl, rfl⟩
    | ok r =>
      rw [poll_eq, hok] at hfault
      cases hfault

end Cycle

/--
**Chain order.** In every run of a single poller, from any watermark or none, whatever arrives
between the cycles and whatever fails: while the dedup set evicts nothing and at most a page
of events arrives between two requests of a cycle, the accepted events stand at ascending
positions of the history, none at or before the initial watermark's transaction, and a cycle
that fails writes nothing. The walk reads the newest page first and turns what it has
collected round before it sends.
-/
theorem polled_in_chain_order {config : CollectorConfig} (hpage : 0 < config.pageSize)
    (contract : Principal) (chain : Nat → EventEnvelope) {s : Feed} (hstart : s.accepted = [])
    {steps : List FeedStep}
    (hvalid : Run.Along (Feed.step config contract chain) (Feed.Valid config) s steps)
    (hkept : Run.Along (Feed.step config contract chain)
      (Feed.NoEviction config contract chain) s steps) :
    Run.Always (Feed.step config contract chain)
        (Feed.Ascending chain (s.registry.watermark contract) s.size) s steps ∧
      Run.Along (Feed.step config contract chain) (Feed.FailsClean config contract chain) s
        steps := by
  refine ⟨?_, Run.along_of_forall (fun _ l _ => failsClean l) s⟩
  have hinitial : ∃ ps,
      FeedInvariant contract chain (s.registry.watermark contract) s.size s ps := by
    refine ⟨[], ⟨List.Pairwise.nil, ?_⟩, ?_, ?_, Nat.le_refl _, Or.inl ⟨rfl, rfl⟩⟩
    · rw [hstart]
      rfl
    · intro p hp
      cases hp
    · intro q _ _ p hp
      cases hp
  have hinvariant := Run.always_of_along
    (I := fun t => ∃ ps,
      FeedInvariant contract chain (s.registry.watermark contract) s.size t ps)
    (fun t l ⟨ps, h⟩ hl => feedInvariant_step hpage h hl.1 hl.2) hinitial (hvalid.and hkept)
  exact hinvariant.mono fun t ⟨ps, h⟩ => ⟨ps, h.placed, h.bounded, h.above⟩

/-- The events of three transactions of the core contract: two, one, and all others. -/
def coreChain (p : Nat) : EventEnvelope where
  txId := if p < 2 then "0xa" else if p < 3 then "0xb" else "0xc"
  decoded := some {
    emitter := deployed "dlmm-core"
    txId := if p < 2 then "0xa" else if p < 3 then "0xb" else "0xc"
    eventIndex := p
    action := "swap-x-for-y"
    data := [] }

/-- Two events a page, two pages on a cold start. -/
def pairConfig : CollectorConfig where
  pageSize := 2
  maxEventsPerCycle := 4
  coldStartPages := 2
  pageSize_le := by decide
  maxEventsPerCycle_le := by decide
  coldStartPages_le := by decide

/-- Three events are there, and none has been polled. -/
def coldFeed : Feed where
  size := 3
  queue := { channel := [], capacity := 64, closed := false, seen := ∅, seenCap := 256 }
  registry :=
    { byId := []
      keysDistinct := List.nodup_nil
      watermarks := []
      topics := []
      lastProcessedBlock := 0 }
  accepted := []

/-- A fourth event arrives after the first page, so the second page repeats one. -/
def driftCycle : FeedEnv where
  sizeAt := fun i => if i = 0 then 3 else 4
  size := 4
  fails := fun _ => none
  iters := fun _ => []

def stillCycle (fails : Nat → Option Fault) : FeedEnv where
  sizeAt := fun _ => 4
  size := 4
  fails := fails
  iters := fun _ => []

def coldSteps : List FeedStep :=
  [.cycle driftCycle, .recv, .cycle (stillCycle fun _ => some (.err "timeout")),
    .cycle (stillCycle fun _ => none)]

/-- A cold start, and two cycles with growth in between. -/
theorem polled_in_chain_order_cold :
    Run.Always (Feed.step pairConfig (deployed "dlmm-core") coreChain)
        (Feed.Ascending coreChain none 3) coldFeed coldSteps ∧
      ((Run.exec (Feed.step pairConfig (deployed "dlmm-core") coreChain) coldFeed
        coldSteps).accepted.map (·.eventIndex)) = [0, 1, 2, 3] := by
  have hpage : 0 < pairConfig.pageSize := by decide
  have hstill : ∀ (s : Feed) fails, s.size ≤ 4 →
      s.Valid pairConfig (.cycle (stillCycle fails)) := fun s fails hsize =>
    ⟨hsize, fun _ => Nat.le_refl 4, fun _ => Nat.le_add_right 4 2, fun _ => Nat.le_refl 4⟩
  have hdrift : coldFeed.Valid pairConfig (.cycle driftCycle) := by
    refine ⟨Nat.le_refl 3, fun i => ?_, fun i => ?_, fun i => ?_⟩ <;>
      rcases i with _ | i <;> simp [driftCycle, pairConfig]
  have hstart : coldFeed.accepted = [] := rfl
  refine ⟨(polled_in_chain_order hpage (deployed "dlmm-core") coreChain hstart ?_ ?_).1, rfl⟩
  · exact ⟨hdrift, trivial, hstill _ _ (Nat.le_refl 4), hstill _ _ (Nat.le_refl 4), trivial⟩
  · refine ⟨?_, trivial, ?_, ?_, trivial⟩
    · intro r hr
      cases hr
      exact ⟨Or.inr rfl, Or.inr rfl, Or.inl (by decide), Or.inr rfl, trivial⟩
    · intro r hr
      cases hr
    · intro r hr
      cases hr
      exact ⟨Or.inr rfl, trivial⟩

end StacksDex.Results
