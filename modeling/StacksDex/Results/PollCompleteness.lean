import StacksDex.Bridge.Polling
import StacksDex.Results.Isolation

/-!
# StacksDex — no event is lost in polling, within budget

A cycle walks back from the newest event, for as many pages as the event cap
allows, and then moves the watermark to the newest event whether or not it met
the old one. So a burst that outgrows the cap between two cycles loses its oldest
events. While every cycle stays within its budget, nothing is lost, whatever fails
and however the history grows between and during the cycles.

## Main results

* `poll_spec`: one cycle that returns, within its budget;
* `pollInvariant_step`: one step of a run, whether the history grows or a cycle runs, fails or
  returns;
* `no_lost_event`: every run whose cycles stay within their budget;
* `poll_loses_event`: a burst of two events with a cap of one.

The budget is a condition on the state before a cycle: the events behind the watermark fit in
the pages the cycle may walk.
-/

namespace StacksDex.Results

open StacksDex.Lib StacksDex.Model StacksDex.Bridge

section Cycle

variable {config : CollectorConfig} {contract : Principal} {s : Polling} {env : CycleEnv}

/-- Later requests of a cycle see longer histories. -/
theorem take_flatten_prefix (arrivals : List (List TxEvents)) {i k : Nat} (hik : i ≤ k) :
    (arrivals.take i).flatten <+: (arrivals.take k).flatten := by
  refine ⟨((arrivals.drop i).take (k - i)).flatten, ?_⟩
  rw [← List.flatten_append]
  congr 1
  rw [← List.take_add, Nat.add_sub_cancel' hik]

/-- All of them see a part of what the cycle leaves. -/
theorem take_flatten_prefix_flatten (arrivals : List (List TxEvents)) (i : Nat) :
    (arrivals.take i).flatten <+: arrivals.flatten :=
  ⟨(arrivals.drop i).flatten, by rw [← List.flatten_append, List.take_append_drop]⟩

/-- At every moment of a cycle the history splits at the watermark. -/
theorem serving_of_watermark {txId : String}
    (hdistinct : ((s.history ++ env.arrivals.flatten).map TxEvents.txId).Nodup)
    (hmem : txId ∈ s.history.map TxEvents.txId) :
    ∃ older, Serving (env.fetchPage s.history) txId older
        (fun i => log (afterTx txId (env.historyAt s.history i))) env.fails ∧
      ∀ i, log (env.historyAt s.history i) =
        older ++ log (afterTx txId (env.historyAt s.history i)) := by
  obtain ⟨before, t, hsplit, ht⟩ := split_at hmem
  -- what arrives comes behind the watermark
  have hafter : ∀ i, afterTx txId (env.historyAt s.history i) =
      afterTx txId s.history ++ (env.arrivals.take (i + 1)).flatten := fun i =>
    afterTx_append hmem _
  -- the older part is the same at every request
  have hlog : ∀ i, log (env.historyAt s.history i) =
      log (before ++ [t]) ++ log (afterTx txId (env.historyAt s.history i)) := by
    intro i
    rw [hafter, ← log_append]
    congr 1
    rw [CycleEnv.historyAt]
    conv_lhs => rw [hsplit]
    simp
  refine ⟨log (before ++ [t]), ⟨?_, ?_, ?_, ?_⟩, hlog⟩
  · intro i limit offset
    rw [CycleEnv.fetchPage, hlog]
  · -- the transaction has events, the last of them is the log's last
    refine ⟨log before ++ t.events.dropLast, t.events.getLast t.nonempty, ?_, ?_⟩
    · rw [log_append, List.append_assoc, List.dropLast_append_getLast]
      simp [log]
    · rw [t.own _ (List.getLast_mem _), ht]
  · -- a later transaction has another id
    intro i e he
    rw [hafter] at he
    obtain ⟨u, hu, heu⟩ := List.mem_flatMap.mp he
    rw [u.own e heu]
    rintro rfl
    -- the watermark's transaction and all later ones have distinct ids
    have hsub : (t :: (afterTx u.txId s.history ++ (env.arrivals.take (i + 1)).flatten)).Sublist
        (s.history ++ env.arrivals.flatten) := by
      conv_rhs => rw [hsplit, List.append_assoc, List.cons_append]
      refine List.Sublist.trans (List.Sublist.cons_cons t ?_) (List.sublist_append_right before _)
      exact (List.Sublist.refl _).append (take_flatten_prefix_flatten env.arrivals _).sublist
    have hall := hdistinct.sublist (hsub.map TxEvents.txId)
    rw [List.map_cons, ht] at hall
    exact (List.nodup_cons.mp hall).1 (List.mem_map_of_mem hu)
  · intro i
    rw [hafter, hafter]
    obtain ⟨more, hmore⟩ := take_flatten_prefix env.arrivals (Nat.le_succ (i + 1))
    exact ⟨log more, by rw [← log_append, List.append_assoc, hmore]⟩

/-- A page within the budget starts below the event cap. -/
theorem budget_bound (hsize : 0 < config.pageSize) (m : Nat)
    (hm : m + 1 < Polling.budget config) :
    (m + 1) * config.pageSize < config.maxEventsPerCycle := by
  have hle : (m + 2) * config.pageSize ≤ config.maxEventsPerCycle + config.pageSize - 1 :=
    (Nat.le_div_iff_mul_le hsize).mp hm
  rw [show m + 2 = m + 1 + 1 from rfl, Nat.add_mul, Nat.one_mul] at hle
  omega

/-- A history without events is empty, as every transaction in it has one. -/
theorem log_eq_nil {history : List TxEvents} (h : log history = []) : history = [] := by
  cases history with
  | nil => rfl
  | cons t rest => exact absurd (List.append_eq_nil_iff.mp h).1 t.nonempty

/-- The newest event of a history is of its last transaction, and nothing follows that. -/
theorem afterTx_newest {history : List TxEvents} {newest : EventEnvelope}
    (hdistinct : (history.map TxEvents.txId).Nodup)
    (hlast : (log history).getLast? = some newest) :
    newest.txId ∈ history.map TxEvents.txId ∧ afterTx newest.txId history = [] := by
  obtain rfl | ⟨before, t, rfl⟩ := history.eq_nil_or_concat
  · cases hlast
  · rw [List.concat_eq_append] at *
    -- the log's last event is of the last transaction
    have ht : newest.txId = t.txId := by
      have hlog : log (before ++ [t]) = log before ++ t.events := by simp [log]
      rw [hlog, List.getLast?_append_of_ne_nil _ t.nonempty] at hlast
      exact t.own _ (List.mem_of_getLast? hlast)
    rw [ht]
    exact ⟨by simp, afterTx_eq hdistinct⟩

/-- **One cycle within budget.** If it returns, there is a moment, at or after its start,
such that everything between the watermark and the history of that moment has been
offered, and the watermark is now the last transaction of that history. -/
theorem poll_spec (hsize : 0 < config.pageSize)
    (hdistinct : ((s.history ++ env.arrivals.flatten).map TxEvents.txId).Nodup)
    {txId : String} (hwatermark : s.registry.watermark contract = some txId)
    (hmem : txId ∈ s.history.map TxEvents.txId)
    (hbudget : s.Budgeted config contract (.cycle env)) {r : Polled}
    (hok : s.poll config contract env = .ok r) :
    ∃ seen newest, s.history <+: seen ∧ seen <+: s.history ++ env.arrivals.flatten ∧
      r.registry.watermark contract = some newest ∧ newest ∈ seen.map TxEvents.txId ∧
      afterTx newest seen = [] ∧
      ∀ e ∈ log (afterTx txId seen), ∀ event, e.decoded = some event → event ∈ r.offered := by
  have hpages : maxPages config (some txId) = .ok (Polling.budget config) := u128DivCeil_ok hsize
  have hbacklog : ∀ history, s.backlog contract history = (log (afterTx txId history)).length := by
    intro history
    rw [Polling.backlog, hwatermark]
  rw [Polling.poll, pollOnce] at hok
  dsimp only at hok
  rw [hwatermark, hpages, ok_bind] at hok
  obtain ⟨w, hwalk, hr⟩ := bind_eq_ok.mp hok
  cases hr
  simp only [Polling.Budgeted, hbacklog] at hbudget
  by_cases hzero : Polling.budget config = 0
  · -- no page may be asked for, and there is nothing to ask for
    rw [hzero] at hwalk
    cases hwalk
    have hnil : afterTx txId s.history = [] := by
      rcases hbudget with ⟨-, hnone⟩ | ⟨i, hi, -⟩ | ⟨i, hi, -⟩
      · exact log_eq_nil (List.length_eq_zero_iff.mp hnone)
      · omega
      · omega
    refine ⟨s.history, txId, List.prefix_refl _, List.prefix_append _ _, hwatermark, hmem, hnil, ?_⟩
    rw [hnil]
    intro e he
    cases he
  · obtain ⟨older, hserving, hlog⟩ := serving_of_watermark hdistinct hmem
    -- at least one page is asked for, and the first one sets the watermark
    obtain ⟨n, hn⟩ := Nat.exists_eq_succ_of_ne_zero hzero
    rcases hserving.walkPages_complete hsize (budget_bound hsize) (Nat.zero_add _)
      (by rw [List.length_nil, Nat.zero_mul]) (by omega) (fun j hj hfar => absurd hfar (by omega))
      hwalk with hall | hover
    · rw [hn] at hwalk
      -- the walk is complete: `seen` is the history of the first request
      obtain ⟨newest, hlast, hseen⟩ := hserving.walkPages_newest hsize rfl hwalk
      rw [← hlog 0] at hlast
      have hgrown : env.historyAt s.history 0 <+: s.history ++ env.arrivals.flatten :=
        (List.prefix_append_right_inj _).mpr (take_flatten_prefix_flatten env.arrivals 1)
      obtain ⟨hmem', hafter⟩ := afterTx_newest (hdistinct.sublist (hgrown.sublist.map _)) hlast
      refine ⟨env.historyAt s.history 0, newest.txId, List.prefix_append _ _, hgrown, ?_, hmem',
        hafter, ?_⟩
      · dsimp only
        rw [hseen]
        exact PoolRegistry.watermark_setWatermark _ _ _
      -- whatever was collected is offered, oldest first
      · intro e he event hevent
        exact List.mem_filterMap.mpr ⟨e, List.mem_reverse.mpr (hall he), hevent⟩
    · -- every page fell short, which the budget excludes
      exfalso
      rcases hbudget with ⟨h0, -⟩ | ⟨i, hi, hfail⟩ | ⟨i, hi, hfits⟩
      · exact hzero h0
      · rw [(hover i (Nat.zero_le i) hi).1] at hfail
        cases hfail
      · exact absurd (hover i (Nat.zero_le i) hi).2 (Nat.not_lt.mpr hfits)

end Cycle

/-! ## Runs of cycles -/

/-- What every run within budget preserves. -/
structure PollInvariant (contract : Principal) (initial : String) (s : Polling) : Prop where
  distinct : (s.history.map TxEvents.txId).Nodup
  known : initial ∈ s.history.map TxEvents.txId
  covered : s.Covered contract initial

/-- What has been offered stays offered. -/
theorem Offered.mono {s s' : Polling} (h : s.offered ⊆ s'.offered) {txs : List TxEvents}
    (hs : s.Offered txs) : s'.Offered txs := fun e he event hevent => h (hs e he event hevent)

/-- Transactions are offered one by one. -/
theorem offered_of_forall {s : Polling} {txs : List TxEvents} (h : ∀ t ∈ txs, s.Offered [t]) :
    s.Offered txs := by
  intro e he
  obtain ⟨t, ht, het⟩ := List.mem_flatMap.mp he
  exact h t ht e (List.mem_flatMap.mpr ⟨t, List.mem_singleton.mpr rfl, het⟩)

/-- Growth keeps the transactions there are. -/
theorem mem_ids_append {txId : String} {h : List TxEvents} (hmem : txId ∈ h.map TxEvents.txId)
    (g : List TxEvents) : txId ∈ (h ++ g).map TxEvents.txId := by
  rw [List.map_append]
  exact List.mem_append_left _ hmem

/-- Growth leaves the invariant alone: what arrives is after the watermark. -/
theorem PollInvariant.grow {contract : Principal} {initial : String} {s : Polling}
    (hs : PollInvariant contract initial s) {arrived : List TxEvents}
    (hdistinct : ((s.history ++ arrived).map TxEvents.txId).Nodup) :
    PollInvariant contract initial { s with history := s.history ++ arrived } := by
  obtain ⟨txId, hwatermark, hmem, hcovered⟩ := hs.covered
  refine ⟨hdistinct, mem_ids_append hs.known _, txId, hwatermark, mem_ids_append hmem _, ?_⟩
  intro t ht hnot
  rw [afterTx_append hs.known, List.mem_append] at ht
  rw [afterTx_append hmem, List.mem_append, not_or] at hnot
  rcases ht with ht | ht
  · exact hcovered t ht hnot.1
  · exact absurd ht hnot.2

/-- A cycle that returns has offered everything, new or old, up to the moment `seen`. -/
theorem offered_upTo {config : CollectorConfig} {contract : Principal} {initial txId : String}
    {s : Polling} {env : CycleEnv} {r : Polled} {seen : List TxEvents}
    (hs : PollInvariant contract initial s)
    (hwatermark : s.registry.watermark contract = some txId)
    (hok : s.poll config contract env = .ok r) (hgrown : s.history <+: seen)
    (hoffered : ∀ e ∈ log (afterTx txId seen), ∀ event, e.decoded = some event →
      event ∈ r.offered) :
    ∀ t ∈ afterTx initial seen, (Polling.step config contract s (.cycle env)).Offered [t] := by
  obtain ⟨txId', hwatermark', hmem, hcovered⟩ := hs.covered
  obtain rfl : txId = txId' := Option.some.inj (hwatermark.symm.trans hwatermark')
  obtain ⟨g, rfl⟩ := hgrown
  have hafter : (Polling.step config contract s (.cycle env)).offered = s.offered ++ r.offered := by
    simp only [Polling.step, hok]
  intro t ht
  by_cases hnew : t ∈ afterTx txId (s.history ++ g)
  · intro e he event hevent
    rw [hafter]
    refine List.mem_append_right _ (hoffered e ?_ event hevent)
    obtain ⟨u, hu, heu⟩ := List.mem_flatMap.mp he
    obtain rfl := List.mem_singleton.mp hu
    exact List.mem_flatMap.mpr ⟨u, hnew, heu⟩
  · -- an old transaction: it was covered before
    rw [afterTx_append hmem, List.mem_append, not_or] at hnew
    rw [afterTx_append hs.known, List.mem_append] at ht
    rcases ht with ht | ht
    · exact Offered.mono (by rw [hafter]; exact List.subset_append_left _ _) (hcovered t ht hnew.1)
    · exact absurd ht hnew.2

section Runs

variable {config : CollectorConfig} {contract : Principal} {initial : String}

/-- **Every step within the budget** keeps the invariant. -/
theorem pollInvariant_step (hsize : 0 < config.pageSize) (s : Polling) (l : PollingStep)
    (hs : PollInvariant contract initial s)
    (hl : s.Valid config contract l ∧ s.Budgeted config contract l) :
    PollInvariant contract initial (Polling.step config contract s l) := by
  obtain ⟨hvalid, hbudget⟩ := hl
  cases l with
  | grow arrived => exact hs.grow hvalid
  | cycle env =>
    have hhistory : (Polling.step config contract s (.cycle env)).history =
        s.history ++ env.arrivals.flatten := by
      simp only [Polling.step]
      split <;> rfl
    have hdistinct : ((s.history ++ env.arrivals.flatten).map TxEvents.txId).Nodup := by
      rw [← hhistory]
      exact hvalid
    cases hpoll : s.poll config contract env with
    | error fault =>
      -- a cycle that fails is growth and nothing else
      have hstep : Polling.step config contract s (.cycle env) =
          { s with history := s.history ++ env.arrivals.flatten } := by
        simp only [Polling.step, hpoll]
      rw [hstep]
      exact hs.grow hdistinct
    | ok r =>
      -- a cycle that returns has covered everything up to its moment `seen`
      obtain ⟨txId, hwatermark, hmem, -⟩ := hs.covered
      obtain ⟨seen, newest, hgrown, hseen, hnewest, hmem', hlast, hoffered⟩ :=
        poll_spec hsize hdistinct hwatermark hmem hbudget hpoll
      have hregistry : (Polling.step config contract s (.cycle env)).registry = r.registry := by
        simp only [Polling.step, hpoll]
      have hupTo := offered_upTo hs hwatermark hpoll hgrown hoffered
      obtain ⟨rest, hrest⟩ := hseen
      obtain ⟨g, rfl⟩ := hgrown
      refine ⟨by rw [hhistory]; exact hdistinct, ?_, newest, ?_, ?_, ?_⟩
      · rw [hhistory]
        exact mem_ids_append hs.known _
      · rw [hregistry]
        exact hnewest
      · rw [hhistory, ← hrest]
        exact mem_ids_append hmem' _
      · intro t ht hnot
        rw [hhistory, ← hrest, afterTx_append (mem_ids_append hs.known _), List.mem_append] at ht
        rw [hhistory, ← hrest, afterTx_append hmem', hlast, List.nil_append] at hnot
        rcases ht with ht | ht
        · exact hupTo t ht
        · exact absurd ht hnot

/-- **A cycle that returns is complete**: everything behind the initial watermark and up to the
new one has been offered. -/
theorem complete_of_invariant (hsize : 0 < config.pageSize) (s : Polling) (l : PollingStep)
    (hs : PollInvariant contract initial s)
    (hl : s.Valid config contract l ∧ s.Budgeted config contract l) :
    s.Complete config contract initial l := by
  obtain ⟨hvalid, hbudget⟩ := hl
  cases l with
  | grow arrived => trivial
  | cycle env =>
    intro r hpoll
    have hdistinct : ((s.history ++ env.arrivals.flatten).map TxEvents.txId).Nodup := by
      have hhistory : (Polling.step config contract s (.cycle env)).history =
          s.history ++ env.arrivals.flatten := by simp only [Polling.step, hpoll]
      rw [← hhistory]
      exact hvalid
    obtain ⟨txId, hwatermark, hmem, -⟩ := hs.covered
    obtain ⟨seen, newest, hgrown, -, -, -, -, hoffered⟩ :=
      poll_spec hsize hdistinct hwatermark hmem hbudget hpoll
    have hupTo := offered_upTo hs hwatermark hpoll hgrown hoffered
    refine offered_of_forall fun t ht => hupTo t ?_
    obtain ⟨g, rfl⟩ := hgrown
    rw [afterTx_append hs.known]
    exact List.mem_append_left _ ht

/--
**No lost event.** From a watermark in the history, in every run of cycles and growth whose
cycles all stay within budget: a cycle that returns has offered everything that was in the
history at its start and after the initial watermark, and the watermark never passes an event
that was not offered. A cycle is within budget when at some request it may make all that lies
after the watermark fits the pages so far, or when a request fails (`Budgeted`). Past the
budget the walk ends early and the watermark still moves to the newest event.
-/
theorem no_lost_event (hsize : 0 < config.pageSize) {s : Polling} {steps : List PollingStep}
    (hdistinct : (s.history.map TxEvents.txId).Nodup)
    (hwatermark : s.registry.watermark contract = some initial)
    (hknown : initial ∈ s.history.map TxEvents.txId)
    (hvalid : Run.Along (Polling.step config contract) (Polling.Valid config contract) s steps)
    (hbudget : Run.Along (Polling.step config contract) (Polling.Budgeted config contract) s
      steps) :
    Run.Along (Polling.step config contract) (Polling.Complete config contract initial) s steps ∧
      Run.Always (Polling.step config contract) (Polling.Covered contract initial) s steps := by
  have hstart : PollInvariant contract initial s :=
    ⟨hdistinct, hknown, initial, hwatermark, hknown, fun t ht hnot => absurd ht hnot⟩
  have hrun := hvalid.and hbudget
  have hinvariant := Run.always_of_along (pollInvariant_step hsize) hstart hrun
  exact ⟨Run.along_of_always (complete_of_invariant hsize) hinvariant hrun,
    hinvariant.mono fun s hs => hs.covered⟩

end Runs

/-- A transaction with one event of the core contract. -/
def swapTx (txId : String) : TxEvents where
  txId := txId
  events := [{
    txId
    decoded := some {
      emitter := deployed "dlmm-core"
      txId
      eventIndex := 0
      action := "swap-x-for-y"
      data := [] } }]
  own := by simp
  nonempty := by simp

/-- One event a page, one event a cycle. -/
def tightConfig : CollectorConfig where
  pageSize := 1
  maxEventsPerCycle := 1
  coldStartPages := 1
  pageSize_le := by decide
  maxEventsPerCycle_le := by decide
  coldStartPages_le := by decide

/-- The watermark is at the one transaction of the history. -/
def caughtUp : Polling where
  history := [swapTx "0x00"]
  queue := { channel := [], capacity := 64, closed := false, seen := ∅, seenCap := 256 }
  registry :=
    { byId := []
      keysDistinct := List.nodup_nil
      watermarks := [(deployed "dlmm-core", "0x00")]
      topics := []
      lastProcessedBlock := 0 }
  offered := []

/-- A cycle in which nothing arrives and nothing fails. -/
def quietCycle : CycleEnv where
  arrivals := []
  fails := fun _ => none
  iters := fun _ => []

/-- One transaction arrives between two cycles. -/
def trickle : List PollingStep := [.grow [swapTx "0x01"], .cycle quietCycle]

/-- Two cycles, each of them within its budget. -/
theorem no_lost_event_trickle :
    Run.Along (Polling.step tightConfig (deployed "dlmm-core"))
        (Polling.Complete tightConfig (deployed "dlmm-core") "0x00") caughtUp trickle ∧
      Run.Always (Polling.step tightConfig (deployed "dlmm-core"))
        (Polling.Covered (deployed "dlmm-core") "0x00") caughtUp trickle := by
  refine no_lost_event (by decide) (by decide) rfl (by decide) ?_ ?_
  · refine ⟨?_, ?_, trivial⟩
    · show ["0x00", "0x01"].Nodup
      decide
    · show ["0x00", "0x01"].Nodup
      decide
  · exact ⟨trivial, Or.inr (Or.inr ⟨0, by decide, Nat.le_refl 1⟩), trivial⟩

/-- Two transactions arrive between two cycles: one more than a cycle's budget. -/
def burst : List PollingStep := [.grow [swapTx "0x01", swapTx "0x02"], .cycle quietCycle]

/-- The cycle returns, the watermark has moved to the newer transaction, and the event of
the older one was not offered. -/
theorem poll_loses_event :
    Run.Along (Polling.step tightConfig (deployed "dlmm-core"))
        (Polling.Valid tightConfig (deployed "dlmm-core")) caughtUp burst ∧
      (Run.exec (Polling.step tightConfig (deployed "dlmm-core")) caughtUp burst).registry.watermark
        (deployed "dlmm-core") = some "0x02" ∧
      ((Run.exec (Polling.step tightConfig (deployed "dlmm-core")) caughtUp burst).offered.map
        (·.txId)) = ["0x02"] ∧
      ¬ Run.Along (Polling.step tightConfig (deployed "dlmm-core"))
        (Polling.Complete tightConfig (deployed "dlmm-core") "0x00") caughtUp burst := by
  refine ⟨⟨?_, ?_, trivial⟩, rfl, rfl, ?_⟩
  · show ["0x00", "0x01", "0x02"].Nodup
    decide
  · show ["0x00", "0x01", "0x02"].Nodup
    decide
  · rintro ⟨-, hcomplete, -⟩
    -- completeness would have the first of the two offered
    have hoffered := hcomplete _ rfl _ (List.mem_cons_self ..) _ rfl
    have hid := List.mem_map_of_mem (f := fun e : StacksEvent => e.txId) hoffered
    have hlost : "0x01" ∈ ["0x02"] := hid
    exact absurd hlost (by decide)

end StacksDex.Results
