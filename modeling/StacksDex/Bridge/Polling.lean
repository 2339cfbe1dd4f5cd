import StacksDex.Lib.Paging
import StacksDex.Lib.Run
import StacksDex.Model.EventPoller

/-!
# StacksDex — polling a growing history

The chain side of the poller: an emitter's history is a list of transactions with
their events, it only grows, and a page is a slice of it, newest first, at the
moment of the request. `Serving.walkPages_complete` says what a walk that returns
has collected: everything that lies between the watermark and the history of its
first request, unless every page it was allowed stayed short of the watermark.

The slice moves while the history grows, so that two pages of a cycle may overlap; they do
not leave anything out between them (`Lib.Paging`). A request may fail, and then the cycle
returns nothing. What the cap and the page budget cut off is the exception in the statement.
-/

namespace StacksDex.Bridge

open StacksDex.Lib StacksDex.Model

/-! ## Histories -/

/-- A transaction with the emitter's events in it. -/
structure TxEvents where
  txId : String
  events : List EventEnvelope
  /-- Every event names its transaction. -/
  own : ∀ env ∈ events, env.txId = txId
  nonempty : events ≠ []

/-- The events of a history, oldest first. -/
def log (history : List TxEvents) : List EventEnvelope := history.flatMap TxEvents.events

/-- The transactions after the one with this id. -/
def afterTx (txId : String) (history : List TxEvents) : List TxEvents :=
  (history.dropWhile fun t => t.txId ≠ txId).drop 1

/-- The events of a history in two parts. -/
@[simp] theorem log_append (h g : List TxEvents) : log (h ++ g) = log h ++ log g :=
  List.flatMap_append

/-- A history splits at a transaction it contains. -/
theorem split_at {txId : String} {h : List TxEvents} (hmem : txId ∈ h.map TxEvents.txId) :
    ∃ before t, h = before ++ t :: afterTx txId h ∧ t.txId = txId := by
  induction h with
  | nil => cases hmem
  | cons t h ih =>
    by_cases ht : t.txId = txId
    · exact ⟨[], t, by simp [afterTx, ht], ht⟩
    · have hmem' : txId ∈ h.map TxEvents.txId := by
        rcases List.mem_cons.mp hmem with heq | hrest
        · exact absurd heq.symm ht
        · exact hrest
      obtain ⟨before, u, hsplit, hu⟩ := ih hmem'
      refine ⟨t :: before, u, ?_, hu⟩
      -- `t` is another transaction, so the search goes past it
      have hskip : afterTx txId (t :: h) = afterTx txId h := by simp [afterTx, ht]
      rw [hskip, List.cons_append, ← hsplit]

/-- With distinct ids, what follows a transaction is what `afterTx` finds. -/
theorem afterTx_eq {before after : List TxEvents} {t : TxEvents}
    (hdistinct : ((before ++ t :: after).map TxEvents.txId).Nodup) :
    afterTx t.txId (before ++ t :: after) = after := by
  -- no earlier transaction has the id
  have hskip : (before ++ t :: after).dropWhile (fun u => u.txId ≠ t.txId) = t :: after := by
    rw [List.dropWhile_append_of_pos]
    · simp
    · intro u hu
      rw [List.map_append, List.nodup_append] at hdistinct
      exact decide_eq_true (hdistinct.2.2 _ (List.mem_map_of_mem hu) _ (by simp))
  rw [afterTx, hskip]
  rfl

/-- Growth adds to what follows a transaction. -/
theorem afterTx_append {txId : String} {h : List TxEvents} (hmem : txId ∈ h.map TxEvents.txId)
    (g : List TxEvents) : afterTx txId (h ++ g) = afterTx txId h ++ g := by
  induction h with
  | nil => cases hmem
  | cons t h ih =>
    by_cases ht : t.txId = txId
    · simp [afterTx, ht]
    · have hmem' : txId ∈ h.map TxEvents.txId := by
        rcases List.mem_cons.mp hmem with heq | hrest
        · exact absurd heq.symm ht
        · exact hrest
      have hskip : ∀ h, afterTx txId (t :: h) = afterTx txId h := fun h => by simp [afterTx, ht]
      rw [List.cons_append, hskip, hskip, ih hmem']

/-! ## One walk -/

section Walk

variable {config : CollectorConfig}
variable {fetchPage : (request limit offset : Nat) → Except Fault (List EventEnvelope)}
variable {watermark : String} {older : List EventEnvelope} {newer : Nat → List EventEnvelope}
variable {fails : Nat → Option Fault}

/-- Past entries of other transactions. -/
theorem collect_append {xs : List EventEnvelope} (h : ∀ env ∈ xs, env.txId ≠ watermark)
    (ys toApply : List EventEnvelope) :
    collect (some watermark) (xs ++ ys) toApply = collect (some watermark) ys (toApply ++ xs) := by
  induction xs generalizing toApply with
  | nil => rw [List.nil_append, List.append_nil]
  | cons env xs ih =>
    have hne : ¬ some watermark = some env.txId := fun heq =>
      h env (List.mem_cons_self ..) (Option.some.inj heq).symm
    rw [List.cons_append, collect, if_neg hne, ih fun e he => h e (List.mem_cons_of_mem _ he),
      List.append_assoc]
    rfl

/-- Collecting a page drops nothing of what was collected before. -/
theorem collect_subset (watermark : Option String) (page toApply : List EventEnvelope) :
    toApply ⊆ (collect watermark page toApply).1 := by
  induction page generalizing toApply with
  | nil => exact List.Subset.refl _
  | cons env rest ih =>
    unfold collect
    split
    · exact List.Subset.refl _
    · exact List.Subset.trans (List.subset_append_left _ _) (ih _)

/-- A walk only adds: what it has collected stays, and so does the newest id seen. -/
theorem walkPages_extends {watermark : Option String} {n i : Nat} {w w' : Walk}
    (hok : walkPages config fetchPage watermark n i w = .ok w') :
    w.toApply ⊆ w'.toApply ∧ ∀ t, w.newestSeen = some t → w'.newestSeen = some t := by
  -- on the pages to go; every stop condition keeps what has been collected
  induction n generalizing i w with
  | zero =>
    cases hok
    exact ⟨List.Subset.refl _, fun t ht => ht⟩
  | succ n ih =>
    obtain ⟨page, -, ⟨-, rfl⟩ | ⟨newest, rest, -, hpage⟩⟩ := walkPages_cases hok
    · exact ⟨List.Subset.refl _, fun t ht => ht⟩
    have hsub : w.toApply ⊆ (w.withPage watermark newest rest).toApply := collect_subset ..
    -- the newest id is set once
    have hstay : ∀ t, w.newestSeen = some t →
        (w.withPage watermark newest rest).newestSeen = some t := by
      intro t ht
      rw [Walk.withPage, ht]
      rfl
    rcases hpage with ⟨-, rfl⟩ | ⟨-, hnext⟩
    · exact ⟨hsub, hstay⟩
    · obtain ⟨hrest, hnewest⟩ := ih hnext
      exact ⟨List.Subset.trans hsub hrest, fun t ht => hnewest t (hstay t ht)⟩

/-- The pages a node serves: the newer part of the log is what the watermark has not
covered, and grows from request to request. -/
structure Serving (fetchPage : (request limit offset : Nat) → Except Fault (List EventEnvelope))
    (watermark : String) (older : List EventEnvelope) (newer : Nat → List EventEnvelope)
    (fails : Nat → Option Fault) : Prop where
  /-- A request fails, or shows a slice of the log of its moment. -/
  answer : ∀ i limit offset, fetchPage i limit offset =
    match fails i with
    | some fault => .error fault
    | none => .ok (Paging.page limit offset (older ++ newer i))
  /-- The older part ends with the watermark's transaction. -/
  marked : ∃ before env, older = before ++ [env] ∧ env.txId = watermark
  /-- The newer part is of other transactions. -/
  unmarked : ∀ i, ∀ env ∈ newer i, env.txId ≠ watermark
  grows : ∀ i, newer i <+: newer (i + 1)

/-- Later requests see longer histories. -/
theorem Serving.mono (h : Serving fetchPage watermark older newer fails) {i k : Nat}
    (hik : i ≤ k) : newer i <+: newer k := by
  induction hik with
  | refl => exact List.prefix_refl _
  | step _ ih => exact ih.trans (h.grows _)

/-- The page a request shows, cut at the watermark: a slice of the newer part, all of it
if the page reaches the watermark. -/
theorem Serving.collect_page (h : Serving fetchPage watermark older newer fails) {i offset : Nat}
    (limit : Nat) (hstart : offset ≤ (newer i).length) (toApply : List EventEnvelope) :
    collect (some watermark) (Paging.page limit offset (older ++ newer i)) toApply =
      (toApply ++ Paging.page limit offset (newer i),
        decide ((newer i).length < offset + limit)) := by
  -- the newer part of the page is collected whole
  have hunmarked : ∀ env ∈ Paging.page limit offset (newer i), env.txId ≠ watermark :=
    fun env he => h.unmarked i env (Paging.page_subset _ _ _ he)
  rw [Paging.page_append hstart, collect_append hunmarked]
  by_cases hreach : (newer i).length < offset + limit
  · -- the next entry is the newest of the older part, and that is the watermark's
    obtain ⟨before, env, rfl, henv⟩ := h.marked
    obtain ⟨k, hk⟩ : ∃ k, limit - ((newer i).length - offset) = k + 1 :=
      ⟨limit - ((newer i).length - offset) - 1, by omega⟩
    rw [hk, List.reverse_append, List.reverse_singleton, List.singleton_append, List.take_succ_cons,
      collect, if_pos (by rw [henv]), decide_eq_true hreach]
  · rw [show limit - ((newer i).length - offset) = 0 by omega, List.take_zero, collect,
      decide_eq_false hreach]

/-- One page of the walk. -/
theorem Serving.walkPages_succ (h : Serving fetchPage watermark older newer fails)
    (hsize : 0 < config.pageSize) {n i : Nat} {w : Walk} (hoffset : i * config.pageSize ≤ u32Max)
    (hanswer : fails i = none) (hstart : i * config.pageSize ≤ (newer i).length) :
    ∃ newest : EventEnvelope, walkPages config fetchPage (some watermark) (n + 1) i w =
        let w' : Walk :=
          { toApply := w.toApply ++ Paging.page config.pageSize (i * config.pageSize) (newer i)
            newestSeen := w.newestSeen.orElse fun _ => some newest.txId
            reachedWatermark := decide ((newer i).length < (i + 1) * config.pageSize) }
        if (newer i).length < (i + 1) * config.pageSize then .ok w'
        else if asU32 w'.toApply.length ≥ config.maxEventsPerCycle then .ok w'
        else walkPages config fetchPage (some watermark) n (i + 1) w' := by
  obtain ⟨before, env, rfl, -⟩ := h.marked
  -- page `i` ends where page `i + 1` starts
  have hend : i * config.pageSize + config.pageSize = (i + 1) * config.pageSize := by
    rw [Nat.add_mul, Nat.one_mul]
  have hcollect := h.collect_page config.pageSize hstart w.toApply
  have hlength := Paging.length_page config.pageSize (i * config.pageSize)
    ((before ++ [env]) ++ newer i)
  rw [List.length_append, List.length_append, List.length_singleton] at hlength
  have hfetch := h.answer i config.pageSize (i * config.pageSize)
  rw [hanswer] at hfetch
  rw [hend] at hcollect
  -- the watermark's own events come after the page's start, so the page is not empty
  cases hpage : Paging.page config.pageSize (i * config.pageSize)
      ((before ++ [env]) ++ newer i) with
  | nil =>
    rw [hpage, List.length_nil] at hlength
    omega
  | cons newest rest =>
    rw [hpage] at hcollect hlength hfetch
    refine ⟨newest, ?_⟩
    simp only [walkPages, u32Mul_ok hoffset, ok_bind, hfetch, hcollect, decide_eq_true_eq]
    by_cases hreach : (newer i).length < (i + 1) * config.pageSize
    · rw [if_pos hreach, if_pos hreach]
    · have hfull : (newest :: rest).length = config.pageSize := by omega
      rw [if_neg hreach, if_neg hreach, hfull, asU32_of_le config.pageSize_le,
        if_neg (Nat.lt_irrefl _)]

/-- **One page.** After page `i`, everything of the first request's history from the page's far
end on is collected, if everything from its near end on was. -/
theorem Serving.covers_page (h : Serving fetchPage watermark older newer fails) {i : Nat}
    {collected : List EventEnvelope}
    (hcovered : ∀ j (hj : j < (newer 0).length), (newer i).length ≤ j + i * config.pageSize →
      (newer 0)[j] ∈ collected) (j : Nat) (hj : j < (newer 0).length)
    (hfar : (newer i).length ≤ j + (i + 1) * config.pageSize) :
    (newer 0)[j] ∈ collected ++
      Paging.page config.pageSize (i * config.pageSize) (newer i) := by
  have hend : (i + 1) * config.pageSize = i * config.pageSize + config.pageSize := by
    rw [Nat.add_mul, Nat.one_mul]
  rw [List.mem_append]
  by_cases hold : (newer i).length ≤ j + i * config.pageSize
  · exact Or.inl (hcovered j hj hold)
  · have hgrown := h.mono (Nat.zero_le i)
    have hlt : j < (newer i).length := by omega
    rw [hgrown.getElem hj]
    exact Or.inr (Paging.mem_page hlt (by omega) (by omega))

/-- **A walk that returns is complete**, unless every page it was allowed answered and
stayed short of the watermark: everything newer than the watermark in the history of the
first request has been collected. -/
theorem Serving.walkPages_complete (h : Serving fetchPage watermark older newer fails)
    (hsize : 0 < config.pageSize) {budget : Nat}
    (hbudget : ∀ m, m + 1 < budget → (m + 1) * config.pageSize < config.maxEventsPerCycle)
    {n i : Nat} {w w' : Walk} (hn : i + n = budget)
    (hlength : w.toApply.length = i * config.pageSize)
    (hstart : i * config.pageSize ≤ (newer i).length)
    (hcovered : ∀ j (hj : j < (newer 0).length), (newer i).length ≤ j + i * config.pageSize →
      (newer 0)[j] ∈ w.toApply)
    (hok : walkPages config fetchPage (some watermark) n i w = .ok w') :
    newer 0 ⊆ w'.toApply ∨
      ∀ m, i ≤ m → m < budget → fails m = none ∧ (m + 1) * config.pageSize < (newer m).length := by
  -- on the pages to go; before page `i` the newest `i` pages' worth is collected
  induction n generalizing i w with
  | zero => exact Or.inr fun m him hm => absurd hm (by omega)
  | succ n ih =>
    have hmax := config.maxEventsPerCycle_le
    -- a page within the budget starts below the cap, so the offset does not overflow
    have hoffset : i * config.pageSize ≤ u32Max := by
      cases i with
      | zero => omega
      | succ i =>
        have := hbudget i (by omega)
        omega
    cases hanswer : fails i with
    | some fault =>
      -- a failed request fails the walk
      have hfetch := h.answer i config.pageSize (i * config.pageSize)
      rw [hanswer] at hfetch
      rw [walkPages, u32Mul_ok hoffset, ok_bind, hfetch] at hok
      cases hok
    | none =>
      obtain ⟨newest, hsucc⟩ := h.walkPages_succ hsize (n := n) (w := w) hoffset hanswer hstart
      rw [hsucc] at hok
      have hend : (i + 1) * config.pageSize = i * config.pageSize + config.pageSize := by
        rw [Nat.add_mul, Nat.one_mul]
      have hpage := Paging.length_page config.pageSize (i * config.pageSize) (newer i)
      have hcovered' := h.covers_page hcovered
      by_cases hreach : (newer i).length ≤ (i + 1) * config.pageSize
      · -- the page shows everything down to the watermark
        have hall : newer 0 ⊆ w.toApply ++
            Paging.page config.pageSize (i * config.pageSize) (newer i) := by
          intro env he
          obtain ⟨j, hj, rfl⟩ := List.mem_iff_getElem.mp he
          exact hcovered' j hj (by omega)
        refine Or.inl (List.Subset.trans hall ?_)
        dsimp only at hok
        split at hok
        · cases hok
          exact List.Subset.refl _
        · split at hok
          · cases hok
            exact List.Subset.refl _
          · exact (walkPages_extends hok).1
      · have hlong : (i + 1) * config.pageSize < (newer i).length := by omega
        -- a full page of newer events
        have hsum : (w.toApply ++ Paging.page config.pageSize (i * config.pageSize)
            (newer i)).length = (i + 1) * config.pageSize := by
          rw [List.length_append, hlength, hpage]
          omega
        dsimp only at hok
        rw [if_neg (by omega), hsum] at hok
        by_cases hcap : asU32 ((i + 1) * config.pageSize) ≥ config.maxEventsPerCycle
        · -- the event cap only ends a walk that has no page left
          have hlast : n = 0 := by
            by_contra hn0
            have hbelow := hbudget i (by omega)
            rw [asU32_of_le (by omega)] at hcap
            omega
          refine Or.inr ?_
          intro m him hm
          obtain rfl : m = i := by omega
          exact ⟨hanswer, hlong⟩
        · rw [if_neg hcap] at hok
          -- the next page starts inside the newer part, which has only grown
          have hgrows := (h.grows i).length_le
          rcases ih (by omega) hsum (by omega) (fun j hj hfar => hcovered' j hj (by omega)) hok with
            hall | hover
          · exact Or.inl hall
          · refine Or.inr ?_
            intro m him hm
            by_cases hm' : m = i
            · subst hm'
              exact ⟨hanswer, hlong⟩
            · exact hover m (by omega) hm

/-- The first page that is not empty tells the newest transaction. -/
theorem walkPages_newest {watermark : Option String} {n : Nat} {w w' : Walk}
    (hnone : w.newestSeen = none)
    (hok : walkPages config fetchPage watermark (n + 1) 0 w = .ok w') :
    ∃ page, fetchPage 0 config.pageSize 0 = .ok page ∧
      w'.newestSeen = page.head?.map EventEnvelope.txId := by
  obtain ⟨page, hfetch, hpage⟩ := walkPages_cases hok
  rw [Nat.zero_mul] at hfetch
  refine ⟨page, hfetch, ?_⟩
  rcases hpage with ⟨rfl, rfl⟩ | ⟨newest, rest, rfl, hpage⟩
  · exact hnone
  have hset : (w.withPage watermark newest rest).newestSeen = some newest.txId := by
    rw [Walk.withPage, hnone]
    rfl
  -- set by this page, and kept by the pages after it
  rcases hpage with ⟨-, rfl⟩ | ⟨-, hnext⟩
  · exact hset
  · exact (walkPages_extends hnext).2 _ hset

/-- The first page tells the newest transaction of its moment. -/
theorem Serving.walkPages_newest (h : Serving fetchPage watermark older newer fails)
    (hsize : 0 < config.pageSize) {n : Nat} {w w' : Walk} (hnone : w.newestSeen = none)
    (hok : walkPages config fetchPage (some watermark) (n + 1) 0 w = .ok w') :
    ∃ newest, (older ++ newer 0).getLast? = some newest ∧ w'.newestSeen = some newest.txId := by
  obtain ⟨page, hfetch, hnewest⟩ := Bridge.walkPages_newest hnone hok
  rw [h.answer] at hfetch
  cases hanswer : fails 0 with
  | some fault =>
    rw [hanswer] at hfetch
    cases hfetch
  | none =>
    rw [hanswer] at hfetch
    cases hfetch
    -- the history has at least the watermark's transaction, so the page is not empty
    obtain ⟨before, env, rfl, -⟩ := h.marked
    obtain ⟨newest, hlast⟩ : ∃ newest, (before ++ [env] ++ newer 0).getLast? = some newest := by
      refine Option.ne_none_iff_exists'.mp fun hnil => ?_
      simp at hnil
    refine ⟨newest, hlast, ?_⟩
    rw [hnewest, Paging.head?_page_zero hsize, hlast]
    rfl

end Walk

/-! ## Cycles -/

/-- What happens around the requests of a cycle: the transactions that arrive just before
each, which of them fail, and how the dedup set is iterated. -/
structure CycleEnv where
  /-- Just before each request; what is left over arrives after the last. -/
  arrivals : List (List TxEvents)
  fails : Nat → Option Fault
  iters : Nat → List EventKey

/-- The history at the `i`-th request. -/
def CycleEnv.historyAt (env : CycleEnv) (history : List TxEvents) (i : Nat) : List TxEvents :=
  history ++ (env.arrivals.take (i + 1)).flatten

/-- `fetch_events_page` at the moments of the cycle's requests. -/
def CycleEnv.fetchPage (env : CycleEnv) (history : List TxEvents) (request limit offset : Nat) :
    Except Fault (List EventEnvelope) :=
  match env.fails request with
  | some fault => .error fault
  | none => .ok (Paging.page limit offset (log (env.historyAt history request)))

/-- The chain, the poller's side, and a record of what was passed to `send_dedup`. -/
structure Polling where
  history : List TxEvents
  queue : EventQueue
  registry : PoolRegistry
  /-- In order, since the beginning of the run. -/
  offered : List StacksEvent

inductive PollingStep where
  /-- Transactions arrive between two cycles. -/
  | grow (arrived : List TxEvents)
  /-- One call of `poll_once`. -/
  | cycle (env : CycleEnv)

namespace Polling

variable (config : CollectorConfig) (contract : Principal)

def poll (s : Polling) (env : CycleEnv) : Except Fault Polled :=
  pollOnce config (env.fetchPage s.history) env.iters contract s.queue s.registry

/-- The history grows, or a cycle runs (while it grows). A failed cycle changes nothing. -/
def step (s : Polling) : PollingStep → Polling
  | .grow arrived => { s with history := s.history ++ arrived }
  | .cycle env =>
    let history := s.history ++ env.arrivals.flatten
    match s.poll config contract env with
    | .ok r =>
      { history, queue := r.queue, registry := r.registry, offered := s.offered ++ r.offered }
    | .error _ => { s with history }

/-- Transactions have distinct ids, the arriving ones included. -/
def Valid (s : Polling) (l : PollingStep) : Prop :=
  ((step config contract s l).history.map TxEvents.txId).Nodup

/-- How many pages a cycle with a watermark may walk. -/
def budget : Nat := (config.maxEventsPerCycle + config.pageSize - 1) / config.pageSize

/-- The number of events after the watermark's transaction. -/
def backlog (s : Polling) (history : List TxEvents) : Nat :=
  match s.registry.watermark contract with
  | some txId => (log (afterTx txId history)).length
  | none => (log history).length

/-- A cycle is within budget if, at one of the requests it may make, all that lies after
the watermark fits in the pages up to that one (or a request fails, or there is nothing
to ask for and no page to ask). -/
def Budgeted (s : Polling) : PollingStep → Prop
  | .grow _ => True
  | .cycle env =>
    (budget config = 0 ∧ s.backlog contract s.history = 0) ∨
    (∃ i < budget config, (env.fails i).isSome) ∨
    ∃ i < budget config,
      s.backlog contract (env.historyAt s.history i) ≤ (i + 1) * config.pageSize

/-- Everything that can be decoded in these transactions was passed to `send_dedup`. -/
def Offered (s : Polling) (txs : List TxEvents) : Prop :=
  ∀ env ∈ log txs, ∀ event, env.decoded = some event → event ∈ s.offered

/-- After a cycle that returns, whatever was in the history at its start and after the
initial watermark has been offered, in this cycle or an earlier one. -/
def Complete (initial : String) (s : Polling) : PollingStep → Prop
  | .grow _ => True
  | .cycle env => ∀ r, s.poll config contract env = .ok r →
    Offered (step config contract s (.cycle env)) (afterTx initial s.history)

/-- The watermark is a transaction of the history, and nothing between the initial
watermark and it was left out. -/
def Covered (initial : String) (s : Polling) : Prop :=
  ∃ txId, s.registry.watermark contract = some txId ∧ txId ∈ s.history.map TxEvents.txId ∧
    ∀ t ∈ afterTx initial s.history, t ∉ afterTx txId s.history → s.Offered [t]

end Polling

end StacksDex.Bridge
