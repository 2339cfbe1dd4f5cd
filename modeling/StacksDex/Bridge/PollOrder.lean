import Mathlib.Data.List.TakeWhile
import StacksDex.Lib.Paging
import StacksDex.Lib.Run
import StacksDex.Model.EventPoller

/-!
# StacksDex — the order in which a poller enqueues

Here the history is a sequence of events, `chain 0`, `chain 1`, …, of which a prefix is
visible at each moment, and whatever a cycle sends is named by its position. While no two
requests of a cycle are more than a page of growth apart, what the cycle collects climbs:
it has no gaps, and what a page repeats is in the pages after it too (`walk_collected`).
Sent backwards through the dedup set, that is an ascending list (`enqueue_climbs`).
-/

namespace StacksDex.Bridge

open StacksDex.Lib StacksDex.Lib.Paging StacksDex.Model

/-! ## One walk -/

section Walk

variable {config : CollectorConfig}
variable {fetchPage : (request limit offset : Nat) → Except Fault (List EventEnvelope)}
variable {chain : Nat → EventEnvelope} {watermark : Option String} {size low : Nat} {xs : List Nat}

/-- A page is collected up to its first event of the watermark's transaction. -/
theorem collect_eq (watermark : Option String) (page toApply : List EventEnvelope) :
    collect watermark page toApply =
      (toApply ++ page.takeWhile (fun env => !decide (watermark = some env.txId)),
        page.any fun env => decide (watermark = some env.txId)) := by
  induction page generalizing toApply with
  | nil => simp [collect]
  | cons env rest ih =>
    by_cases henv : watermark = some env.txId
    · simp [collect, henv]
    · rw [collect, if_neg henv, ih]
      simp [henv]

/-- What has been collected: everything from `low` to the end of the first page's history,
none of it of the watermark's transaction. -/
structure Collected (chain : Nat → EventEnvelope) (watermark : Option String) (size : Nat)
    (xs : List Nat) (low : Nat) : Prop where
  climbs : Climbs xs
  mem : ∀ p, p ∈ xs ↔ low ≤ p ∧ p < size
  unmarked : ∀ p ∈ xs, watermark ≠ some (chain p).txId

/-- One more page, which starts at `high` and joins what has been collected. -/
theorem Collected.page (h : Collected chain watermark size xs low) {high limit : Nat}
    (hjoin : low ≤ high) (hsize : high ≤ size) (hreach : high ≤ low + limit) {ys : List Nat}
    (hys : ys.Pairwise (· > ·)) (hmem : ∀ p, p ∈ ys ↔ high - limit ≤ p ∧ p < high) :
    ∃ low', Collected chain watermark size
        (xs ++ ys.takeWhile fun p => !decide (watermark = some (chain p).txId)) low' ∧
      ((∀ p ∈ ys, watermark ≠ some (chain p).txId) → low' = high - limit) := by
  by_cases hmark : ∃ m ∈ ys, watermark = some (chain m).txId
  · -- the page is cut below its newest event of the transaction
    obtain ⟨m, ⟨hm, hmarked⟩, hnewest⟩ : ∃ m, (m ∈ ys ∧ watermark = some (chain m).txId) ∧
        ∀ q ∈ ys, watermark = some (chain q).txId → q ≤ m := by
      obtain ⟨m, hm, hmarked⟩ := hmark
      have hbound : ∀ q ∈ ys, q ≤ high := fun q hq => Nat.le_of_lt ((hmem q).mp hq).2
      have hspec := Nat.findGreatest_spec
        (P := fun q => q ∈ ys ∧ watermark = some (chain q).txId) (hbound m hm) ⟨hm, hmarked⟩
      refine ⟨_, hspec, fun q hq hqmarked => ?_⟩
      exact Nat.le_findGreatest (hbound q hq) ⟨hq, hqmarked⟩
    have hcut : ∀ p, p ∈ ys.takeWhile (fun p => !decide (watermark = some (chain p).txId)) ↔
        m + 1 ≤ p ∧ p < high := by
      intro p
      rw [mem_takeWhile_descending hys, hmem]
      have hmlow := (hmem m).mp hm
      constructor
      · rintro ⟨⟨hp, hp'⟩, hall⟩
        refine ⟨Nat.lt_of_not_le fun hle => ?_, hp'⟩
        have := hall m hm hle
        simp [hmarked] at this
      · rintro ⟨hp, hp'⟩
        refine ⟨⟨by omega, hp'⟩, fun q hq hle => ?_⟩
        have : watermark ≠ some (chain q).txId := fun heq => by
          have := hnewest q hq heq
          omega
        simp [this]
    -- nothing collected before reaches down to it
    have hbefore : m < low := by
      by_contra hge
      have hmem' := (hmem m).mp hm
      exact h.unmarked m ((h.mem m).mpr ⟨by omega, by omega⟩) hmarked
    refine ⟨m + 1, ⟨?_, ?_, ?_⟩, fun hnone => absurd hmarked (hnone m hm)⟩
    · refine h.climbs.append (climbs_of_descending (hys.sublist (List.takeWhile_sublist _))) hcut ?_
      intro p hp
      have := (h.mem p).mp hp
      omega
    · intro p
      rw [List.mem_append, hcut, h.mem]
      have := (hmem m).mp hm
      omega
    · intro p hp
      rcases List.mem_append.mp hp with hp | hp
      · exact h.unmarked p hp
      · have hbound := (hcut p).mp hp
        intro heq
        have hin : p ∈ ys := List.takeWhile_subset _ hp
        have := hnewest p hin heq
        omega
  · have hnone : ∀ p ∈ ys, watermark ≠ some (chain p).txId := fun p hp heq => hmark ⟨p, hp, heq⟩
    have hall : ys.takeWhile (fun p => !decide (watermark = some (chain p).txId)) = ys :=
      List.takeWhile_eq_self_iff.mpr fun p hp => by simp [hnone p hp]
    rw [hall]
    refine ⟨high - limit, ⟨?_, ?_, ?_⟩, fun _ => rfl⟩
    · refine h.climbs.append (climbs_of_descending hys) hmem ?_
      intro p hp
      have := (h.mem p).mp hp
      omega
    · intro p
      rw [List.mem_append, hmem, h.mem]
      omega
    · intro p hp
      rcases List.mem_append.mp hp with hp | hp
      · exact h.unmarked p hp
      · exact hnone p hp

variable {sizeAt : Nat → Nat} {fails : Nat → Option Fault}

/-- The pages a node serves: a request fails, or shows a slice of the history of its
moment, and no two requests are more than a page of growth apart. -/
structure Drifting (fetchPage : (request limit offset : Nat) → Except Fault (List EventEnvelope))
    (pageSize : Nat) (chain : Nat → EventEnvelope) (sizeAt : Nat → Nat)
    (fails : Nat → Option Fault) : Prop where
  answer : ∀ i limit offset, fetchPage i limit offset =
    match fails i with
    | some fault => .error fault
    | none => .ok (page limit offset ((List.range (sizeAt i)).map chain))
  grows : ∀ i, sizeAt i ≤ sizeAt (i + 1)
  drift : ∀ i, sizeAt (i + 1) ≤ sizeAt i + pageSize

/-- By the `i`-th request of a cycle the chain has grown by at most `i` pages. -/
theorem Drifting.size_le (h : Drifting fetchPage config.pageSize chain sizeAt fails) (i : Nat) :
    sizeAt i ≤ sizeAt 0 + i * config.pageSize := by
  induction i with
  | zero => omega
  | succ i ih =>
    have := h.drift i
    rw [Nat.add_mul, Nat.one_mul]
    omega

/-- The newest event of a history. -/
theorem head?_page_chain (chain : Nat → EventEnvelope) (n : Nat) {limit : Nat}
    (hlimit : 0 < limit) :
    (page limit 0 ((List.range n).map chain)).head? =
      if 0 < n then some (chain (n - 1)) else none := by
  rw [head?_page_zero hlimit, List.getLast?_map]
  cases n with
  | zero => rfl
  | succ n => simp [List.range_succ]

/-- The first page sets the newest transaction, and the later ones keep it. -/
theorem newestSeen_withPage {limit i : Nat} {w : Walk} {newest : EventEnvelope}
    {rest : List EventEnvelope} (hlimit : 0 < limit)
    (hcons : page limit (i * limit) ((List.range (sizeAt i)).map chain) = newest :: rest)
    (hnewest : (i = 0 ∧ w.newestSeen = none) ∨
      (0 < sizeAt 0 ∧ w.newestSeen = some (chain (sizeAt 0 - 1)).txId)) :
    0 < sizeAt 0 ∧ (w.withPage watermark newest rest).newestSeen =
      some (chain (sizeAt 0 - 1)).txId := by
  rcases hnewest with ⟨rfl, hnone⟩ | ⟨hpos, hsome⟩
  · have hhead := head?_page_chain chain (sizeAt 0) hlimit
    rw [Nat.zero_mul] at hcons
    rw [hcons, List.head?_cons] at hhead
    by_cases hpos : 0 < sizeAt 0
    · rw [if_pos hpos] at hhead
      rw [Walk.withPage, hnone]
      exact ⟨hpos, congrArg (Option.map EventEnvelope.txId) hhead⟩
    · rw [if_neg hpos] at hhead
      cases hhead
  · rw [Walk.withPage, hsome]
    exact ⟨hpos, rfl⟩

/-- **One walk.** It has collected everything from some position to the end of the history
of its first request, and the newest transaction it reports is that history's last. -/
theorem Drifting.walk_collected
    (h : Drifting fetchPage config.pageSize chain sizeAt fails) (hpage : 0 < config.pageSize)
    {n i : Nat} {w w' : Walk} (hcol : Collected chain watermark (sizeAt 0) xs low)
    (happly : w.toApply = xs.map chain) (hlow : low + i * config.pageSize ≤ sizeAt i)
    (hhigh : sizeAt i ≤ low + i * config.pageSize + config.pageSize)
    (hnewest : (i = 0 ∧ xs = [] ∧ w.newestSeen = none) ∨
      (0 < sizeAt 0 ∧ w.newestSeen = some (chain (sizeAt 0 - 1)).txId))
    (hok : walkPages config fetchPage watermark n i w = .ok w') :
    ∃ xs' low', Collected chain watermark (sizeAt 0) xs' low' ∧ w'.toApply = xs'.map chain ∧
      ((xs' = [] ∧ w'.newestSeen = none) ∨
        (0 < sizeAt 0 ∧ w'.newestSeen = some (chain (sizeAt 0 - 1)).txId)) := by
  -- on the pages to go; page `i` starts where the growth since page `i - 1` has moved it
  induction n generalizing i w xs low with
  | zero =>
    cases hok
    exact ⟨xs, low, hcol, happly, hnewest.imp_left And.right⟩
  | succ n ih =>
    obtain ⟨listed, hlisted, hrest⟩ := walkPages_cases hok
    rw [h.answer] at hlisted
    cases hfails : fails i with
    | some fault =>
      rw [hfails] at hlisted
      cases hlisted
    | none =>
      rw [hfails] at hlisted
      cases hlisted
      rcases hrest with ⟨-, rfl⟩ | ⟨newest, rest, hcons, hrest⟩
      · exact ⟨xs, low, hcol, happly, hnewest.imp_left And.right⟩
      have hbound := h.size_le i
      set ys := page config.pageSize (i * config.pageSize) (List.range (sizeAt i)) with hys
      have hmap : page config.pageSize (i * config.pageSize) ((List.range (sizeAt i)).map chain) =
          ys.map chain := page_map ..
      have hdescending : ys.Pairwise (· > ·) := page_range_descending ..
      have hmem : ∀ p, p ∈ ys ↔
          sizeAt i - i * config.pageSize - config.pageSize ≤ p ∧
            p < sizeAt i - i * config.pageSize := fun p => mem_page_range
      obtain ⟨low', hcol', hcut⟩ := hcol.page (by omega) (by omega) (by omega) hdescending hmem
      have hset : 0 < sizeAt 0 ∧ (w.withPage watermark newest rest).newestSeen =
          some (chain (sizeAt 0 - 1)).txId :=
        newestSeen_withPage hpage hcons (hnewest.imp_left fun h => ⟨h.1, h.2.2⟩)
      have hcollected := collect_eq watermark (ys.map chain) w.toApply
      rw [List.takeWhile_map, happly, ← List.map_append] at hcollected
      rw [hmap] at hcons hrest
      have happly' : (w.withPage watermark newest rest).toApply =
          (xs ++ ys.takeWhile fun p => !decide (watermark = some (chain p).txId)).map chain := by
        rw [Walk.withPage, ← hcons, happly, hcollected]
        rfl
      rcases hrest with ⟨-, rfl⟩ | ⟨hgoes, hnext⟩
      · exact ⟨_, low', hcol', happly', Or.inr hset⟩
      -- a full page of other transactions: the next one starts at most a page above its end
      have hunmarked : ∀ p ∈ ys, watermark ≠ some (chain p).txId := by
        intro p hp heq
        refine hgoes (Or.inl ?_)
        rw [Walk.withPage, ← hcons, collect_eq]
        refine List.any_eq_true.mpr ⟨chain p, List.mem_map_of_mem hp, ?_⟩
        exact decide_eq_true heq
      have hfull : ¬ asU32 (ys.map chain).length < config.pageSize := fun hshort =>
        hgoes (Or.inr (Or.inl hshort))
      have hlow' := hcut hunmarked
      have hlength : ys.length = min config.pageSize (sizeAt i - i * config.pageSize) := by
        rw [hys, length_page, List.length_range]
      have hmax := config.pageSize_le
      rw [List.length_map, asU32_of_le (by omega)] at hfull
      have hgrows := h.grows i
      have hdrift := h.drift i
      have hmul : (i + 1) * config.pageSize = i * config.pageSize + config.pageSize := by
        rw [Nat.add_mul, Nat.one_mul]
      exact ih hcol' happly' (by omega) (by omega) (Or.inr hset) hnext

end Walk

/-! ## The sends of a cycle -/

section Sends

variable {chain : Nat → EventEnvelope}

/-- What a cycle that collected `xs`, newest first, passes to `send_dedup`. -/
def offers (chain : Nat → EventEnvelope) (xs : List Nat) : List StacksEvent :=
  (xs.map chain).reverse.filterMap (·.decoded)

/-- No send of the list evicts anything. -/
def KeepsAll (iters : Nat → List EventKey) (queue : EventQueue) : List StacksEvent → Prop
  | [] => True
  | event :: rest => queue.Keeps (iters 0) event ∧
    KeepsAll (fun i => iters (i + 1)) (queue.sendDedup (iters 0) event).1 rest

/-- `events` are decoded at the ascending positions `ps`. -/
def Placed (chain : Nat → EventEnvelope) (ps : List Nat) (events : List StacksEvent) : Prop :=
  ps.Pairwise (· < ·) ∧ events.map some = ps.map fun p => (chain p).decoded

/-- **One cycle's sends.** A list that climbs enters the channel in ascending order, above
whatever was sent before. -/
theorem enqueue_climbs {xs sent : List Nat} (hclimbs : Climbs (xs ++ sent))
    {iters : Nat → List EventKey} {queue : EventQueue}
    (hsent : ∀ p ∈ sent, ∀ event, (chain p).decoded = some event → event.key ∈ queue.seen)
    (hkeeps : KeepsAll iters queue (offers chain xs)) :
    ∃ ps events, Placed chain ps events ∧ (∀ p ∈ ps, p ∈ xs ∧ ∀ q ∈ sent, q < p) ∧
      (enqueue iters queue (offers chain xs)).1.channel = queue.channel ++ events := by
  -- on the list from its end, which is sent first
  induction xs using List.reverseRecOn generalizing sent iters queue with
  | nil => exact ⟨[], [], ⟨List.Pairwise.nil, rfl⟩, by simp, (List.append_nil _).symm⟩
  | append_singleton xs x ih =>
    have hoffers : offers chain (xs ++ [x]) =
        (chain x).decoded.toList ++ offers chain xs := by
      cases hx : (chain x).decoded <;> simp [offers, hx]
    rw [List.append_assoc] at hclimbs
    have hfirst := hclimbs.suffix.1
    -- the sends after the first are those of `xs`, with `x` among what was sent
    cases hx : (chain x).decoded with
    | none =>
      rw [hoffers, hx, Option.toList_none, List.nil_append] at hkeeps ⊢
      have hsent' : ∀ p ∈ x :: sent, ∀ event, (chain p).decoded = some event →
          event.key ∈ queue.seen := by
        intro p hp event hevent
        rcases List.mem_cons.mp hp with rfl | hp
        · rw [hx] at hevent
          cases hevent
        · exact hsent p hp event hevent
      obtain ⟨ps, events, hplaced, habove, hchannel⟩ := ih hclimbs hsent' hkeeps
      refine ⟨ps, events, hplaced, fun p hp => ⟨?_, fun q hq => ?_⟩, hchannel⟩
      · exact List.mem_append_left _ (habove p hp).1
      · exact (habove p hp).2 q (List.mem_cons_of_mem _ hq)
    | some event =>
      rw [hoffers, hx, Option.toList_some, List.singleton_append] at hkeeps ⊢
      obtain ⟨hkeep, hkeeps⟩ := hkeeps
      have hseen := EventQueue.seen_sendDedup hkeep
      have hsent' : ∀ p ∈ x :: sent, ∀ e, (chain p).decoded = some e →
          e.key ∈ (queue.sendDedup (iters 0) event).1.seen := by
        intro p hp e he
        rw [hseen]
        rcases List.mem_cons.mp hp with rfl | hp
        · rw [hx] at he
          rw [← Option.some.inj he]
          exact Finset.mem_insert_self _ _
        · exact Finset.mem_insert_of_mem (hsent p hp e he)
      obtain ⟨ps, events, ⟨hascending, hdecoded⟩, habove, hchannel⟩ := ih hclimbs hsent' hkeeps
      have habove' : ∀ p ∈ ps, p ∈ xs ++ [x] ∧ ∀ q ∈ sent, q < p := fun p hp =>
        ⟨List.mem_append_left _ (habove p hp).1,
          fun q hq => (habove p hp).2 q (List.mem_cons_of_mem _ hq)⟩
      rcases EventQueue.channel_sendDedup (iters 0) queue event with hsame | ⟨hnew, hpushed⟩
      · refine ⟨ps, events, ⟨hascending, hdecoded⟩, habove', ?_⟩
        rw [hsame] at hchannel
        exact hchannel
      · -- a new event is above all before it, and all after it are above
        have htop : ∀ q ∈ sent, q < x := by
          rcases hfirst with hagain | htop
          · exact absurd (hsent x hagain event hx) hnew
          · exact htop
        refine ⟨x :: ps, event :: events, ⟨?_, ?_⟩, ?_, ?_⟩
        · refine List.pairwise_cons.mpr ⟨fun p hp => ?_, hascending⟩
          exact (habove p hp).2 x (List.mem_cons_self ..)
        · rw [List.map_cons, List.map_cons, hdecoded, hx]
        · intro p hp
          rcases List.mem_cons.mp hp with rfl | hp
          · exact ⟨List.mem_append_right _ (List.mem_singleton_self _), htop⟩
          · exact habove' p hp
        · rw [hpushed, List.append_assoc] at hchannel
          exact hchannel

end Sends

/-! ## Runs of cycles -/

/-- What happens around the requests of a cycle: how much of the history is visible at each
and after the last, which of them fail, and how the dedup set is iterated. -/
structure FeedEnv where
  sizeAt : Nat → Nat
  size : Nat
  fails : Nat → Option Fault
  iters : Nat → List EventKey

/-- `fetch_events_page` at the moments of the cycle's requests. -/
def FeedEnv.fetchPage (env : FeedEnv) (chain : Nat → EventEnvelope) (request limit offset : Nat) :
    Except Fault (List EventEnvelope) :=
  match env.fails request with
  | some fault => .error fault
  | none => .ok (page limit offset ((List.range (env.sizeAt request)).map chain))

/-- How much of the history is visible, the poller's side, and a record of what its cycles
put into the channel. -/
structure Feed where
  size : Nat
  queue : EventQueue
  registry : PoolRegistry
  /-- In order, since the beginning of the run. -/
  accepted : List StacksEvent

inductive FeedStep where
  /-- Events arrive between two cycles. -/
  | grow (arrived : Nat)
  /-- One call of `poll_once`. -/
  | cycle (env : FeedEnv)
  /-- The processor takes an event out of the channel. -/
  | recv

namespace Feed

variable (config : CollectorConfig) (contract : Principal) (chain : Nat → EventEnvelope)

/-- The cycle's result, and the sender and registry it leaves behind. -/
def poll (s : Feed) (env : FeedEnv) : Except Fault Nat × EventQueue × PoolRegistry :=
  (pollM config (env.fetchPage chain) env.iters contract).run.run (s.queue, s.registry)

def step (s : Feed) : FeedStep → Feed
  | .grow arrived => { s with size := s.size + arrived }
  | .cycle env =>
    let r := s.poll config contract chain env
    { size := env.size
      queue := r.2.1
      registry := r.2.2
      -- a send appends, so the channel's new end is what the cycle put there
      accepted := s.accepted ++ r.2.1.channel.drop s.queue.channel.length }
  | .recv =>
    match s.queue.recv with
    | none => s
    | some (_, queue) => { s with queue }

/-- The history only grows, by at most a page between two requests of a cycle. -/
def Valid (s : Feed) : FeedStep → Prop
  | .cycle env => s.size ≤ env.sizeAt 0 ∧
    (∀ i, env.sizeAt i ≤ env.sizeAt (i + 1)) ∧
    (∀ i, env.sizeAt (i + 1) ≤ env.sizeAt i + config.pageSize) ∧
    ∀ i, env.sizeAt i ≤ env.size
  | _ => True

/-- The dedup set evicts nothing. -/
def NoEviction (s : Feed) : FeedStep → Prop
  | .cycle env => ∀ r, pollOnce config (env.fetchPage chain) env.iters contract s.queue
      s.registry = .ok r → KeepsAll env.iters s.queue r.offered
  | _ => True

/-- The accepted events stand at ascending positions of the history, all of them after the
transaction `initial` in the first `start` of its events. -/
def Ascending (initial : Option String) (start : Nat) (s : Feed) : Prop :=
  ∃ ps, Placed chain ps s.accepted ∧ (∀ p ∈ ps, p < s.size) ∧
    ∀ q < start, initial = some (chain q).txId → ∀ p ∈ ps, q < p

/-- A cycle that returns an error has written nothing. -/
def FailsClean (s : Feed) : FeedStep → Prop
  | .cycle env => ∀ fault, (s.poll config contract chain env).1 = .error fault →
    (step config contract chain s (.cycle env)).queue = s.queue ∧
    (step config contract chain s (.cycle env)).registry = s.registry
  | _ => True

end Feed

end StacksDex.Bridge
