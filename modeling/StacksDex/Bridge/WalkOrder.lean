import StacksDex.Bridge.BlockWalk
import StacksDex.Bridge.Joining

/-!
# StacksDex — what the blocks add to the stream

`blockEvents` is what a block hands to `send_dedup`, in chain order, and `stream` the same
for a range of blocks. A turn of the block loop that meets no gap sends exactly its block's
events (`walkBlock_sends`). Through the dedup set, blocks that are still remembered change
nothing and a new one is appended whole, so a walk that starts over behind what it has sent
leaves a longer stream of whole blocks, wherever it breaks off (`walkBlocks_stream`).
-/

namespace StacksDex.Bridge

open StacksDex.Lib StacksDex.Model

/-! ## The events of a block -/

section Stream

variable (sha256 : Sha256) (registered : List Principal)

/-- The events of a transaction that are in scope: by its entry point or by their emitter. -/
def txEvents (tx : ChainTx) : Except Fault (List StacksEvent) := do
  let target ← callTarget sha256 tx.listing
  let events ← decodeRawEvents sha256 tx.txId tx.events
  .ok (events.filter fun event =>
    target.any (· ∈ registered) || decide (event.emitter ∈ registered))

/-- The events of a block. One whose decoding panics is never walked. -/
def blockEvents (txs : List ChainTx) : List StacksEvent :=
  match txs.mapM (txEvents sha256 registered) with
  | .ok events => events.flatten
  | .error _ => []

/-- The events of the blocks above `base`, up to `top`. -/
def stream (chain : Chain) (base top : Nat) : List StacksEvent :=
  (List.range' (base + 1) (top - base)).flatMap fun height =>
    blockEvents sha256 registered (chain height)

variable {sha256 registered}

/-- Between a block and itself there is nothing. -/
theorem stream_self (chain : Chain) (base : Nat) :
    stream sha256 registered chain base base = [] := by
  rw [stream, Nat.sub_self]
  rfl

/-- A block's events come behind those of the blocks before it. -/
theorem stream_succ (chain : Chain) {base top : Nat} (h : base ≤ top) :
    stream sha256 registered chain base (top + 1) =
      stream sha256 registered chain base top ++
        blockEvents sha256 registered (chain (top + 1)) := by
  have hlast : base + 1 + (top - base) = top + 1 := by omega
  rw [stream, Nat.succ_sub h, List.range'_concat, List.flatMap_append, Nat.one_mul, hlast,
    List.flatMap_singleton]
  rfl

/-- The events of a block in the range are in its stream. -/
theorem mem_stream (chain : Chain) {base top height : Nat} (hlow : base < height)
    (hhigh : height ≤ top) {event : StacksEvent}
    (h : event ∈ blockEvents sha256 registered (chain height)) :
    event ∈ stream sha256 registered chain base top := by
  refine List.mem_flatMap.mpr ⟨height, ?_, h⟩
  rw [List.mem_range'_1]
  omega

/-- Without polled contracts nothing is in scope. -/
theorem blockEvents_nil_registered (txs : List ChainTx) : blockEvents sha256 [] txs = [] := by
  unfold blockEvents
  rcases hall : txs.mapM (txEvents sha256 []) with fault | events
  · rfl
  refine List.flatten_eq_nil_iff.mpr ?_
  intro evs hevs
  -- each of the lists is filtered by a condition that never holds
  have hlists := forall₂_of_mapM hall
  obtain ⟨tx, -, htx⟩ := exists_of_mem_forall₂ (R := fun evs tx => txEvents sha256 [] tx = .ok evs)
    hlists.flip hevs
  obtain ⟨target, -, htx⟩ := bind_eq_ok.mp htx
  obtain ⟨decoded, -, htx⟩ := bind_eq_ok.mp htx
  obtain rfl := Except.ok.inj htx
  refine List.filter_eq_nil_iff.mpr ?_
  intro event _
  rcases target with _ | target <;> simp

/-- With more contracts registered, no event of a transaction is lost. -/
theorem txEvents_mono {registered' : List Principal} (hsub : registered ⊆ registered')
    {tx : ChainTx} {events : List StacksEvent} (h : txEvents sha256 registered tx = .ok events) :
    ∃ events', txEvents sha256 registered' tx = .ok events' ∧ events ⊆ events' := by
  obtain ⟨target, htarget, h⟩ := bind_eq_ok.mp h
  obtain ⟨decoded, hdecoded, h⟩ := bind_eq_ok.mp h
  obtain rfl := Except.ok.inj h
  refine ⟨_, by rw [txEvents, htarget, ok_bind, hdecoded]; rfl, ?_⟩
  intro event hevent
  obtain ⟨hmem, hscope⟩ := List.mem_filter.mp hevent
  refine List.mem_filter.mpr ⟨hmem, ?_⟩
  rcases Bool.or_eq_true_iff.mp hscope with hcalled | hemitted
  · refine Bool.or_eq_true_iff.mpr (.inl ?_)
    rcases target with _ | c
    · cases hcalled
    · exact decide_eq_true (hsub (of_decide_eq_true hcalled))
  · exact Bool.or_eq_true_iff.mpr (.inr (decide_eq_true (hsub (of_decide_eq_true hemitted))))

/-- More contracts, more events. -/
theorem blockEvents_mono {registered' : List Principal} (hsub : registered ⊆ registered')
    (txs : List ChainTx) :
    blockEvents sha256 registered txs ⊆ blockEvents sha256 registered' txs := by
  -- where a transaction cannot be read nothing is in scope
  unfold blockEvents
  rcases hall : txs.mapM (txEvents sha256 registered) with fault | events
  · exact List.nil_subset _
  suffices hmore : ∃ events', txs.mapM (txEvents sha256 registered') = .ok events' ∧
      events.flatten ⊆ events'.flatten by
    obtain ⟨events', hall', hle⟩ := hmore
    rw [hall']
    exact hle
  -- transaction by transaction
  induction txs generalizing events with
  | nil =>
    obtain rfl := Except.ok.inj hall
    exact ⟨[], rfl, List.nil_subset _⟩
  | cons tx txs ih =>
    rw [List.mapM_cons] at hall
    obtain ⟨first, hfirst, hall⟩ := bind_eq_ok.mp hall
    obtain ⟨rest, hrest, hall⟩ := bind_eq_ok.mp hall
    obtain rfl := Except.ok.inj hall
    obtain ⟨first', hfirst', hle⟩ := txEvents_mono hsub hfirst
    obtain ⟨rest', hrest', hle'⟩ := ih rest hrest
    refine ⟨first' :: rest', ?_, ?_⟩
    · rw [List.mapM_cons, hfirst', ok_bind, hrest']
      rfl
    · rw [List.flatten_cons, List.flatten_cons]
      exact List.append_subset.mpr
        ⟨fun _ h => List.mem_append_left _ (hle h), fun _ h => List.mem_append_right _ (hle' h)⟩

/-- Without registered contracts nothing is in scope. -/
theorem stream_nil_registered (chain : Chain) (base top : Nat) :
    stream sha256 [] chain base top = [] :=
  List.flatMap_eq_nil_iff.mpr fun height _ => blockEvents_nil_registered (chain height)

end Stream

/-! ## One turn of the block loop -/

/-- The block and the details of its transactions could be had. -/
def Whole (chain : Chain) (pageSize : PageSize) (env : TickEnv) (height : Nat) : Prop :=
  ¬ NotFound chain pageSize env height ∧
    ∀ tx ∈ chain height, tx.events ≠ [] → Served (env.txDetail height tx.txId)

section Turn

variable {chain : Chain} {sha256 : Sha256} {config : BlockWalkingConfig} {env : TickEnv}
variable {registered : List Principal}

/-- The target of a listed transaction is the one that was parsed. -/
theorem decodeTx_target {tx : ChainTx} {b : BlockTransaction}
    (h : decodeTx sha256 tx.listing = .ok b) :
    callTarget sha256 tx.listing = .ok b.contractCallTarget := by
  obtain ⟨target, htarget, h⟩ := bind_eq_ok.mp h
  obtain ⟨events, -, h⟩ := bind_eq_ok.mp h
  obtain rfl := Except.ok.inj h
  exact htarget

variable (registered) in
/-- **A candidate** contributes its transaction's events in scope. -/
theorem relevantEvents_populated {detail : String → HttpReply (List RawEvent)} {tx : ChainTx}
    {b b' : BlockTransaction} (hlisted : decodeTx sha256 tx.listing = .ok b)
    (hserved : tx.events ≠ [] → ∃ status reason,
      detail tx.txId = .response status reason (.ok tx.events) ∧ isSuccess status = true)
    (h : populate sha256 detail b = .ok b') :
    txEvents sha256 registered tx = .ok (relevantEvents registered b') := by
  obtain ⟨hid, hcount, hempty⟩ := decodeTx_listing hlisted
  have htarget := decodeTx_target hlisted
  rcases List.eq_nil_or_concat' tx.events with hnone | ⟨_, _, hsome⟩
  · -- no events, and none are asked for
    have hzero : b.eventCount = 0 := by rw [hcount, hnone, List.length_nil]
    rw [populate, if_pos (Or.inr hzero)] at h
    obtain rfl := Except.ok.inj h
    rw [txEvents, htarget, ok_bind, hnone, relevantEvents, hempty]
    rfl
  · have hne : tx.events ≠ [] := by simp [hsome]
    obtain ⟨status, reason, hreply, hsuccess⟩ := hserved hne
    have hsome : b.eventCount ≠ 0 := by
      rw [hcount]
      exact fun hzero => hne (List.length_eq_zero_iff.mp hzero)
    rw [← hid] at hreply
    obtain ⟨decoded, hdecoded, rfl⟩ := populate_served hempty hsome hreply hsuccess h
    rw [hid] at hdecoded
    rw [txEvents, htarget, ok_bind, hdecoded, ok_bind]
    rfl

/-- One that is no candidate has none. -/
theorem txEvents_not_candidate {tx : ChainTx} {b : BlockTransaction}
    (hlisted : decodeTx sha256 tx.listing = .ok b) (h : isCandidate registered b = false) :
    txEvents sha256 registered tx = .ok [] := by
  obtain ⟨-, hcount, -⟩ := decodeTx_listing hlisted
  have hzero : b.eventCount = 0 := by
    by_contra hne
    simp [isCandidate, hne] at h
  have hnone : tx.events = [] := List.length_eq_zero_iff.mp (hcount.symm.trans hzero)
  rw [txEvents, decodeTx_target hlisted, ok_bind, hnone]
  rfl

/-- **The candidates of a block**, one after the other. -/
theorem flatMap_relevantEvents {detail : String → HttpReply (List RawEvent)} {txs : List ChainTx}
    {listed candidates : List BlockTransaction}
    (hlisted : (txs.map ChainTx.listing).mapM (decodeTx sha256) = .ok listed)
    (hserved : ∀ tx ∈ txs, tx.events ≠ [] → ∃ status reason,
      detail tx.txId = .response status reason (.ok tx.events) ∧ isSuccess status = true)
    (hcandidates : (listed.filter (isCandidate registered)).mapM (populate sha256 detail) =
      .ok candidates) :
    ∃ events, txs.mapM (txEvents sha256 registered) = .ok events ∧
      candidates.flatMap (relevantEvents registered) = events.flatten := by
  induction txs generalizing listed candidates with
  | nil =>
    obtain rfl := Except.ok.inj hlisted
    obtain rfl := Except.ok.inj hcandidates
    exact ⟨[], rfl, rfl⟩
  | cons tx txs ih =>
    rw [List.map_cons, List.mapM_cons] at hlisted
    obtain ⟨b, hb, hlisted⟩ := bind_eq_ok.mp hlisted
    obtain ⟨rest, hrest, hlisted⟩ := bind_eq_ok.mp hlisted
    obtain rfl := Except.ok.inj hlisted
    have hserved' := fun tx' htx' => hserved tx' (List.mem_cons_of_mem _ htx')
    -- a candidate is populated and filtered, any other has nothing in scope
    by_cases hcandidate : isCandidate registered b = true
    · rw [List.filter_cons_of_pos hcandidate, List.mapM_cons] at hcandidates
      obtain ⟨b', hb', hcandidates⟩ := bind_eq_ok.mp hcandidates
      obtain ⟨others, hothers, hcandidates⟩ := bind_eq_ok.mp hcandidates
      obtain rfl := Except.ok.inj hcandidates
      obtain ⟨events, hevents, hsame⟩ := ih hrest hserved' hothers
      have hfirst := relevantEvents_populated registered hb
        (hserved tx (List.mem_cons_self ..)) hb'
      refine ⟨relevantEvents registered b' :: events, ?_, ?_⟩
      · rw [List.mapM_cons, hfirst, ok_bind, hevents]
        rfl
      · rw [List.flatMap_cons, hsame, List.flatten_cons]
    · rw [List.filter_cons_of_neg hcandidate] at hcandidates
      obtain ⟨events, hevents, hsame⟩ := ih hrest hserved' hcandidates
      have hfirst := txEvents_not_candidate hb (Bool.eq_false_of_not_eq_true hcandidate)
      refine ⟨[] :: events, ?_, hsame⟩
      rw [List.mapM_cons, hfirst, ok_bind, hevents]
      rfl

/-- What is listed is the block. -/
theorem listed_block (hhonest : Honest chain config.pageSize env) {height : Nat}
    (hfound : ¬ NotFound chain config.pageSize env height) {txs : List BlockTransaction}
    (htxs : fetchBlockTransactions sha256 config.pageSize height (env.blockPage height) =
      .ok txs) :
    ((chain height).map ChainTx.listing).mapM (decodeTx sha256) = .ok txs := by
  rw [fetchBlockTransactions, ← Nat.zero_mul config.pageSize.val] at htxs
  rcases blockPages_covers hhonest (Or.inl rfl) htxs with hnotFound | ⟨rest, hrest, rfl⟩
  · exact absurd hnotFound hfound
  · rw [Nat.zero_mul, List.drop_zero] at hrest
    exact hrest

/-- An empty list is an empty block. -/
theorem block_of_listed_nil {height : Nat}
    (hlisted : ((chain height).map ChainTx.listing).mapM (decodeTx sha256) = .ok []) :
    chain height = [] := by
  have hlength := (forall₂_of_mapM hlisted).length_eq
  rw [List.length_map, List.length_nil] at hlength
  exact List.length_eq_zero_iff.mp hlength

/-- **What is offered of a block** are its events in scope. -/
theorem ingested_block (hhonest : Honest chain config.pageSize env) {height : Nat}
    (hwhole : Whole chain config.pageSize env height) {txs : List BlockTransaction}
    (hlisted : ((chain height).map ChainTx.listing).mapM (decodeTx sha256) = .ok txs)
    {ingested : Ingested}
    (h : ingestBlockTxs sha256 registered (env.txDetail height) txs = .ok ingested) :
    ingested.offered = blockEvents sha256 registered (chain height) := by
  obtain ⟨candidates, hcandidates, h⟩ := bind_eq_ok.mp h
  obtain rfl := Except.ok.inj h
  have hdetails : ∀ tx ∈ chain height, tx.events ≠ [] → ∃ status reason,
      env.txDetail height tx.txId = .response status reason (.ok tx.events) ∧
        isSuccess status = true := by
    intro tx htx hne
    obtain ⟨status, reason, events, hreply, hsuccess⟩ := hwhole.2 tx htx hne
    obtain rfl := hhonest.details height tx htx status reason events hreply hsuccess
    exact ⟨status, reason, hreply, hsuccess⟩
  obtain ⟨events, hevents, hsame⟩ := flatMap_relevantEvents hlisted hdetails hcandidates
  have hblock : blockEvents sha256 registered (chain height) = events.flatten := by
    rw [blockEvents, hevents]
  exact hsame.trans hblock.symm

/-- **One turn of the block loop** sends exactly the events of its block. -/
theorem walkBlock_sends (hhonest : Honest chain config.pageSize env) {height : Nat}
    (hwhole : Whole chain config.pageSize env height) {w w' : WalkState}
    (h : walkBlock sha256 config env registered height w = .ok w') :
    w'.queue = (enqueue (env.iters height) w.queue
      (blockEvents sha256 registered (chain height))).1 := by
  obtain ⟨txs, htxs, h⟩ := bind_eq_ok.mp h
  have hlisted := listed_block hhonest hwhole.1 htxs
  by_cases hempty : txs = []
  · subst hempty
    rw [if_pos rfl] at h
    obtain rfl := Except.ok.inj h
    rw [block_of_listed_nil hlisted]
    rfl
  · rw [if_neg hempty] at h
    obtain ⟨ingested, hingested, h⟩ := bind_eq_ok.mp h
    obtain rfl := Except.ok.inj h
    rw [← ingested_block hhonest hwhole hlisted hingested]

end Turn

/-! ## Resending -/

/-- Sends of remembered keys change nothing. -/
theorem enqueue_seen {queue : EventQueue} {offered : List StacksEvent}
    (hseen : ∀ e ∈ offered, e.key ∈ queue.seen) (iters : Nat → List EventKey) :
    (enqueue iters queue offered).1 = queue := by
  induction offered generalizing iters with
  | nil => rfl
  | cons event rest ih =>
    have hsend := EventQueue.sendDedup_of_mem (hseen event (List.mem_cons_self ..)) (iters 0)
    rw [enqueue, hsend]
    exact ih (fun e he => hseen e (List.mem_cons_of_mem _ he)) fun i => iters (i + 1)

/-- `done` and the channel behind it are the stream of the blocks up to `top`, and nothing else
is remembered. -/
structure Sent (sha256 : Sha256) (registered : List Principal) (chain : Chain) (base top : Nat)
    (done : List StacksEvent) (queue : EventQueue) : Prop where
  isOpen : queue.closed = false
  whole : done ++ queue.channel = stream sha256 registered chain base top
  seen : ∀ k ∈ queue.seen, k ∈ (stream sha256 registered chain base top).map StacksEvent.key

section Walk

variable {chain : Chain} {sha256 : Sha256} {config : BlockWalkingConfig} {env : TickEnv}
variable {registered : List Principal} {base top : Nat} {done : List StacksEvent}

/-- The next block is appended whole. -/
theorem Sent.next {queue : EventQueue}
    (h : Sent sha256 registered chain base top done queue) (hbase : base ≤ top)
    (hkeys : ((stream sha256 registered chain base (top + 1)).map StacksEvent.key).Nodup)
    (iters : Nat → List EventKey) :
    Sent sha256 registered chain base (top + 1) done
      (enqueue iters queue (blockEvents sha256 registered (chain (top + 1)))).1 := by
  rw [stream_succ chain hbase, List.map_append] at hkeys
  obtain ⟨-, hnodup, hdisjoint⟩ := List.nodup_append.mp hkeys
  have hfresh : ∀ e ∈ blockEvents sha256 registered (chain (top + 1)), e.key ∉ queue.seen :=
    fun e he hseen => hdisjoint _ (h.seen _ hseen) _ (List.mem_map_of_mem he) rfl
  obtain ⟨hchannel, hclosed, hseen⟩ := enqueue_fresh h.isOpen hnodup hfresh iters
  refine ⟨hclosed, ?_, ?_⟩
  · rw [hchannel, ← List.append_assoc, h.whole, stream_succ chain hbase]
  · intro k hk
    rw [stream_succ chain hbase, List.map_append, List.mem_append]
    exact (hseen k hk).imp_left (h.seen k)

/-- **A walk from behind.** It starts at or below the first block that was not sent, finds what
it sends again remembered, and leaves a stream of whole blocks, however it ends. -/
theorem walkBlocks_stream (hhonest : Honest chain config.pageSize env)
    (hwhole : ∀ height txs, fetchBlockTransactions sha256 config.pageSize height
      (env.blockPage height) = .ok txs → Whole chain config.pageSize env height)
    (hkeys : ∀ top, ((stream sha256 registered chain base top).map StacksEvent.key).Nodup)
    {n height : Nat} {w w' : WalkState} {fault : Option Fault}
    (hsent : Sent sha256 registered chain base top done w.queue) (hbase : base ≤ top)
    (hheight : height ≤ top + 1)
    (hseen : ∀ k, height ≤ k → k ≤ top → ∀ e ∈ blockEvents sha256 registered (chain k),
      e.key ∈ w.queue.seen)
    (h : walkBlocks sha256 config env registered n height w = (w', fault)) :
    ∃ top', top ≤ top' ∧ Sent sha256 registered chain base top' done w'.queue ∧
      (fault = none → height + n ≤ top' + 1) := by
  induction n generalizing height w top with
  | zero =>
    obtain ⟨rfl, rfl⟩ := Prod.mk.inj h
    exact ⟨top, le_rfl, hsent, fun _ => hheight⟩
  | succ n ih =>
    rw [walkBlocks] at h
    rcases hblock : walkBlock sha256 config env registered height w with f | next
    · -- the blocks before this one stay sent
      rw [hblock] at h
      obtain ⟨rfl, rfl⟩ := Prod.mk.inj h
      exact ⟨top, le_rfl, hsent, fun hnone => absurd hnone (Option.some_ne_none f)⟩
    rw [hblock] at h
    obtain ⟨txs, htxs, -⟩ := bind_eq_ok.mp hblock
    have hnext := walkBlock_sends hhonest (hwhole height txs htxs) hblock
    rcases Nat.lt_or_ge top height with hnew | hold
    · -- the first block that was not sent yet
      obtain rfl : height = top + 1 := by omega
      have hsent' := hsent.next hbase (hkeys (top + 1)) (env.iters (top + 1))
      rw [← hnext] at hsent'
      obtain ⟨top', hle, hstream, hend⟩ := ih hsent' (by omega) le_rfl (by omega) h
      exact ⟨top', by omega, hstream, fun hnone => by have := hend hnone; omega⟩
    · -- sent before, and remembered
      rw [enqueue_seen (hseen height le_rfl hold)] at hnext
      rw [← hnext] at hsent hseen
      obtain ⟨top', hle, hstream, hend⟩ := ih hsent hbase (by omega)
        (fun k hk => hseen k (by omega)) h
      exact ⟨top', hle, hstream, fun hnone => by have := hend hnone; omega⟩

end Walk

end StacksDex.Bridge
