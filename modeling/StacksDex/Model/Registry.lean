import StacksDex.Model.DlmmEvents
import StacksDex.Model.StableSwap
import StacksDex.Model.V2Pools

/-!
# StacksDex — pools, the registry, and dispatch

`Pool` is the sum of the `PoolInterface` implementations. The registry
(`registry.rs`) keeps them by `id()`; a `DashMap` iterates in an arbitrary order,
so the entry list below is in any order, with distinct keys (a field of the
structure). Beside the pools it holds the index of subscribed topics, the pollers'
watermarks and the cursor of the block walk.

`dispatch` is the event processor's (`collector/event_processor.rs`): route by
emitter, then let every candidate's `apply_event` sort out relevance. Whether a pool
is locked by someone else at that moment is not the processor's to decide, so
`contended` is an argument: a contended pool counts as a candidate of every event,
since `pools_subscribed_to` cannot look inside it.

The lemmas are the frame facts of these operations: which of the four parts each
of them reads and writes.
-/

namespace StacksDex.Model

inductive Pool where
  | dlmm (p : DLMMPool)
  | arkadiko (p : ArkadikoPool)
  | velar (p : VelarPool)
  | alex (p : AlexPool)
  | bitflowXyk (p : BitflowXykPool)
  | stableV1 (p : BitflowStableSwapV1Pool)
  | stableV2 (p : BitflowStableSwapV2Pool)

namespace Pool

def topics : Pool → List StacksTopic
  | .dlmm p => p.topics
  | .arkadiko p => p.topics
  | .velar p => p.topics
  | .alex p => p.topics
  | .bitflowXyk p => p.topics
  | .stableV1 p => p.topics
  | .stableV2 p => p.topics

/-- `id`: the registry key, unique per pool. -/
def id (sha256 : Sha256) : Pool → Except Fault String
  | .dlmm p => p.poolContract.display sha256
  | .arkadiko p => p.swapToken.display sha256
  | .velar p => p.lpToken.display sha256
  | .alex p => do .ok s!"{← p.poolContract.display sha256}#{p.poolId}"
  | .bitflowXyk p => p.poolContract.display sha256
  | .stableV1 p => p.poolContract.display sha256
  | .stableV2 p => p.poolContract.display sha256

/-- `apply_event`; it never returns an `Err`. -/
def applyEvent (now : Nat) (pool : Pool) (event : StacksEvent) : Pool :=
  match pool with
  | .dlmm p => .dlmm (p.applyEvent now event)
  | .arkadiko p => .arkadiko ((p.apply event).getD p)
  | .velar p => .velar ((p.apply event).getD p)
  | .alex p => .alex ((p.apply event).getD p)
  | .bitflowXyk p => .bitflowXyk ((p.apply event).getD p)
  | .stableV1 p => .stableV1 ((p.apply event).getD p)
  | .stableV2 p => .stableV2 ((p.apply event).getD p)

/-- `self.topics().iter().any(|t| &t.contract == contract)`. -/
def subscribedTo (pool : Pool) (contract : Principal) : Bool :=
  pool.topics.any fun t => decide (t.contract = contract)

end Pool

/-- The registry: pools by id, watermarks by emitter, polled topics, block cursor. -/
structure PoolRegistry where
  /-- The pools, in the order the map happens to iterate in. -/
  byId : List (String × Pool)
  keysDistinct : (byId.map Prod.fst).Nodup
  /-- By emitter: the newest transaction polled. -/
  watermarks : List (Principal × String)
  topics : List StacksTopic
  /-- The block cursor; zero before the first tick. -/
  lastProcessedBlock : Nat

namespace PoolRegistry

/-- `insert`, under the pool's `id()`: its topics join the set, and it takes the place of
a pool of the same id. -/
def insert (id : String) (pool : Pool) (registry : PoolRegistry) : PoolRegistry :=
  { registry with
    topics := pool.topics.foldl (fun topics t => topics.insert t) registry.topics
    byId := (id, pool) :: registry.byId.filter fun e => e.1 ≠ id
    keysDistinct := by
      have hkept : ((registry.byId.filter fun e => e.1 ≠ id).map Prod.fst).Nodup :=
        registry.keysDistinct.sublist (List.filter_sublist.map _)
      refine List.nodup_cons.mpr ⟨fun hmem => ?_, hkept⟩
      obtain ⟨e, he, hid⟩ := List.mem_map.mp hmem
      exact of_decide_eq_true (List.mem_filter.mp he).2 hid }

/-- `remove`. The topics stay. -/
def remove (id : String) (registry : PoolRegistry) : PoolRegistry :=
  { registry with
    byId := registry.byId.filter fun e => e.1 ≠ id
    keysDistinct := registry.keysDistinct.sublist (List.filter_sublist.map _) }

/-- `get`. -/
def get (registry : PoolRegistry) (id : String) : Option Pool := registry.byId.lookup id

/-- The write through a pool's handle. -/
def modify (registry : PoolRegistry) (id : String) (f : Pool → Pool) : PoolRegistry :=
  { registry with
    byId := registry.byId.map fun e => if e.1 = id then (e.1, f e.2) else e
    keysDistinct := by
      -- only values change
      have hkeys : (registry.byId.map fun e => if e.1 = id then (e.1, f e.2) else e).map Prod.fst =
          registry.byId.map Prod.fst := by
        rw [List.map_map]
        refine List.map_congr_left fun e _ => ?_
        by_cases h : e.1 = id
        · simp [h]
        · simp [h]
      rw [hkeys]
      exact registry.keysDistinct }

/-- `pools_subscribed_to`, as ids; a pool whose lock is contended is included unseen. -/
def poolsSubscribedTo (contended : String → Bool) (registry : PoolRegistry)
    (contract : Principal) : List String :=
  (registry.byId.filter fun e => contended e.1 || e.2.subscribedTo contract).map Prod.fst

/-- `watermark`. -/
def watermark (registry : PoolRegistry) (contract : Principal) : Option String :=
  registry.watermarks.lookup contract

/-- `set_watermark`. -/
def setWatermark (registry : PoolRegistry) (contract : Principal) (txId : String) :
    PoolRegistry :=
  { registry with
    -- a map keeps one entry a key, so the old one goes
    watermarks := (contract, txId) :: registry.watermarks.filter fun e => e.1 ≠ contract }

/-- The watermark that was set last is the one that is read. -/
theorem watermark_setWatermark (registry : PoolRegistry) (contract : Principal) (txId : String) :
    (registry.setWatermark contract txId).watermark contract = some txId := by
  simp [watermark, setWatermark]

/-- Setting one contract's watermark leaves those of the others alone. -/
theorem watermark_setWatermark_of_ne (registry : PoolRegistry) {contract c : Principal}
    (h : c ≠ contract) (txId : String) :
    (registry.setWatermark contract txId).watermark c = registry.watermark c := by
  have hfilter : ∀ marks : List (Principal × String),
      (marks.filter fun e => e.1 ≠ contract).lookup c = marks.lookup c := by
    intro marks
    induction marks with
    | nil => rfl
    | cons e marks ih =>
      by_cases he : e.1 = contract
      · rw [List.filter_cons_of_neg (by simpa using he), ih, List.lookup_cons,
          beq_false_of_ne (he ▸ h)]
      · rw [List.filter_cons_of_pos (by simpa using he), List.lookup_cons, List.lookup_cons, ih]
  rw [watermark, setWatermark, List.lookup_cons, beq_false_of_ne h]
  exact hfilter registry.watermarks

/-- Watermarks and pools are kept apart. -/
@[simp] theorem get_setWatermark (registry : PoolRegistry) (contract : Principal)
    (txId : String) (id : String) :
    (registry.setWatermark contract txId).get id = registry.get id :=
  rfl

/-- A pool that is added has no watermark of its own. -/
@[simp] theorem watermark_insert (registry : PoolRegistry) (id : String) (pool : Pool)
    (c : Principal) : (registry.insert id pool).watermark c = registry.watermark c := rfl

/-- The pool inserted last under an id is the one that is found. -/
@[simp] theorem get_insert (registry : PoolRegistry) (id : String) (pool : Pool) :
    (registry.insert id pool).get id = some pool := by
  simp [get, insert]

/-- `polled_contracts`: the distinct contracts of the topics. -/
def polledContracts (registry : PoolRegistry) : List Principal :=
  (registry.topics.map (·.contract)).dedup

/-- A contract is polled when some topic in the index names it. -/
theorem mem_polledContracts {registry : PoolRegistry} {c : Principal} :
    c ∈ registry.polledContracts ↔ ∃ t ∈ registry.topics, t.contract = c := by
  rw [polledContracts, List.mem_dedup, List.mem_map]

/-- A contract with many topics is polled once. -/
theorem nodup_polledContracts (registry : PoolRegistry) : registry.polledContracts.Nodup :=
  List.nodup_dedup _

/-- The index keeps the topics it had and gains those of the pool. -/
theorem mem_insertTopics {ts topics : List StacksTopic} {t : StacksTopic} :
    t ∈ ts.foldl (fun topics t => topics.insert t) topics ↔ t ∈ ts ∨ t ∈ topics := by
  induction ts generalizing topics with
  | nil => simp
  | cons u ts ih =>
    rw [List.foldl_cons, ih, List.mem_insert_iff, List.mem_cons]
    constructor
    · rintro (h | rfl | h)
      · exact Or.inl (Or.inr h)
      · exact Or.inl (Or.inl rfl)
      · exact Or.inr h
    · rintro ((rfl | h) | h)
      · exact Or.inr (Or.inl rfl)
      · exact Or.inl h
      · exact Or.inr (Or.inr h)

/-- An inserted pool's contracts are polled too, and none that was polled before is dropped. -/
theorem mem_polledContracts_insert {id : String} {pool : Pool} {registry : PoolRegistry}
    {c : Principal} : c ∈ (registry.insert id pool).polledContracts ↔
      c ∈ pool.topics.map (·.contract) ∨ c ∈ registry.polledContracts := by
  rw [mem_polledContracts, mem_polledContracts, List.mem_map, insert]
  simp only [mem_insertTopics]
  constructor
  · rintro ⟨t, ht | ht, hc⟩
    · exact Or.inl ⟨t, ht, hc⟩
    · exact Or.inr ⟨t, ht, hc⟩
  · rintro (⟨t, ht, hc⟩ | ⟨t, ht, hc⟩)
    · exact ⟨t, Or.inl ht, hc⟩
    · exact ⟨t, Or.inr ht, hc⟩

/-- A removed pool's contracts are still polled: the topic index only grows. -/
@[simp] theorem polledContracts_remove (id : String) (registry : PoolRegistry) :
    (registry.remove id).polledContracts = registry.polledContracts := rfl

/-- `set_last_processed_block`. -/
def setLastProcessedBlock (registry : PoolRegistry) (b : Nat) : PoolRegistry :=
  { registry with lastProcessedBlock := b }

/-- The block that was set last is the one that is read. -/
@[simp] theorem lastProcessedBlock_setLastProcessedBlock (registry : PoolRegistry) (b : Nat) :
    (registry.setLastProcessedBlock b).lastProcessedBlock = b := rfl

/-- The cursor of the block walk is none of the pollers' business. -/
@[simp] theorem polledContracts_setLastProcessedBlock (registry : PoolRegistry) (b : Nat) :
    (registry.setLastProcessedBlock b).polledContracts = registry.polledContracts := rfl

/-- `dispatch`: apply the event to every candidate; `now id` is the time at that pool. -/
def dispatch (now : String → Nat) (contended : String → Bool) (registry : PoolRegistry)
    (event : StacksEvent) : PoolRegistry :=
  (registry.poolsSubscribedTo contended event.emitter).foldl
    -- the ids are collected before the first pool is written
    (fun reg id => reg.modify id fun pool => pool.applyEvent (now id) event) registry

/-- Dispatching moves no watermark; only the poller that read the events does. -/
@[simp] theorem watermark_dispatch (now : String → Nat) (contended : String → Bool)
    (registry : PoolRegistry) (event : StacksEvent) (c : Principal) :
    (registry.dispatch now contended event).watermark c = registry.watermark c := by
  unfold dispatch
  generalize registry.poolsSubscribedTo contended event.emitter = ids
  induction ids generalizing registry with
  | nil => rfl
  | cons id ids ih => exact ih _

/-- Dispatching writes to pools only: the topics that are polled and the cursor of the block
walk are as before. -/
theorem dispatch_frame (now : String → Nat) (contended : String → Bool)
    (registry : PoolRegistry) (event : StacksEvent) :
    (registry.dispatch now contended event).polledContracts = registry.polledContracts ∧
      (registry.dispatch now contended event).lastProcessedBlock =
        registry.lastProcessedBlock := by
  unfold dispatch
  generalize registry.poolsSubscribedTo contended event.emitter = ids
  induction ids generalizing registry with
  | nil => exact ⟨rfl, rfl⟩
  | cons id ids ih => exact ih _

end PoolRegistry

end StacksDex.Model
