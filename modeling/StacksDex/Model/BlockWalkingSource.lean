import StacksDex.Model.BlockWalker
import StacksDex.Model.EventPoller

/-!
# StacksDex — the block-walking event source

`collector/block_walking_source.rs`: a tick reads the chain tip, walks the blocks
behind the cursor, passes on the events of registered contracts, and moves the
cursor to the last block it walked. An error leaves the cursor where it was, with
the sends of the earlier blocks done.

* `walkBlock` lists one block, reads the events of its candidates and sends them on;
* `walkBlocks` does so for the blocks in range, until one fails;
* `tick` is a whole tick, with the queue, the registry and the statistics it leaves.

The replies of the tick are its environment (`TickEnv`), as is the build (with or without
overflow checks, for the sum that bounds the range). A detail request that fails costs its
transaction's events only, and the walk goes on: that is how the source has it.
-/

namespace StacksDex.Model

structure BlockWalkingConfig where
  pageSize : PageSize
  maxBlocksPerTick : Nat

/-- Everything a tick gets from outside. -/
structure TickEnv where
  /-- `fetch_chain_tip`. -/
  tip : Except Fault Nat
  blockPage : (height offset : Nat) → HttpReply TxPage
  txDetail : (height : Nat) → (txId : String) → HttpReply (List RawEvent)
  /-- The order the dedup set is iterated in, at each send for a block. -/
  iters : (height : Nat) → Nat → List EventKey
  overflowChecks : Bool

/-- The counts of a tick, without the bounds of their machine types. -/
structure TickStats where
  /-- Blocks with transactions. -/
  blocksWalked : Nat
  txsSeen : Nat
  /-- Transactions with at least one event in scope, and those events. -/
  txsRelevant : Nat
  eventsRelevant : Nat
  /-- The events that were new to the dedup set. -/
  eventsEnqueued : Nat

def TickStats.zero : TickStats := ⟨0, 0, 0, 0, 0⟩

/-! ## One block -/

def touchesRegistered (registered : List Principal) (tx : BlockTransaction) : Bool :=
  tx.contractCallTarget.any (· ∈ registered)

/-- Phase 1: a transaction with events, or one that calls a registered contract. -/
def isCandidate (registered : List Principal) (tx : BlockTransaction) : Bool :=
  ¬ (tx.eventCount = 0 ∧ ¬ touchesRegistered registered tx)

/-- Phase 2, for one candidate: a failed request leaves the transaction without events. -/
def populate (sha256 : Sha256) (detail : (txId : String) → HttpReply (List RawEvent))
    (tx : BlockTransaction) : Except Fault BlockTransaction :=
  -- the list had the events already, or there are none
  if tx.events ≠ [] ∨ tx.eventCount = 0 then .ok tx
  else do
    -- the failure is logged, and the transaction goes on without its events
    match ← dropErr (fetchTxEvents sha256 tx.txId (detail tx.txId)) with
    | some events => .ok { tx with events }
    | none => .ok tx

/-- Phase 3, for one transaction: the events in scope. -/
def relevantEvents (registered : List Principal) (tx : BlockTransaction) : List StacksEvent :=
  tx.events.filter fun event =>
    touchesRegistered registered tx || decide (event.emitter ∈ registered)

/-- What a block hands to `send_dedup`, in order, and how many transactions that is from. -/
structure Ingested where
  offered : List StacksEvent
  txsRelevant : Nat

/-- `ingest_block_txs`, up to its sends. -/
def ingestBlockTxs (sha256 : Sha256) (registered : List Principal)
    (detail : (txId : String) → HttpReply (List RawEvent)) (txs : List BlockTransaction) :
    Except Fault Ingested := do
  let candidates ← (txs.filter (isCandidate registered)).mapM (populate sha256 detail)
  .ok
    { offered := candidates.flatMap (relevantEvents registered)
      txsRelevant := (candidates.filter fun tx => relevantEvents registered tx ≠ []).length }

/-! ## One tick -/

/-- The queue and the record of sends, while blocks are walked. -/
structure WalkState where
  queue : EventQueue
  offered : List StacksEvent
  stats : TickStats

section Tick

variable (sha256 : Sha256) (config : BlockWalkingConfig) (env : TickEnv)

/-- The turn of the block loop at `height`. -/
def walkBlock (registered : List Principal) (height : Nat) (w : WalkState) :
    Except Fault WalkState := do
  let txs ← fetchBlockTransactions sha256 config.pageSize height (env.blockPage height)
  -- an empty block and one that was not found look the same from here
  if txs = [] then .ok w
  else do
    let ingested ← ingestBlockTxs sha256 registered (env.txDetail height) txs
    -- the sends of a block happen before the next block is asked for
    let (queue, enqueued) := enqueue (env.iters height) w.queue ingested.offered
    .ok
      { queue
        offered := w.offered ++ ingested.offered
        stats :=
          { blocksWalked := w.stats.blocksWalked + 1
            txsSeen := w.stats.txsSeen + txs.length
            txsRelevant := w.stats.txsRelevant + ingested.txsRelevant
            eventsRelevant := w.stats.eventsRelevant + ingested.offered.length
            eventsEnqueued := w.stats.eventsEnqueued + enqueued } }

/-- `n` turns of the loop, from `height` on. A fault ends the walk and keeps what was
sent before it. -/
def walkBlocks (registered : List Principal) : Nat → Nat → WalkState → WalkState × Option Fault
  | 0, _, w => (w, none)
  | n + 1, height, w =>
    match walkBlock sha256 config env registered height w with
    | .error fault => (w, some fault)
    | .ok w' => walkBlocks registered n (height + 1) w'

/-- What a tick leaves behind, and what it returns. -/
structure Ticked where
  queue : EventQueue
  registry : PoolRegistry
  offered : List StacksEvent
  result : Except Fault TickStats

/-- `tick`. -/
def tick (queue : EventQueue) (registry : PoolRegistry) : Ticked :=
  let unmoved (result : Except Fault TickStats) : Ticked :=
    { queue, registry, offered := [], result }
  let snapped (tip : Nat) : Ticked :=
    { queue
      registry := registry.setLastProcessedBlock tip
      offered := []
      result := .ok TickStats.zero }
  match env.tip with
  | .error fault => unmoved (.error fault)
  | .ok tip =>
    let cursor := registry.lastProcessedBlock
    let registered := registry.polledContracts
    -- cold start: the bootstrap has everything up to the tip
    if cursor = 0 then snapped tip
    else if tip ≤ cursor then unmoved (.ok TickStats.zero)
    -- nothing to filter against: jump to the tip
    else if registered = [] then snapped tip
    else
      match u64Add env.overflowChecks cursor config.maxBlocksPerTick with
      | .error fault => unmoved (.error fault)
      | .ok ahead =>
        let last := min ahead tip
        let (w, fault) := walkBlocks sha256 config env registered (last - cursor) (cursor + 1)
          { queue, offered := [], stats := TickStats.zero }
        match fault with
        -- the cursor stays; what was sent stays sent
        | some fault => { queue := w.queue, registry, offered := w.offered, result := .error fault }
        | none =>
          { queue := w.queue
            registry := registry.setLastProcessedBlock last
            offered := w.offered
            result := .ok w.stats }

end Tick

end StacksDex.Model
