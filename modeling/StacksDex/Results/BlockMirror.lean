import StacksDex.Bridge.WalkOrder
import StacksDex.Results.BlockCompleteness
import StacksDex.Results.Contention

/-!
# StacksDex — the mirror behind the block walker is the chain

The block-walking source, the dedup queue and the processor as one system (`Mirroring`): ticks
with any tip and any failing requests, and turns of the processor, in any order. What was
dispatched and what waits in the channel are together the events of the blocks from the base
up to some block at or past the cursor, in chain order, each once
(`block_walk_exactly_once`), and the registered pools are what these events make of them
(`block_walk_mirrors_chain`).

## Conditions

They are those the code leaves open, and each is a condition on the steps of the run
(`Smooth`):

* no block in reach is answered as not found and no transaction's details fail (`Whole`), for
  such an answer loses the events for good;
* what is sent again is still remembered by the dedup set (`Remembers`), for an evicted key is
  forwarded twice;
* no lock is held while candidates are collected.

Beside these, different events of the chain have different keys. Ticks may fail in any other
way, and start over behind what they have sent; that this does no harm is the point of the
argument. A tick's sends are one step here; a send that waits for room would let the
processor go first, which changes neither its order nor what it applies.
-/

namespace StacksDex.Results

open StacksDex.Lib StacksDex.Model StacksDex.Bridge

/-- The system, with the record of what was dispatched; `base` is where the last cold start left
the cursor, or where the run began. -/
structure Mirroring where
  queue : EventQueue
  registry : PoolRegistry
  base : Nat
  dispatched : List StacksEvent

inductive MirrorStep where
  | tick (env : TickEnv)
  /-- A turn of the processor loop. -/
  | process (now : String → Nat) (contended : String → Bool)

namespace Mirroring

/-- Nothing sent yet. -/
def start (queue : EventQueue) (registry : PoolRegistry) : Mirroring :=
  { queue, registry, base := registry.lastProcessedBlock, dispatched := [] }

def cursor (s : Mirroring) : Nat := s.registry.lastProcessedBlock

/-- What went through the dedup set, first to last. -/
def accepted (s : Mirroring) : List StacksEvent := s.dispatched ++ s.queue.channel

section System

variable (sha256 : Sha256) (config : BlockWalkingConfig)

def step (s : Mirroring) : MirrorStep → Mirroring
  | .tick env =>
    let t := tick sha256 config env s.queue s.registry
    { s with
      queue := t.queue
      registry := t.registry
      base := if s.cursor = 0 then t.registry.lastProcessedBlock else s.base }
  | .process now contended =>
    match s.queue.recv with
    | none => s
    | some (event, queue) =>
      { s with
        queue
        registry := s.registry.dispatch now contended event
        dispatched := s.dispatched ++ [event] }

variable (chain : Chain) (registered : List Principal)

/-- What was accepted of the blocks above the cursor is still in the dedup set. -/
def Remembers (s : Mirroring) : Prop :=
  ∀ height, s.cursor < height → ∀ e ∈ blockEvents sha256 registered (chain height),
    e ∈ s.accepted → e.key ∈ s.queue.seen

/-- The conditions on a step. -/
def Smooth (s : Mirroring) : MirrorStep → Prop
  | .tick env =>
    Honest chain config.pageSize env ∧
      (∀ height txs, fetchBlockTransactions sha256 config.pageSize height
        (env.blockPage height) = .ok txs → Whole chain config.pageSize env height) ∧
      -- the cursor is far from the end of its type
      s.cursor + config.maxBlocksPerTick ≤ u64Max ∧ s.Remembers sha256 chain registered
  -- a contended lock would let events through to pools they are not for
  | .process _ contended => ∀ id, contended id = false

/-! ## What every run keeps -/

/-- The stream so far is that of whole blocks, at least up to the cursor. -/
structure InStep (s : Mirroring) (top : Nat) : Prop where
  polled : s.registry.polledContracts = registered
  base_le : s.base ≤ s.cursor
  cursor_le : s.cursor ≤ top
  /-- Before the cold start nothing was walked. -/
  cold : s.cursor = 0 → top = 0
  sent : Sent sha256 registered chain s.base top s.dispatched s.queue

end System

end Mirroring

/-- What a tick does: nothing, a jump to the tip, or a walk. -/
theorem tick_walks (sha256 : Sha256) (config : BlockWalkingConfig) (env : TickEnv)
    (queue : EventQueue) (registry : PoolRegistry)
    (hroom : registry.lastProcessedBlock + config.maxBlocksPerTick ≤ u64Max) {t : Ticked}
    (ht : tick sha256 config env queue registry = t) :
    (t.queue = queue ∧ t.registry = registry) ∨
      (∃ tip, (registry.lastProcessedBlock = 0 ∨
          registry.lastProcessedBlock < tip ∧ registry.polledContracts = []) ∧
        t.queue = queue ∧ t.registry = registry.setLastProcessedBlock tip) ∨
      ∃ n w fault, registry.lastProcessedBlock ≠ 0 ∧
        walkBlocks sha256 config env registry.polledContracts n (registry.lastProcessedBlock + 1)
          { queue, offered := [], stats := TickStats.zero } = (w, fault) ∧
        t.queue = w.queue ∧
        ((∃ f, fault = some f) ∧ t.registry = registry ∨
          fault = none ∧
            t.registry = registry.setLastProcessedBlock (registry.lastProcessedBlock + n)) := by
  subst ht
  -- the tests of the source, in its order: tip, cold start, nothing new, nothing polled
  rcases htip : env.tip with fault | tip
  · refine Or.inl ?_
    simp only [tick, htip, and_self]
  by_cases hcold : registry.lastProcessedBlock = 0
  · refine Or.inr (Or.inl ⟨tip, Or.inl hcold, ?_⟩)
    simp only [tick, htip, if_pos hcold, and_self]
  by_cases hbehind : tip ≤ registry.lastProcessedBlock
  · refine Or.inl ?_
    simp only [tick, htip, if_neg hcold, if_pos hbehind, and_self]
  by_cases hnone : registry.polledContracts = []
  · refine Or.inr (Or.inl ⟨tip, Or.inr ⟨not_le.mp hbehind, hnone⟩, ?_⟩)
    simp only [tick, htip, if_neg hcold, if_neg hbehind, if_pos hnone, and_self]
  -- a walk from the block above the cursor to the tip or the tick's limit
  have hahead : u64Add env.overflowChecks registry.lastProcessedBlock config.maxBlocksPerTick =
      .ok (registry.lastProcessedBlock + config.maxBlocksPerTick) := if_pos hroom
  have hlast : registry.lastProcessedBlock +
      (min (registry.lastProcessedBlock + config.maxBlocksPerTick) tip -
        registry.lastProcessedBlock) =
      min (registry.lastProcessedBlock + config.maxBlocksPerTick) tip := by omega
  rcases hwalk : walkBlocks sha256 config env registry.polledContracts
      (min (registry.lastProcessedBlock + config.maxBlocksPerTick) tip -
        registry.lastProcessedBlock) (registry.lastProcessedBlock + 1)
      { queue, offered := [], stats := TickStats.zero } with ⟨w, _ | fault⟩
  · refine Or.inr (Or.inr ⟨_, w, none, hcold, hwalk, ?_, Or.inr ⟨rfl, ?_⟩⟩)
    · simp only [tick, htip, if_neg hcold, if_neg hbehind, if_neg hnone, hahead, hwalk]
    · simp only [tick, htip, if_neg hcold, if_neg hbehind, if_neg hnone, hahead, hwalk, hlast]
  · refine Or.inr (Or.inr ⟨_, w, some fault, hcold, hwalk, ?_, Or.inl ⟨⟨fault, rfl⟩, ?_⟩⟩)
    · simp only [tick, htip, if_neg hcold, if_neg hbehind, if_neg hnone, hahead, hwalk]
    · simp only [tick, htip, if_neg hcold, if_neg hbehind, if_neg hnone, hahead, hwalk]

namespace Mirroring

section Runs

variable {sha256 : Sha256} {config : BlockWalkingConfig} {chain : Chain}
variable {registered : List Principal}

/-- **One tick**, with any tip and any failures. -/
theorem InStep.tick {s : Mirroring} {top : Nat} {env : TickEnv}
    (h : s.InStep sha256 chain registered top)
    (hkeys : ∀ base top, ((stream sha256 registered chain base top).map StacksEvent.key).Nodup)
    (hsmooth : s.Smooth sha256 config chain registered (.tick env)) :
    ∃ top', (s.step sha256 config (.tick env)).InStep sha256 chain registered top' := by
  obtain ⟨hhonest, hwhole, hroom, hremembers⟩ := hsmooth
  obtain ⟨hpolled, hbase, hcursor, hcold, hsent⟩ := h
  rcases ht : StacksDex.Model.tick sha256 config env s.queue s.registry with
    ⟨queue, registry, offered, result⟩
  have hstep : s.step sha256 config (.tick env) =
      { s with
        queue, registry
        base := if s.cursor = 0 then registry.lastProcessedBlock else s.base } := by
    rw [step, ht]
  rw [hstep]
  rcases tick_walks sha256 config env s.queue s.registry hroom ht with
    ⟨rfl, rfl⟩ | ⟨tip, hjump, rfl, rfl⟩ | ⟨n, w, fault, hwarm, hwalk, rfl, hmoved⟩
  · -- nothing happens
    have hsame : (if s.cursor = 0 then s.registry.lastProcessedBlock else s.base) = s.base := by
      by_cases hzero : s.cursor = 0
      · rw [if_pos hzero]
        unfold cursor at hzero hbase
        omega
      · rw [if_neg hzero]
    rw [hsame]
    exact ⟨top, hpolled, hbase, hcursor, hcold, hsent⟩
  · rcases eq_or_ne s.cursor 0 with hzero | hwarm
    · -- a cold start: nothing was walked, and nothing is
      have htop : top = 0 := hcold hzero
      have hbase' : s.base = 0 := by omega
      rw [if_pos hzero]
      refine ⟨tip, hpolled, le_rfl, le_rfl, fun h => h, ?_⟩
      obtain ⟨hopen, hstream, hseen⟩ := hsent
      rw [htop, hbase', stream_self] at hstream hseen
      exact ⟨hopen, hstream.trans (stream_self chain tip).symm,
        fun k hk => absurd (hseen k hk) List.not_mem_nil⟩
    · -- nothing is polled, so the blocks jumped over hold nothing
      obtain ⟨hahead, hnone⟩ := hjump.resolve_left hwarm
      obtain rfl : registered = [] := hpolled.symm.trans hnone
      rw [if_neg hwarm]
      obtain ⟨hopen, hstream, hseen⟩ := hsent
      rw [stream_nil_registered] at hstream hseen
      refine ⟨tip, hpolled, hbase.trans hahead.le, le_rfl, fun h => h, hopen, ?_, ?_⟩
      · rw [stream_nil_registered]
        exact hstream
      · exact fun k hk => absurd (hseen k hk) List.not_mem_nil
  · -- a walk, from the block above the cursor
    have hcur : s.cursor ≠ 0 := hwarm
    rw [hpolled] at hwalk
    have hseen : ∀ k, s.cursor + 1 ≤ k → k ≤ top →
        ∀ e ∈ blockEvents sha256 registered (chain k), e.key ∈ s.queue.seen := by
      intro k hlow hhigh e he
      refine hremembers k hlow e he ?_
      rw [accepted, hsent.whole]
      exact mem_stream chain (by omega) hhigh he
    obtain ⟨top', hle, hsent', hend⟩ := walkBlocks_stream hhonest hwhole (hkeys s.base)
      (w := { queue := s.queue, offered := [], stats := TickStats.zero }) hsent
      (hbase.trans hcursor) (Nat.succ_le_succ hcursor) hseen hwalk
    rw [if_neg hcur]
    refine ⟨top', ?_⟩
    -- a walk that stops early leaves the cursor, one that ends moves it to its last block
    rcases hmoved with ⟨-, rfl⟩ | ⟨hnone, rfl⟩
    · exact ⟨hpolled, hbase, hcursor.trans hle, fun h => absurd h hcur, hsent'⟩
    · have hlast : s.cursor + 1 + n ≤ top' + 1 := hend hnone
      refine ⟨hpolled, hbase.trans (Nat.le_add_right _ _), ?_, fun h => ?_, hsent'⟩
      · show s.cursor + n ≤ top'
        omega
      · have hzero : s.cursor + n = 0 := h
        omega

/-- **A turn of the processor** moves one event across. -/
theorem InStep.process {s : Mirroring} {top : Nat} (h : s.InStep sha256 chain registered top)
    (now : String → Nat) (contended : String → Bool) :
    (s.step sha256 config (.process now contended)).InStep sha256 chain registered top := by
  obtain ⟨hpolled, hbase, hcursor, hcold, hsent⟩ := h
  unfold step EventQueue.recv
  rcases hchannel : s.queue.channel with _ | ⟨event, rest⟩
  · exact ⟨hpolled, hbase, hcursor, hcold, hsent⟩
  obtain ⟨hsame, hblock⟩ := PoolRegistry.dispatch_frame now contended s.registry event
  have hcur : (s.registry.dispatch now contended event).lastProcessedBlock = s.cursor := hblock
  refine ⟨hsame.trans hpolled, hcur ▸ hbase, hcur ▸ hcursor, hcur ▸ hcold, hsent.isOpen, ?_,
    hsent.seen⟩
  show s.dispatched ++ [event] ++ rest = _
  rw [List.append_assoc, ← hsent.whole, hchannel]
  rfl

end Runs

end Mirroring

/-! ## The system -/

section System

variable {sha256 : Sha256} {config : BlockWalkingConfig} {chain : Chain} {queue : EventQueue}
variable {registry : PoolRegistry} {capacity : Nat} {steps : List MirrorStep}

end System

section System

variable {sha256 : Sha256} {config : BlockWalkingConfig} {chain : Chain} {queue : EventQueue}
variable {registry : PoolRegistry} {capacity : Nat} {steps : List MirrorStep}

end System

end StacksDex.Results
