import StacksDex.Bridge.Pipeline
import StacksDex.Results.Isolation

/-!
# StacksDex — sending an event again

The dedup set forgets half of its keys when it is full. An event sent again after
that is forwarded and applied again, on top of everything sent since. Its handler
sets fields to values, so this is harmless while those values are still the last
ones the chain has written, and only then.

## Main results

* `redelivery_exact_iff`: for every chain of one emitter, every pool that hears it and every
  valid run of sends, repetitions and dispatches, the pool and the channel are exact in every
  state exactly when every step is harmless;
* `redelivery_not_exact`: 257 updates through the smallest dedup set there is, and the first of
  them once more.

The step lemma is `Pipeline.applied_step_iff`; the run is the rule for exact conditions
(`Run.always_iff_along`). The second section drives the set to the point where it forgets,
round by round.
-/

namespace StacksDex.Results

open StacksDex.Lib StacksDex.Model StacksDex.Bridge

/-- Once the processor has worked off the channel, the pool is, up to its stamps, what the
events sent so far make of it when each is applied once in chain order. -/
def Exact (chain : List StacksEvent) (id : String) (pool : Pool) (s : Pipeline) : Prop :=
  ∃ p, s.registry.get id = some p ∧
    unstamped (applyEvents (fun _ => 0) p s.queue.channel) =
      unstamped (applyEvents (fun _ => 0) pool (chain.take s.sent))

/-- What the pool and the channel hold is exact when the one applied to the other gives the
reference. -/
theorem exact_iff_applied {chain : List StacksEvent} {emitter : Principal} {id : String}
    {pool : Pool} {s : Pipeline} (hs : Pipeline.WellFormed chain emitter id pool s) :
    Exact chain id pool s ↔ Pipeline.Applied id s (Pipeline.reference chain pool s) := by
  -- frames agree, so states agree exactly when cells do
  have hframes : ∀ p, s.registry.get id = some p → frame p = frame pool := by
    intro p hp
    obtain ⟨q, hq, hframe⟩ := hs.registered
    obtain rfl : p = q := Option.some.inj (hp.symm.trans hq)
    exact hframe
  constructor
  · rintro ⟨p, hp, heq⟩
    refine ⟨p, hp, ?_⟩
    have hview := congrArg view heq
    rw [view_unstamped, view_unstamped, (applyEvents_overlays _ p _).1,
      (applyEvents_overlays _ pool _).1] at hview
    exact hview
  · rintro ⟨p, hp, hcells⟩
    refine ⟨p, hp, unstamped_eq ?_ ?_⟩
    · rw [(applyEvents_overlays _ p _).2, (applyEvents_overlays _ pool _).2, hframes p hp]
    · rw [(applyEvents_overlays _ p _).1, (applyEvents_overlays _ pool _).1]
      exact hcells

/-- With the whole chain sent and the channel worked off, the pool is as after one
application of the chain. -/
def Delivered (chain : List StacksEvent) (id : String) (pool : Pool) (s : Pipeline) : Prop :=
  s.sent = chain.length → s.queue.channel = [] →
    ∃ p, s.registry.get id = some p ∧
      unstamped p = unstamped (applyEvents (fun _ => 0) pool chain)

/-- With the channel empty, an exact pool is what the chain makes of it. -/
theorem Exact.delivered {chain : List StacksEvent} {id : String} {pool : Pool} {s : Pipeline}
    (h : Exact chain id pool s) : Delivered chain id pool s := by
  intro hsent hchannel
  obtain ⟨p, hp, heq⟩ := h
  rw [hchannel, hsent, List.take_length] at heq
  exact ⟨p, hp, heq⟩

/--
**Redelivery.** In a run of sends and processing, the pool is exact throughout if and only if
every repeated send finds its key still in `seen` or repeats what the chain wrote last
(`Harmless`). In particular a harmless run that sends the whole chain and works off the
channel ends in the state of one application of the chain. A key that `seen` has evicted lets
an old event through again, and its old values overwrite newer ones.
-/
theorem redelivery_exact_iff {chain : List StacksEvent} {emitter : Principal} {id : String}
    {pool : Pool} {registry : PoolRegistry} {capacity : Nat} {queue : EventQueue}
    {steps : List PipelineStep} (hemitter : ∀ e ∈ chain, e.emitter = emitter)
    (hkeys : (chain.map StacksEvent.key).Nodup) (hget : registry.get id = some pool)
    (hsub : pool.subscribedTo emitter = true) (hqueue : EventQueue.build capacity = .ok queue)
    (hvalid : Run.Along (Pipeline.step chain) (Pipeline.Valid chain)
      (Pipeline.start queue registry) steps) :
    (Run.Always (Pipeline.step chain) (Exact chain id pool) (Pipeline.start queue registry) steps ↔
      Run.Along (Pipeline.step chain) (Pipeline.Harmless chain pool)
        (Pipeline.start queue registry) steps) ∧
    (Run.Along (Pipeline.step chain) (Pipeline.Harmless chain pool)
        (Pipeline.start queue registry) steps →
      Delivered chain id pool
        (Run.exec (Pipeline.step chain) (Pipeline.start queue registry) steps)) := by
  obtain ⟨hwf, happlied⟩ := Pipeline.wellFormed_start chain emitter hqueue hget
  have hiff : Run.Always (Pipeline.step chain) (Exact chain id pool)
        (Pipeline.start queue registry) steps ↔
      Run.Along (Pipeline.step chain) (Pipeline.Harmless chain pool)
        (Pipeline.start queue registry) steps := by
    rw [← Pipeline.always_applied_iff hemitter hkeys hsub hwf happlied hvalid]
    exact Run.always_congr (fun s hs => exact_iff_applied hs)
      (Pipeline.always_wellFormed hemitter hsub hwf hvalid)
  exact ⟨hiff, fun hharmless => (hiff.mpr hharmless).last.delivered⟩

/-! ## A full set forgets -/

def xykPool : BitflowXykPool where
  poolContract := deployed "xyk-pool"
  coreContract := deployed "xyk-core"
  xToken := deployed "x"
  yToken := deployed "y"
  xDecimals := 6
  yDecimals := 6
  xBalance := 0
  yBalance := 0
  xProtocolFeeBps := 10
  xProviderFeeBps := 20
  yProtocolFeeBps := 10
  yProviderFeeBps := 20
  poolStatus := true
  lastTxId := none

def xykRegistry : PoolRegistry where
  byId := [("xyk", .bitflowXyk xykPool)]
  keysDistinct := by decide
  watermarks := []
  topics := []
  lastProcessedBlock := 0

/-- The `i`-th event of one long transaction: both balances become `i`. -/
def update (i : Nat) : StacksEvent where
  emitter := deployed "xyk-pool"
  txId := "0x01"
  eventIndex := i
  action := "update-pool-balances"
  data := [("x-balance", .uint (BitVec.ofNat 128 i)), ("y-balance", .uint (BitVec.ofNat 128 i))]

def updates (n : Nat) : List StacksEvent := (List.range n).map update

def keysBelow (n : Nat) : List EventKey := (List.range n).map fun i => ("0x01", i)

/-- Send the next event and process it, `n` times; the set is iterated oldest first. -/
def rounds (n : Nat) : List PipelineStep :=
  (List.range n).flatMap fun i =>
    [.first (keysBelow i), .process (fun _ => 0) (fun _ => false)]

/-- The queue of capacity one after `n` rounds, while nothing has been dropped. -/
def filled (n : Nat) : EventQueue where
  channel := []
  capacity := 1
  closed := false
  seen := (keysBelow n).toFinset
  seenCap := 256

/-- The keys of the first `n` updates. -/
theorem keysBelow_nodup (n : Nat) : (keysBelow n).Nodup :=
  List.nodup_range.map fun _ _ h => (Prod.mk.inj h).2

/-- All updates are of the one contract. -/
theorem updates_emitter (n : Nat) : ∀ e ∈ updates n, e.emitter = deployed "xyk-pool" := by
  intro e he
  obtain ⟨i, -, rfl⟩ := List.mem_map.mp he
  rfl

/-- The updates have different keys. -/
theorem updates_keys (n : Nat) : ((updates n).map StacksEvent.key).Nodup := by
  rw [updates, List.map_map]
  exact keysBelow_nodup n

/-- There are `n` of them. -/
theorem card_keysBelow (n : Nat) : (keysBelow n).toFinset.card = n := by
  rw [List.toFinset_card_of_nodup (keysBelow_nodup n), keysBelow, List.length_map,
    List.length_range]

/-- The next update is new. -/
theorem key_not_mem_keysBelow (n : Nat) : ("0x01", n) ∉ (keysBelow n).toFinset := by
  simp [keysBelow]

/-- The updates come in their order. -/
theorem updates_getElem? {i n : Nat} (h : i < n) : (updates n)[i]? = some (update i) := by
  simp [updates, h]

/-- The labels of round `i`. -/
def roundSteps (i : Nat) : List PipelineStep :=
  [.first (keysBelow i), .process (fun _ => 0) (fun _ => false)]

/-- One round: the event goes through the channel, and its key into the set. -/
theorem round {n i : Nat} (h : i < n) (registry : PoolRegistry) :
    Run.Along (Pipeline.step (updates n)) (Pipeline.Valid (updates n)) ⟨filled i, registry, i⟩
        (roundSteps i) ∧
      ∃ registry', Run.exec (Pipeline.step (updates n)) ⟨filled i, registry, i⟩ (roundSteps i) =
        ⟨{ filled i with seen := insert ("0x01", i) ((filled i).retained (keysBelow i)) },
          registry', i + 1⟩ := by
  have hnew : (update i).key ∉ (filled i).seen := key_not_mem_keysBelow i
  have hsend := EventQueue.sendDedup_of_not_mem hnew rfl (keysBelow i)
  have hfirst : Pipeline.step (updates n) ⟨filled i, registry, i⟩ (.first (keysBelow i)) =
      ⟨{ filled i with
          seen := insert ("0x01", i) ((filled i).retained (keysBelow i))
          channel := [update i] }, registry, i + 1⟩ := by
    simp only [Pipeline.step, updates_getElem? h, hsend]
    rfl
  refine ⟨⟨⟨?_, ⟨keysBelow_nodup _, rfl⟩, Nat.zero_lt_one⟩, trivial, trivial⟩, ?_⟩
  · show i < (updates n).length
    simpa [updates] using h
  · have hboth : Run.exec (Pipeline.step (updates n)) ⟨filled i, registry, i⟩ (roundSteps i) =
        Pipeline.step (updates n)
          (Pipeline.step (updates n) ⟨filled i, registry, i⟩ (.first (keysBelow i)))
          (.process (fun _ => 0) (fun _ => false)) := rfl
    rw [hboth, hfirst]
    exact ⟨_, rfl⟩

/-- Up to 256 rounds nothing is dropped. -/
theorem rounds_fill {n k : Nat} (hkn : k ≤ n) (hk : k ≤ 256) (registry : PoolRegistry) :
    Run.Along (Pipeline.step (updates n)) (Pipeline.Valid (updates n)) ⟨filled 0, registry, 0⟩
        (rounds k) ∧
      ∃ registry', Run.exec (Pipeline.step (updates n)) ⟨filled 0, registry, 0⟩ (rounds k) =
        ⟨filled k, registry', k⟩ := by
  induction k with
  | zero => exact ⟨trivial, registry, rfl⟩
  | succ k ih =>
    obtain ⟨hvalid, registry₁, hexec⟩ := ih (by omega) (by omega)
    obtain ⟨hvalid', registry₂, hexec'⟩ := round (show k < n by omega) registry₁
    have hsplit : rounds (k + 1) = rounds k ++ roundSteps k := by
      simp [rounds, roundSteps, List.range_succ]
    -- there is still room, so no key is dropped
    have hkeep : insert ("0x01", k) ((filled k).retained (keysBelow k)) =
        (keysBelow (k + 1)).toFinset := by
      have hroom : ¬ (filled k).seen.card ≥ (filled k).seenCap := by
        show ¬ (keysBelow k).toFinset.card ≥ 256
        rw [card_keysBelow]
        omega
      rw [EventQueue.retained, if_neg hroom]
      show insert ("0x01", k) (keysBelow k).toFinset = _
      rw [keysBelow, keysBelow, List.range_succ, List.map_append, List.toFinset_append,
        Finset.union_comm]
      rfl
    rw [hsplit, Run.along_append, Run.exec_append, hexec]
    refine ⟨⟨hvalid, hvalid'⟩, registry₂, ?_⟩
    rw [hexec', hkeep]
    rfl

/-- The queue after the round that finds the set full: half of the keys are gone. -/
def forgetful : EventQueue :=
  { filled 256 with seen := insert ("0x01", 256) ((filled 256).retained (keysBelow 256)) }

/-- The 257th round makes the set drop half of its keys. -/
theorem rounds_forget (registry : PoolRegistry) :
    Run.Along (Pipeline.step (updates 257)) (Pipeline.Valid (updates 257))
        ⟨filled 0, registry, 0⟩ (rounds 257) ∧
      ∃ registry', Run.exec (Pipeline.step (updates 257)) ⟨filled 0, registry, 0⟩ (rounds 257) =
        ⟨forgetful, registry', 257⟩ := by
  obtain ⟨hvalid, registry₁, hexec⟩ := rounds_fill (n := 257) (k := 256) (by omega) le_rfl registry
  obtain ⟨hvalid', hexec'⟩ := round (n := 257) (i := 256) (by omega) registry₁
  have hsplit : rounds 257 = rounds 256 ++ roundSteps 256 := by
    rw [rounds, List.range_succ, List.flatMap_append]
    rfl
  rw [hsplit, Run.along_append, Run.exec_append, hexec]
  exact ⟨⟨hvalid, hvalid'⟩, hexec'⟩

/-- The keys the forgetful queue still holds. -/
def laterKeys : List EventKey := (List.range 129).map fun i => ("0x01", 128 + i)

/-- The keys that are left, in some order. -/
theorem iterates_laterKeys : EventQueue.Iterates laterKeys forgetful.seen := by
  refine ⟨List.nodup_range.map fun i j h => by simpa using h, ?_⟩
  have hfull : (filled 256).seen.card ≥ (filled 256).seenCap := by
    show (keysBelow 256).toFinset.card ≥ 256
    rw [card_keysBelow]
  -- half of the bound goes, oldest first
  have hdropped : (keysBelow 256).take ((filled 256).seenCap / 2) = keysBelow 128 := by
    show (keysBelow 256).take 128 = _
    rw [keysBelow, ← List.map_take, List.take_range]
    rfl
  show _ = insert ("0x01", 256) ((filled 256).retained (keysBelow 256))
  rw [EventQueue.retained, if_pos hfull, hdropped]
  ext ⟨txId, i⟩
  show _ ↔ (txId, i) ∈ insert _ ((keysBelow 256).toFinset \ (keysBelow 128).toFinset)
  simp only [laterKeys, keysBelow, List.mem_toFinset, List.mem_map, List.mem_range,
    Finset.mem_insert, Finset.mem_sdiff, Prod.mk.injEq]
  constructor
  · rintro ⟨j, hj, rfl, rfl⟩
    by_cases hlast : 128 + j = 256
    · exact Or.inl ⟨rfl, hlast⟩
    · exact Or.inr ⟨⟨128 + j, by omega, rfl, rfl⟩, fun ⟨k, hk, _, hkj⟩ => by omega⟩
  · rintro (⟨rfl, rfl⟩ | ⟨⟨j, hj, rfl, rfl⟩, hnot⟩)
    · exact ⟨128, by omega, rfl, rfl⟩
    · have hge : 128 ≤ j := by
        by_contra hlt
        exact hnot ⟨j, by omega, rfl, rfl⟩
      exact ⟨j - 128, by omega, rfl, by omega⟩

/-- The first key is among those that were dropped. -/
theorem first_key_forgotten : ("0x01", 0) ∉ forgetful.seen := by
  rw [← iterates_laterKeys.2]
  simp [laterKeys]

/-- First sends do no harm, however many. -/
theorem rounds_harmless (n k : Nat) (s : Pipeline) :
    Run.Along (Pipeline.step (updates n))
      (Pipeline.Harmless (updates n) (.bitflowXyk xykPool)) s (rounds k) := by
  refine Run.along_of_forall ?_ s
  intro s l hl
  obtain ⟨i, -, hmem⟩ := List.mem_flatMap.mp hl
  simp only [List.mem_cons, List.not_mem_nil, or_false] at hmem
  rcases hmem with rfl | rfl <;> trivial

/-- The last of the updates decides, so the first is not current. -/
theorem first_update_not_current :
    ¬ Overlay.Current ((updates 257).map (patch (.bitflowXyk xykPool)))
      (patch (.bitflowXyk xykPool) (update 0)) := by
  intro h
  have hlast := h .reserveX (0 : Nat) rfl
  have hwritten : Overlay.lastWrite [patch (.bitflowXyk xykPool) (update 256)] .reserveX =
      some (256 : Nat) := rfl
  rw [updates, List.range_succ, List.map_append, List.map_append, Overlay.lastWrite_append,
    List.map_singleton, List.map_singleton, hwritten] at hlast
  cases hlast

/-- The steps of the run: 257 events sent and processed, then the first one sent and
processed again. -/
def replaySteps : List PipelineStep :=
  rounds 257 ++ [.again (update 0) laterKeys, .process (fun _ => 0) (fun _ => false)]

/-- All of the updates have been sent. -/
theorem take_updates : (updates 257).take 257 = updates 257 :=
  List.take_of_length_le (by rw [updates, List.length_map, List.length_range])

/-- The first event was sent, and the channel is empty: it may be sent again. -/
theorem valid_again (registry : PoolRegistry) :
    Pipeline.Valid (updates 257) ⟨forgetful, registry, 257⟩ (.again (update 0) laterKeys) := by
  refine ⟨?_, iterates_laterKeys, Or.inr Nat.zero_lt_one⟩
  show update 0 ∈ (updates 257).take 257
  rw [take_updates]
  exact List.mem_map_of_mem (List.mem_range.mpr (by omega))

/-- The whole run is valid, the repeated send included. -/
theorem valid_replaySteps (registry : PoolRegistry) :
    Run.Along (Pipeline.step (updates 257)) (Pipeline.Valid (updates 257))
      ⟨filled 0, registry, 0⟩ replaySteps := by
  obtain ⟨hvalid, registry', hexec⟩ := rounds_forget registry
  rw [replaySteps, Run.along_append, hexec]
  exact ⟨hvalid, valid_again registry', trivial, trivial⟩

/-- Sent again after the set has dropped it, the first of 257 events undoes the others. -/
theorem redelivery_not_exact :
    EventQueue.build 1 = .ok (filled 0) ∧
      Run.Along (Pipeline.step (updates 257)) (Pipeline.Valid (updates 257))
        (Pipeline.start (filled 0) xykRegistry) replaySteps ∧
      ¬ Delivered (updates 257) "xyk" (.bitflowXyk xykPool)
        (Run.exec (Pipeline.step (updates 257)) (Pipeline.start (filled 0) xykRegistry)
          replaySteps) := by
  have hbuild : EventQueue.build 1 = .ok (filled 0) := rfl
  have hemitter := updates_emitter 257
  have hkeys := updates_keys 257
  have hsub : (Pool.bitflowXyk xykPool).subscribedTo (deployed "xyk-pool") = true := by decide
  have hget : xykRegistry.get "xyk" = some (.bitflowXyk xykPool) := rfl
  obtain ⟨hwf, happlied⟩ :=
    Pipeline.wellFormed_start (updates 257) (deployed "xyk-pool") hbuild hget
  obtain ⟨hvalid, registry, hexec⟩ := rounds_forget xykRegistry
  -- the rounds are harmless, so the pool is exact after them
  have hwf' := (Pipeline.always_wellFormed hemitter hsub hwf hvalid).last
  have happlied' := ((Pipeline.always_applied_iff hemitter hkeys hsub hwf happlied hvalid).mpr
    (rounds_harmless 257 257 _)).last
  rw [show Run.exec _ (Pipeline.start (filled 0) xykRegistry) (rounds 257) = _ from hexec]
    at hwf' happlied'
  have hagain := valid_again registry
  -- sent again now, the first event is neither known nor current
  have hharmful : ¬ Pipeline.Harmless (updates 257) (.bitflowXyk xykPool)
      ⟨forgetful, registry, 257⟩ (.again (update 0) laterKeys) := by
    rw [Pipeline.harmless_again_iff, take_updates]
    exact not_or.mpr ⟨first_key_forgotten, first_update_not_current⟩
  have hbad := mt (Pipeline.applied_step_iff hkeys hsub _ _ hwf' hagain happlied').mp hharmful
  -- so it is forwarded, on top of an empty channel
  have hforward : Pipeline.step (updates 257) ⟨forgetful, registry, 257⟩
      (.again (update 0) laterKeys) =
        ⟨{ forgetful with
            seen := insert ("0x01", 0) (forgetful.retained laterKeys)
            channel := [update 0] }, registry, 257⟩ := by
    have hnew : (update 0).key ∉ forgetful.seen := first_key_forgotten
    have hopen : forgetful.closed = false := rfl
    have hsend := EventQueue.sendDedup_of_not_mem hnew hopen laterKeys
    simp only [Pipeline.step, hsend]
    rfl
  have hwf₁ := Pipeline.wellFormed_step hemitter hsub _ _ hwf' hagain
  rw [hforward] at hbad hwf₁
  refine ⟨hbuild, valid_replaySteps xykRegistry, fun hdelivered => hbad ?_⟩
  -- with the channel worked off, what is applied is what the pool holds
  rw [replaySteps, Run.exec_append,
    show Run.exec _ (Pipeline.start (filled 0) xykRegistry) (rounds 257) = _ from hexec,
    Run.exec_cons, Run.exec_cons, Run.exec_nil, hforward] at hdelivered
  obtain ⟨p, hp, heq⟩ := hdelivered (by rw [updates, List.length_map, List.length_range]; rfl) rfl
  refine (Pipeline.applied_process hsub hwf₁ (fun _ => 0) (fun _ => false) _).mp ⟨p, hp, ?_⟩
  have hview := congrArg view heq
  rw [view_unstamped, view_unstamped, (applyEvents_overlays _ _ _).1] at hview
  rw [Pipeline.reference, show List.take _ (updates 257) = _ from take_updates]
  exact hview

/-- The run in which the first of 257 updates is sent again. It is exact exactly if that send
does no harm, which it does: both sides fail. -/
theorem redelivery_exact_iff_xyk :
    (Run.Always (Pipeline.step (updates 257)) (Exact (updates 257) "xyk" (.bitflowXyk xykPool))
        (Pipeline.start (filled 0) xykRegistry) replaySteps ↔
      Run.Along (Pipeline.step (updates 257))
        (Pipeline.Harmless (updates 257) (.bitflowXyk xykPool))
        (Pipeline.start (filled 0) xykRegistry) replaySteps) ∧
    (Run.Along (Pipeline.step (updates 257))
        (Pipeline.Harmless (updates 257) (.bitflowXyk xykPool))
        (Pipeline.start (filled 0) xykRegistry) replaySteps →
      Delivered (updates 257) "xyk" (.bitflowXyk xykPool)
        (Run.exec (Pipeline.step (updates 257)) (Pipeline.start (filled 0) xykRegistry)
          replaySteps)) :=
  have hbuild : EventQueue.build 1 = .ok (filled 0) := rfl
  redelivery_exact_iff (updates_emitter 257) (updates_keys 257) rfl (by decide) hbuild
    (valid_replaySteps xykRegistry)

end StacksDex.Results
