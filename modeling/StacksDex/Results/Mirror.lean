import StacksDex.Bridge.Cells
import StacksDex.Results.Quotes

/-!
# StacksDex — the DLMM mirror converges

The pool contract's bin updates and the core's actions write different cells, so
the order in which the two streams are merged does not matter, and a snapshot may
be reconciled by replaying both streams from anywhere at or before it.

`mirror_converges` has both parts, for arbitrary events of the two kinds, arbitrary merges and
arbitrary times of application. Two states are compared up to their stamps, which say what was
applied last and when.

It rests on every handler being a partial assignment that does not read the state
(`Bridge/Cells.lean`), and on the facts about logs of such assignments (`Lib/Overlay.lean`):
separate logs commute, and what is applied twice is as good as applied once, if everything
after it is applied again, too.
-/

namespace StacksDex.Results

open StacksDex.Lib StacksDex.Model StacksDex.Bridge

/-! ## The two streams write different cells -/

/-- The two streams of a DLMM pool write different cells. -/
theorem streams_separate {S : DLMMPool} {P C : List StacksEvent}
    (hP : ∀ e ∈ P, e.action ∈ POOL_EMITTED_ACTIONS)
    (hC : ∀ e ∈ C, e.action ∈ CORE_EMITTED_ACTIONS) :
    Overlay.Separate (P.map (patch (.dlmm S))) (C.map (patch (.dlmm S))) := by
  intro k
  -- bins belong to the pool's stream, every other cell to the core's
  by_cases hk : ∃ binId, k = .bin binId
  · obtain ⟨binId, rfl⟩ := hk
    right
    intro q hq
    obtain ⟨e, he, rfl⟩ := List.mem_map.mp hq
    exact dlmmPatch_bin (not_poolEmitted_of_coreEmitted (hC e he)) binId
  · left
    intro q hq
    obtain ⟨e, he, rfl⟩ := List.mem_map.mp hq
    exact dlmmPatch_of_not_bin (not_coreEmitted_of_poolEmitted (hP e he))
      fun binId h => hk ⟨binId, h⟩

/-! ## Convergence -/

/-- Runs whose patches act alike reach the same state, up to the stamps. -/
theorem applyEvents_unstamped_eq {S T : DLMMPool} {events events' : List StacksEvent}
    (hframe : frame (.dlmm S) = frame (.dlmm T))
    (h : Overlay.applyAll (events.map (patch (.dlmm S))) (view (.dlmm S)) =
      Overlay.applyAll (events'.map (patch (.dlmm T))) (view (.dlmm T)))
    (clock clock' : Nat → Nat) :
    (S.applyEvents clock events).unstamped = (T.applyEvents clock' events').unstamped := by
  obtain ⟨hview, hkeep⟩ := applyEvents_overlays clock (.dlmm S) events
  obtain ⟨hview', hkeep'⟩ := applyEvents_overlays clock' (.dlmm T) events'
  rw [applyEvents_dlmm] at hview hkeep hview' hkeep'
  have hall := unstamped_eq (hkeep.trans (hframe.trans hkeep'.symm))
    (hview.trans (h.trans hview'.symm))
  exact Pool.dlmm.inj hall

/--
**Mirror convergence.** (a) Every merge of the two streams reaches the same state, up to
stamps; (b) so does replaying them, from at or before the points a snapshot was taken at, over
that snapshot. The streams are any events of the pool's and of the core's actions, with any
payloads. They write separate cells, so each cell ends with the last write of its own stream,
and a write that is repeated is repeated in order.
-/
theorem mirror_converges (S : DLMMPool) (P C : List StacksEvent)
    (hP : ∀ e ∈ P, e.action ∈ POOL_EMITTED_ACTIONS)
    (hC : ∀ e ∈ C, e.action ∈ CORE_EMITTED_ACTIONS) :
    (∀ M M' clock clock', Overlay.Merge P C M → Overlay.Merge P C M' →
      (S.applyEvents clock M).unstamped = (S.applyEvents clock' M').unstamped) ∧
    (∀ p₀ c₀ p₁ c₁ snap rest M clock clock' clock'', p₁ ≤ p₀ → c₁ ≤ c₀ →
      Overlay.Merge (P.take p₀) (C.take c₀) snap → Overlay.Merge (P.drop p₁) (C.drop c₁) rest →
      Overlay.Merge P C M →
      ((S.applyEvents clock snap).applyEvents clock' rest).unstamped =
        (S.applyEvents clock'' M).unstamped) := by
  have hsep := streams_separate (S := S) hP hC
  constructor
  · intro M M' clock clock' hM hM'
    refine applyEvents_unstamped_eq rfl ?_ clock clock'
    rw [Overlay.applyAll_merge hsep (hM.map _), Overlay.applyAll_merge hsep (hM'.map _)]
  · intro p₀ c₀ p₁ c₁ snap rest M clock clock' clock'' hp hc hsnap hrest hM
    obtain ⟨hview, hkeep⟩ := applyEvents_overlays clock (.dlmm S) snap
    rw [applyEvents_dlmm] at hview hkeep
    -- the snapshot is of the same pool, so its events stand for the same patches
    have hpatch : patch (.dlmm (S.applyEvents clock snap)) = patch (.dlmm S) :=
      funext fun e => patch_congr hkeep e
    refine applyEvents_unstamped_eq hkeep ?_ clock' clock''
    rw [hview, hpatch, Overlay.applyAll_merge hsep (hM.map _)]
    -- the snapshot and the replay are merges of prefixes and suffixes of the patch streams
    refine Overlay.applyAll_replay hsep hp hc ?_ ?_ _
    · rw [← List.map_take, ← List.map_take]
      exact hsnap.map _
    · rw [← List.map_drop, ← List.map_drop]
      exact hrest.map _

/-- Bin 1 of the one-sided pool is set. -/
def binUpdate : StacksEvent where
  emitter := oneSidedPool.poolContract
  txId := "0x01"
  eventIndex := 0
  action := "update-bin-balances"
  data := [("bin-id", .uint 501), ("x-balance", .uint 5), ("y-balance", .uint 0)]

/-- A swap moves the active bin of the one-sided pool to bin 1. -/
def swapToOne : StacksEvent where
  emitter := oneSidedPool.coreContract
  txId := "0x01"
  eventIndex := 1
  action := "swap-y-for-x"
  data := [("updated-active-bin-id", .int 1)]

/-- Either event may come first; and after a snapshot that has seen the bin update only, the
update may be applied once more with the swap. -/
theorem mirror_converges_oneSided :
    (oneSidedPool.applyEvents (fun _ => 1) [binUpdate, swapToOne]).unstamped =
      (oneSidedPool.applyEvents (fun _ => 2) [swapToOne, binUpdate]).unstamped ∧
    ((oneSidedPool.applyEvents (fun _ => 1) [binUpdate]).applyEvents (fun _ => 2)
        [swapToOne, binUpdate]).unstamped =
      (oneSidedPool.applyEvents (fun _ => 3) [binUpdate, swapToOne]).unstamped := by
  obtain ⟨hmerges, hreplays⟩ := mirror_converges oneSidedPool [binUpdate] [swapToOne]
    (by simp [binUpdate, POOL_EMITTED_ACTIONS]) (by simp [swapToOne, CORE_EMITTED_ACTIONS])
  refine ⟨hmerges _ _ _ _ (.left (.right .nil)) (.right (.left .nil)), ?_⟩
  -- the snapshot is taken after one update and no swap, and both streams are replayed in full
  exact hreplays 1 0 0 0 [binUpdate] [swapToOne, binUpdate] [binUpdate, swapToOne] _ _ _
    (Nat.zero_le _) le_rfl (.left .nil) (.right (.left .nil)) (.left (.right .nil))

end StacksDex.Results
