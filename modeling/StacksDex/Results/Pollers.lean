import StacksDex.Bridge.Pollers
import StacksDex.Results.Redelivery
import StacksDex.Results.Quotes

/-!
# StacksDex — one poller per contract

`add_pool` spawns a poller for every topic of the pool whose contract is not in `polled`,
and looks at `polled` before the first of these spawns, so a contract with several topics
gets several pollers. The source task knows the registry only, so it spawns a second
poller for whatever was added before it started. Nothing else goes wrong.

`one_poller_per_contract` says so of every run of spawns and additions: a run of steps that
are `Fresh` (which neither of the two is) has one poller for each contract, and a run that
ends with nothing left to spawn has one for each contract only if its steps were fresh.
`pollers_duplicated` has a run of either kind.

The steps, and the claims each of them adds, are in `Bridge/Pollers.lean`.
-/

namespace StacksDex.Results

open StacksDex.Lib StacksDex.Lib.Run StacksDex.Model StacksDex.Bridge StacksDex.Bridge.Collecting

/--
**One poller a contract.** Every run of fresh steps keeps at most one poller a contract, and
has exactly one for each contract of a topic when nothing is left to spawn. A run that ends
there and kept this had only fresh steps. A step is fresh when an added pool lists each
contract that is not polled yet in one topic only, and when the source task takes its snapshot
of the registry before any poller of an added pool is spawned (`Fresh`).
-/
theorem one_poller_per_contract (registry : PoolRegistry) (steps : List CollectingStep) :
    (Along step Fresh (Collecting.start registry) steps →
      Always step (fun s => s.AtMostOne ∧ s.ExactlyOne) (Collecting.start registry) steps) ∧
    (Settled (exec step (Collecting.start registry) steps) →
      (Always step (fun s => s.AtMostOne ∧ s.ExactlyOne) (Collecting.start registry) steps ↔
        Along step Fresh (Collecting.start registry) steps)) := by
  have hstart := tracked_start registry
  have hfree : Along step (fun _ _ => True) (Collecting.start registry) steps :=
    along_of_forall (fun _ _ _ => trivial) _
  have hstep : ∀ (s : Collecting) l, s.Tracked → True → (s.step l).Tracked :=
    fun s l h _ => h.step l
  have htracked : Always step Tracked (Collecting.start registry) steps :=
    always_of_along hstep hstart hfree
  have hsingle : (Collecting.start registry).Single := fun c => Nat.zero_le 1
  -- the claims are single exactly along fresh steps
  have hexact : Always step Single (Collecting.start registry) steps ↔
      Along step Fresh (Collecting.start registry) steps :=
    always_iff_along hstep (fun s l h _ => single_step_iff h) hstart hsingle hfree
  have hgood : Along step Fresh (Collecting.start registry) steps →
      Always step (fun s => s.AtMostOne ∧ s.ExactlyOne) (Collecting.start registry) steps := by
    intro hfresh
    have hboth := always_and.mpr ⟨htracked, hexact.mpr hfresh⟩
    exact hboth.mono fun s h => ⟨h.2.atMostOne, h.2.exactlyOne h.1⟩
  refine ⟨hgood, fun hsettled => ⟨fun hall => hexact.mp ?_, hgood⟩⟩
  -- at the end all claims have been spawned, so none was double
  refine always_of_exec hstep (fun s l _ => single_of_step) hstart hfree ?_
  intro c
  rw [claims_settled hsettled]
  exact hall.last.1 c

/-- A DLMM pool, added to an empty registry after the source task has started. -/
def addedLater : List CollectingStep :=
  [.run, .add "pool" (.dlmm oneSidedPool)] ++ List.replicate 9 .spawn

/-- An XYK pool, added before it has started. -/
def addedEarly : List CollectingStep :=
  [.add "xyk" (.bitflowXyk xykPool), .spawn, .run, .fanOut]

def emptyRegistry : PoolRegistry where
  byId := []
  keysDistinct := List.nodup_nil
  watermarks := []
  topics := []
  lastProcessedBlock := 0

/-- The first run ends with seven pollers of the core and two of the pool, the second with
two of the pool. -/
theorem pollers_duplicated :
    (exec step (Collecting.start emptyRegistry) addedLater).spawned =
        List.replicate 2 oneSidedPool.poolContract ++
          List.replicate 7 oneSidedPool.coreContract ∧
      ¬ AtMostOne (exec step (Collecting.start emptyRegistry) addedLater) ∧
      (exec step (Collecting.start emptyRegistry) addedEarly).spawned =
        List.replicate 2 xykPool.poolContract ∧
      ¬ AtMostOne (exec step (Collecting.start emptyRegistry) addedEarly) := by
  have hlater : (exec step (Collecting.start emptyRegistry) addedLater).spawned =
      List.replicate 2 oneSidedPool.poolContract ++
        List.replicate 7 oneSidedPool.coreContract := by decide
  have hearly : (exec step (Collecting.start emptyRegistry) addedEarly).spawned =
      List.replicate 2 xykPool.poolContract := by decide
  refine ⟨hlater, fun h => ?_, hearly, fun h => ?_⟩
  · have := h oneSidedPool.coreContract
    rw [hlater] at this
    exact absurd this (by decide)
  · have := h xykPool.poolContract
    rw [hearly] at this
    exact absurd this (by decide)

end StacksDex.Results
