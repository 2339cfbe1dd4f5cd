import Mathlib.Data.Finset.Union
import StacksDex.Model.Registry

/-!
# StacksDex — the collector's handle

`collector/handle.rs`, as far as it decides which contracts get a poller task, with the
two places of `bootstrap.rs` and `per_contract_source.rs` that decide it too: the `polled`
set a collector starts with (`start`), and the source's own snapshot of the registry
(`perContractRun`).

The two snapshots are of different moments: `polled` is taken when the collector is
started, the source's when its task first runs. A pool that is added in between
(`addPool`) is new to the handle and already there for the source. How that goes on in a
whole run is in `Model/Collector.lean`.
-/

namespace StacksDex.Model

structure CollectorHandle where
  registry : PoolRegistry
  /-- Contracts that pollers have been spawned for, as the handle knows. -/
  polled : Finset Principal
  /-- The contracts of the pollers the handle has spawned, oldest first. -/
  tasks : List Principal
  /-- False with a block-walking source, which finds new contracts itself. -/
  spawnPerContractOnAdd : Bool

namespace CollectorHandle

/-- `start_collector_with_source_inner`. -/
def start (spawnPerContractOnAdd : Bool) (registry : PoolRegistry) : CollectorHandle where
  registry
  polled := registry.polledContracts.toFinset
  tasks := []
  spawnPerContractOnAdd

/-- The contracts of the pool's topics, topic by topic, that are not polled yet. -/
def newContracts (pool : Pool) (handle : CollectorHandle) : List Principal :=
  (pool.topics.map (·.contract)).filter fun c => c ∉ handle.polled

/-- `spawn_poller`. -/
def spawnPoller (handle : CollectorHandle) (contract : Principal) : CollectorHandle :=
  { handle with
    polled := insert contract handle.polled
    tasks := handle.tasks ++ [contract] }

/-- `self.registry.insert(pool)`. -/
def register (id : String) (pool : Pool) (handle : CollectorHandle) : CollectorHandle :=
  { handle with registry := handle.registry.insert id pool }

/-- `add_pool`. -/
def addPool (id : String) (pool : Pool) (handle : CollectorHandle) : CollectorHandle :=
  let newContracts := handle.newContracts pool
  if handle.spawnPerContractOnAdd then newContracts.foldl spawnPoller (handle.register id pool)
  else
    { handle.register id pool with polled := handle.polled ∪ newContracts.toFinset }

/-- Adding a pool through the handle registers it like any other; only the poller task is the
handle's own doing. -/
@[simp] theorem registry_addPool (id : String) (pool : Pool) (handle : CollectorHandle) :
    (handle.addPool id pool).registry = handle.registry.insert id pool := by
  have hspawn : ∀ (cs : List Principal) (h : CollectorHandle),
      (cs.foldl spawnPoller h).registry = h.registry := by
    intro cs
    induction cs with
    | nil => exact fun _ => rfl
    | cons c cs ih => exact fun h => ih (h.spawnPoller c)
  unfold addPool
  split
  · exact hspawn _ _
  · rfl

/-- `remove_pool`. The pollers go on. -/
def removePool (id : String) (handle : CollectorHandle) : CollectorHandle :=
  { handle with registry := handle.registry.remove id }

end CollectorHandle

/-- `PerContractEventSource::run`: the contracts it spawns pollers for. -/
def perContractRun (registry : PoolRegistry) : List Principal := registry.polledContracts

end StacksDex.Model
