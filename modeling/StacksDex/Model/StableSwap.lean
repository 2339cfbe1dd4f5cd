import StacksDex.Model.Event

/-!
# StacksDex — the stableswap pools

`stableswap/bitflow_v1.rs`, `stableswap/bitflow_v2.rs` and the handlers of
`stableswap/events.rs`. A V2 pool takes its reserves from its own contract and its
midpoint from the shared core; the V1 handler is a no-op.

So a V2 pool subscribes to two contracts. An update of the reserves needs no filter, as its
emitter is the pool's own; the core's midpoint events name the pool they are for, and one
that names none or another is not applied.
-/

namespace StacksDex.Model

/-- The two interfaces of V1 pools. -/
inductive Sig where
  | stxAnchored
  | tokenPair
  deriving DecidableEq, Repr

/-- The two shapes of `get-y` among V1 pools. -/
inductive MathVariant where
  | balBug
  | fixed
  deriving DecidableEq, Repr

structure BitflowStableSwapV1Pool where
  /-- It has no core contract behind it. -/
  poolContract : Principal
  lpToken : Principal
  xToken : Principal
  yToken : Principal
  xDecimals : Nat
  yDecimals : Nat
  xBalance : Nat
  yBalance : Nat
  amp : Nat
  threshold : Nat
  /-- The whole fee of each direction, in bps. -/
  buyFeeBps : Nat
  sellFeeBps : Nat
  sig : Sig
  variant : MathVariant
  /-- False once the pool is deprecated. -/
  approval : Bool
  lastTxId : Option String
  deriving DecidableEq

/-- `apply_bitflow_v1_stable_event`: always `false`. -/
def BitflowStableSwapV1Pool.apply (_pool : BitflowStableSwapV1Pool) (_event : StacksEvent) :
    Option BitflowStableSwapV1Pool :=
  none

def BitflowStableSwapV1Pool.topics (pool : BitflowStableSwapV1Pool) : List StacksTopic :=
  [⟨pool.poolContract, "update-pool-balances"⟩]

structure BitflowStableSwapV2Pool where
  poolContract : Principal
  coreContract : Principal
  xToken : Principal
  yToken : Principal
  xDecimals : Nat
  yDecimals : Nat
  xBalance : Nat
  yBalance : Nat
  xProtocolFeeBps : Nat
  xProviderFeeBps : Nat
  yProtocolFeeBps : Nat
  yProviderFeeBps : Nat
  /-- The amplification coefficient, and when the iteration has converged. -/
  amp : Nat
  threshold : Nat
  /-- The midpoint of pairs that are not one to one. -/
  midpointNum : Nat
  midpointDen : Nat
  poolStatus : Bool
  lastTxId : Option String
  deriving DecidableEq

/-- `apply_bitflow_v2_stable_event`. -/
def BitflowStableSwapV2Pool.apply (pool : BitflowStableSwapV2Pool) (event : StacksEvent) :
    Option BitflowStableSwapV2Pool :=
  match event.action with
  | "update-pool-balances" => do
    let bx ← event.dataUint "x-balance"
    let by' ← event.dataUint "y-balance"
    some { pool with xBalance := bx, yBalance := by', lastTxId := some event.txId }
  | "set-midpoint" => do
    let p ← event.dataPrincipal "pool-contract"
    -- the core emits this for all of its pools
    if p ≠ pool.poolContract then none
    else do
      let num ← event.dataUint "midpoint-numerator"
      let den ← event.dataUint "midpoint-denominator"
      -- a zero denominator is refused
      if den = 0 then none
      else some { pool with midpointNum := num, midpointDen := den, lastTxId := some event.txId }
  | _ => none

def BitflowStableSwapV2Pool.topics (pool : BitflowStableSwapV2Pool) : List StacksTopic :=
  [⟨pool.poolContract, "update-pool-balances"⟩, ⟨pool.coreContract, "set-midpoint"⟩]

end StacksDex.Model
