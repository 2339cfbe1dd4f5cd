import StacksDex.Model.Fetcher
import StacksDex.Model.StableSwap

/-!
# StacksDex — bootstrapping the pools with a contract of their own

`fetch_bitflow_xyk_pool` of `v2/fetcher.rs`, and `stableswap/fetcher.rs`. Bitflow's XYK
and V2 stableswap pools answer `get-pool` in the one order of their tokens, which the
caller has to name. A V1 pool answers `get-pair-data`, and keeps its fees and its
threshold in data variables.

The reads are the parameters of `Rpc`, so any answer or failure of any of them is
possible, and the order in which a bootstrap asks matters where two reads fail: the first
failure is the one that is returned, with the text the source gives it.
-/

namespace StacksDex.Model

namespace Rpc

variable (rpc : Rpc)

/-- `v.field(key).ok().and_then(|v| v.as_uint().ok()).unwrap_or(default)`. -/
def uintFieldOr (v : ClarityValue) (key : String) (default : Nat) : Except Fault Nat := do
  match ← dropErr (v.field rpc.sha256 key) with
  | some field => do .ok ((← dropErr (field.asUint rpc.sha256)).getD default)
  | none => .ok default

/-- The same of a `bool`. -/
def boolFieldOr (v : ClarityValue) (key : String) (default : Bool) : Except Fault Bool := do
  match ← dropErr (v.field rpc.sha256 key) with
  | some field => do .ok ((← dropErr (field.asBool rpc.sha256)).getD default)
  | none => .ok default

/-- `raw.field(key)?.as_principal()?`. -/
def plainPrincipalField (v : ClarityValue) (key : String) : Except Fault Principal := do
  (← v.field rpc.sha256 key).asPrincipal rpc.sha256

/-- The tokens have to be named in the on-chain order. -/
def checkTokens (kind hint : String)
    (poolContract onChainX onChainY expectedX expectedY : Principal) : Except Fault Unit := do
  if onChainX ≠ expectedX ∨ onChainY ≠ expectedY then
    .error (.err (kind ++ " pool " ++ (← poolContract.display rpc.sha256) ++ " tokens (" ++
      (← onChainX.display rpc.sha256) ++ ", " ++ (← onChainY.display rpc.sha256) ++
      ") don't match expected (" ++ (← expectedX.display rpc.sha256) ++ ", " ++
      (← expectedY.display rpc.sha256) ++ ")" ++ hint))
  else .ok ()

/-! ## XYK -/

/-- `fetch_bitflow_xyk_pool`. -/
def fetchBitflowXykPool (poolContract expectedX expectedY : Principal) (tip : Option String) :
    Except Fault BitflowXykPool := do
  let (deployer, name) ← rpc.principalParts poolContract
  let raw ← (← rpc.callRead deployer name "get-pool" [] tip).unwrapOk rpc.sha256
  let xBalance ← rpc.uintField raw "x-balance"
  let yBalance ← rpc.uintField raw "y-balance"
  let xProtocolFee ← rpc.uintField raw "x-protocol-fee"
  let xProviderFee ← rpc.uintField raw "x-provider-fee"
  let yProtocolFee ← rpc.uintField raw "y-protocol-fee"
  let yProviderFee ← rpc.uintField raw "y-provider-fee"
  let poolStatus ← rpc.boolFieldOr raw "pool-status" true
  let coreContract ← rpc.plainPrincipalField raw "core-address"
  let onChainX ← rpc.plainPrincipalField raw "x-token"
  let onChainY ← rpc.plainPrincipalField raw "y-token"
  rpc.checkTokens "BitflowXyk"
    "; pass them in the on-chain order — XYK pools don't auto-flip"
    poolContract onChainX onChainY expectedX expectedY
  let xDecimals ← rpc.decimals expectedX
  let yDecimals ← rpc.decimals expectedY
  .ok
    { poolContract
      coreContract
      xToken := expectedX
      yToken := expectedY
      xDecimals
      yDecimals
      xBalance
      yBalance
      xProtocolFeeBps := asU32 xProtocolFee
      xProviderFeeBps := asU32 xProviderFee
      yProtocolFeeBps := asU32 yProtocolFee
      yProviderFeeBps := asU32 yProviderFee
      poolStatus
      lastTxId := none }

/-! ## V2 stableswap -/

/-- `fetch_bitflow_v2_stable_pool`. -/
def fetchBitflowV2StablePool (poolContract expectedX expectedY : Principal)
    (tip : Option String) : Except Fault BitflowStableSwapV2Pool := do
  let (deployer, name) ← rpc.principalParts poolContract
  let raw ← (← rpc.callRead deployer name "get-pool" [] tip).unwrapOk rpc.sha256
  let xBalance ← rpc.uintField raw "x-balance"
  let yBalance ← rpc.uintField raw "y-balance"
  let xProtocolFee ← rpc.uintField raw "x-protocol-fee"
  let xProviderFee ← rpc.uintField raw "x-provider-fee"
  let yProtocolFee ← rpc.uintField raw "y-protocol-fee"
  let yProviderFee ← rpc.uintField raw "y-provider-fee"
  let amp ← rpc.uintField raw "amplification-coefficient"
  let threshold ← rpc.uintFieldOr raw "convergence-threshold" 2
  -- cores before v-1-3 have no midpoint: their pairs are one to one
  let midpointNum ← rpc.uintFieldOr raw "midpoint-primary-numerator" 1
  let midpointDen ← rpc.uintFieldOr raw "midpoint-primary-denominator" 1
  let poolStatus ← rpc.boolFieldOr raw "pool-status" true
  let coreContract ← rpc.plainPrincipalField raw "core-address"
  let onChainX ← rpc.plainPrincipalField raw "x-token"
  let onChainY ← rpc.plainPrincipalField raw "y-token"
  rpc.checkTokens "BitflowV2Stable" "" poolContract onChainX onChainY expectedX expectedY
  let xDecimals ← rpc.decimals expectedX
  let yDecimals ← rpc.decimals expectedY
  .ok
    { poolContract
      coreContract
      xToken := expectedX
      yToken := expectedY
      xDecimals
      yDecimals
      xBalance
      yBalance
      xProtocolFeeBps := asU32 xProtocolFee
      xProviderFeeBps := asU32 xProviderFee
      yProtocolFeeBps := asU32 yProtocolFee
      yProviderFeeBps := asU32 yProviderFee
      amp
      threshold
      midpointNum
      midpointDen
      poolStatus
      lastTxId := none }

/-! ## V1 stableswap -/

section DataVars

variable (dataVar : (deployer name var : String) → Except Fault ClarityValue)
variable (deployer name : String)

end DataVars

end Rpc

end StacksDex.Model
