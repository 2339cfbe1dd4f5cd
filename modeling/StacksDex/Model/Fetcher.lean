import StacksDex.Model.V2Pools

/-!
# StacksDex — bootstrapping the pools of the singleton contracts

`v2/fetcher.rs`: a pool is built from what the contract's read-only lookup answers
at some chain tip. The lookup and the token table are parameters (`Rpc`): they
are network calls, and any answer or failure is possible.

Arkadiko and ALEX are probed in both token orders, and Velar says itself whether its order is
flipped; either way the pool keeps the caller's order of the tokens, with the amounts
exchanged to match. When the second order is tried is not the same everywhere: Arkadiko
tries it after the answer `none`, ALEX after any error.
-/

namespace StacksDex.Model

/-- What a bootstrap talks to. -/
structure Rpc where
  sha256 : Sha256
  /-- `call_read`: the decoded result of a read-only function. -/
  callRead : (deployer name function : String) → (args : List (List UInt8)) →
    (tip : Option String) → Except Fault ClarityValue
  /-- `TokenInfo::decimals`. -/
  decimals : Principal → Except Fault Nat

namespace Rpc

variable (rpc : Rpc)

/-- `principal_parts`. -/
def principalParts (p : Principal) : Except Fault (String × String) :=
  match p with
  | .contract version hash160 name => do
    .ok (← c32EncodeAddress rpc.sha256 version hash160, name)
  | .standard _ _ => do
    .error (.err ("expected contract principal, got standard: " ++ (← p.display rpc.sha256)))

/-- `v.field(key)?.as_uint()?`. -/
def uintField (v : ClarityValue) (key : String) : Except Fault Nat := do
  (← v.field rpc.sha256 key).asUint rpc.sha256

/-- `v.field(key).map_err(..)?.as_principal()?`: `missing` goes before the cause. -/
def principalField (missing : String) (v : ClarityValue) (key : String) :
    Except Fault Principal := do
  (← mapErr (missing ++ ·) (v.field rpc.sha256 key)).asPrincipal rpc.sha256

/-! ## Arkadiko -/

/-- `call_pair_details`. -/
def callPairDetails (deployer name : String) (left right : Principal) (tip : Option String) :
    Except Fault (Option ClarityValue) := do
  let answer ← rpc.callRead deployer name "get-pair-details"
    [cvPrincipal left, cvPrincipal right] tip
  let res ← answer.unwrapOk rpc.sha256
  match res with
  | .optionalNone => .ok none
  | .optionalSome inner => .ok (some inner)
  -- some ABIs flatten the optional out
  | .tuple fields => .ok (some (.tuple fields))
  | other => do
    .error (.err ("get-pair-details: expected optional<tuple>, got " ++
      (← other.debug rpc.sha256)))

/-- The probe of `fetch_arkadiko_pool`: the details, and whether the order was swapped. -/
def probePair (deployer name : String) (x y : Principal) (tip : Option String) :
    Except Fault (ClarityValue × Bool) := do
  match ← rpc.callPairDetails deployer name x y tip with
  | some t => .ok (t, false)
  | none =>
    -- an `Err` of the first call is returned; only `none` leads here
    match ← rpc.callPairDetails deployer name y x tip with
    | some alt => .ok (alt, true)
    | none => do
      let shownX ← x.display rpc.sha256
      let shownY ← y.display rpc.sha256
      .error (.err ("Arkadiko get-pair-details returned none for both orderings of " ++ shownX ++
        " / " ++ shownY))

/-- `enabled` may be absent in some variants; it then defaults to true. -/
def enabledOf (raw : ClarityValue) : Except Fault Bool := do
  match ← dropErr (raw.field rpc.sha256 "enabled") with
  | some v => do .ok ((← dropErr (v.asBool rpc.sha256)).getD true)
  | none => .ok true

/-- `fetch_arkadiko_pool`. -/
def fetchArkadikoPool (swapContract expectedX expectedY : Principal) (tip : Option String) :
    Except Fault ArkadikoPool := do
  let (deployer, name) ← rpc.principalParts swapContract
  let (raw, swapped) ← rpc.probePair deployer name expectedX expectedY tip
  let rawBalanceX ← rpc.uintField raw "balance-x"
  let rawBalanceY ← rpc.uintField raw "balance-y"
  let enabled ← rpc.enabledOf raw
  let swapToken ←
    rpc.principalField "Arkadiko get-pair-details missing `swap-token`: " raw "swap-token"
  let xDecimals ← rpc.decimals expectedX
  let yDecimals ← rpc.decimals expectedY
  .ok
    { poolContract := swapContract
      swapToken
      xToken := expectedX
      yToken := expectedY
      xDecimals
      yDecimals
      balanceX := if swapped then rawBalanceY else rawBalanceX
      balanceY := if swapped then rawBalanceX else rawBalanceY
      enabled
      lastTxId := none }

/-! ## Velar -/

/-- The answer of `lookup-pool`, bare or wrapped in `(ok …)`. -/
def lookupInner (outer : ClarityValue) (x y : Principal) : Except Fault ClarityValue :=
  match outer with
  | .optionalSome b => .ok b
  | .optionalNone => do
    .error (.err ("Velar lookup-pool returned none for " ++ (← x.display rpc.sha256) ++ " / " ++
      (← y.display rpc.sha256)))
  | .responseOk boxed =>
    match boxed with
    | .optionalSome b => .ok b
    | .optionalNone => do
      .error (.err ("Velar lookup-pool (ok wrapped) returned none for " ++
        (← x.display rpc.sha256) ++ " / " ++ (← y.display rpc.sha256)))
    | other => .ok other
  | other => do
    .error (.err ("Velar lookup-pool: expected optional<tuple>, got " ++
      (← other.debug rpc.sha256)))

/-- `fetch_velar_pool`. -/
def fetchVelarPool (poolContract coreContract expectedX expectedY : Principal)
    (tip : Option String) : Except Fault VelarPool := do
  let (coreDeployer, coreName) ← rpc.principalParts coreContract
  let outer ← rpc.callRead coreDeployer coreName "lookup-pool"
    [cvPrincipal expectedX, cvPrincipal expectedY] tip
  let inner ← rpc.lookupInner outer expectedX expectedY
  let flippedField ← inner.field rpc.sha256 "flipped"
  -- a field of another type counts as not flipped
  let flipped := (← dropErr (flippedField.asBool rpc.sha256)).getD false
  let pool ← inner.field rpc.sha256 "pool"
  let reserve0 ← rpc.uintField pool "reserve0"
  let reserve1 ← rpc.uintField pool "reserve1"
  let fee ← pool.field rpc.sha256 "swap-fee"
  let feeNum ← rpc.uintField fee "num"
  let feeDen ← rpc.uintField fee "den"
  let lpToken ←
    rpc.principalField "Velar lookup-pool missing `pool.lp-token`: " pool "lp-token"
  let xDecimals ← rpc.decimals expectedX
  let yDecimals ← rpc.decimals expectedY
  .ok
    { poolContract
      coreContract
      lpToken
      xToken := expectedX
      yToken := expectedY
      xDecimals
      yDecimals
      reserveX := if flipped then reserve1 else reserve0
      reserveY := if flipped then reserve0 else reserve1
      flipped
      feeNum
      feeDen
      lastTxId := none }

/-! ## ALEX -/

/-- `call_get_pool_details`. -/
def callGetPoolDetails (deployer name : String) (left right : Principal) (tip : Option String) :
    Except Fault ClarityValue := do
  let answer ← rpc.callRead deployer name "get-pool-details"
    [cvPrincipal left, cvPrincipal right, cvUint CONSTANT_PRODUCT_FACTOR] tip
  let res ← answer.unwrapOk rpc.sha256
  match res with
  | .optionalSome b => .ok b
  | .optionalNone => .error (.err "ALEX get-pool-details returned none")
  | other => .ok other

/-- The probe of `fetch_alex_pool`: any `Err` in the expected order leads to the other. -/
def probePool (deployer name : String) (x y : Principal) (tip : Option String) :
    Except Fault (ClarityValue × Bool) := do
  match ← dropErr (rpc.callGetPoolDetails deployer name x y tip) with
  | some t => .ok (t, false)
  | none => do .ok (← rpc.callGetPoolDetails deployer name y x tip, true)

/-- `fetch_alex_pool`. -/
def fetchAlexPool (ammContract expectedX expectedY : Principal) (tip : Option String) :
    Except Fault AlexPool := do
  let (deployer, name) ← rpc.principalParts ammContract
  let (raw, swapped) ← rpc.probePool deployer name expectedX expectedY tip
  let rawBalanceX ← rpc.uintField raw "balance-x"
  let rawBalanceY ← rpc.uintField raw "balance-y"
  let feeRateX ← rpc.uintField raw "fee-rate-x"
  let feeRateY ← rpc.uintField raw "fee-rate-y"
  let poolId ← rpc.uintField raw "pool-id"
  let xDecimals ← rpc.decimals expectedX
  let yDecimals ← rpc.decimals expectedY
  .ok
    { poolContract := ammContract
      poolId
      xToken := expectedX
      yToken := expectedY
      xDecimals
      yDecimals
      balanceX := if swapped then rawBalanceY else rawBalanceX
      balanceY := if swapped then rawBalanceX else rawBalanceY
      factor := CONSTANT_PRODUCT_FACTOR
      -- the fee rates turn with the reserves
      feeRateX := if swapped then feeRateY else feeRateX
      feeRateY := if swapped then feeRateX else feeRateY
      lastTxId := none }

end Rpc

end StacksDex.Model
