import StacksDex.Model.Event

/-!
# StacksDex — the V2-family pools

`v2/arkadiko.rs`, `v2/velar.rs`, `v2/alex.rs`, `v2/bitflow_xyk.rs` and the four
handlers of `v2/events.rs`. Three of the variants live in singleton contracts
and filter events by a discriminator in the payload; Bitflow XYK has one contract
a pool and relies on the routing. A handler returns the new state, or `none`
where the source returns `false` and leaves the pool alone.

For each variant there is its state, with the fields in the caller's order of the tokens, the
actions it indexes, its handler (`apply`) and its topics.
-/

namespace StacksDex.Model

/-! ## Arkadiko -/

/-- One pair of the Arkadiko singleton. -/
structure ArkadikoPool where
  /-- The same for every pair. -/
  poolContract : Principal
  /-- The LP token: the pair's identity, and the filter on its events. -/
  swapToken : Principal
  xToken : Principal
  yToken : Principal
  xDecimals : Nat
  yDecimals : Nat
  balanceX : Nat
  balanceY : Nat
  enabled : Bool
  lastTxId : Option String
  deriving DecidableEq

def ARKADIKO_INDEXED_ACTIONS : List String := ["swap-x-for-y", "swap-y-for-x"]

/-- `if let Some(ClarityValue::Bool(b)) = event.data.get(key)`. -/
def StacksEvent.dataBool (event : StacksEvent) (key : String) : Option Bool :=
  match event.data.get key with
  | some (.bool b) => some b
  | _ => none

/-- `apply_arkadiko_event`. -/
def ArkadikoPool.apply (pool : ArkadikoPool) (event : StacksEvent) : Option ArkadikoPool :=
  if event.action ∉ ARKADIKO_INDEXED_ACTIONS then none
  else do
    -- an event without a discriminator is not applied
    let t ← event.dataPrincipal "swap-token"
    if t ≠ pool.swapToken then none
    else do
      let bx ← event.dataUint "balance-x"
      let by' ← event.dataUint "balance-y"
      some { pool with
        balanceX := bx
        balanceY := by'
        enabled := (event.dataBool "enabled").getD pool.enabled
        lastTxId := some event.txId }

def ArkadikoPool.topics (pool : ArkadikoPool) : List StacksTopic :=
  ARKADIKO_INDEXED_ACTIONS.map fun action => ⟨pool.poolContract, action⟩

/-! ## Velar -/

/-- One pair of Velar. -/
structure VelarPool where
  poolContract : Principal
  /-- The emitter of every Velar pool's events. -/
  coreContract : Principal
  /-- The pair's identity, and the filter on its events. -/
  lpToken : Principal
  xToken : Principal
  yToken : Principal
  xDecimals : Nat
  yDecimals : Nat
  /-- In the order of `xToken` and `yToken`, which `flipped` relates to the chain's. -/
  reserveX : Nat
  reserveY : Nat
  /-- The chain's first token is `yToken`. -/
  flipped : Bool
  feeNum : Nat
  feeDen : Nat
  lastTxId : Option String
  deriving DecidableEq

def VELAR_INDEXED_ACTIONS : List String := ["swap"]

/-- `let Some(ClarityValue::Tuple(inner)) = event.data.get("pool")`. -/
def StacksEvent.dataTuple (event : StacksEvent) (key : String) : Option Fields :=
  match event.data.get key with
  | some (.tuple inner) => some inner
  | _ => none

def Fields.uint (m : Fields) (key : String) : Option Nat :=
  match m.get key with
  | some (.uint n) => some n.toNat
  | _ => none

def Fields.principal (m : Fields) (key : String) : Option Principal :=
  match m.get key with
  | some (.principal p) => some p
  | _ => none

/-- `apply_velar_event`: the reserves lie in the nested `pool` tuple, in on-chain order. -/
def VelarPool.apply (pool : VelarPool) (event : StacksEvent) : Option VelarPool :=
  if event.action ∉ VELAR_INDEXED_ACTIONS then none
  else do
    let inner ← event.dataTuple "pool"
    let lp ← inner.principal "lp-token"
    if lp ≠ pool.lpToken then none
    else do
      let r0 ← inner.uint "reserve0"
      let r1 ← inner.uint "reserve1"
      some { pool with
        -- turned round here as at the bootstrap
        reserveX := if pool.flipped then r1 else r0
        reserveY := if pool.flipped then r0 else r1
        lastTxId := some event.txId }

def VelarPool.topics (pool : VelarPool) : List StacksTopic :=
  VELAR_INDEXED_ACTIONS.map fun action => ⟨pool.coreContract, action⟩

/-! ## ALEX -/

/-- One pool of the ALEX singleton. -/
structure AlexPool where
  poolContract : Principal
  /-- The pool's number on the chain, and the filter on its events. -/
  poolId : Nat
  xToken : Principal
  yToken : Principal
  xDecimals : Nat
  yDecimals : Nat
  balanceX : Nat
  balanceY : Nat
  factor : Nat
  /-- Fee rates with eight decimals. -/
  feeRateX : Nat
  feeRateY : Nat
  lastTxId : Option String
  deriving DecidableEq

/-- The one supported factor, in 8-decimal fixed point. -/
def CONSTANT_PRODUCT_FACTOR : Nat := 100000000

def ALEX_INDEXED_ACTIONS : List String := ["swap-x-for-y", "swap-y-for-x"]

/-- `apply_alex_event`. -/
def AlexPool.apply (pool : AlexPool) (event : StacksEvent) : Option AlexPool :=
  if event.action ∉ ALEX_INDEXED_ACTIONS then none
  else do
    -- the singleton's events are told apart by the pool's number
    let id ← event.dataUint "pool-id"
    if id ≠ pool.poolId then none
    else do
      let bx ← event.dataUint "balance-x"
      let by' ← event.dataUint "balance-y"
      some { pool with balanceX := bx, balanceY := by', lastTxId := some event.txId }

def AlexPool.topics (pool : AlexPool) : List StacksTopic :=
  ALEX_INDEXED_ACTIONS.map fun action => ⟨pool.poolContract, action⟩

/-! ## Bitflow XYK -/

/-- A Bitflow constant-product pool, with a contract of its own. -/
structure BitflowXykPool where
  poolContract : Principal
  /-- Read per pool: pools may refer to different cores. -/
  coreContract : Principal
  xToken : Principal
  yToken : Principal
  xDecimals : Nat
  yDecimals : Nat
  xBalance : Nat
  yBalance : Nat
  xProtocolFeeBps : Nat
  xProviderFeeBps : Nat
  yProtocolFeeBps : Nat
  yProviderFeeBps : Nat
  /-- False while the pool is paused. -/
  poolStatus : Bool
  lastTxId : Option String
  deriving DecidableEq

def BITFLOW_XYK_INDEXED_ACTIONS : List String := ["update-pool-balances"]

/-- `apply_bitflow_xyk_event`: no filter, the dispatcher routes by emitter. -/
def BitflowXykPool.apply (pool : BitflowXykPool) (event : StacksEvent) :
    Option BitflowXykPool :=
  if event.action ∉ BITFLOW_XYK_INDEXED_ACTIONS then none
  else do
    let bx ← event.dataUint "x-balance"
    let by' ← event.dataUint "y-balance"
    some { pool with xBalance := bx, yBalance := by', lastTxId := some event.txId }

def BitflowXykPool.topics (pool : BitflowXykPool) : List StacksTopic :=
  BITFLOW_XYK_INDEXED_ACTIONS.map fun action => ⟨pool.poolContract, action⟩

end StacksDex.Model
