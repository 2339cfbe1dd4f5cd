import StacksDex.Model.Registry
import StacksDex.Model.StableQuotes

/-!
# StacksDex — what a consumer asks of a pool

The part of `PoolInterface` (`pool/base.rs`) that is about quotes, for every kind of pool:
`tokens`, `contains_token` and `calculate_output`. A pool does not say "wrong token" before the
token's text is made for the message. `checks` is whether the build has overflow checks.

The six kinds other than DLMM route alike and differ in their name and their two quotes, so
they are one definition (`routeOutput`) applied to these; the DLMM pool quotes through its
walk and names itself differently.
-/

namespace StacksDex.Model

/-- What `calculate_output` is for every pool but a DLMM one: the token says which way to go. -/
def routeOutput (sha256 : Sha256) (kind : String) (xToken yToken : Principal)
    (quoteXForY quoteYForX : Nat → Except Fault Nat) (tokenIn : Principal) (amountIn : Nat) :
    Except Fault Nat :=
  if tokenIn = xToken then quoteXForY amountIn
  else if tokenIn = yToken then quoteYForX amountIn
  else do
    let token ← tokenIn.display sha256
    let x ← xToken.display sha256
    let y ← yToken.display sha256
    .error (.err s!"{kind}: token_in {token} matches neither x ({x}) nor y ({y})")

section CalculateOutput

variable (checks : Bool) (sha256 : Sha256)

def ArkadikoPool.calculateOutput (pool : ArkadikoPool) : Principal → Nat → Except Fault Nat :=
  routeOutput sha256 "ArkadikoPool" pool.xToken pool.yToken pool.quoteXForY pool.quoteYForX

def VelarPool.calculateOutput (pool : VelarPool) : Principal → Nat → Except Fault Nat :=
  routeOutput sha256 "VelarPool" pool.xToken pool.yToken pool.quoteXForY pool.quoteYForX

def AlexPool.calculateOutput (pool : AlexPool) : Principal → Nat → Except Fault Nat :=
  routeOutput sha256 "AlexPool" pool.xToken pool.yToken pool.quoteXForY pool.quoteYForX

def BitflowXykPool.calculateOutput (pool : BitflowXykPool) :
    Principal → Nat → Except Fault Nat :=
  routeOutput sha256 "BitflowXykPool" pool.xToken pool.yToken (pool.quoteXForY checks)
    (pool.quoteYForX checks)

def BitflowStableSwapV1Pool.calculateOutput (pool : BitflowStableSwapV1Pool) :
    Principal → Nat → Except Fault Nat :=
  routeOutput sha256 "BitflowStableSwapV1Pool" pool.xToken pool.yToken pool.quoteXForY
    pool.quoteYForX

def BitflowStableSwapV2Pool.calculateOutput (pool : BitflowStableSwapV2Pool) :
    Principal → Nat → Except Fault Nat :=
  routeOutput sha256 "BitflowStableSwapV2Pool" pool.xToken pool.yToken pool.quoteXForY
    pool.quoteYForX

end CalculateOutput

namespace Pool

/-- `tokens`. -/
def tokens : Pool → Principal × Principal
  | .dlmm p => (p.xToken, p.yToken)
  | .arkadiko p => (p.xToken, p.yToken)
  | .velar p => (p.xToken, p.yToken)
  | .alex p => (p.xToken, p.yToken)
  | .bitflowXyk p => (p.xToken, p.yToken)
  | .stableV1 p => (p.xToken, p.yToken)
  | .stableV2 p => (p.xToken, p.yToken)

/-- `contains_token`. -/
def containsToken (pool : Pool) (token : Principal) : Bool :=
  decide (token = pool.tokens.1 ∨ token = pool.tokens.2)

/-- `calculate_output`. -/
def calculateOutput (checks : Bool) (sha256 : Sha256) : Pool → Principal → Nat → Except Fault Nat
  | .dlmm p => p.calculateOutput checks sha256
  | .arkadiko p => p.calculateOutput sha256
  | .velar p => p.calculateOutput sha256
  | .alex p => p.calculateOutput sha256
  | .bitflowXyk p => p.calculateOutput checks sha256
  | .stableV1 p => p.calculateOutput sha256
  | .stableV2 p => p.calculateOutput sha256

end Pool

end StacksDex.Model
