import StacksDex.Model.Curve
import StacksDex.Model.StableSwap
import StacksDex.Model.V2Math

/-!
# StacksDex — the quotes of the stableswap pools

`quote_amount_out` of `stableswap/bitflow_v2.rs` and `get_dy` of
`stableswap/bitflow_v1.rs`: both scale the reserves to one precision, take the fees
off, ask the curve for the new `y` reserve, and pay the difference. The sum of the two fees fits,
whatever they are (`bps_fees_fit`), so like the curve the quotes are those of every build.

The two differ in what they do around the curve. The V2 quote takes two fees off the scaled
input and multiplies the input and the reserve with the pool's midpoint. The V1 quote takes
one fee, computed on the input before scaling, and in its variant `balBug` hands the curve
a reserve that has the input in it already. A pool that is paused (V2) or deprecated (V1)
quotes nothing.
-/

namespace StacksDex.Model

namespace BitflowStableSwapV2Pool

/-- `quote_amount_out`. -/
def quoteAmountOut (dx xBalance yBalance xDecimals yDecimals protocolFeeBps providerFeeBps
    midpointNum midpointDen amp threshold : Nat) : Except Fault Nat :=
  if dx = 0 ∨ xBalance = 0 ∨ yBalance = 0 ∨ midpointDen = 0 then .ok 0
  else do
    let (bxS, byS) ← scaleUp xBalance yBalance xDecimals yDecimals
    let (dxS, _) ← scaleUp dx 0 xDecimals yDecimals
    let feeProtocol ← u128Div (saturatingMul dxS protocolFeeBps) BPS
    let feeProvider ← u128Div (saturatingMul dxS providerFeeBps) BPS
    let dxAfterFees := dxS - (← u128Add true feeProtocol feeProvider)
    let dxMid ← u128Div (saturatingMul dxAfterFees midpointNum) midpointDen
    let bxMid ← u128Div (saturatingMul bxS midpointNum) midpointDen
    let newYS ← getY dxMid bxMid byS amp threshold
    let (_, newY) ← scaleDown 0 newYS xDecimals yDecimals
    -- `saturating_sub`
    .ok (yBalance - newY)

/-- `quote_x_for_y`; a paused pool quotes nothing. -/
def quoteXForY (pool : BitflowStableSwapV2Pool) (dx : Nat) : Except Fault Nat :=
  if !pool.poolStatus then .ok 0
  else
    quoteAmountOut dx pool.xBalance pool.yBalance pool.xDecimals pool.yDecimals
      pool.xProtocolFeeBps pool.xProviderFeeBps pool.midpointNum pool.midpointDen pool.amp
      pool.threshold

/-- `quote_y_for_x`: the reserves change places, and the midpoint is inverted. -/
def quoteYForX (pool : BitflowStableSwapV2Pool) (dy : Nat) : Except Fault Nat :=
  if !pool.poolStatus then .ok 0
  else
    quoteAmountOut dy pool.yBalance pool.xBalance pool.yDecimals pool.xDecimals
      pool.yProtocolFeeBps pool.yProviderFeeBps pool.midpointDen pool.midpointNum pool.amp
      pool.threshold

end BitflowStableSwapV2Pool

namespace BitflowStableSwapV1Pool

/-- `get_dy`. -/
def getDy (xAmount xBalance yBalance xDecimals yDecimals feeTotalBps amp threshold : Nat)
    (variant : MathVariant) : Except Fault Nat :=
  if xAmount = 0 ∨ xBalance = 0 ∨ yBalance = 0 then .ok 0
  else do
    let (bxS, byS) ← scaleUp xBalance yBalance xDecimals yDecimals
    let (dxS, _) ← scaleUp xAmount 0 xDecimals yDecimals
    -- the fee is on the amount before scaling
    let feeTotal ← u128Div (saturatingMul xAmount feeTotalBps) BPS
    let dxNetScaled := dxS - feeTotal
    let xForY :=
      match variant with
      -- `get_y` adds the input a second time
      | .balBug => saturatingAdd bxS dxNetScaled
      | .fixed => bxS
    let newYScaled ← getY dxNetScaled xForY byS amp threshold
    let (_, newY) ← scaleDown 0 newYScaled xDecimals yDecimals
    .ok (yBalance - newY)

/-- `quote_x_for_y`; a deprecated pool quotes nothing. -/
def quoteXForY (pool : BitflowStableSwapV1Pool) (dx : Nat) : Except Fault Nat :=
  if !pool.approval then .ok 0
  else
    getDy dx pool.xBalance pool.yBalance pool.xDecimals pool.yDecimals pool.buyFeeBps pool.amp
      pool.threshold pool.variant

/-- `quote_y_for_x`. -/
def quoteYForX (pool : BitflowStableSwapV1Pool) (dy : Nat) : Except Fault Nat :=
  if !pool.approval then .ok 0
  else
    getDy dy pool.yBalance pool.xBalance pool.yDecimals pool.xDecimals pool.sellFeeBps pool.amp
      pool.threshold pool.variant

end BitflowStableSwapV1Pool

end StacksDex.Model
