import StacksDex.Model.Machine
import StacksDex.Model.V2Pools

/-!
# StacksDex — the quotes of the V2 family

`v2/math.rs` and the quote functions of the four variants. Products saturate, the
other operators are the plain ones of `u128`. Only Bitflow's sum of balance and input can
overflow, and `checks` says whether the build then panics or wraps. The names of the
source's two free functions in `bitflow_xyk.rs` and `alex.rs` are kept in a namespace of
their own.

* Arkadiko and Velar share `quoteAmountOutWithFeeRatio`, the constant-product formula with the
  fee as a ratio; `quoteAmountOutWithFeeBps` is the same formula with the fee in bps.
* Bitflow XYK floors two fees separately and takes both off the input.
* ALEX rounds its one fee up.
* `invariantNonDecreasing` is the source's own test of a swap, in saturating arithmetic.
-/

namespace StacksDex.Model

/-! ## The shared formula -/

/-- `quote_amount_out_with_fee_ratio`. -/
def quoteAmountOutWithFeeRatio (dx reserveIn reserveOut feeNum feeDen : Nat) :
    Except Fault Nat :=
  if dx = 0 ∨ reserveIn = 0 ∨ reserveOut = 0 ∨ feeDen = 0 ∨ feeNum > feeDen then .ok 0
  else do
    let dxAfterFee ← u128Div (saturatingMul dx feeNum) feeDen
    if dxAfterFee = 0 then .ok 0
    else u128Div (saturatingMul reserveOut dxAfterFee) (saturatingAdd reserveIn dxAfterFee)

/-- `quote_amount_out_with_fee_bps`. -/
def quoteAmountOutWithFeeBps (dx reserveIn reserveOut feeBps : Nat) : Except Fault Nat :=
  if feeBps ≥ 10000 then .ok 0
  else do
    -- never below zero here, so with or without overflow checks
    let feeNum ← u32Sub true 10000 feeBps
    quoteAmountOutWithFeeRatio dx reserveIn reserveOut feeNum 10000

/-- `invariant_non_decreasing`. -/
def invariantNonDecreasing (reserveIn reserveOut dx dy : Nat) : Bool :=
  let lhs := saturatingMul (saturatingAdd reserveIn dx) (reserveOut - dy)
  let rhs := saturatingMul reserveIn reserveOut
  decide (lhs ≥ rhs)

/-! ## Arkadiko and Velar -/

def ARKADIKO_FEE_NUM : Nat := 997
def ARKADIKO_FEE_DEN : Nat := 1000

namespace ArkadikoPool

/-- `quote_x_for_y`; a pool that is turned off quotes nothing. -/
def quoteXForY (pool : ArkadikoPool) (dx : Nat) : Except Fault Nat :=
  if !pool.enabled then .ok 0
  else
    quoteAmountOutWithFeeRatio dx pool.balanceX pool.balanceY ARKADIKO_FEE_NUM ARKADIKO_FEE_DEN

/-- `quote_y_for_x`. -/
def quoteYForX (pool : ArkadikoPool) (dy : Nat) : Except Fault Nat :=
  if !pool.enabled then .ok 0
  else
    quoteAmountOutWithFeeRatio dy pool.balanceY pool.balanceX ARKADIKO_FEE_NUM ARKADIKO_FEE_DEN

end ArkadikoPool

namespace VelarPool

/-- `quote_x_for_y`. -/
def quoteXForY (pool : VelarPool) (dx : Nat) : Except Fault Nat :=
  quoteAmountOutWithFeeRatio dx pool.reserveX pool.reserveY pool.feeNum pool.feeDen

/-- `quote_y_for_x`. -/
def quoteYForX (pool : VelarPool) (dy : Nat) : Except Fault Nat :=
  quoteAmountOutWithFeeRatio dy pool.reserveY pool.reserveX pool.feeNum pool.feeDen

end VelarPool

/-! ## Bitflow XYK -/

def BPS : Nat := 10000

/-- A fee in bps is a ten-thousandth of a `u128`, so two of them fit. -/
theorem bps_fees_fit (dx protocolFee providerFee : Nat) :
    saturatingMul dx protocolFee / BPS + saturatingMul dx providerFee / BPS ≤ u128Max := by
  have hfee : ∀ fee, saturatingMul dx fee / BPS ≤ u128Max / BPS := fun fee =>
    Nat.div_le_div_right (Nat.min_le_right _ _)
  have htwice : u128Max / BPS + u128Max / BPS ≤ u128Max := by decide
  exact (Nat.add_le_add (hfee _) (hfee _)).trans htwice

namespace BitflowXykPool

/-- `quote_amount_out`. -/
def quoteAmountOut (checks : Bool) (dx xBalance yBalance protocolFee providerFee : Nat) :
    Except Fault Nat :=
  if dx = 0 ∨ xBalance = 0 ∨ yBalance = 0 then .ok 0
  else do
    let feeProtocol ← u128Div (saturatingMul dx protocolFee) BPS
    let feeProvider ← u128Div (saturatingMul dx providerFee) BPS
    -- `saturating_sub`: fees above the input leave nothing
    let dxNet := dx - (← u128Add checks feeProtocol feeProvider)
    if dxNet = 0 then .ok 0
    else do u128Div (saturatingMul yBalance dxNet) (← u128Add checks xBalance dxNet)

/-- `quote_x_for_y`; a paused pool quotes nothing. -/
def quoteXForY (checks : Bool) (pool : BitflowXykPool) (dx : Nat) : Except Fault Nat :=
  if !pool.poolStatus then .ok 0
  else
    quoteAmountOut checks dx pool.xBalance pool.yBalance pool.xProtocolFeeBps
      pool.xProviderFeeBps

/-- `quote_y_for_x`. -/
def quoteYForX (checks : Bool) (pool : BitflowXykPool) (dy : Nat) : Except Fault Nat :=
  if !pool.poolStatus then .ok 0
  else
    quoteAmountOut checks dy pool.yBalance pool.xBalance pool.yProtocolFeeBps
      pool.yProviderFeeBps

end BitflowXykPool

/-! ## ALEX -/

def ONE_E8 : Nat := 100000000

namespace AlexPool

/-- `mul_up`: `ceil(a * b / 1e8)`. -/
def mulUp (a b : Nat) : Nat :=
  let product := saturatingMul a b
  if product = 0 then 0 else 1 + (product - 1) / ONE_E8

/-- `gmmm_dy`. -/
def gmmmDy (x y factor dx : Nat) : Except Fault Nat :=
  if factor ≠ CONSTANT_PRODUCT_FACTOR then
    .error (.err s!"AlexPool only supports constant-product pools (factor=1e8); got {factor}")
  else if dx = 0 ∨ x = 0 ∨ y = 0 then .ok 0
  else u128Div (saturatingMul dx y) (saturatingAdd x dx)

/-- `quote_with_fee`. -/
def quoteWithFee (x y factor dx feeRate : Nat) : Except Fault Nat :=
  let fee := mulUp dx feeRate
  if fee ≥ dx then .ok 0 else gmmmDy x y factor (dx - fee)

/-- `quote_x_for_y`: no quote of another kind of pool, but a panic is one. -/
def quoteXForY (pool : AlexPool) (dx : Nat) : Except Fault Nat := do
  .ok ((← dropErr (quoteWithFee pool.balanceX pool.balanceY pool.factor dx pool.feeRateX)).getD 0)

/-- `quote_y_for_x`. -/
def quoteYForX (pool : AlexPool) (dy : Nat) : Except Fault Nat := do
  .ok ((← dropErr (quoteWithFee pool.balanceY pool.balanceX pool.factor dy pool.feeRateY)).getD 0)

end AlexPool

end StacksDex.Model
