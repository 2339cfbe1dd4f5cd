import StacksDex.Model.Machine
import Mathlib.Data.List.Basic

/-!
# StacksDex — DLMM swap math

`dlmm/math.rs` and the constants of `dlmm/mod.rs`: the price of a bin and the
single-bin swap step. The two directions run the same steps and differ in the
rate only: selling x at bin price `p`, `PRICE_SCALE_BPS` units of y cost `p`
units' worth of x; selling y, the roles of the two numbers are exchanged.

`singleBinSwap` is written over that pair (`inRate`, `outRate`): `out` units of
output cost `out * inRate / outRate` units of input. It first prices the whole output
side of the bin (`maxNoFee`) and grosses that up for the fees (`maxWithFee`), which is
the most the bin can take; then it takes the fee off what is used and converts the rest.

Products saturate, as in the source. `checks` is whether the build has overflow checks,
which matters where the fees add up past the scale.
-/

namespace StacksDex.Model

def PRICE_SCALE_BPS : Nat := 100000000
def FEE_SCALE_BPS : Nat := 10000
def CENTER_BIN_ID : Int := 500
def MIN_BIN_ID : Int := -500
def MAX_BIN_ID : Int := 500

/-- `bin_price`. -/
def binPrice (initialPrice : Nat) (factors : List Nat) (signedBinId : Int) :
    Except Fault Nat :=
  match checkedAddI32 signedBinId CENTER_BIN_ID with
  | none => .error (.err "bin id overflow")
  | some unsigned =>
    -- the table starts at the lowest bin
    if unsigned < 0 ∨ unsigned.toNat ≥ factors.length then
      .error (.err s!"bin_id {signedBinId} out of factor range")
    else
      let factor := factors.getD unsigned.toNat 0
      match checkedMulU128 initialPrice factor with
      | none => .error (.err "bin_price overflow")
      | some p => .ok (p / PRICE_SCALE_BPS)

/-- The result of a single-bin step; `dy` is the output side in both directions. -/
structure SingleBinSwap where
  /-- The input less its fee. -/
  dxAfterFee : Nat
  dy : Nat
  /-- The input taken, its fee included. -/
  used : Nat
  deriving DecidableEq, Repr

/-- The three fee components of a direction, in bps. -/
structure Fees where
  protocolFee : Nat
  providerFee : Nat
  variableFee : Nat
  deriving DecidableEq, Repr

/-- The sum of the components, as a mathematical number. -/
def Fees.total (f : Fees) : Nat := f.protocolFee + f.providerFee + f.variableFee

/-- `protocol_fee + provider_fee + variable_fee`, in `u32`. -/
def Fees.sum (checks : Bool) (f : Fees) : Except Fault Nat := do
  u32Add checks (← u32Add checks f.protocolFee f.providerFee) f.variableFee

/-- The input that fills a bin with `balance` units of output, before fees. -/
def maxNoFee (balance inRate outRate : Nat) : Except Fault Nat :=
  u128DivCeil (saturatingMul balance inRate) outRate

/-- The same with fees on top. -/
def maxWithFee (checks : Bool) (maxIn totalFee : Nat) : Except Fault Nat :=
  if totalFee > 0 then do
    let denom ← u32Sub checks FEE_SCALE_BPS totalFee
    u128Div (saturatingMul maxIn FEE_SCALE_BPS) denom
  else .ok maxIn

/-- The common body of the two single-bin steps. -/
def singleBinSwap (checks : Bool) (amount balance inRate outRate : Nat) (fees : Fees) :
    Except Fault SingleBinSwap := do
  let totalFee ← fees.sum checks
  let maxIn ← maxWithFee checks (← maxNoFee balance inRate outRate) totalFee
  -- never more than fills the bin
  let used := min amount maxIn
  let feePaid ← u128Div (saturatingMul used totalFee) FEE_SCALE_BPS
  let dx ← u128Sub checks used feePaid
  -- the floor of what is left pays for the output
  let dyUncapped ← u128Div (saturatingMul dx outRate) inRate
  .ok ⟨dx, min dyUncapped balance, used⟩

/-- `single_bin_swap_x_for_y`. -/
def singleBinSwapXForY (checks : Bool) (xAmount yBalance binPrice : Nat) (fees : Fees) :
    Except Fault SingleBinSwap :=
  if binPrice = 0 then .ok ⟨0, 0, 0⟩
  else singleBinSwap checks xAmount yBalance PRICE_SCALE_BPS binPrice fees

/-- `single_bin_swap_y_for_x`. -/
def singleBinSwapYForX (checks : Bool) (yAmount xBalance binPrice : Nat) (fees : Fees) :
    Except Fault SingleBinSwap :=
  if binPrice = 0 then .ok ⟨0, 0, 0⟩
  else singleBinSwap checks yAmount xBalance binPrice PRICE_SCALE_BPS fees

end StacksDex.Model
