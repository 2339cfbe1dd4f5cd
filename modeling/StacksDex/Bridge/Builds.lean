import StacksDex.Model.DlmmPool
import StacksDex.Model.PoolInterface

/-!
# StacksDex — quotes of the two builds

A debug build checks its plain operators for overflow and panics, a release build lets
them wrap around. Both compute a quote from the same pool, and this module relates the
two: an overflow check can keep a quote from being answered, but wherever a build with
the checks answers, a build without them gives the same answer.

Only two quotes have plain operators that can overflow: that of a DLMM pool (where the fees
exceed the scale) and Bitflow XYK's (where balance and input exceed a `u128`). For these the
relation is carried from the operators through the single-bin step and the walk, and through
the formula; every other quote has no build in it.

What is proved of a quote in a build with overflow checks thus carries over to a release
build on every input on which it returns.
-/

namespace StacksDex.Bridge

open StacksDex.Model

/-! ## One bin -/

/-- The sum of the fee components. -/
theorem checksOnlyPanic_feesSum (fees : Fees) :
    ChecksOnlyPanic fun checks => fees.sum checks :=
  (checksOnlyPanic_u32Add _ _).bind fun _ => checksOnlyPanic_u32Add _ _

/-- The input that fills a bin, fees on top: the scale less the fees. -/
theorem checksOnlyPanic_maxWithFee (maxIn totalFee : Nat) :
    ChecksOnlyPanic fun checks => maxWithFee checks maxIn totalFee :=
  .ite ((checksOnlyPanic_u32Sub _ _).bind fun _ => .const _) (.const _)

/-- The common body of the single-bin steps, one operator after the other. -/
theorem checksOnlyPanic_singleBinSwap (amount balance inRate outRate : Nat) (fees : Fees) :
    ChecksOnlyPanic fun checks => singleBinSwap checks amount balance inRate outRate fees := by
  -- the fee sum, the fee on the capacity and the fee taken off are the plain operations
  refine (checksOnlyPanic_feesSum fees).bind fun totalFee => ?_
  refine (ChecksOnlyPanic.const _).bind fun maxIn => ?_
  refine (checksOnlyPanic_maxWithFee maxIn totalFee).bind fun maxIn => ?_
  refine (ChecksOnlyPanic.const _).bind fun feePaid => ?_
  exact (checksOnlyPanic_u128Sub _ _).bind fun dx => .const _

/-- The step of either direction. -/
theorem checksOnlyPanic_swapStep (pool : DLMMPool) (d : Direction) (remaining : Nat)
    (b : BinState) (bp : Nat) :
    ChecksOnlyPanic fun checks => pool.swapStep checks d remaining b bp := by
  cases d
  · exact .ite (.const _) (checksOnlyPanic_singleBinSwap ..)
  · exact .ite (.const _) (checksOnlyPanic_singleBinSwap ..)

/-! ## The walk -/

/-- By induction on the steps that are left: each exit of the loop is the same in both builds, and
a bin that is passed leaves the rest of the walk. -/
theorem checksOnlyPanic_walk (pool : DLMMPool) (d : Direction) (n : Nat) (binId : Int)
    (remaining total : Nat) (lastBin : Option Int) :
    ChecksOnlyPanic fun checks => pool.walk checks d n binId remaining total lastBin := by
  induction n generalizing binId remaining total lastBin with
  | zero => exact .const _
  | succ n ih =>
    unfold DLMMPool.walk
    refine .ite ?_ (.const _)
    -- a bin that is skipped costs no arithmetic
    have hskip : ∀ total lastBin, ChecksOnlyPanic fun checks =>
        if d.pastWindow (pool.edge d) (d.next binId) then
          .ok (total, lastBin, decide (remaining > 0))
        else pool.walk checks d n (d.next binId) remaining total lastBin :=
      fun total lastBin => .ite (.const _) (ih ..)
    cases hbin : pool.bins[binId]? with
    | none => exact hskip ..
    | some b =>
      refine .ite (hskip ..) ?_
      cases hprice : pool.priceAt binId with
      | error _ => exact .const _
      | ok bp =>
        -- the step, and what it leaves of the input
        refine (checksOnlyPanic_swapStep ..).bind fun r => .ite (.const _) ?_
        exact (checksOnlyPanic_u128Sub _ _).bind fun left => .ite (ih ..) (.const _)

/-- **A quote of a DLMM pool** that a build with overflow checks answers, every build answers
alike. -/
theorem checksOnlyPanic_quote (pool : DLMMPool) (d : Direction) (amount : Nat) :
    ChecksOnlyPanic fun checks => pool.quote checks d amount :=
  checksOnlyPanic_walk ..

/-! ## Bitflow XYK -/

/-- Bitflow XYK's formula: the sum of the two fees, and that of balance and input. -/
theorem checksOnlyPanic_xykQuoteAmountOut (dx xBalance yBalance protocolFee providerFee : Nat) :
    ChecksOnlyPanic fun checks =>
      BitflowXykPool.quoteAmountOut checks dx xBalance yBalance protocolFee providerFee := by
  refine .ite (.const _) ?_
  refine (ChecksOnlyPanic.const _).bind fun feeProtocol => ?_
  refine (ChecksOnlyPanic.const _).bind fun feeProvider => ?_
  refine (checksOnlyPanic_u128Add _ _).bind fun fees => .ite (.const _) ?_
  exact (checksOnlyPanic_u128Add _ _).bind fun den => .const _

/-! ## Any pool -/

/-- **What a consumer is answered** by a build with overflow checks, every build answers. Two kinds
of pools have plain operators in their quotes; the others are one computation. -/
theorem checksOnlyPanic_calculateOutput (sha256 : Sha256) (pool : Pool) (tokenIn : Principal)
    (amountIn : Nat) :
    ChecksOnlyPanic fun checks => pool.calculateOutput checks sha256 tokenIn amountIn := by
  rcases pool with p | p | p | p | p | p | p
  case dlmm =>
    have hanswer : ∀ d, ChecksOnlyPanic fun checks =>
        p.quote checks d amountIn >>= fun q => .ok q.1 :=
      fun d => (checksOnlyPanic_quote p d amountIn).bind fun q => .const _
    exact .ite (hanswer .xForY) (.ite (hanswer .yForX) (.const _))
  case bitflowXyk =>
    exact .ite (.ite (.const _) (checksOnlyPanic_xykQuoteAmountOut ..))
      (.ite (.ite (.const _) (checksOnlyPanic_xykQuoteAmountOut ..)) (.const _))
  all_goals exact .const _

end StacksDex.Bridge
