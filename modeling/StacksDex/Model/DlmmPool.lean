import StacksDex.Model.DlmmMath
import StacksDex.Model.Principal
import Std.Data.ExtTreeMap

/-!
# StacksDex — the DLMM pool and its quotes

`dlmm/pool.rs`: the mirrored state of one DLMM pool and the two multi-bin
walkers. `quote_x_for_y` walks down from the active bin, `quote_y_for_x` walks
up; the loop is one definition over the `Direction`, which supplies the step of
the bin id, the loop bound, the edge of the window, and the output side.

The while loop runs on the number of bin ids left in the range
(`Direction.idsLeft`): every iteration moves on by one id or leaves the loop, so
running out of it is the failing test `bin_id >= MIN_BIN_ID` (`<= MAX_BIN_ID`).

A `Quote` is what the source returns: the output, the last bin that took part, and
whether input was left over (which the source calls `window_exhausted`). The bins are a map;
an id that is missing from it is passed like a bin of two zeros, as long as the next id lies
in the window.
-/

namespace StacksDex.Model

structure BinState where
  x : Nat
  y : Nat
  deriving DecidableEq, Repr

/-- The mirrored state of one Bitflow DLMM pool. -/
structure DLMMPool where
  poolContract : Principal
  coreContract : Principal
  xToken : Principal
  yToken : Principal
  xDecimals : Nat
  yDecimals : Nat
  binStep : Nat
  initialPrice : Nat
  /-- Signed, from -500 to 500. -/
  activeBinId : Int
  xProtocolFee : Nat
  xProviderFee : Nat
  yProtocolFee : Nat
  yProviderFee : Nat
  xVariableFee : Nat
  yVariableFee : Nat
  /-- By signed bin id; a missing key is an empty bin. -/
  bins : Std.ExtTreeMap Int BinState
  /-- The freshness stamps: the last event applied, and when. -/
  lastTxId : Option String
  lastEventAt : Option Nat
  /-- The price factors of this `bin_step`, indexed by unsigned bin id. -/
  factors : List Nat

/-! ## The two directions -/

inductive Direction where
  | xForY
  | yForX
  deriving DecidableEq, Repr

/-- `bin_id -= 1` and `bin_id += 1`. -/
def Direction.next : Direction → Int → Int
  | .xForY, binId => binId - 1
  | .yForX, binId => binId + 1

/-- `bin_id >= MIN_BIN_ID` and `bin_id <= MAX_BIN_ID`. -/
def Direction.inRange : Direction → Int → Bool
  | .xForY, binId => decide (binId ≥ MIN_BIN_ID)
  | .yForX, binId => decide (binId ≤ MAX_BIN_ID)

/-- `bin_id < min_in_window` and `bin_id > max_in_window`. -/
def Direction.pastWindow : Direction → Int → Int → Bool
  | .xForY, edge, binId => decide (binId < edge)
  | .yForX, edge, binId => decide (binId > edge)

/-- The side of a bin the walk pays out. -/
def Direction.output : Direction → BinState → Nat
  | .xForY, b => b.y
  | .yForX, b => b.x

/-- How many bin ids of the range lie at or beyond `binId`. -/
def Direction.idsLeft : Direction → Int → Nat
  | .xForY, binId => (binId - MIN_BIN_ID + 1).toNat
  | .yForX, binId => (MAX_BIN_ID - binId + 1).toNat

namespace DLMMPool

/-- The fee components charged in a direction. -/
def fees (pool : DLMMPool) : Direction → Fees
  | .xForY => ⟨pool.xProtocolFee, pool.xProviderFee, pool.xVariableFee⟩
  | .yForX => ⟨pool.yProtocolFee, pool.yProviderFee, pool.yVariableFee⟩

/-- `min_in_window` and `max_in_window`: the outermost stored bin id. -/
def edge (pool : DLMMPool) : Direction → Int
  | .xForY => pool.bins.keys.head?.getD pool.activeBinId
  | .yForX => pool.bins.keys.getLast?.getD pool.activeBinId

/-- `bin_price_fn(self.initial_price, &self.factors, bin_id)`. -/
def priceAt (pool : DLMMPool) (binId : Int) : Except Fault Nat :=
  binPrice pool.initialPrice pool.factors binId

/-- The single-bin step a direction takes. -/
def swapStep (checks : Bool) (pool : DLMMPool) (d : Direction) (remaining : Nat) (b : BinState)
    (bp : Nat) : Except Fault SingleBinSwap :=
  match d with
  | .xForY => singleBinSwapXForY checks remaining b.y bp (pool.fees .xForY)
  | .yForX => singleBinSwapYForX checks remaining b.x bp (pool.fees .yForX)

/-- The result triple: total output, last bin walked, window exhausted. -/
abbrev Quote := Nat × Option Int × Bool

/-- The while loop of the two walkers. -/
def walk (checks : Bool) (pool : DLMMPool) (d : Direction) : Nat → Int → Nat → Nat → Option Int →
    Except Fault Quote
  -- past the end of the range
  | 0, _, remaining, total, lastBin => .ok (total, lastBin, decide (remaining > 0))
  | fuel + 1, binId, remaining, total, lastBin =>
    if remaining > 0 ∧ d.inRange binId then
      match pool.bins[binId]? with
      -- nothing is stored for the id: go on while the window has more
      | none =>
        if d.pastWindow (pool.edge d) (d.next binId) then
          .ok (total, lastBin, decide (remaining > 0))
        else walk checks pool d fuel (d.next binId) remaining total lastBin
      | some b =>
        -- a bin of two zeros is passed like a missing one
        if b.x = 0 ∧ b.y = 0 then
          if d.pastWindow (pool.edge d) (d.next binId) then
            .ok (total, lastBin, decide (remaining > 0))
          else walk checks pool d fuel (d.next binId) remaining total lastBin
        else
          match pool.priceAt binId with
          -- no price ends the walk without an error
          | .error _ => .ok (total, lastBin, decide (remaining > 0))
          | .ok bp => do
            let r ← pool.swapStep checks d remaining b bp
            -- the bin takes no input, be it that it has no output to give
            if r.used = 0 then .ok (total, lastBin, decide (remaining > 0))
            else do
              let total := saturatingAdd total r.dy
              let remaining ← u128Sub checks remaining r.used
              -- a drained bin sends the rest on; a partly filled one ends the walk
              if r.dy ≥ d.output b then
                walk checks pool d fuel (d.next binId) remaining total (some binId)
              else .ok (total, some binId, decide (remaining > 0))
    else .ok (total, lastBin, decide (remaining > 0))

/-- A walk from the active bin. -/
def quote (checks : Bool) (pool : DLMMPool) (d : Direction) (amount : Nat) : Except Fault Quote :=
  pool.walk checks d (d.idsLeft pool.activeBinId) pool.activeBinId amount 0 none

/-- `quote_x_for_y`. -/
def quoteXForY (checks : Bool) (pool : DLMMPool) (xAmount : Nat) : Except Fault Quote :=
  pool.quote checks .xForY xAmount

/-- `quote_y_for_x`. -/
def quoteYForX (checks : Bool) (pool : DLMMPool) (yAmount : Nat) : Except Fault Quote :=
  pool.quote checks .yForX yAmount

/-- `calculate_output`; the error names the token and the pool. -/
def calculateOutput (checks : Bool) (sha256 : Sha256) (pool : DLMMPool) (tokenIn : Principal)
    (amountIn : Nat) : Except Fault Nat :=
  if tokenIn = pool.xToken then do
    let q ← pool.quoteXForY checks amountIn
    .ok q.1
  else if tokenIn = pool.yToken then do
    let q ← pool.quoteYForX checks amountIn
    .ok q.1
  else do
    let token ← tokenIn.display sha256
    let contract ← pool.poolContract.display sha256
    .error (.err s!"token {token} is not in pool {contract}")

end DLMMPool

end StacksDex.Model
