import StacksDex.Model.Machine

/-!
# StacksDex — the curve behind the stableswap quotes

`stableswap/curve.rs`: decimal scaling and the two Newton loops. `getD` solves the
invariant for `D`, `getY` the invariant for the new `y`. Both loops run the same
frame (`newtonLoop`) over a round of their own (`getDRound`, `getYRound`).

The source's loops return a number. Here they also say how they were left (`Exit`),
which no quote looks at.

The plain operators stand as a build with overflow checks has them (`true`). None of them ever
overflows: a comparison in front or the size of the operands sees to that, and
`stable_quotes_panic_free` proves it for all inputs, so a build without the checks computes the
same.
-/

namespace StacksDex.Model

def N_TOKENS : Nat := 2
def NEWTON_MAX_ITERS : Nat := 384

/-- The factor between two precisions; `hi` is the larger one. -/
def decimalFactor (hi lo : Nat) : Except Fault Nat := do
  .ok (saturatingPow 10 (← u8Sub true hi lo))

/-- With the larger precision first, the difference of the decimals does not underflow. -/
theorem decimalFactor_ok {hi lo : Nat} (h : lo ≤ hi) :
    decimalFactor hi lo = .ok (saturatingPow 10 (hi - lo)) := by
  rw [decimalFactor, u8Sub_ok h, ok_bind]

/-- `scale_up`. -/
def scaleUp (x y xDp yDp : Nat) : Except Fault (Nat × Nat) :=
  if xDp = yDp then .ok (x, y)
  else if xDp > yDp then do
    let m ← decimalFactor xDp yDp
    .ok (x, saturatingMul y m)
  else do
    let m ← decimalFactor yDp xDp
    .ok (saturatingMul x m, y)

/-- `scale_down`. -/
def scaleDown (x y xDp yDp : Nat) : Except Fault (Nat × Nat) :=
  if xDp = yDp then .ok (x, y)
  else if xDp > yDp then do
    let m ← decimalFactor xDp yDp
    .ok (x, ← u128Div y m)
  else do
    let m ← decimalFactor yDp xDp
    .ok (← u128Div x m, y)

/-! ## The loops -/

/-- How a Newton loop is left. -/
inductive Exit where
  /-- `new.abs_diff(old) <= threshold`. -/
  | converged
  /-- A guard on the denominator, or on the inputs. -/
  | degenerate
  /-- The end of the `for`. -/
  | ranOut
  deriving DecidableEq, Repr

/-- The `for` of both solvers. A round returns nothing where its guard returns the current
iterate. -/
def newtonLoop (round : Nat → Except Fault (Option Nat)) (threshold : Nat) :
    Nat → Nat → Except Fault (Nat × Exit)
  | 0, cur => .ok (cur, .ranOut)
  | fuel + 1, cur => do
    match ← round cur with
    | none => .ok (cur, .degenerate)
    | some new =>
      if absDiff new cur ≤ threshold then .ok (new, .converged)
      else newtonLoop round threshold fuel new

/-- The body of the loop of `get_d`. -/
def getDRound (xBal yBal an s d : Nat) : Except Fault (Option Nat) := do
  let dPartX ← u128Div (saturatingMul d d) (saturatingMul N_TOKENS xBal)
  let dPart ← u128Div (saturatingMul d dPartX) (saturatingMul N_TOKENS yBal)
  let numer :=
    saturatingMul (saturatingAdd (saturatingMul an s) (saturatingMul N_TOKENS dPart)) d
  let anLessOne ← u128Sub true an 1
  let nPlusOne ← u128Add true N_TOKENS 1
  let denom := saturatingAdd (saturatingMul anLessOne d) (saturatingMul nPlusOne dPart)
  if denom = 0 then .ok none
  else do .ok (some (← u128Div numer denom))

/-- `get_d`, and how its loop was left. -/
def getDExit (xBal yBal amp threshold : Nat) : Except Fault (Nat × Exit) :=
  if xBal = 0 ∨ yBal = 0 ∨ amp = 0 then .ok (0, .degenerate)
  else
    let an := saturatingMul amp N_TOKENS
    let s := saturatingAdd xBal yBal
    newtonLoop (getDRound xBal yBal an s) threshold NEWTON_MAX_ITERS s

/-- `get_d`. -/
def getD (xBal yBal amp threshold : Nat) : Except Fault Nat := do
  .ok (← getDExit xBal yBal amp threshold).1

/-- The body of the loop of `get_y`. -/
def getYRound (b c d y : Nat) : Except Fault (Option Nat) :=
  let yNum := saturatingAdd (saturatingMul y y) c
  let yDenPos := saturatingAdd (saturatingMul N_TOKENS y) b
  -- a denominator below zero, or zero: the current iterate is returned
  if yDenPos < d then .ok none
  else do
    let yDen ← u128Sub true yDenPos d
    if yDen = 0 then .ok none
    else do .ok (some (← u128Div yNum yDen))

/-- `get_y`, and how its loop was left. -/
def getYExit (xAmount xBal yBal amp threshold : Nat) : Except Fault (Nat × Exit) :=
  if xBal = 0 ∨ yBal = 0 ∨ amp = 0 then .ok (0, .degenerate)
  else
    let an := saturatingMul amp N_TOKENS
    let updatedX := saturatingAdd xBal xAmount
    if updatedX = 0 then .ok (0, .degenerate)
    else do
      let d ← getD xBal yBal amp threshold
      let cB ← u128Div (saturatingMul d d) (saturatingMul N_TOKENS updatedX)
      let c ← u128Div (saturatingMul cB d) (saturatingMul an N_TOKENS)
      let b := saturatingAdd updatedX (← u128Div d an)
      newtonLoop (getYRound b c d) threshold NEWTON_MAX_ITERS d

/-- `get_y`. -/
def getY (xAmount xBal yBal amp threshold : Nat) : Except Fault Nat := do
  .ok (← getYExit xAmount xBal yBal amp threshold).1

end StacksDex.Model
