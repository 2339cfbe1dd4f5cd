import Mathlib.Algebra.Group.Int.Defs
import Mathlib.Algebra.Group.Nat.Defs
import Mathlib.Data.List.Forall2
import Mathlib.Data.Nat.Basic
import Mathlib.Order.Basic

/-!
# StacksDex — machine arithmetic

The integer operations the crate uses, on `Nat` and `Int` values that stand for
`u8`, `u32`, `u64`, `u128` and `i32` machine words.

* Saturating and `checked_` operations are total and the same in every build.
* The plain operators `+`, `-` and `*` depend on the build: one with overflow checks panics
  where the result does not fit, and one without them (a release build) wraps around. The
  argument `overflowChecks` says which build it is.
* `/` panics on a divisor of zero in every build.

A computation that may fail is an `Except Fault`: `err` is an `Err` returned to
the caller, `panic` an abort no caller sees.

## The two builds

Overflow checks take values away and change none: whatever a build with them computes, a
build without them computes too. `ChecksOnlyPanic` says this of a computation that has the
build as its argument; it holds of the operators and passes to sequences and branches, so a
result about a checked build gives the values of an unchecked one.
-/

namespace StacksDex.Model

/-- How a computation fails to return a value. -/
inductive Fault where
  | err (msg : String)
  | panic (msg : String)
  deriving DecidableEq, Repr

/-- A sequence returns a value only if both of its steps do. Proofs about a `do` block take it
apart with this, one line of the source at a time. -/
theorem bind_eq_ok {α β : Type} {x : Except Fault α} {f : α → Except Fault β} {b : β} :
    (x >>= f) = .ok b ↔ ∃ a, x = .ok a ∧ f a = .ok b := by
  cases x with
  | error e => simp [Bind.bind, Except.bind]
  | ok a => simp [Bind.bind, Except.bind]

/-- A step that returns hands its value on. -/
@[simp] theorem ok_bind {α β : Type} (a : α) (f : α → Except Fault β) :
    (Except.ok a >>= f) = f a := rfl

/-- A step that fails ends the sequence. -/
@[simp] theorem error_bind {α β : Type} (e : Fault) (f : α → Except Fault β) :
    (Except.error e >>= f) = .error e := rfl

/-- A function applied to the result of a computation that returns. -/
@[simp] theorem map_ok {α β : Type} (f : α → β) (a : α) :
    (Except.ok a : Except Fault α).map f = .ok (f a) := rfl

/-- A fault is passed through unchanged. -/
@[simp] theorem map_error {α β : Type} (f : α → β) (e : Fault) :
    (Except.error e : Except Fault α).map f = .error e := rfl

/-- A function of the result of a sequence is a function of the result of its last step. -/
theorem map_bind {α β γ : Type} (x : Except Fault α) (f : α → Except Fault β) (g : β → γ) :
    (x >>= f).map g = x >>= fun a => (f a).map g := by
  cases x <;> rfl

/-- What a loop makes of each of its elements. The loop returns only if every element's step
does, and then its results stand in the order of the elements. -/
theorem forall₂_of_mapM {α β : Type} {f : α → Except Fault β} {xs : List α} {ys : List β}
    (h : xs.mapM f = .ok ys) : List.Forall₂ (fun x y => f x = .ok y) xs ys := by
  induction xs generalizing ys with
  | nil =>
    cases h
    exact .nil
  | cons first rest ih =>
    rw [List.mapM_cons] at h
    obtain ⟨y, hy, h⟩ := bind_eq_ok.mp h
    obtain ⟨others, hothers, h⟩ := bind_eq_ok.mp h
    cases h
    exact .cons hy (ih hothers)

/-- An element of the first list has its partner in the second. -/
theorem exists_of_mem_forall₂ {α β : Type} {R : α → β → Prop} {xs : List α} {ys : List β}
    (h : List.Forall₂ R xs ys) {x : α} (hx : x ∈ xs) : ∃ y ∈ ys, R x y := by
  induction h with
  | nil => cases hx
  | cons hr _ ih =>
    rcases List.mem_cons.mp hx with rfl | hrest
    · exact ⟨_, List.mem_cons_self .., hr⟩
    · obtain ⟨y, hy, hxy⟩ := ih hrest
      exact ⟨y, List.mem_cons_of_mem _ hy, hxy⟩

/-- A loop that returns has a result for each of its elements. -/
theorem exists_of_mem_mapM {α β : Type} {f : α → Except Fault β} {xs : List α} {ys : List β}
    (h : xs.mapM f = .ok ys) {x : α} (hx : x ∈ xs) : ∃ y ∈ ys, f x = .ok y :=
  exists_of_mem_forall₂ (forall₂_of_mapM h) hx

def u32Max : Nat := 2 ^ 32 - 1
def u128Max : Nat := 2 ^ 128 - 1
def u64Max : Nat := 2 ^ 64 - 1
def i32Max : Int := 2 ^ 31 - 1

/-- `Result::ok`: an `Err` is dropped, a panic is not. -/
def dropErr {α : Type} : Except Fault α → Except Fault (Option α)
  | .ok a => .ok (some a)
  | .error (.err _) => .ok none
  | .error (.panic msg) => .error (.panic msg)

/-- `map_err`, on the text of an `Err`. -/
def mapErr {α : Type} (f : String → String) : Except Fault α → Except Fault α
  | .error (.err msg) => .error (.err (f msg))
  | other => other

/-- `ok()` keeps a value. -/
@[simp] theorem dropErr_ok {α : Type} (a : α) : dropErr (.ok a) = .ok (some a) := rfl

/-- `ok()` gives a value only where the computation did. -/
theorem dropErr_eq_some {α : Type} {x : Except Fault α} {a : α} (h : dropErr x = .ok (some a)) :
    x = .ok a := by
  match x with
  | .ok b =>
    cases h
    rfl
  | .error (.err msg) => cases h
  | .error (.panic msg) => cases h

/-- No `Err`: a value or a panic. -/
def NoErr {α : Type} (x : Except Fault α) : Prop := ∀ msg, x ≠ .error (.err msg)

/-- A value is not an `Err`. -/
theorem noErr_ok {α : Type} (a : α) : NoErr (.ok a : Except Fault α) := nofun

/-- After `ok()` there is no `Err`, only what it was made of. -/
theorem noErr_dropErr {α : Type} (x : Except Fault α) : NoErr (dropErr x) := by
  intro msg h
  match x with
  | .ok a => cases h
  | .error (.err _) => cases h
  | .error (.panic _) => cases h

/-- A sequence of steps without an `Err` has none. -/
theorem NoErr.bind {α β : Type} {x : Except Fault α} {f : α → Except Fault β} (hx : NoErr x)
    (hf : ∀ a, NoErr (f a)) : NoErr (x >>= f) := by
  intro msg h
  cases x with
  | error fault =>
    cases h
    exact hx msg rfl
  | ok a => exact hf a msg h

/-- Where there is no `Err` to drop, a value that comes back is the computation's. -/
theorem NoErr.dropErr_eq_ok {α : Type} {x : Except Fault α} (hx : NoErr x) {r : Option α}
    (h : dropErr x = .ok r) : ∃ a, x = .ok a ∧ r = some a := by
  match x with
  | .ok a =>
    cases h
    exact ⟨a, rfl, rfl⟩
  | .error (.err msg) => exact absurd rfl (hx msg)
  | .error (.panic _) => cases h

/-- `map_err` leaves a value alone. -/
@[simp] theorem mapErr_ok {α : Type} (f : String → String) (a : α) :
    mapErr f (.ok a : Except Fault α) = .ok a := rfl

/-! ## Saturating operations -/

def saturatingMul (a b : Nat) : Nat := min (a * b) u128Max
def saturatingAdd (a b : Nat) : Nat := min (a + b) u128Max

/-- `saturating_pow`. -/
def saturatingPow (b e : Nat) : Nat := min (b ^ e) u128Max

/-- `abs_diff`. -/
def absDiff (a b : Nat) : Nat := (a - b) + (b - a)

/-- Saturation only takes away. -/
theorem saturatingMul_le (a b : Nat) : saturatingMul a b ≤ a * b := Nat.min_le_left ..

/-- A product that fits is the exact one. -/
theorem saturatingMul_of_le {a b : Nat} (h : a * b ≤ u128Max) : saturatingMul a b = a * b :=
  Nat.min_eq_left h

/-- A saturating sum fits its type. -/
theorem saturatingAdd_le_max (a b : Nat) : saturatingAdd a b ≤ u128Max := Nat.min_le_right ..

/-! ## Plain operators -/

/-! A plain operator of a build with overflow checks panics where its result does not fit, and in
a build without them (a release build) wraps around; `overflowChecks` says which build it is.
Where the result fits, the two builds agree. -/

/-- `-` on `u8`. -/
def u8Sub (overflowChecks : Bool) (a b : Nat) : Except Fault Nat :=
  if b ≤ a then .ok (a - b)
  else if overflowChecks then .error (.panic "attempt to subtract with overflow")
  else .ok ((a + 2 ^ 8 - b) % 2 ^ 8)

/-- `+` on `u32`. -/
def u32Add (overflowChecks : Bool) (a b : Nat) : Except Fault Nat :=
  if a + b ≤ u32Max then .ok (a + b)
  else if overflowChecks then .error (.panic "attempt to add with overflow")
  else .ok ((a + b) % 2 ^ 32)

/-- `-` on `u32`. -/
def u32Sub (overflowChecks : Bool) (a b : Nat) : Except Fault Nat :=
  if b ≤ a then .ok (a - b)
  else if overflowChecks then .error (.panic "attempt to subtract with overflow")
  else .ok ((a + 2 ^ 32 - b) % 2 ^ 32)

/-- `*` on `u32`. -/
def u32Mul (overflowChecks : Bool) (a b : Nat) : Except Fault Nat :=
  if a * b ≤ u32Max then .ok (a * b)
  else if overflowChecks then .error (.panic "attempt to multiply with overflow")
  else .ok (a * b % 2 ^ 32)

/-- `+` on `u64`. -/
def u64Add (overflowChecks : Bool) (a b : Nat) : Except Fault Nat :=
  if a + b ≤ u64Max then .ok (a + b)
  else if overflowChecks then .error (.panic "attempt to add with overflow")
  else .ok ((a + b) % 2 ^ 64)

/-- `+` on `i32`. -/
def i32Add (overflowChecks : Bool) (a b : Int) : Except Fault Int :=
  if -2 ^ 31 ≤ a + b ∧ a + b ≤ i32Max then .ok (a + b)
  else if overflowChecks then .error (.panic "attempt to add with overflow")
  else .ok ((a + b).bmod (2 ^ 32))

/-- `-` on `i32`. -/
def i32Sub (overflowChecks : Bool) (a b : Int) : Except Fault Int :=
  if -2 ^ 31 ≤ a - b ∧ a - b ≤ i32Max then .ok (a - b)
  else if overflowChecks then .error (.panic "attempt to subtract with overflow")
  else .ok ((a - b).bmod (2 ^ 32))

/-- `+` on `u128`. -/
def u128Add (overflowChecks : Bool) (a b : Nat) : Except Fault Nat :=
  if a + b ≤ u128Max then .ok (a + b)
  else if overflowChecks then .error (.panic "attempt to add with overflow")
  else .ok ((a + b) % 2 ^ 128)

/-- `-` on `u128`. -/
def u128Sub (overflowChecks : Bool) (a b : Nat) : Except Fault Nat :=
  if b ≤ a then .ok (a - b)
  else if overflowChecks then .error (.panic "attempt to subtract with overflow")
  else .ok ((a + 2 ^ 128 - b) % 2 ^ 128)

/-- `/` on `u128`: no build divides by zero. -/
def u128Div (a b : Nat) : Except Fault Nat :=
  if b = 0 then .error (.panic "attempt to divide by zero") else .ok (a / b)

/-- `u128::div_ceil`. -/
def u128DivCeil (a b : Nat) : Except Fault Nat :=
  if b = 0 then .error (.panic "attempt to divide by zero") else .ok ((a + b - 1) / b)

/-- In range, `-` on `u8` is subtraction in either build. -/
theorem u8Sub_ok {checks : Bool} {a b : Nat} (h : b ≤ a) : u8Sub checks a b = .ok (a - b) :=
  if_pos h

/-- In range, `+` on `u32` is addition in either build. -/
theorem u32Add_ok {checks : Bool} {a b : Nat} (h : a + b ≤ u32Max) :
    u32Add checks a b = .ok (a + b) := if_pos h

/-- Under overflow checks a sum that is returned is the exact one. -/
theorem u32Add_eq_ok {a b c : Nat} (h : u32Add true a b = .ok c) : c = a + b := by
  unfold u32Add at h
  split at h
  · exact (Except.ok.inj h).symm
  · cases h

/-- In range, `-` on `u32` is subtraction in either build. -/
theorem u32Sub_ok {checks : Bool} {a b : Nat} (h : b ≤ a) : u32Sub checks a b = .ok (a - b) :=
  if_pos h

/-- In range, `*` on `u32` is multiplication in either build. -/
theorem u32Mul_ok {checks : Bool} {a b : Nat} (h : a * b ≤ u32Max) :
    u32Mul checks a b = .ok (a * b) := if_pos h

/-- A product that a build with overflow checks returns is the exact one. -/
theorem u32Mul_eq_ok {a b c : Nat} (h : u32Mul true a b = .ok c) : c = a * b := by
  unfold u32Mul at h
  split at h
  · exact (Except.ok.inj h).symm
  · cases h

/-- In range, `+` on `u128` is addition in either build. -/
theorem u128Add_ok {checks : Bool} {a b : Nat} (h : a + b ≤ u128Max) :
    u128Add checks a b = .ok (a + b) := if_pos h

/-- In range, `-` on `u128` is subtraction in either build. -/
theorem u128Sub_ok {checks : Bool} {a b : Nat} (h : b ≤ a) :
    u128Sub checks a b = .ok (a - b) := if_pos h

/-! ## The two builds -/

/-- Overflow checks take values away and change none: what a build with them computes, a build
without them computes too. `f` is a computation, by whether its build has the checks. -/
structure ChecksOnlyPanic {α : Type} (f : Bool → Except Fault α) : Prop where
  unchecked : ∀ {a}, f true = .ok a → f false = .ok a

/-- A computation without plain operators is the same in both builds. -/
theorem ChecksOnlyPanic.const {α : Type} (x : Except Fault α) : ChecksOnlyPanic fun _ => x :=
  ⟨id⟩

/-- A sequence of steps whose checks only panic. The second step may depend on the value of the
first, which is the same in both builds where the checked one gets that far. -/
theorem ChecksOnlyPanic.bind {α β : Type} {x : Bool → Except Fault α}
    {f : Bool → α → Except Fault β} (hx : ChecksOnlyPanic x)
    (hf : ∀ a, ChecksOnlyPanic fun checks => f checks a) :
    ChecksOnlyPanic fun checks => x checks >>= f checks := by
  refine ⟨fun h => ?_⟩
  obtain ⟨a, ha, hb⟩ := bind_eq_ok.mp h
  exact bind_eq_ok.mpr ⟨a, hx.unchecked ha, (hf a).unchecked hb⟩

/-- A branch on something that does not depend on the build. -/
theorem ChecksOnlyPanic.ite {α : Type} {p : Prop} [Decidable p] {f g : Bool → Except Fault α}
    (hf : ChecksOnlyPanic f) (hg : ChecksOnlyPanic g) :
    ChecksOnlyPanic fun checks => if p then f checks else g checks := by
  by_cases hp : p
  · simpa only [if_pos hp] using hf
  · simpa only [if_neg hp] using hg

/-- A plain operator is a checked one whose result is only looked at where it fits. All
operators above are an instance of this, by the message of their panic. -/
theorem checksOnlyPanic_operator {p : Prop} [Decidable p] {exact wrapped : Nat} (msg : String) :
    ChecksOnlyPanic fun checks =>
      if p then .ok exact else if checks then .error (.panic msg) else .ok wrapped := by
  refine ⟨fun h => ?_⟩
  by_cases hp : p
  · simpa only [if_pos hp] using h
  · simp only [if_neg hp, if_true, reduceCtorEq] at h

/-- The checks of `+` on `u32` only panic. -/
theorem checksOnlyPanic_u32Add (a b : Nat) : ChecksOnlyPanic fun checks => u32Add checks a b :=
  checksOnlyPanic_operator _

/-- The checks of `-` on `u32` only panic. -/
theorem checksOnlyPanic_u32Sub (a b : Nat) : ChecksOnlyPanic fun checks => u32Sub checks a b :=
  checksOnlyPanic_operator _

/-- The checks of `+` on `u128` only panic. -/
theorem checksOnlyPanic_u128Add (a b : Nat) : ChecksOnlyPanic fun checks => u128Add checks a b :=
  checksOnlyPanic_operator _

/-- The checks of `-` on `u128` only panic. -/
theorem checksOnlyPanic_u128Sub (a b : Nat) : ChecksOnlyPanic fun checks => u128Sub checks a b :=
  checksOnlyPanic_operator _

/-- Division by a positive number does not panic. -/
theorem u128Div_ok {a b : Nat} (h : 0 < b) : u128Div a b = .ok (a / b) := if_neg (by omega)

/-- Nor does the division that rounds up. -/
theorem u128DivCeil_ok {a b : Nat} (h : 0 < b) :
    u128DivCeil a b = .ok ((a + b - 1) / b) := if_neg (by omega)

/-! ## Checked operations and conversions -/

def checkedMulU128 (a b : Nat) : Option Nat := if a * b ≤ u128Max then some (a * b) else none

def checkedAddI32 (a b : Int) : Option Int :=
  if -2 ^ 31 ≤ a + b ∧ a + b ≤ i32Max then some (a + b) else none

/-- `as u32` on a `u128`. -/
def asU32 (n : Nat) : Nat := n % 2 ^ 32

/-- `i32::try_from` on a `u128`. -/
def i32OfU128 (n : Nat) : Option Int := if (n : Int) ≤ i32Max then some n else none

/-- `i32::try_from` on an `i128`. -/
def i32OfI128 (z : Int) : Option Int := if -2 ^ 31 ≤ z ∧ z ≤ i32Max then some z else none

/-- `as u32` keeps a number that fits. -/
theorem asU32_of_le {n : Nat} (h : n ≤ u32Max) : asU32 n = n := by
  unfold asU32
  unfold u32Max at h
  omega

end StacksDex.Model
