import Mathlib.Data.BitVec
import Mathlib.Data.List.Basic

/-!
# Lib — big-endian byte strings

Fixed-width unsigned numbers as big-endian byte lists, and bit vectors through
them. Two functions and the facts a codec needs about them:

* `beBytes k n` — the `k` low-order bytes of `n`, most significant first;
* `ofBeBytes l` — the number a byte list denotes.

`ofBeBytes_beBytes` and `beBytes_ofBeBytes` are the two round trips: writing and
reading back loses exactly the bits that do not fit, and every byte list is the
encoding of the number it denotes at its own width. A list without a leading zero
byte (`NoLeadingZero`) is determined by its number alone.

Nothing here assumes that a number fits its width. A codec that has checked so
uses `ofBeBytes_beBytes_of_lt`; one that drops leading zeros, as base conversions
do, puts them back by counting them and uses `eq_of_noLeadingZero` for the rest.
-/

namespace StacksDex.Lib

/-- The `k` low-order bytes of `n`, most significant first. -/
def beBytes : Nat → Nat → List UInt8
  | 0, _ => []
  | k + 1, n => beBytes k (n / 256) ++ [UInt8.ofNat n]

/-- The number denoted by a big-endian byte list. -/
def ofBeBytes (l : List UInt8) : Nat :=
  l.foldl (fun acc b => acc * 256 + b.toNat) 0

/-- An encoding has the width it was asked for, whatever the number. -/
@[simp] theorem length_beBytes (k n : Nat) : (beBytes k n).length = k := by
  induction k generalizing n with
  | zero => rfl
  | succ k ih => simp [beBytes, ih]

@[simp] theorem ofBeBytes_nil : ofBeBytes [] = 0 := rfl

/-- Reading on by one byte: what was read so far moves up by one place. This is the step from
which every fact about `ofBeBytes` is proved, by induction from the end of the list. -/
@[simp] theorem ofBeBytes_append_singleton (l : List UInt8) (b : UInt8) :
    ofBeBytes (l ++ [b]) = ofBeBytes l * 256 + b.toNat := by
  simp [ofBeBytes]

/-- Reading back what was written keeps the number modulo the width: the bits that do not fit
are lost, and no others. -/
theorem ofBeBytes_beBytes (k n : Nat) : ofBeBytes (beBytes k n) = n % 256 ^ k := by
  induction k generalizing n with
  | zero => simp [beBytes, Nat.mod_one]
  | succ k ih =>
    -- the last byte carries the remainder, the others the quotient
    have hlow : (UInt8.ofNat n).toNat = n % 256 := by simp
    rw [beBytes, ofBeBytes_append_singleton, ih, hlow, Nat.pow_succ',
      Nat.mod_mul, Nat.mul_comm, Nat.add_comm]

/-- A number that fits its width survives the round trip unchanged. -/
theorem ofBeBytes_beBytes_of_lt {k n : Nat} (h : n < 256 ^ k) :
    ofBeBytes (beBytes k n) = n := by
  rw [ofBeBytes_beBytes, Nat.mod_eq_of_lt h]

/-- A byte list denotes a number below `256` to its length, so its number fits the width it was
written at. -/
theorem ofBeBytes_lt (l : List UInt8) : ofBeBytes l < 256 ^ l.length := by
  induction l using List.reverseRecOn with
  | nil => simp
  | append_singleton l b ih =>
    have hb : b.toNat < 256 := b.toNat_lt
    rw [ofBeBytes_append_singleton, List.length_append, List.length_singleton, Nat.pow_succ]
    omega

/-- Every byte list is the encoding of the number it denotes, at its own width. Together with
`ofBeBytes_beBytes_of_lt` this makes the two functions inverse on numbers of a given width. -/
theorem beBytes_ofBeBytes (l : List UInt8) : beBytes l.length (ofBeBytes l) = l := by
  induction l using List.reverseRecOn with
  | nil => rfl
  | append_singleton l b ih =>
    have hb : b.toNat < 256 := b.toNat_lt
    -- the last byte is the remainder, so the two parts come apart again
    have hdiv : (ofBeBytes l * 256 + b.toNat) / 256 = ofBeBytes l := by omega
    have hlow : UInt8.ofNat (ofBeBytes l * 256 + b.toNat) = b := by
      apply UInt8.toNat_inj.mp
      simp only [UInt8.toNat_ofNat']
      omega
    rw [ofBeBytes_append_singleton, List.length_append, List.length_singleton, beBytes,
      hdiv, ih, hlow]

/-- The first byte weighs `256` to the number of bytes behind it: the recursion from the front,
where `ofBeBytes_append_singleton` is that from the end. -/
theorem ofBeBytes_cons (b : UInt8) (l : List UInt8) :
    ofBeBytes (b :: l) = b.toNat * 256 ^ l.length + ofBeBytes l := by
  induction l using List.reverseRecOn with
  | nil => simp [ofBeBytes]
  | append_singleton l c ih =>
    rw [← List.cons_append, ofBeBytes_append_singleton, ih, ofBeBytes_append_singleton,
      List.length_append, List.length_singleton, Nat.pow_succ, Nat.add_mul, Nat.mul_assoc,
      Nat.add_assoc]

/-! ## No leading zero byte -/

/-- The first byte, if there is one, is not zero. -/
def NoLeadingZero (l : List UInt8) : Prop := l.head? ≠ some 0

/-- A byte list starts with a zero exactly when its number is too small for its length, so the
length without leading zeros can be read off the number. -/
theorem noLeadingZero_cons_iff {b : UInt8} {l : List UInt8} :
    NoLeadingZero (b :: l) ↔ 256 ^ l.length ≤ ofBeBytes (b :: l) := by
  have hhead : NoLeadingZero (b :: l) ↔ b.toNat ≠ 0 := by
    unfold NoLeadingZero
    rw [List.head?_cons, ne_eq, Option.some.injEq, ← UInt8.toNat_inj]
    rfl
  have hrest := ofBeBytes_lt l
  rw [hhead, ofBeBytes_cons]
  constructor
  · intro hb
    have hone : 1 * 256 ^ l.length ≤ b.toNat * 256 ^ l.length :=
      Nat.mul_le_mul_right _ (Nat.pos_of_ne_zero hb)
    omega
  · intro hle hb
    rw [hb, Nat.zero_mul] at hle
    omega

/-- **A number has one byte list without a leading zero.** Two such lists of one number have one
length, by `noLeadingZero_cons_iff`, and at one length reading is injective. -/
theorem eq_of_noLeadingZero {l m : List UInt8} (hl : NoLeadingZero l) (hm : NoLeadingZero m)
    (h : ofBeBytes l = ofBeBytes m) : l = m := by
  -- the longer of two such lists denotes the larger number
  have hlength : ∀ {l m : List UInt8}, NoLeadingZero m → l.length < m.length →
      ofBeBytes l < ofBeBytes m := by
    intro l m hm hlt
    cases m with
    | nil => cases hlt
    | cons b m =>
      calc ofBeBytes l < 256 ^ l.length := ofBeBytes_lt l
        _ ≤ 256 ^ m.length := Nat.pow_le_pow_right (by decide) (Nat.le_of_lt_succ hlt)
        _ ≤ ofBeBytes (b :: m) := noLeadingZero_cons_iff.mp hm
  have heq : l.length = m.length := by
    rcases Nat.lt_trichotomy l.length m.length with hlt | heq | hgt
    · exact absurd h (hlength hm hlt).ne
    · exact heq
    · exact absurd h (hlength hl hgt).ne'
  rw [← beBytes_ofBeBytes l, ← beBytes_ofBeBytes m, h, heq]

/-! ## Bit vectors -/

/-- `to_be_bytes` of a `w`-bit integer whose width is `k` bytes. -/
def bitsToBe {w : Nat} (k : Nat) (v : BitVec w) : List UInt8 :=
  beBytes k v.toNat

/-- `from_be_bytes` into a `w`-bit integer. -/
def bitsOfBe (w : Nat) (l : List UInt8) : BitVec w :=
  BitVec.ofNat w (ofBeBytes l)

/-- The bytes of a bit vector are as many as asked for. -/
@[simp] theorem length_bitsToBe {w : Nat} (k : Nat) (v : BitVec w) :
    (bitsToBe k v).length = k :=
  length_beBytes k v.toNat

/-- A bit vector whose width is a whole number of bytes survives writing and reading. -/
theorem bitsOfBe_bitsToBe {w k : Nat} (hw : 2 ^ w = 256 ^ k) (v : BitVec w) :
    bitsOfBe w (bitsToBe k v) = v := by
  have hv : v.toNat < 256 ^ k := hw ▸ v.isLt
  rw [bitsOfBe, bitsToBe, ofBeBytes_beBytes_of_lt hv, BitVec.ofNat_toNat, BitVec.setWidth_eq]

/-- And so does a byte list, read as a bit vector of its own width. -/
theorem bitsToBe_bitsOfBe {w : Nat} {l : List UInt8} (hw : 2 ^ w = 256 ^ l.length) :
    bitsToBe l.length (bitsOfBe w l) = l := by
  have hl : ofBeBytes l < 2 ^ w := hw ▸ ofBeBytes_lt l
  rw [bitsToBe, bitsOfBe, BitVec.toNat_ofNat, Nat.mod_eq_of_lt hl, beBytes_ofBeBytes]

end StacksDex.Lib
