import StacksDex.Bridge.DecoderSafety

/-!
# StacksDex — decoding is local

What `cv_decode` returns depends on the bytes it passes over and on nothing else, it always
passes over some, and it never makes do with a part of them: cut off anywhere before its
end, a value is an `Err`. No input makes the decoder panic.

The four facts are for every buffer and every offset, whether or not anything was encoded
there. They come from the characterisation of the wire parser: a value is read exactly where
its encoding sits in the buffer, and an encoding that is cut off sits nowhere.
-/

namespace StacksDex.Results

open StacksDex.Lib StacksDex.Model StacksDex.Bridge

/-- A value that is read lies within the buffer, and has at least one byte. -/
theorem cvDecode_bounds {buf : List UInt8} {off n : Nat} {v : ClarityValue}
    (h : cvDecode buf off = .ok (v, n)) : off < n ∧ n ≤ buf.length := by
  obtain ⟨w, hw, -⟩ := cvDecode_eq_ok.mp h
  have hpos := length_cvEncode_pos w
  have hle := hw.sits.le
  rw [hw.stop]
  omega

/-- Only the bytes between the two offsets are read: another buffer that has the same bytes
there decodes to the same value. -/
theorem cvDecode_congr {buf buf' : List UInt8} {off n : Nat} {v : ClarityValue}
    (h : cvDecode buf off = .ok (v, n))
    (hsame : ∀ i, off ≤ i → i < n → buf'[i]? = buf[i]?) : cvDecode buf' off = .ok (v, n) := by
  obtain ⟨hlt, hle⟩ := cvDecode_bounds h
  obtain ⟨w, hw, rfl⟩ := cvDecode_eq_ok.mp h
  -- the first of them is in the other buffer too
  have hoff : off < buf'.length := by
    have hfirst := hsame off le_rfl hlt
    rw [List.getElem?_eq_getElem (hlt.trans_le hle)] at hfirst
    exact (List.getElem?_eq_some_iff.mp hfirst).1
  refine cvDecode_eq_ok.mpr ⟨w, ⟨hw.fits, ?_, hw.stop⟩, rfl⟩
  exact hw.sits.congr hoff.le fun i hi hstop => hsame i hi (by rw [hw.stop]; exact hstop)

/-- No proper prefix of the bytes that were read decodes. -/
theorem cvDecode_truncated {buf : List UInt8} {off n m : Nat} {v : ClarityValue}
    (h : cvDecode buf off = .ok (v, n)) (hm : m < n) :
    ∃ msg, cvDecode (buf.take m) off = .error (.err msg) := by
  refine (cvDecode_noPanic _ off).exists_err ?_
  rintro ⟨v', n'⟩ hshort
  -- what the shorter buffer gives, the whole one gives, and it stops within the shorter one
  obtain ⟨-, hle⟩ := cvDecode_bounds hshort
  obtain ⟨w, hw, rfl⟩ := cvDecode_eq_ok.mp hshort
  have hwhole : cvDecode buf off = .ok (canon w, n') :=
    cvDecode_eq_ok.mpr ⟨w, ⟨hw.fits, hw.sits.of_take, hw.stop⟩, rfl⟩
  obtain ⟨-, rfl⟩ := Prod.mk.inj (Except.ok.inj (h.symm.trans hwhole))
  rw [List.length_take] at hle
  omega

/--
**Decoding is local and never succeeds on truncated input.** No input makes the decoder panic.
What it reads lies within the buffer and is not empty; bytes before and behind it may change
as they like; and of the bytes it reads none may be missing: cut anywhere before the end, the
buffer gives an `Err`.
-/
theorem cvDecode_local (buf : List UInt8) (off : Nat) :
    NoPanic (cvDecode buf off) ∧
    ∀ v n, cvDecode buf off = .ok (v, n) →
      off < n ∧ n ≤ buf.length ∧
      (∀ buf' : List UInt8, (∀ i, off ≤ i → i < n → buf'[i]? = buf[i]?) →
        cvDecode buf' off = .ok (v, n)) ∧
      ∀ m < n, ∃ msg, cvDecode (buf.take m) off = .error (.err msg) := by
  refine ⟨cvDecode_noPanic buf off, ?_⟩
  intro v n h
  obtain ⟨hlt, hle⟩ := cvDecode_bounds h
  exact ⟨hlt, hle, fun _ => cvDecode_congr h, fun _ => cvDecode_truncated h⟩

/-- A list of two values behind another byte, and what is left of it without its last byte. -/
theorem cvDecode_local_list :
    ∃ msg, cvDecode [0xff, 0x0b, 0, 0, 0, 2, 0x03] 1 = .error (.err msg) := by
  have hwhole : cvDecode [0xff, 0x0b, 0, 0, 0, 2, 0x03, 0x09] 1 =
      .ok (.list [.bool true, .optionalNone], 8) :=
    cvDecode_eq_ok.mpr ⟨.list [.bool true, .optionalNone],
      ⟨⟨by decide, trivial, trivial, trivial⟩, ⟨by decide, by decide⟩, by decide⟩, rfl⟩
  obtain ⟨-, hlocal⟩ := cvDecode_local [0xff, 0x0b, 0, 0, 0, 2, 0x03, 0x09] 1
  obtain ⟨-, -, -, hcut⟩ := hlocal _ _ hwhole
  exact hcut 7 (by decide)

end StacksDex.Results
