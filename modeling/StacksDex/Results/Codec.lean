import StacksDex.Bridge.ClarityTuples

/-!
# StacksDex — the codec's round trips

Encode then decode, inside any surrounding bytes, returns the value and the
offset behind it; decode then encode returns a byte string that decodes to the
same value again, and the original bytes where the tuples' names were already in
order.

* `cvDecode_cvEncode_framed`: from values, for every value a Rust program can hold
  (`MapValue`) whose lengths fit their fields;
* `cvDecode_canonical`: from bytes, for every buffer and offset.

Both follow from the wire parser being the exact inverse of the encoder and the decoder being
the wire parser with its tuples rebuilt as maps.
-/

namespace StacksDex.Results

open StacksDex.Lib StacksDex.Model StacksDex.Bridge

/-! ## From values -/

/--
**Framed round trip.** A value written between any two byte strings is read back at its
offset, with the offset of the byte behind it. The value's tuples are maps, as they are in the
program, and its lengths fit their fields. The induction is on the value; the decoder takes
fuel, and the encoding is long enough to pay for it.
-/
theorem cvDecode_cvEncode_framed (v : MapValue) (hfit : v.1.LengthsFit)
    (pre post : List UInt8) :
    cvDecode (pre ++ cvEncode v.1 ++ post) pre.length =
      .ok (v.1, pre.length + (cvEncode v.1).length) :=
  cvDecode_eq_ok.mpr ⟨v.1, ⟨hfit, sitsAt_frame pre post, rfl⟩, (canon_of_ascending v.2).symm⟩

/-- A tuple with a list of an integer and an optional text, inside other bytes. -/
theorem cvDecode_cvEncode_framed_nested :
    let v : ClarityValue := .tuple [("a", .list [.uint 7, .optionalSome (.stringUtf8 "é")]),
      ("b", .responseErr (.buffer [1, 2, 3]))]
    cvDecode ([0xff, 0x0c] ++ cvEncode v ++ [0x00]) 2 = .ok (v, 2 + (cvEncode v).length) :=
  cvDecode_cvEncode_framed
    ⟨.tuple [("a", .list [.uint 7, .optionalSome (.stringUtf8 "é")]),
      ("b", .responseErr (.buffer [1, 2, 3]))],
      ⟨by decide, ⟨trivial, trivial, trivial⟩, trivial, trivial⟩⟩
    (by simp [ClarityValue.LengthsFit, fieldsFit, itemsFit]; decide)
    [0xff, 0x0c] [0x00]

/-! ## From bytes -/

/-- Whatever is decoded is a tree of maps whose lengths fit. -/
theorem cvDecode_wellFormed {buf : List UInt8} {off n : Nat} {v : ClarityValue}
    (h : cvDecode buf off = .ok (v, n)) : v.NamesAscending ∧ v.LengthsFit := by
  obtain ⟨w, hw, rfl⟩ := cvDecode_eq_ok.mp h
  exact ⟨canon_namesAscending w, canon_lengthsFit hw.fits⟩

/--
**Canonical form.** A decoded value's own encoding decodes to it again; and where every tuple
in the bytes it was read from lists its names in strictly ascending byte order, those bytes
are its encoding. The decoder collects a tuple into a map, so the order of the names in the
bytes and a repeated name are what it forgets, and all it forgets.
-/
theorem cvDecode_canonical {buf : List UInt8} {off n : Nat} {v : ClarityValue}
    (h : cvDecode buf off = .ok (v, n)) :
    cvDecode (cvEncode v) 0 = .ok (v, (cvEncode v).length) ∧
    ((∀ w m, wireDecode buf off = .ok (w, m) → w.NamesAscending) →
      cvEncode v = (buf.drop off).take (n - off)) := by
  obtain ⟨hasc, hfit⟩ := cvDecode_wellFormed h
  constructor
  · refine cvDecode_eq_ok.mpr ⟨v, ⟨hfit, ?_, by omega⟩, (canon_of_ascending hasc).symm⟩
    simpa using sitsAt_frame (x := cvEncode v) [] []
  · intro hwire
    obtain ⟨w, hw, rfl⟩ := cvDecode_eq_ok.mp h
    have hwasc : w.NamesAscending := hwire w n (wireDecode_eq_ok.mpr hw)
    rw [canon_of_ascending hwasc, hw.stop, Nat.add_sub_cancel_left]
    exact hw.sits.take.symm

/-- A two-field tuple behind one other byte, in name order, and what it decodes to. -/
theorem cvDecode_canonical_tuple :
    let buf : List UInt8 := [0x09, 0x0c, 0, 0, 0, 2, 1, 97, 0x03, 1, 98, 0x09]
    let v : ClarityValue := .tuple [("a", .bool true), ("b", .optionalNone)]
    cvDecode (cvEncode v) 0 = .ok (v, (cvEncode v).length) ∧
    ((∀ w m, wireDecode buf 1 = .ok (w, m) → w.NamesAscending) →
      cvEncode v = (buf.drop 1).take (12 - 1)) :=
  cvDecode_canonical (cvDecode_eq_ok.mpr
    ⟨.tuple [("a", .bool true), ("b", .optionalNone)],
      ⟨by simp [ClarityValue.LengthsFit, fieldsFit]; decide, ⟨by decide, by decide⟩, by decide⟩,
      by rw [canon_of_ascending]; exact ⟨by decide, trivial, trivial, trivial⟩⟩)

end StacksDex.Results
