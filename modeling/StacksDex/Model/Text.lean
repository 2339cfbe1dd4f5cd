import Mathlib.Data.List.Basic
import Mathlib.Order.Basic
import Mathlib.Data.List.Lex

/-!
# StacksDex — strings and their bytes

A Rust `String` is a Lean `String`: both are sequences of Unicode scalar values
whose bytes are their UTF-8 encoding. `asBytes` is `str::as_bytes`, `fromUtf8`
is `std::str::from_utf8`, and `byteKey` is the key Rust orders strings by (byte
by byte).

`escapeDebug` and `debugString` print a string as `{:?}` does, for the error texts
that quote one.
-/

namespace StacksDex.Model

/-- `str::as_bytes`. -/
def asBytes (s : String) : List UInt8 := s.toByteArray.data.toList

/-- `std::str::from_utf8`, on the bytes of a buffer. -/
def fromUtf8 (bytes : List UInt8) : Option String := String.fromUTF8? ⟨bytes.toArray⟩

/-- Decoding succeeds on the bytes of a string, and only there. -/
theorem fromUtf8_eq_some {bytes : List UInt8} {s : String} :
    fromUtf8 bytes = some s ↔ asBytes s = bytes := by
  unfold fromUtf8 String.fromUTF8? asBytes
  constructor
  · intro h
    split at h
    · obtain rfl := Option.some.inj h
      rfl
    · cases h
  · rintro rfl
    have hvalid : ByteArray.IsValidUTF8 ⟨s.toByteArray.data.toList.toArray⟩ := s.isValidUTF8
    rw [dif_pos hvalid]
    rfl

/-- ASCII text has one byte a character, the character's code. -/
theorem asBytes_ofList_ascii {cs : List Char} (h : ∀ c ∈ cs, c.toNat < 128) :
    asBytes (String.ofList cs) = cs.map fun c => UInt8.ofNat c.toNat := by
  have hchar : ∀ c ∈ cs, String.utf8EncodeChar c = [UInt8.ofNat c.toNat] := by
    intro c hc
    have hlt : c.val.toNat ≤ 127 := Nat.le_of_lt_succ (h c hc)
    unfold String.utf8EncodeChar
    simp only [hlt, if_true]
    rfl
  have hbytes : cs.flatMap String.utf8EncodeChar = cs.map fun c => UInt8.ofNat c.toNat := by
    rw [List.flatMap_congr hchar]
    exact List.map_eq_flatMap.symm
  show (String.ofList cs).toByteArray.data.toList = _
  rw [String.toByteArray_ofList, List.utf8Encode, hbytes, List.toList_data_toByteArray]

/-- The order of `str`: lexicographic in the bytes. -/
def byteKey (s : String) : List Nat := (asBytes s).map UInt8.toNat

/-- `{:02x}` of a byte. -/
def hexByte (b : UInt8) : String :=
  String.ofList [Nat.digitChar (b.toNat / 16), Nat.digitChar (b.toNat % 16)]

/-- One character as `{:?}` writes it inside a string. Characters above ASCII are
taken as printable. -/
def escapeDebug (c : Char) : String :=
  match c with
  | '\t' => "\\t"
  | '\r' => "\\r"
  | '\n' => "\\n"
  | '"' => "\\\""
  | '\\' => "\\\\"
  | '\x00' => "\\0"
  | c =>
    if c.toNat < 32 ∨ c.toNat = 127 then
      "\\u\x7b" ++ String.ofList (Nat.toDigits 16 c.toNat) ++ "\x7d"
    else c.toString

/-- `{:?}` of a string. -/
def debugString (s : String) : String := "\"" ++ String.join (s.toList.map escapeDebug) ++ "\""

/-- `str::split_once` at a character. -/
def splitOnce (c : Char) : List Char → Option (List Char × List Char)
  | [] => none
  | x :: rest =>
    if x = c then some ([], rest)
    else (splitOnce c rest).map fun p => (x :: p.1, p.2)

end StacksDex.Model
