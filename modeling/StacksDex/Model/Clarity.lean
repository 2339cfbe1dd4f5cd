import StacksDex.Lib.BigEndian
import StacksDex.Lib.SortedAssoc
import StacksDex.Model.Principal

/-!
# StacksDex — the Clarity value codec

`codec/clarity.rs`: Clarity values, `cv_encode` and `cv_decode`.

A tuple is a `BTreeMap<String, ClarityValue>`; here it is its entry list in key
order, and `NamesAscending` is the invariant the map type guarantees in Rust (in
every nested tuple, too); `MapValue` carries it. The decoder builds a tuple by
inserting its fields one by one. It is written over the insertion (`ins`), so that
the same code also gives the parse that keeps the fields as they lie in the buffer
(`wireDecode`).

Recursion is on a fuel argument; every nested call starts at least one byte
further on, so `buf.len() + 1` levels are enough (`cvDecode_body`).
-/

namespace StacksDex.Model

open StacksDex.Lib

inductive ClarityValue where
  | int (n : BitVec 128)
  | uint (n : BitVec 128)
  | buffer (b : List UInt8)
  | bool (b : Bool)
  | principal (p : Principal)
  | responseOk (v : ClarityValue)
  | responseErr (v : ClarityValue)
  | optionalNone
  | optionalSome (v : ClarityValue)
  | list (items : List ClarityValue)
  | tuple (fields : List (String × ClarityValue))
  | stringAscii (s : String)
  | stringUtf8 (s : String)

/-- The entries of a tuple (or of an event payload). -/
abbrev Fields := List (String × ClarityValue)

/-- `BTreeMap::get`. -/
def Fields.get (m : Fields) (key : String) : Option ClarityValue := m.lookup key

/-- `BTreeMap::insert`. -/
def Fields.insert (m : Fields) (key : String) (v : ClarityValue) : Fields :=
  SortedAssoc.insert byteKey key v m

/-! ## Encoding -/

mutual
/-- `cv_encode`. -/
def cvEncode : ClarityValue → List UInt8
  | .int n => 0x00 :: bitsToBe 16 n
  | .uint n => 0x01 :: bitsToBe 16 n
  | .buffer b => 0x02 :: (beBytes 4 b.length ++ b)
  | .bool true => [0x03]
  | .bool false => [0x04]
  | .principal (.standard version hash160) => 0x05 :: version :: hash160.toList
  | .principal (.contract version hash160 name) =>
    0x06 :: version :: (hash160.toList ++
      UInt8.ofNat (asBytes name).length :: asBytes name)
  | .responseOk inner => 0x07 :: cvEncode inner
  | .responseErr inner => 0x08 :: cvEncode inner
  | .optionalNone => [0x09]
  | .optionalSome inner => 0x0a :: cvEncode inner
  | .list items => 0x0b :: (beBytes 4 items.length ++ encodeItems items)
  | .tuple fields => 0x0c :: (beBytes 4 fields.length ++ encodeFields fields)
  | .stringAscii s => 0x0d :: (beBytes 4 (asBytes s).length ++ asBytes s)
  | .stringUtf8 s => 0x0e :: (beBytes 4 (asBytes s).length ++ asBytes s)

-- the count stands in front of the list, so the items follow each other bare
def encodeItems : List ClarityValue → List UInt8
  | [] => []
  | item :: rest => cvEncode item ++ encodeItems rest

def encodeFields : List (String × ClarityValue) → List UInt8
  | [] => []
  | (name, value) :: rest =>
    -- one length byte: a name above 255 bytes is written with a wrapped length
    UInt8.ofNat (asBytes name).length :: (asBytes name ++ (cvEncode value ++ encodeFields rest))
end

/-! ## Reading a decoded value -/

mutual
/-- `{:?}`. Principals appear in their `Display` form, which panics on a bad version. -/
def ClarityValue.debug (sha256 : Sha256) : ClarityValue → Except Fault String
  | .int n => .ok s!"Int({n.toInt})"
  | .uint n => .ok s!"Uint({n.toNat})"
  | .buffer b => .ok ("Buffer([" ++ ", ".intercalate (b.map fun x => s!"{x.toNat}") ++ "])")
  | .bool b => .ok s!"Bool({b})"
  | .principal p => do .ok ("Principal(" ++ (← p.display sha256) ++ ")")
  | .responseOk v => do .ok ("ResponseOk(" ++ (← v.debug sha256) ++ ")")
  | .responseErr v => do .ok ("ResponseErr(" ++ (← v.debug sha256) ++ ")")
  | .optionalNone => .ok "OptionalNone"
  | .optionalSome v => do .ok ("OptionalSome(" ++ (← v.debug sha256) ++ ")")
  | .list items => do .ok ("List([" ++ ", ".intercalate (← debugItems sha256 items) ++ "])")
  | .tuple fields => do
    .ok ("Tuple(\x7b" ++ ", ".intercalate (← debugFields sha256 fields) ++ "\x7d)")
  | .stringAscii s => .ok ("StringAscii(" ++ debugString s ++ ")")
  | .stringUtf8 s => .ok ("StringUtf8(" ++ debugString s ++ ")")

def debugItems (sha256 : Sha256) : List ClarityValue → Except Fault (List String)
  | [] => .ok []
  | item :: rest => do
    let shown ← item.debug sha256
    .ok (shown :: (← debugItems sha256 rest))

def debugFields (sha256 : Sha256) :
    List (String × ClarityValue) → Except Fault (List String)
  | [] => .ok []
  | (name, value) :: rest => do
    let shown ← value.debug sha256
    .ok ((debugString name ++ ": " ++ shown) :: (← debugFields sha256 rest))
end

namespace ClarityValue

/-- `unwrap_ok`. -/
def unwrapOk (sha256 : Sha256) : ClarityValue → Except Fault ClarityValue
  | .responseOk v => .ok v
  | .responseErr e => do .error (.err ("response-err: " ++ (← e.debug sha256)))
  | other => do .error (.err ("expected response, got " ++ (← other.debug sha256)))

/-- `field`. -/
def field (sha256 : Sha256) (v : ClarityValue) (key : String) : Except Fault ClarityValue :=
  match v with
  | .tuple m =>
    match Fields.get m key with
    | some value => .ok value
    | none => .error (.err s!"tuple missing key '{key}'")
  | other => do
    .error (.err (s!"expected tuple to extract '{key}', got " ++ (← other.debug sha256)))

/-- `as_uint`. -/
def asUint (sha256 : Sha256) : ClarityValue → Except Fault Nat
  | .uint n => .ok n.toNat
  | other => do .error (.err ("expected uint, got " ++ (← other.debug sha256)))

/-- `as_int`. -/
def asInt (sha256 : Sha256) : ClarityValue → Except Fault Int
  | .int n => .ok n.toInt
  | other => do .error (.err ("expected int, got " ++ (← other.debug sha256)))

/-- `as_bool`. -/
def asBool (sha256 : Sha256) : ClarityValue → Except Fault Bool
  | .bool b => .ok b
  | other => do .error (.err ("expected bool, got " ++ (← other.debug sha256)))

/-- `as_principal`. -/
def asPrincipal (sha256 : Sha256) : ClarityValue → Except Fault Principal
  | .principal p => .ok p
  | other => do .error (.err ("expected principal, got " ++ (← other.debug sha256)))

end ClarityValue

/-- `cv_uint`. -/
def cvUint (n : Nat) : List UInt8 := cvEncode (.uint (BitVec.ofNat 128 n))

/-- `cv_principal`. -/
def cvPrincipal (p : Principal) : List UInt8 := cvEncode (.principal p)

/-! ## Decoding -/

/-- `buf[i]`. -/
def byteAt (buf : List UInt8) (i : Nat) : Except Fault UInt8 :=
  match buf[i]? with
  | some b => .ok b
  | none => .error (.panic "index out of bounds")

/-- `buf[a..a + n]`. -/
def slice (buf : List UInt8) (a n : Nat) : Except Fault (List UInt8) :=
  if a + n ≤ buf.length then .ok ((buf.drop a).take n)
  else .error (.panic "range end index out of range for slice")

/-- `std::str::from_utf8(..).map_err(..)`. -/
def utf8 (msg : String) (bytes : List UInt8) : Except Fault String :=
  match fromUtf8 bytes with
  | some s => .ok s
  | none => .error (.err msg)

/-- A 4-byte big-endian length and that many bytes, with the offset behind them. -/
def readBlock (buf : List UInt8) (header : String) (body : Nat → String) (off : Nat) :
    Except Fault (List UInt8 × Nat) :=
  if off + 4 > buf.length then .error (.err header)
  else do
    let ln := ofBeBytes (← slice buf off 4)
    let start := off + 4
    if start + ln > buf.length then .error (.err (body ln))
    else do
      let bytes ← slice buf start ln
      .ok (bytes, start + ln)

/-- The two integers: sixteen big-endian bytes. -/
def readInteger (buf : List UInt8) (short : String) (off : Nat) :
    Except Fault (BitVec 128 × Nat) :=
  if off + 16 > buf.length then .error (.err short)
  else do
    let a ← slice buf off 16
    .ok (bitsOfBe 128 a, off + 16)

/-- `buf[off]` and the twenty bytes behind it. -/
def readAddress (buf : List UInt8) (off : Nat) : Except Fault (UInt8 × Hash160) := do
  let version ← byteAt buf off
  let bytes ← slice buf (off + 1) 20
  -- `hash160.copy_from_slice(..)`
  if h : bytes.length = 20 then .ok (version, ⟨bytes, h⟩)
  else .error (.panic "source slice length does not match destination slice length")

section Decode

variable (ins : Fields → String → ClarityValue → Fields)
variable (dec : Nat → Except Fault (ClarityValue × Nat))

/-- The loop of the list branch: `cnt` more values from offset `o` on. -/
def decodeItems : Nat → Nat → List ClarityValue → Except Fault (List ClarityValue × Nat)
  | 0, o, items => .ok (items, o)
  | cnt + 1, o, items => do
    let r ← dec o
    decodeItems cnt r.2 (items ++ [r.1])

/-- The loop of the tuple branch: `cnt` more fields from offset `o` on. -/
def decodeFields (buf : List UInt8) : Nat → Nat → Fields → Except Fault (Fields × Nat)
  | 0, o, map => .ok (map, o)
  | cnt + 1, o, map =>
    if o ≥ buf.length then .error (.err "CV tuple: short field-name length")
    else do
      let nl := (← byteAt buf o).toNat
      if o + 1 + nl > buf.length then .error (.err "CV tuple: short field name")
      else do
        let name ← utf8 "CV tuple: field name not UTF-8" (← slice buf (o + 1) nl)
        let r ← dec (o + 1 + nl)
        -- a name that comes twice keeps the later value
        decodeFields buf cnt r.2 (ins map name r.1)

/-- The branches of `cv_decode` behind the tag byte. -/
def decodeTagged (buf : List UInt8) (tag : UInt8) (off : Nat) :
    Except Fault (ClarityValue × Nat) :=
  match tag with
  | 0x00 => do
    let r ← readInteger buf "CV int: short read" off
    .ok (.int r.1, r.2)
  | 0x01 => do
    let r ← readInteger buf "CV uint: short read" off
    .ok (.uint r.1, r.2)
  | 0x02 => do
    let r ← readBlock buf "CV buffer: short header"
      (fun ln => s!"CV buffer: short body ({ln})") off
    .ok (.buffer r.1, r.2)
  -- tags without a body
  | 0x03 => .ok (.bool true, off)
  | 0x04 => .ok (.bool false, off)
  | 0x05 =>
    if off + 21 > buf.length then .error (.err "CV principal-std: short read")
    else do
      let a ← readAddress buf off
      .ok (.principal (.standard a.1 a.2), off + 21)
  | 0x06 =>
    if off + 22 > buf.length then .error (.err "CV principal-contract: short header")
    else do
      let a ← readAddress buf off
      let nl := (← byteAt buf (off + 21)).toNat
      let start := off + 22
      if start + nl > buf.length then .error (.err "CV principal-contract: short name")
      else do
        let name ← utf8 "CV principal-contract: name not ASCII/UTF-8" (← slice buf start nl)
        .ok (.principal (.contract a.1 a.2 name), start + nl)
  | 0x07 => do
    let r ← dec off
    .ok (.responseOk r.1, r.2)
  | 0x08 => do
    let r ← dec off
    .ok (.responseErr r.1, r.2)
  | 0x09 => .ok (.optionalNone, off)
  | 0x0a => do
    let r ← dec off
    .ok (.optionalSome r.1, r.2)
  | 0x0b =>
    if off + 4 > buf.length then .error (.err "CV list: short header")
    else do
      let cnt := ofBeBytes (← slice buf off 4)
      let r ← decodeItems dec cnt (off + 4) []
      .ok (.list r.1, r.2)
  | 0x0c =>
    if off + 4 > buf.length then .error (.err "CV tuple: short header")
    else do
      let cnt := ofBeBytes (← slice buf off 4)
      let r ← decodeFields ins dec buf cnt (off + 4) []
      .ok (.tuple r.1, r.2)
  | 0x0d => do
    let r ← readBlock buf "CV string-ascii: short header"
      (fun _ => "CV string-ascii: short body") off
    let s ← utf8 "CV string-ascii: not valid ASCII/UTF-8" r.1
    .ok (.stringAscii s, r.2)
  | 0x0e => do
    let r ← readBlock buf "CV string-utf8: short header"
      (fun _ => "CV string-utf8: short body") off
    let s ← utf8 "CV string-utf8: not valid UTF-8" r.1
    .ok (.stringUtf8 s, r.2)
  | other =>
    -- the tag is the byte before `off`
    .error (.err s!"unknown CV tag 0x{hexByte other} at offset {off - 1}")

/-- The body of `cv_decode`, over the recursive call. -/
def decodeBody (buf : List UInt8) (off : Nat) : Except Fault (ClarityValue × Nat) :=
  if off ≥ buf.length then
    .error (.err s!"CV decode: unexpected EOF at offset {off}")
  else do
    let tag ← byteAt buf off
    decodeTagged ins dec buf tag (off + 1)

end Decode

/-- `cv_decode` to a nesting depth of `fuel`. -/
def decodeFuel (ins : Fields → String → ClarityValue → Fields) (buf : List UInt8) :
    Nat → Nat → Except Fault (ClarityValue × Nat)
  -- never reached from `buf.length + 1`
  | 0, _ => .error (.panic "nesting bound")
  | fuel + 1, off => decodeBody ins (decodeFuel ins buf fuel) buf off

/-- `cv_decode`: the value at `off` and the offset behind it. -/
def cvDecode (buf : List UInt8) (off : Nat) : Except Fault (ClarityValue × Nat) :=
  decodeFuel Fields.insert buf (buf.length + 1) off

/-- The same parse with every tuple's fields kept in the order of the buffer. -/
def wireDecode (buf : List UInt8) (off : Nat) : Except Fault (ClarityValue × Nat) :=
  decodeFuel (fun m name v => m ++ [(name, v)]) buf (buf.length + 1) off

/-! ## Invariants of values -/

mutual
/-- In every tuple the names strictly ascend in byte order: what `BTreeMap` guarantees. -/
def ClarityValue.NamesAscending : ClarityValue → Prop
  | .responseOk v | .responseErr v | .optionalSome v => v.NamesAscending
  | .list items => itemsAscending items
  | .tuple fields => SortedAssoc.Ascending byteKey fields ∧ fieldsAscending fields
  | _ => True

def itemsAscending : List ClarityValue → Prop
  | [] => True
  | item :: rest => item.NamesAscending ∧ itemsAscending rest

def fieldsAscending : List (String × ClarityValue) → Prop
  | [] => True
  | (_, value) :: rest => value.NamesAscending ∧ fieldsAscending rest
end

/-- A value as the crate has it: every tuple in it is a `BTreeMap`. -/
abbrev MapValue := { v : ClarityValue // v.NamesAscending }

mutual
/-- Every length fits the field that carries it: 255 bytes for contract and field
names, fewer than `2 ^ 32` elements for buffers, strings, lists and tuples. -/
def ClarityValue.LengthsFit : ClarityValue → Prop
  | .buffer b => b.length < 2 ^ 32
  | .principal (.contract _ _ name) => (asBytes name).length ≤ 255
  | .responseOk v | .responseErr v | .optionalSome v => v.LengthsFit
  | .list items => items.length < 2 ^ 32 ∧ itemsFit items
  | .tuple fields => fields.length < 2 ^ 32 ∧ fieldsFit fields
  | .stringAscii s | .stringUtf8 s => (asBytes s).length < 2 ^ 32
  | _ => True

def itemsFit : List ClarityValue → Prop
  | [] => True
  | item :: rest => item.LengthsFit ∧ itemsFit rest

def fieldsFit : List (String × ClarityValue) → Prop
  | [] => True
  | (name, value) :: rest =>
    (asBytes name).length ≤ 255 ∧ value.LengthsFit ∧ fieldsFit rest
end

end StacksDex.Model
