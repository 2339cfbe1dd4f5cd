import StacksDex.Model.Machine
import StacksDex.Model.Text
import Mathlib.Data.Vector.Basic

/-!
# StacksDex — c32check addresses

`codec/c32.rs`: a Stacks address is `S`, one base-32 digit for the version, and
the base-32 digits of `hash160 ++ checksum`, where leading zero bytes are written
as leading `0` digits. The checksum is the first four bytes of a double SHA-256;
the hash is a parameter (`Sha256`), as the `sha2` crate is not part of the
repository.

* `stacksAddrDecode` reads an address: digits are gathered into bytes with a carry
  (`c32Accumulate`), padded on the left to the expected length, and the checksum is
  compared.
* `c32EncodeAddress` writes one, by repeated division of the byte string by 32.

Both work on bytes as the source does, not on numbers; that the byte string is a number to
the base 256 and the digits the same number to the base 32 is a matter for the proofs.
-/

namespace StacksDex.Model

/-- A SHA-256 implementation: bytes to a 32-byte digest. -/
abbrev Sha256 := List UInt8 → List.Vector UInt8 32

abbrev Hash160 := List.Vector UInt8 20

/-- The c32 alphabet. -/
def c32Alphabet : List UInt8 := asBytes "0123456789ABCDEFGHJKMNPQRSTVWXYZ"

/-- The character `0`. -/
def zeroDigit : UInt8 := 48

def c32Index (ch : UInt8) : Option UInt8 :=
  (c32Alphabet.idxOf? ch).map UInt8.ofNat

/-- The first four bytes of `sha256(sha256(version || hash160))`. -/
def c32Checksum (sha256 : Sha256) (version : UInt8) (hash160 : Hash160) : List UInt8 :=
  let h1 := sha256 (version :: hash160.toList)
  let h2 := sha256 h1.toList
  h2.toList.take 4

/-! ## Decoding -/

/-- One byte of `acc << 5 | carry`, from the right. -/
def shiftByte (b : UInt8) (p : List UInt8 × Nat) : List UInt8 × Nat :=
  let v := (b.toNat <<< 5) ||| p.2
  (UInt8.ofNat (v &&& 0xff) :: p.1, v >>> 8)

/-- `while carry > 0 { acc.insert(0, carry & 0xff); carry >>= 8 }`; a `u32` carry
has at most four bytes. -/
def insertCarry : Nat → Nat → List UInt8 → List UInt8
  | 0, _, acc => acc
  | fuel + 1, carry, acc =>
    if carry = 0 then acc
    else insertCarry fuel (carry >>> 8) (UInt8.ofNat (carry &&& 0xff) :: acc)

/-- Shift the accumulator left by five bits and add a digit. -/
def pushDigit (acc : List UInt8) (d : Nat) : List UInt8 :=
  let p := acc.foldr shiftByte ([], d)
  insertCarry 4 p.2 p.1

def c32Accumulate : List UInt8 → List UInt8 → Except Fault (List UInt8)
  | [], acc => .ok acc
  | ch :: rest, acc =>
    match c32Index ch with
    | none => .error (.err ("invalid c32 char " ++ (Char.ofNat ch.toNat).quote))
    | some d => c32Accumulate rest (pushDigit acc d.toNat)

/-- `c32check_decode`, on the bytes of the body. -/
def c32checkDecode (bytes : List UInt8) (expectedLen : Nat) : Except Fault (List UInt8) := do
  let nzero := (bytes.takeWhile (· = zeroDigit)).length
  let acc ← c32Accumulate (bytes.drop nzero) []
  -- each leading `0` digit stands for a zero byte
  let full := List.replicate nzero 0 ++ acc
  if full.length > expectedLen then
    .error (.err s!"c32 decoded {full.length} bytes, expected {expectedLen}")
  else
    -- pad on the left to the expected length
    .ok (List.replicate (expectedLen - full.length) 0 ++ full)

/-- `stacks_addr_decode`, on the bytes of the address. The slices `[1..]` of the
source fall on character boundaries: both bytes they skip are ASCII. -/
def stacksAddrDecode (sha256 : Sha256) (addr : String) :
    Except Fault (UInt8 × Hash160) :=
  match asBytes addr with
  -- 83 is `S`
  | 83 :: versionChar :: digits =>
    match c32Index versionChar with
    | none => .error (.err ("invalid c32 version char: " ++ addr))
    | some version => do
      let payload ← c32checkDecode digits 24
      -- `copy_from_slice(&payload[..20])`
      if h : (payload.take 20).length = 20 then
        let hash160 : Hash160 := ⟨payload.take 20, h⟩
        if (payload.drop 20).take 4 ≠ c32Checksum sha256 version hash160 then
          .error (.err ("checksum mismatch for " ++ addr))
        else
          .ok (version, hash160)
      else
        .error (.panic "range end index 20 out of range for slice")
  | _ => .error (.err ("not a Stacks address: " ++ addr))

/-! ## Encoding -/

/-- One step of the long division by 32. -/
def divByte (p : List UInt8 × Nat) (b : UInt8) : List UInt8 × Nat :=
  let cur := (p.2 <<< 8) ||| b.toNat
  (p.1 ++ [UInt8.ofNat (cur / 32)], cur % 32)

/-- `while out.len() > 1 && out[0] == 0 { out.remove(0) }`. -/
def stripZeros : List UInt8 → List UInt8
  | b :: b' :: rest => if b = 0 then stripZeros (b' :: rest) else b :: b' :: rest
  | l => l

/-- The base-32 digits of a big-endian number, least significant first. Each
round divides by 32, so two rounds use up more than one byte. -/
def c32Digits : Nat → List UInt8 → List Nat
  | 0, _ => []
  | fuel + 1, n =>
    if n.length > 1 ∨ n.head?.any (· ≠ 0) then
      let p := n.foldl divByte ([], 0)
      p.2 :: c32Digits fuel (stripZeros p.1)
    else []

/-- `C32[i] as char`. -/
def c32Char (i : Nat) : Except Fault Char :=
  match c32Alphabet[i]? with
  | some b => .ok (Char.ofNat b.toNat)
  | none => .error (.panic s!"index out of bounds: the len is 32 but the index is {i}")

/-- `c32_encode_address`. -/
def c32EncodeAddress (sha256 : Sha256) (version : UInt8) (hash160 : Hash160) :
    Except Fault String := do
  let payload := hash160.toList ++ c32Checksum sha256 version hash160
  let nzero := (payload.takeWhile (· = 0)).length
  let n := payload.drop nzero
  let digits ← (c32Digits (2 * n.length + 1) n).mapM c32Char
  let versionChar ← c32Char version.toNat
  -- the digits come least significant first
  .ok (String.ofList ('S' :: versionChar :: List.replicate nzero '0' ++ digits.reverse))

end StacksDex.Model
