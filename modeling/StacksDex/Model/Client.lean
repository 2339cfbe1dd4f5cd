import StacksDex.Model.PrintEvents

/-!
# StacksDex — hex in the RPC client

`hex` and `hex_decode` of `rpc/client.rs`. The decoder is the one of the event sources
(`hexDecode`) up to the text of its parse error, so its loop has that text as a parameter.

Like that one it slices the text two bytes at a time, and panics where a slice would cut a
character.
-/

namespace StacksDex.Model

/-- `hex`. -/
def hex (b : List UInt8) : String := b.foldl (fun s x => s ++ hexByte x) ""

/-- The loop of `hex_decode`, with the error of a pair that does not parse. -/
def hexPairsOr (refusal : String) : List UInt8 → Except Fault (List UInt8)
  | a :: b :: rest =>
    if rest.head?.any isContinuation then
      .error (.panic "byte index is not a char boundary")
    else
      match u8FromHex a b with
      | none => .error (.err refusal)
      | some x => do .ok (x :: (← hexPairsOr refusal rest))
  | _ => .ok []

/-- `hex_decode`. -/
def hexDecodeOr (refusal : String) (s : String) : Except Fault (List UInt8) :=
  if (asBytes s).length % 2 ≠ 0 then .error (.err "odd-length hex string")
  else hexPairsOr refusal (asBytes s)

/-- `hex_decode` of the client: `anyhow!("hex parse: {}", e)`. -/
def clientHexDecode (s : String) : Except Fault (List UInt8) :=
  hexDecodeOr "hex parse: invalid digit found in string" s

end StacksDex.Model
