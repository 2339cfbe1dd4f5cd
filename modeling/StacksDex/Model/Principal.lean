import StacksDex.Model.C32

/-!
# StacksDex — principals

`pool/principal.rs`: a principal is a user address (`standard`) or a contract
reference (`contract`), over the same `(version, hash160)` base. `display` is the
`Display` form (`SP…` or `SP….contract-name`), which also keys the pool registry;
`parse` is `FromStr`.

Printing can fail: the version byte indexes a table of 32 characters, and a principal that
was decoded from the wire may have any byte there.
-/

namespace StacksDex.Model

inductive Principal where
  | standard (version : UInt8) (hash160 : Hash160)
  | contract (version : UInt8) (hash160 : Hash160) (name : String)
  deriving DecidableEq

/-- The underlying `(version, hash160)` of either variant. -/
def Principal.address : Principal → UInt8 × Hash160
  | .standard version hash160 => (version, hash160)
  | .contract version hash160 _ => (version, hash160)

/-- `Display`. Indexing the alphabet panics on a version above 31. -/
def Principal.display (sha256 : Sha256) (p : Principal) : Except Fault String := do
  let addr ← c32EncodeAddress sha256 p.address.1 p.address.2
  match p with
  | .standard _ _ => .ok addr
  | .contract _ _ name => .ok (addr ++ "." ++ name)

/-- `Principal::contract`: an address string and a contract name. -/
def Principal.ofContract (sha256 : Sha256) (addr name : String) : Except Fault Principal := do
  let (version, hash160) ← stacksAddrDecode sha256 addr
  if (asBytes name).length > 128 then
    .error (.err s!"contract name too long: {(asBytes name).length} bytes")
  else if ¬ (asBytes name).all (· < 128) then
    .error (.err ("contract name must be ASCII: " ++ debugString name))
  else
    .ok (.contract version hash160 name)

/-- `Principal::standard`. -/
def Principal.ofStandard (sha256 : Sha256) (addr : String) : Except Fault Principal := do
  let (version, hash160) ← stacksAddrDecode sha256 addr
  .ok (.standard version hash160)

/-- `FromStr`. -/
def Principal.parse (sha256 : Sha256) (s : String) : Except Fault Principal :=
  match splitOnce '.' s.toList with
  | some (addr, name) =>
    Principal.ofContract sha256 (String.ofList addr) (String.ofList name)
  -- no dot: a user's address
  | none => Principal.ofStandard sha256 s

end StacksDex.Model
