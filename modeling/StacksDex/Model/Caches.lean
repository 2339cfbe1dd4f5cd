import StacksDex.Lib.Memo
import StacksDex.Model.DlmmFetcher

/-!
# StacksDex — the two caches

`dlmm/factor.rs` keeps the price factors of every `bin_step` for the whole process, and
`token_info.rs` the decimals of every token. Both look first, ask the chain if there is nothing,
and put the answer in; between the look and the answer other tasks do the same.

What the two share is `Lib/Memo.lean`, whose steps are the look-up and the answer of one
call; a run is any interleaving of them. `DecimalsStep.decode` and `FactorStep.decode` say
what a step of each cache is there. The keys differ in kind: the token's printed name, which
need not print at all, and the bin step alone, without the contract that was asked.
-/

namespace StacksDex.Model

open StacksDex.Lib

/-! ## Token decimals -/

namespace Rpc

variable (rpc : Rpc)

/-- `StacksTokenInfo::decimals`, past the cache. -/
def getDecimals (token : Principal) : Except Fault Nat := do
  let (deployer, name) ←
    match token with
    | .contract version hash160 name => do
      .ok (← c32EncodeAddress rpc.sha256 version hash160, name)
    | .standard _ _ => do
      .error (.err ("expected SIP-010 contract principal, got " ++ (← token.display rpc.sha256)))
  let result ← rpc.callRead deployer name "get-decimals" [] none
  let inner ← result.unwrapOk rpc.sha256
  match inner with
  | .uint n =>
    if n.toNat ≤ 255 then .ok n.toNat
    else .error (.err s!"decimals value {n.toNat} out of u8 range")
  | other => do
    .error (.err ("expected uint from get-decimals, got " ++ (← other.debug rpc.sha256)))

/-- `StacksTokenInfo::decimals`. -/
def tokenDecimals (cached : Except Fault String → Option Nat) (token : Principal) :
    Except Fault Nat := do
  -- the key is the token's text
  let key ← token.display rpc.sha256
  match cached (.ok key) with
  | some d => .ok d
  | none => rpc.getDecimals token

/-- `get_or_fetch`, past the cache. -/
def fetchFactors (core : Principal) (binStep : Nat) : Except Fault (List Nat) :=
  rpc.getOrFetch (fun _ => none) core binStep

end Rpc

/-- The decimals cache, and the calls in progress. -/
abbrev DecimalsCalls (ι : Type) := Memo.State ι Principal (Except Fault String) Nat

inductive DecimalsStep (ι : Type) where
  /-- A call of `decimals`, up to its request. -/
  | call (i : ι) (token : Principal)
  /-- The request is answered, and the call returns. -/
  | answer (i : ι) (rpc : Rpc)
  /-- `insert`. -/
  | insert (token : Principal) (decimals : Nat)

/-- What a call does to the cache. A token without a text panics the call. -/
def DecimalsStep.decode {ι : Type} (sha256 : Sha256) (s : DecimalsCalls ι) :
    DecimalsStep ι → Option (Memo.Step ι Principal (Except Fault String) Nat)
  | .call i token =>
    match token.display sha256 with
    | .ok _ => some (.ask i token)
    | .error _ => none
  | .answer i rpc => (s.waiting i).map fun token => .land i (rpc.getDecimals token).toOption
  | .insert token decimals =>
    match token.display sha256 with
    | .ok key => some (.insert (.ok key) decimals)
    | .error _ => none

/-! ## Price factors -/

/-- The factors in `GLOBAL`, and the calls of `get_or_fetch` in progress. The cache knows a
list by its `bin_step` only. -/
abbrev FactorCalls (ι : Type) := Memo.State ι (Principal × Nat) Nat (List Nat)

inductive FactorStep (ι : Type) where
  /-- A call of `get_or_fetch`, up to its request. -/
  | call (i : ι) (core : Principal) (binStep : Nat)
  /-- The request is answered, and the call returns. -/
  | answer (i : ι) (rpc : Rpc)
  /-- `insert`. -/
  | insert (binStep : Nat) (factors : List Nat)

/-- What a call does to the cache. -/
def FactorStep.decode {ι : Type} (s : FactorCalls ι) :
    FactorStep ι → Option (Memo.Step ι (Principal × Nat) Nat (List Nat))
  | .call i core binStep => some (.ask i (core, binStep))
  | .answer i rpc =>
    (s.waiting i).map fun q => .land i (rpc.fetchFactors q.1 q.2).toOption
  | .insert binStep factors => some (.insert binStep factors)

end StacksDex.Model
