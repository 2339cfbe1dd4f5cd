import StacksDex.Model.DlmmPool
import StacksDex.Model.Fetcher
import StacksDex.Model.PrintEvents

/-!
# StacksDex — bootstrapping a DLMM pool, and finding the pools there are

`dlmm/fetcher.rs`, with `dlmm/multicall.rs` and `dlmm/factor.rs`: one read for the pool,
and then its bins, in chunks through a helper contract (`Full`) or with one read a bin
(`FullPerBin`, `Window`). `dlmm/discovery.rs` walks the core's registry, one read an id.

The two ways differ in what a failed read does. In chunks it fails the bootstrap; bin by
bin (and id by id) the source drops it with `ok()`, and the bin or the pool is missing from
what is returned.

The reads that run concurrently return in any order, which is a parameter (`Landing`). What
the node answers is a parameter too, so every statement is about any chain and any failures.
-/

namespace StacksDex.Model

inductive BootstrapMode where
  /-- The bins around the active one. -/
  | window (radius : BitVec 32)
  | full
  | fullPerBin

/-- The order in which reads that run side by side return (`buffer_unordered`). -/
structure Landing (α : Type) where
  order : List α → List α
  perm : ∀ xs, (order xs).Perm xs

/-- What a bootstrap meets on its own side. -/
structure FetchEnv where
  /-- The factor lists fetched before, by bin step. -/
  cached : Nat → Option (List Nat)
  landing : Landing Int
  overflowChecks : Bool

/-- The contract that reads many bins in one call. -/
structure MultiHelper where
  deployer : String
  contract : String

/-- `MultiHelper::default()`. -/
def MultiHelper.default : MultiHelper where
  deployer := "SM1FKXGNZJWSTWDWXQZJNF7B5TV5ZB235JTCXYXKD"
  contract := "dlmm-pool-multi-helper-v-1-1"

def DEFAULT_CHUNK_SIZE : Nat := 100

/-- One bin as the helper returns it. -/
structure RawBinBalance where
  binIdSigned : Int
  x : Nat
  y : Nat
  /-- Not mirrored. -/
  shares : Nat

/-- `slice::chunks`. -/
def chunks {α : Type} (size : Nat) (xs : List α) : List (List α) :=
  if size = 0 ∨ xs = [] then [] else xs.take size :: chunks size (xs.drop size)
termination_by xs.length
decreasing_by
  rename_i h
  have hlength : xs.length ≠ 0 := fun h0 => h (Or.inr (List.length_eq_zero_iff.mp h0))
  have hsize : size ≠ 0 := fun h0 => h (Or.inl h0)
  rw [List.length_drop]
  omega

/-- The chunks, one after the other, are the list: the helper is asked for every bin once. -/
theorem flatten_chunks {α : Type} {size : Nat} (hsize : 0 < size) (xs : List α) :
    (chunks size xs).flatten = xs := by
  fun_induction chunks size xs with
  | case1 xs h =>
    rcases h with h | rfl
    · omega
    · rfl
  | case2 xs h ih => rw [List.flatten_cons, ih, List.take_append_drop]

/-- `lo..=hi`. -/
def idList (lo hi : Int) : List Int :=
  (List.range (hi - lo + 1).toNat).map fun i : Nat => lo + (i : Int)

/-- A range read asks for the ids between its ends, both included. -/
theorem mem_idList {lo hi id : Int} : id ∈ idList lo hi ↔ lo ≤ id ∧ id ≤ hi := by
  rw [idList, List.mem_map]
  constructor
  · rintro ⟨i, hrange, rfl⟩
    have := List.mem_range.mp hrange
    omega
  · rintro ⟨hlo, hhi⟩
    exact ⟨(id - lo).toNat, List.mem_range.mpr (by omega), by omega⟩

/-- The bins a mode reads one by one. -/
def binRange (overflowChecks : Bool) (mode : BootstrapMode) (activeBinId : Int) :
    Except Fault (Int × Int) :=
  match mode with
  | .window radius => do
    -- `radius as i32`
    let r := radius.toInt
    let lo ← i32Sub overflowChecks activeBinId r
    let hi ← i32Add overflowChecks activeBinId r
    .ok (max lo MIN_BIN_ID, min hi MAX_BIN_ID)
  | _ => .ok (MIN_BIN_ID, MAX_BIN_ID)

/-- The filter in front of both `collect`s: a bin is stored if it holds something. -/
def keepBin (bins : Std.ExtTreeMap Int BinState) (id : Int) (x y : Nat) :
    Std.ExtTreeMap Int BinState :=
  if x > 0 ∨ y > 0 then bins.insert id ⟨x, y⟩ else bins

/-- `u32::try_from(..).map_err(..)`. -/
def tryU32 (msg : String) (n : Nat) : Except Fault Nat :=
  if n ≤ u32Max then .ok n else .error (.err msg)

/-- `i32::try_from(..).map_err(..)`. -/
def tryI32 (msg : String) (z : Int) : Except Fault Int :=
  match i32OfI128 z with
  | some z => .ok z
  | none => .error (.err msg)

namespace Rpc

variable (rpc : Rpc)

/-! ## Reading the pool's tuple -/

/-- The `match` on `pool_data`. -/
def poolTuple (poolData : ClarityValue) : Except Fault Fields :=
  match poolData with
  | .tuple t => .ok t
  | other => do .error (.err ("get-pool: expected tuple, got " ++ (← other.debug rpc.sha256)))

/-- `read_uint`. -/
def readUint (t : Fields) (key : String) : Except Fault Nat :=
  match t.get key with
  | some v => v.asUint rpc.sha256
  | none => .error (.err s!"get-pool missing '{key}'")

/-- `read_int`. -/
def readInt (t : Fields) (key : String) : Except Fault Int :=
  match t.get key with
  | some v => v.asInt rpc.sha256
  | none => .error (.err s!"get-pool missing '{key}'")

/-- `read_principal`. -/
def readPrincipal (t : Fields) (key : String) : Except Fault Principal :=
  match t.get key with
  | some (.principal p) => .ok p
  | some other => do
    .error (.err (s!"get-pool '{key}' not a principal: Some(" ++ (← other.debug rpc.sha256) ++ ")"))
  | none => .error (.err s!"get-pool '{key}' not a principal: None")

/-- `t.get(key).and_then(|v| v.as_uint().ok())`. -/
def uintAt (t : Fields) (key : String) : Except Fault (Option Nat) :=
  match t.get key with
  | some v => dropErr (v.asUint rpc.sha256)
  | none => .ok none

/-- `read_fee`: at the top level, or nested in `pool-fees`, or zero. -/
def readFee (t : Fields) (key : String) : Except Fault Nat := do
  match ← rpc.uintAt t key with
  | some fee => .ok (asU32 fee)
  | none =>
    match t.get "pool-fees" with
    | some (.tuple inner) => do .ok (asU32 ((← rpc.uintAt inner key).getD 0))
    | _ => .ok 0

/-- `get_or_fetch`. -/
def getOrFetch (cached : Nat → Option (List Nat)) (core : Principal) (binStep : Nat) :
    Except Fault (List Nat) :=
  match cached binStep with
  | some v => .ok v
  | none => do
    let (deployer, name) ←
      match core with
      | .contract version hash160 name => do
        .ok (← c32EncodeAddress rpc.sha256 version hash160, name)
      | .standard _ _ => .error (.err "core must be a contract principal")
    let result ← rpc.callRead deployer name "get-bin-factors-by-step" [cvUint binStep] none
    let inner ← result.unwrapOk rpc.sha256
    let list ←
      match inner with
      | .optionalSome b => .ok b
      -- some impls flatten the option
      | .list items => .ok (.list items)
      | other => do .error (.err ("expected (some list), got " ++ (← other.debug rpc.sha256)))
    match list with
    | .list items => items.mapM fun item => item.asUint rpc.sha256
    | other => do .error (.err ("expected list, got " ++ (← other.debug rpc.sha256)))

/-! ## The bins, one by one -/

/-- One read of `get-bin-balances`. A balance that is not a uint counts as zero. -/
def readBin (deployer name : String) (tip : Option String) (signed : Int) :
    Except Fault (Nat × Nat) := do
  let answer ← rpc.callRead deployer name "get-bin-balances"
    [cvUint (signed + CENTER_BIN_ID).toNat] tip
  match ← answer.unwrapOk rpc.sha256 with
  | .tuple t => do
    .ok ((← rpc.uintAt t "x-balance").getD 0, (← rpc.uintAt t "y-balance").getD 0)
  | other => do
    .error (.err ("get-bin-balances: expected tuple, got " ++ (← other.debug rpc.sha256)))

/-- The `filter_map` and `collect` over the reads as they return. -/
def collectBins (deployer name : String) (tip : Option String) :
    List Int → Std.ExtTreeMap Int BinState → Except Fault (Std.ExtTreeMap Int BinState)
  | [], bins => .ok bins
  | signed :: rest, bins => do
    match ← dropErr (rpc.readBin deployer name tip signed) with
    | some (x, y) => collectBins deployer name tip rest (keepBin bins signed x y)
    -- `_ => None`: a read that failed is passed like an empty bin
    | none => collectBins deployer name tip rest bins

/-! ## The bins, in chunks -/

/-- `t.get(key).and_then(|v| v.as_uint().ok()).unwrap_or(0)`. -/
def uintOrZero (t : Fields) (key : String) : Except Fault Nat := do
  .ok ((← rpc.uintAt t key).getD 0)

/-- `i32::try_from(unsigned)?` less the center. -/
def signedId (unsigned : Nat) : Except Fault Int :=
  match i32OfU128 unsigned with
  | some z => .ok (z - CENTER_BIN_ID)
  | none => .error (.err s!"bin id out of i32 range: {unsigned}")

/-- One item of the helper's list. -/
def rawBin (unsigned : Nat) (item : ClarityValue) : Except Fault (Option RawBinBalance) := do
  let signed ← signedId unsigned
  match item with
  | .responseOk (.tuple t) => do
    let x ← rpc.uintOrZero t "x-balance"
    let y ← rpc.uintOrZero t "y-balance"
    let shares ← rpc.uintOrZero t "bin-shares"
    .ok (some ⟨signed, x, y, shares⟩)
  -- some helpers return (err uint) for an unset bin
  | .responseErr _ => .ok (some ⟨signed, 0, 0, 0⟩)
  -- logged, and skipped
  | _ => .ok none

/-- The arguments of `get-bin-balances-multi`: the pool once for every id. -/
def multiArgs (poolContract : Principal) (unsignedIds : List Nat) : List (List UInt8) :=
  [cvEncode (.list (unsignedIds.map fun _ => .principal poolContract)),
    cvEncode (.list (unsignedIds.map fun id => .uint (BitVec.ofNat 128 id)))]

/-- `fetch_bin_balances_multi`. -/
def fetchBinBalancesMulti (helper : MultiHelper) (poolContract : Principal)
    (unsignedIds : List Nat) (tip : Option String) : Except Fault (List RawBinBalance) :=
  if unsignedIds = [] then .ok []
  else if unsignedIds.length > 1001 then
    .error (.err s!"multicall: max 1001 ids per call, got {unsignedIds.length}")
  else do
    let result ← rpc.callRead helper.deployer helper.contract "get-bin-balances-multi"
      (multiArgs poolContract unsignedIds) tip
    match ← result.unwrapOk rpc.sha256 with
    | .list items => do
      -- a list of another length is logged, and read as far as there are ids
      .ok (← (items.zip unsignedIds).mapM fun e => rpc.rawBin e.2 e.1).reduceOption
    | other => do
      .error (.err ("multicall: expected list of results, got " ++ (← other.debug rpc.sha256)))

/-- `fetch_bin_balances_chunked`. -/
def fetchBinBalancesChunked (helper : MultiHelper) (poolContract : Principal)
    (unsignedIds : List Nat) (chunkSize : Option Nat) (tip : Option String) :
    Except Fault (List RawBinBalance) :=
  let size := min (chunkSize.getD DEFAULT_CHUNK_SIZE) 1001
  if size = 0 then .error (.err "chunk_size must be > 0")
  else do
    .ok (← (chunks size unsignedIds).mapM fun chunk =>
      rpc.fetchBinBalancesMulti helper poolContract chunk tip).flatten

/-- The `filter` and `collect` over the helper's bins. -/
def collectRaw (raw : List RawBinBalance) : Std.ExtTreeMap Int BinState :=
  raw.foldl (fun bins b => keepBin bins b.binIdSigned b.x b.y) ∅

/-- The bins of a mode. -/
def fetchBins (env : FetchEnv) (poolContract : Principal) (deployer name : String)
    (activeBinId : Int) (mode : BootstrapMode) (tip : Option String) :
    Except Fault (Std.ExtTreeMap Int BinState) :=
  match mode with
  | .full => do
    .ok (collectRaw (← rpc.fetchBinBalancesChunked MultiHelper.default poolContract
      (List.range 1001) none tip))
  | mode => do
    let (lo, hi) ← binRange env.overflowChecks mode activeBinId
    rpc.collectBins deployer name tip (env.landing.order (idList lo hi)) ∅

/-- `fetch_dlmm_pool`. -/
def fetchDlmmPool (env : FetchEnv) (poolContract coreContract : Principal)
    (mode : BootstrapMode) (tip : Option String) : Except Fault DLMMPool := do
  let (deployer, name) ← rpc.principalParts poolContract
  let answer ← rpc.callRead deployer name "get-pool" [] tip
  let p ← rpc.poolTuple (← answer.unwrapOk rpc.sha256)
  let xToken ← rpc.readPrincipal p "x-token"
  let yToken ← rpc.readPrincipal p "y-token"
  let binStep ← tryU32 "bin-step out of u32 range" (← rpc.readUint p "bin-step")
  let initialPrice ← rpc.readUint p "initial-price"
  let activeBinId ← tryI32 "active-bin-id out of i32 range" (← rpc.readInt p "active-bin-id")
  let xProtocolFee ← rpc.readFee p "x-protocol-fee"
  let xProviderFee ← rpc.readFee p "x-provider-fee"
  let yProtocolFee ← rpc.readFee p "y-protocol-fee"
  let yProviderFee ← rpc.readFee p "y-provider-fee"
  let xVariableFee ← rpc.readFee p "x-variable-fee"
  let yVariableFee ← rpc.readFee p "y-variable-fee"
  -- `try_join!`: one that fails ends all three
  let xDecimals ← rpc.decimals xToken
  let yDecimals ← rpc.decimals yToken
  let factors ← rpc.getOrFetch env.cached coreContract binStep
  let bins ← rpc.fetchBins env poolContract deployer name activeBinId mode tip
  .ok
    { poolContract, coreContract, xToken, yToken, xDecimals, yDecimals, binStep, initialPrice,
      activeBinId, xProtocolFee, xProviderFee, yProtocolFee, yProviderFee, xVariableFee,
      yVariableFee, bins
      lastTxId := none
      lastEventAt := none
      factors }

end Rpc

/-! ## Discovery -/

/-- One entry of the core's registry. -/
structure DlmmPoolListing where
  id : Nat
  poolContract : Principal
  name : String
  symbol : String
  /-- False while the pool is paused. -/
  status : Bool
  deriving DecidableEq

namespace Rpc

variable (rpc : Rpc)

/-- `t.get(key)?.as_bool().ok()`. -/
def boolAt (t : Fields) (key : String) : Except Fault (Option Bool) :=
  match t.get key with
  | some v => dropErr (v.asBool rpc.sha256)
  | none => .ok none

/-- `decode_listing`. -/
def decodeListing (cv : ClarityValue) : Except Fault (Option DlmmPoolListing) := do
  let .optionalSome (.tuple fields) := cv | .ok none
  let some id ← rpc.uintAt fields "id" | .ok none
  let some (.principal poolContract) := Fields.get fields "pool-contract" | .ok none
  let some name := Fields.text fields "name" | .ok none
  let some symbol := Fields.text fields "symbol" | .ok none
  let some status ← rpc.boolAt fields "status" | .ok none
  .ok (some { id, poolContract, name, symbol, status })

/-- One lookup of the fan-out: a read that fails looks like an id that is not assigned. -/
def lookupListing (deployer name : String) (tip : Option String) (id : Nat) :
    Except Fault (Option DlmmPoolListing) := do
  let some answer ← dropErr (rpc.callRead deployer name "get-pool-by-id" [cvUint id] tip)
    | .ok none
  let some res ← dropErr (answer.unwrapOk rpc.sha256) | .ok none
  rpc.decodeListing res

/-- `discover_dlmm_pools`; `landing` is the order in which the lookups return. -/
def discoverDlmmPools (landing : Landing Nat) (coreContract : Principal)
    (tip : Option String) : Except Fault (List DlmmPoolListing) := do
  let (deployer, name) ← rpc.principalParts coreContract
  let answer ← rpc.callRead deployer name "get-last-pool-id" [] tip
  let lastId ← (← answer.unwrapOk rpc.sha256).asUint rpc.sha256
  if lastId = 0 then .ok []
  else do
    let listings ← (landing.order ((List.range lastId).map (· + 1))).mapM
      (rpc.lookupListing deployer name tip)
    .ok (listings.reduceOption.mergeSort fun a b => decide (a.id ≤ b.id))

end Rpc

end StacksDex.Model
