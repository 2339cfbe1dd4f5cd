import StacksDex.Model.DlmmFetcher
import Mathlib.Data.List.ReduceOption

/-!
# StacksDex — what the bulk reads see of the chain

A node answers some of the reads and fails others (`readOk`); what it answers is what
the chain holds (`Truthful`). The two ways to collect bins come to one thing: for every bin
id asked for, the balances the answer shows, and nothing where there was none.

## Main results

* `collectBins_shows`: with one read a bin, the bins that are shown are those whose read was
  answered;
* `collectRaw_shows`: in chunks, those whose item is no error;
* `fetchBins_shows`: the two together, for the bins a mode asks for;
* `mem_discovered`: the walk over the registry returns the listings whose reads were
  answered, in the order of their ids.

Nothing is assumed about the order in which concurrent reads return (`Landing`), nor about
which of them fail.
-/

namespace StacksDex.Bridge

open StacksDex.Lib StacksDex.Model

/-- What a core contract and one of its pools hold at a tip. -/
structure DlmmChain where
  activeBinId : Int
  /-- By signed bin id. -/
  bins : Int → Nat × Nat
  lastId : Nat
  registered : Nat → Option DlmmPoolListing
  registered_id : ∀ {id : Nat} {l : DlmmPoolListing}, registered id = some l → l.id = id

/-- A read of one of a contract's functions; an answer `(err …)` counts as a failure. -/
def readOk (rpc : Rpc) (contract : Principal) (function : String) (args : List (List UInt8))
    (tip : Option String) : Except Fault ClarityValue := do
  let (deployer, name) ← rpc.principalParts contract
  let answer ← rpc.callRead deployer name function args tip
  answer.unwrapOk rpc.sha256

/-- The same read of the helper: the bins of several ids. -/
def readMulti (rpc : Rpc) (poolContract : Principal) (unsignedIds : List Nat)
    (tip : Option String) : Except Fault ClarityValue := do
  let answer ← rpc.callRead MultiHelper.default.deployer MultiHelper.default.contract
    "get-bin-balances-multi" (Rpc.multiArgs poolContract unsignedIds) tip
  answer.unwrapOk rpc.sha256

/-! ## Truthful answers -/

/-- A tuple with a bin's balances. -/
def BalancesOf (b : Nat × Nat) (v : ClarityValue) : Prop :=
  ∃ t : Fields, v = .tuple t ∧ t.uint "x-balance" = some b.1 ∧ t.uint "y-balance" = some b.2

/-- What the helper answers for one bin: its balances, or an error. -/
def ItemOf (b : Nat × Nat) (item : ClarityValue) : Prop :=
  (∃ v, item = .responseOk v ∧ BalancesOf b v) ∨ ∃ e, item = .responseErr e

/-- What the registry answers for one id. -/
def ListingOf : Option DlmmPoolListing → ClarityValue → Prop
  | none, v => v = .optionalNone
  | some l, v => ∃ t : Fields, v = .optionalSome (.tuple t) ∧ t.uint "id" = some l.id ∧
      t.principal "pool-contract" = some l.poolContract ∧ t.text "name" = some l.name ∧
      t.text "symbol" = some l.symbol ∧ t.get "status" = some (.bool l.status)

/-- Every read that succeeds returns what the chain holds. -/
structure Truthful (rpc : Rpc) (chain : DlmmChain) (poolContract coreContract : Principal)
    (tip : Option String) : Prop where
  pool : ∀ v, readOk rpc poolContract "get-pool" [] tip = .ok v →
    ∃ (t : Fields) (a : BitVec 128), v = .tuple t ∧ t.get "active-bin-id" = some (.int a) ∧
      a.toInt = chain.activeBinId
  bin : ∀ id v, MIN_BIN_ID ≤ id → id ≤ MAX_BIN_ID →
    readOk rpc poolContract "get-bin-balances" [cvUint (id + CENTER_BIN_ID).toNat] tip = .ok v →
    BalancesOf (chain.bins id) v
  multi : ∀ (ids : List Nat) v, (∀ u ∈ ids, u < 1001) →
    readMulti rpc poolContract ids tip = .ok v →
    ∃ items, v = .list items ∧
      List.Forall₂ (fun (u : Nat) item => ItemOf (chain.bins (u - CENTER_BIN_ID)) item) ids items
  lastId : ∀ v, readOk rpc coreContract "get-last-pool-id" [] tip = .ok v →
    ∃ n : BitVec 128, v = .uint n ∧ n.toNat = chain.lastId
  listing : ∀ id v, 1 ≤ id → id ≤ chain.lastId →
    readOk rpc coreContract "get-pool-by-id" [cvUint id] tip = .ok v →
    ListingOf (chain.registered id) v

/-! ## Storing the bins -/

/-- The balances a bin map shows for an id; absence means none. -/
def valueAt (bins : Std.ExtTreeMap Int BinState) (id : Int) : Nat × Nat :=
  match bins[id]? with
  | some b => (b.x, b.y)
  | none => (0, 0)

/-- A map without bins shows nothing anywhere. -/
@[simp] theorem valueAt_empty (id : Int) : valueAt ∅ id = (0, 0) := by
  rw [valueAt, Std.ExtTreeMap.getElem?_empty]

/-- Storing one bin does not change what is shown for another id. -/
theorem valueAt_keepBin_of_ne {bins : Std.ExtTreeMap Int BinState} {id j : Int} (h : id ≠ j)
    (x y : Nat) : valueAt (keepBin bins id x y) j = valueAt bins j := by
  unfold keepBin
  split
  · rw [valueAt, valueAt, Std.ExtTreeMap.getElem?_insert, if_neg (by simpa using h)]
  · rfl

/-- An empty bin is not stored, so a bin seen for the first time shows what was stored. -/
theorem valueAt_keepBin_self {bins : Std.ExtTreeMap Int BinState} {id : Int}
    (h : valueAt bins id = (0, 0)) (x y : Nat) : valueAt (keepBin bins id x y) id = (x, y) := by
  unfold keepBin
  split
  · rw [valueAt, Std.ExtTreeMap.getElem?_insert, if_pos (by simp)]
  · rename_i hempty
    have hx : x = 0 := by omega
    have hy : y = 0 := by omega
    rw [h, hx, hy]

/-- Every bin of the map holds something. -/
def HoldsSomething (bins : Std.ExtTreeMap Int BinState) : Prop :=
  ∀ (id : Int) (b : BinState), bins[id]? = some b → b.x > 0 ∨ b.y > 0

/-- There is no bin that could be empty. -/
theorem holdsSomething_empty : HoldsSomething ∅ := by
  intro id b h
  rw [Std.ExtTreeMap.getElem?_empty] at h
  cases h

/-- `keepBin` stores a bin only where it holds something. -/
theorem holdsSomething_keepBin {bins : Std.ExtTreeMap Int BinState} (h : HoldsSomething bins)
    (id : Int) (x y : Nat) : HoldsSomething (keepBin bins id x y) := by
  unfold keepBin
  split
  · rename_i hpos
    intro id' b hb
    rw [Std.ExtTreeMap.getElem?_insert] at hb
    split at hb
    · obtain rfl := Option.some.inj hb
      exact hpos
    · exact h id' b hb
  · exact h

section Fold

variable {α : Type} (key : α → Int) (value : α → Nat × Nat)

/-- Storing one bin after the other. -/
def storeAll (entries : List α) (bins : Std.ExtTreeMap Int BinState) :
    Std.ExtTreeMap Int BinState :=
  entries.foldl (fun bins e => keepBin bins (key e) (value e).1 (value e).2) bins

variable {key} {value}

/-- Storing any number of bins, in any order, adds no empty one. -/
theorem holdsSomething_storeAll (entries : List α) {bins : Std.ExtTreeMap Int BinState}
    (h : HoldsSomething bins) : HoldsSomething (storeAll key value entries bins) := by
  induction entries generalizing bins with
  | nil => exact h
  | cons e rest ih =>
    have hfirst := holdsSomething_keepBin h (key e) (value e).1 (value e).2
    exact ih hfirst

/-- An id that none of the entries is for shows what it showed before. -/
theorem valueAt_storeAll_of_not_mem {entries : List α} {j : Int} (h : j ∉ entries.map key)
    (bins : Std.ExtTreeMap Int BinState) :
    valueAt (storeAll key value entries bins) j = valueAt bins j := by
  induction entries generalizing bins with
  | nil => rfl
  | cons e rest ih =>
    rw [List.map_cons, List.mem_cons, not_or] at h
    exact (ih h.2 _).trans (valueAt_keepBin_of_ne (Ne.symm h.1) ..)

/-- With no id twice, every entry is what the map shows for its id. -/
theorem valueAt_storeAll_of_mem {entries : List α} (hnodup : (entries.map key).Nodup)
    {bins : Std.ExtTreeMap Int BinState} (hbins : ∀ e ∈ entries, valueAt bins (key e) = (0, 0))
    {e : α} (he : e ∈ entries) : valueAt (storeAll key value entries bins) (key e) = value e := by
  induction entries generalizing bins with
  | nil => cases he
  | cons first rest ih =>
    rw [List.map_cons, List.nodup_cons] at hnodup
    have hfirst := valueAt_keepBin_self (hbins first (List.mem_cons_self ..)) (value first).1
      (value first).2
    rcases List.mem_cons.mp he with rfl | hrest
    · exact (valueAt_storeAll_of_not_mem hnodup.1 _).trans hfirst
    · refine ih hnodup.2 (fun e' he' => ?_) hrest
      have hne : key first ≠ key e' := fun h => hnodup.1 (h ▸ List.mem_map_of_mem he')
      rw [valueAt_keepBin_of_ne hne]
      exact hbins e' (List.mem_cons_of_mem _ he')

end Fold

section Reads

variable {rpc : Rpc} {chain : DlmmChain} {poolContract coreContract : Principal}
variable {tip : Option String} {deployer name : String}

/-- A read under the contract's two names, once they are known. -/
theorem readOk_eq {contract : Principal} (h : rpc.principalParts contract = .ok (deployer, name))
    (function : String) (args : List (List UInt8)) :
    readOk rpc contract function args tip =
      (rpc.callRead deployer name function args tip >>= fun answer =>
        answer.unwrapOk rpc.sha256) := by
  rw [readOk, h, ok_bind]

/-- A field that is an unsigned integer is read as that number. -/
theorem uintAt_tuple {t : Fields} {key : String} {n : Nat} (h : t.uint key = some n) :
    rpc.uintAt t key = .ok (some n) := by
  unfold Fields.uint at h
  split at h
  · rename_i b hget
    rw [Rpc.uintAt, hget]
    exact congrArg (fun m => Except.ok (some m)) (Option.some.inj h)
  · cases h

/-! ## One read a bin -/

/-- The balances a bin counts with: none if its read failed. -/
def seen (rpc : Rpc) (deployer name : String) (tip : Option String) (id : Int) : Nat × Nat :=
  match rpc.readBin deployer name tip id with
  | .ok b => b
  | .error _ => (0, 0)

/-- A failed read leaves the map as a read of an empty bin does. -/
theorem collectBins_eq {ids : List Int} {bins out : Std.ExtTreeMap Int BinState}
    (h : rpc.collectBins deployer name tip ids bins = .ok out) :
    out = storeAll (fun signed => signed) (seen rpc deployer name tip) ids bins := by
  induction ids generalizing bins with
  | nil =>
    cases h
    rfl
  | cons signed rest ih =>
    obtain ⟨r, hread, h⟩ := bind_eq_ok.mp h
    match hbin : rpc.readBin deployer name tip signed with
    | .ok (x, y) =>
      rw [hbin] at hread
      cases hread
      have hseen : seen rpc deployer name tip signed = (x, y) := by rw [seen, hbin]
      rw [ih h, storeAll, storeAll, List.foldl_cons, hseen]
    -- a read that fails leaves no entry, and so does an empty bin
    | .error (.err msg) =>
      rw [hbin] at hread
      cases hread
      have hseen : seen rpc deployer name tip signed = (0, 0) := by rw [seen, hbin]
      rw [ih h, storeAll, storeAll, List.foldl_cons, hseen]
      rfl
    -- a panic leaves no map
    | .error (.panic msg) =>
      rw [hbin] at hread
      cases hread

/-- A read that is answered shows the chain's balances. -/
theorem seen_of_read (htrue : Truthful rpc chain poolContract coreContract tip)
    (hparts : rpc.principalParts poolContract = .ok (deployer, name)) {id : Int}
    (hlo : MIN_BIN_ID ≤ id) (hhi : id ≤ MAX_BIN_ID) {v : ClarityValue}
    (hread : readOk rpc poolContract "get-bin-balances"
      [cvUint (id + CENTER_BIN_ID).toNat] tip = .ok v) :
    seen rpc deployer name tip id = chain.bins id := by
  obtain ⟨t, rfl, hx, hy⟩ := htrue.bin id v hlo hhi hread
  rw [readOk_eq hparts] at hread
  obtain ⟨answer, hcall, hunwrap⟩ := bind_eq_ok.mp hread
  have hbin : rpc.readBin deployer name tip id = .ok (chain.bins id) := by
    rw [Rpc.readBin, hcall, ok_bind, hunwrap, ok_bind]
    show (rpc.uintAt t "x-balance" >>= _) = _
    rw [uintAt_tuple hx, ok_bind, uintAt_tuple hy]
    rfl
  rw [seen, hbin]

/-- A read that is not answered shows nothing, just like an empty bin. -/
theorem seen_of_not_read (hparts : rpc.principalParts poolContract = .ok (deployer, name))
    {id : Int} (hread : ∀ v, readOk rpc poolContract "get-bin-balances"
      [cvUint (id + CENTER_BIN_ID).toNat] tip ≠ .ok v) :
    seen rpc deployer name tip id = (0, 0) := by
  unfold seen
  split
  · rename_i b hbin
    obtain ⟨answer, hcall, h⟩ := bind_eq_ok.mp hbin
    obtain ⟨v, hunwrap, -⟩ := bind_eq_ok.mp h
    refine absurd ?_ (hread v)
    rw [readOk_eq hparts, hcall, ok_bind, hunwrap]
  · rfl

/-! ## The helper's answers -/

/-- What a helper's item leaves in the list: the bin's balances, or an entry of zeros. -/
def Shows (chain : DlmmChain) (e : Nat × ClarityValue) (r : RawBinBalance) : Prop :=
  r.binIdSigned = e.1 - CENTER_BIN_ID ∧
    ((∃ v, e.2 = .responseOk v ∧ (r.x, r.y) = chain.bins (e.1 - CENTER_BIN_ID)) ∨
      (∃ v, e.2 = .responseErr v ∧ (r.x, r.y) = (0, 0)))

/-- One item of a chunk: it becomes an entry, which shows the balances if the item is no error
and zeros if it is. -/
theorem rawBin_shows {u : Nat} (hu : u < 1001) {item : ClarityValue}
    (hitem : ItemOf (chain.bins (u - CENTER_BIN_ID)) item) {r : Option RawBinBalance}
    (h : rpc.rawBin u item = .ok r) : ∃ b, r = some b ∧ Shows chain (u, item) b := by
  have hid : Rpc.signedId u = .ok (u - CENTER_BIN_ID) := by
    rw [Rpc.signedId, i32OfU128, if_pos (by unfold i32Max; omega)]
  rw [Rpc.rawBin, hid, ok_bind] at h
  -- the item is a bin's tuple, or an error, which is pushed as zeros
  rcases hitem with ⟨v, rfl, t, rfl, hx, hy⟩ | ⟨e, rfl⟩
  · obtain ⟨x, hx', h⟩ := bind_eq_ok.mp h
    obtain ⟨y, hy', h⟩ := bind_eq_ok.mp h
    obtain ⟨shares, -, h⟩ := bind_eq_ok.mp h
    rw [Rpc.uintOrZero, uintAt_tuple hx] at hx'
    rw [Rpc.uintOrZero, uintAt_tuple hy] at hy'
    cases hx'
    cases hy'
    cases h
    exact ⟨_, rfl, rfl, Or.inl ⟨_, rfl, rfl⟩⟩
  · cases h
    exact ⟨_, rfl, rfl, Or.inr ⟨e, rfl, rfl⟩⟩

/-- A chunk's items, in step with the ids it was asked for. -/
theorem rawBins_show {ids : List Nat} {items : List ClarityValue}
    (hitems : List.Forall₂ (fun (u : Nat) item => ItemOf (chain.bins (u - CENTER_BIN_ID)) item)
      ids items) (hids : ∀ u ∈ ids, u < 1001) {rs : List (Option RawBinBalance)}
    (h : (items.zip ids).mapM (fun e => rpc.rawBin e.2 e.1) = .ok rs) :
    List.Forall₂ (Shows chain) (ids.zip items) rs.reduceOption := by
  induction hitems generalizing rs with
  | nil =>
    cases h
    exact .nil
  | @cons u item ids items hitem _ ih =>
    rw [List.zip_cons_cons, List.mapM_cons] at h
    obtain ⟨r, hr, h⟩ := bind_eq_ok.mp h
    obtain ⟨rest, hrest, h⟩ := bind_eq_ok.mp h
    cases h
    obtain ⟨b, rfl, hb⟩ := rawBin_shows (hids u (List.mem_cons_self ..)) hitem hr
    rw [List.zip_cons_cons, List.reduceOption_cons_of_some]
    exact .cons hb (ih (fun v hv => hids v (List.mem_cons_of_mem _ hv)) hrest)

/-- A chunk the helper answered: one entry an id. -/
theorem fetchBinBalancesMulti_shows (htrue : Truthful rpc chain poolContract coreContract tip)
    {ids : List Nat} (hids : ∀ u ∈ ids, u < 1001) (hne : ids ≠ []) {raw : List RawBinBalance}
    (h : rpc.fetchBinBalancesMulti MultiHelper.default poolContract ids tip = .ok raw) :
    ∃ items, readMulti rpc poolContract ids tip = .ok (.list items) ∧
      ids.length = items.length ∧ List.Forall₂ (Shows chain) (ids.zip items) raw := by
  unfold Rpc.fetchBinBalancesMulti at h
  rw [if_neg hne] at h
  split at h
  · cases h
  · obtain ⟨answer, hcall, h⟩ := bind_eq_ok.mp h
    obtain ⟨v, hunwrap, h⟩ := bind_eq_ok.mp h
    have hread : readMulti rpc poolContract ids tip = .ok v := by
      rw [readMulti, hcall, ok_bind, hunwrap]
    obtain ⟨items, rfl, hitems⟩ := htrue.multi ids v hids hread
    obtain ⟨rs, hrs, h⟩ := bind_eq_ok.mp h
    cases h
    exact ⟨items, hread, hitems.length_eq, rawBins_show hitems hids hrs⟩

/-- The helper's answer for an id, in the chunk that asked for it. -/
def Answer (rpc : Rpc) (poolContract : Principal) (tip : Option String) (u : Nat)
    (item : ClarityValue) : Prop :=
  ∃ chunk ∈ chunks DEFAULT_CHUNK_SIZE (List.range 1001), ∃ items,
    readMulti rpc poolContract chunk tip = .ok (.list items) ∧ (u, item) ∈ chunk.zip items

/-- What holds of every chunk's entries holds of the entries of all chunks, joined in order. -/
theorem map_flatten_of_mapM {α β γ : Type} {f : List α → Except Fault (List β)} {g : β → γ}
    {k : α → γ} {xss : List (List α)} {yss : List (List β)} (h : xss.mapM f = .ok yss)
    (hf : ∀ xs ∈ xss, ∀ ys, f xs = .ok ys → ys.map g = xs.map k) :
    yss.flatten.map g = xss.flatten.map k := by
  have hrel := forall₂_of_mapM h
  clear h
  induction hrel with
  | nil => rfl
  | @cons xs ys _ _ hys _ ih =>
    rw [List.flatten_cons, List.flatten_cons, List.map_append, List.map_append,
      hf xs (List.mem_cons_self ..) ys hys,
      ih fun xs' hxs' => hf xs' (List.mem_cons_of_mem _ hxs')]

/-- The entries carry the signed ids of the bins that were asked for, in order. -/
theorem ids_of_shows {es : List (Nat × ClarityValue)} {raw : List RawBinBalance}
    (h : List.Forall₂ (Shows chain) es raw) :
    raw.map RawBinBalance.binIdSigned =
      (es.map Prod.fst).map fun u : Nat => (u : Int) - CENTER_BIN_ID := by
  induction h with
  | nil => rfl
  | cons hr _ ih => rw [List.map_cons, List.map_cons, List.map_cons, ih, hr.1]

/-- The source never asks the helper for a chunk of nothing. -/
theorem ne_nil_of_mem_chunks {α : Type} {size : Nat} {xs chunk : List α} (hsize : 0 < size)
    (h : chunk ∈ chunks size xs) : chunk ≠ [] := by
  fun_induction chunks size xs with
  | case1 => cases h
  | case2 xs hne ih =>
    rcases List.mem_cons.mp h with rfl | hrest
    · rw [Ne, List.take_eq_nil_iff]
      rintro (h0 | h0)
      · omega
      · exact hne (Or.inr h0)
    · exact ih hrest

/-- The entries of the whole fetch: one an id, from the helper's answer for it. -/
theorem fetchBinBalancesChunked_shows
    (htrue : Truthful rpc chain poolContract coreContract tip) {raw : List RawBinBalance}
    (h : rpc.fetchBinBalancesChunked MultiHelper.default poolContract (List.range 1001) none tip =
      .ok raw) :
    raw.map RawBinBalance.binIdSigned =
        (List.range 1001).map (fun u : Nat => (u : Int) - CENTER_BIN_ID) ∧
      (∀ u < 1001, ∃ item, Answer rpc poolContract tip u item) ∧
      ∀ u item, Answer rpc poolContract tip u item → ∃ r ∈ raw, Shows chain (u, item) r := by
  obtain ⟨raws, hraws, h⟩ := bind_eq_ok.mp h
  cases h
  have hflatten : (chunks DEFAULT_CHUNK_SIZE (List.range 1001)).flatten = List.range 1001 :=
    flatten_chunks (by decide) _
  -- every id of a chunk is one of those asked for, so each chunk shows what it should
  have hchunks : ∀ chunk ∈ chunks DEFAULT_CHUNK_SIZE (List.range 1001), ∀ rawc,
      rpc.fetchBinBalancesMulti MultiHelper.default poolContract chunk tip = .ok rawc →
      ∃ items, readMulti rpc poolContract chunk tip = .ok (.list items) ∧
        chunk.length = items.length ∧ List.Forall₂ (Shows chain) (chunk.zip items) rawc := by
    intro chunk hchunk rawc hfetch
    refine fetchBinBalancesMulti_shows htrue (fun u hu => ?_)
      (ne_nil_of_mem_chunks (by decide) hchunk) hfetch
    have hmem := List.mem_flatten_of_mem hchunk hu
    rw [hflatten] at hmem
    exact List.mem_range.mp hmem
  refine ⟨?_, ?_, ?_⟩
  -- the ids, chunk after chunk, are those of the list
  · rw [← hflatten]
    refine map_flatten_of_mapM hraws fun chunk hchunk rawc hfetch => ?_
    obtain ⟨items, -, hlength, hshows⟩ := hchunks chunk hchunk rawc hfetch
    rw [ids_of_shows hshows, List.map_fst_zip (Nat.le_of_eq hlength)]
  -- every id lies in some chunk, and the item beside it is its answer
  · intro u hu
    have hmem := List.mem_range.mpr hu
    rw [← hflatten] at hmem
    obtain ⟨chunk, hchunk, huchunk⟩ := List.mem_flatten.mp hmem
    obtain ⟨rawc, -, hfetch⟩ := exists_of_mem_mapM hraws hchunk
    obtain ⟨items, hread, hlength, -⟩ := hchunks chunk hchunk rawc hfetch
    rw [← List.map_fst_zip (Nat.le_of_eq hlength)] at huchunk
    obtain ⟨e, he, rfl⟩ := List.mem_map.mp huchunk
    exact ⟨e.2, chunk, hchunk, items, hread, he⟩
  -- and an answer to it is the item of that chunk, which shows it
  · rintro u item ⟨chunk, hchunk, items, hread, hmem⟩
    obtain ⟨rawc, hrawc, hfetch⟩ := exists_of_mem_mapM hraws hchunk
    obtain ⟨items', hread', -, hshows⟩ := hchunks chunk hchunk rawc hfetch
    have hitems : ClarityValue.list items = .list items' :=
      Except.ok.inj (hread.symm.trans hread')
    cases hitems
    obtain ⟨r, hr, hs⟩ := exists_of_mem_forall₂ hshows hmem
    exact ⟨r, List.mem_flatten_of_mem hrawc hr, hs⟩

/-- The ids of the whole range are different. -/
theorem nodup_signed : ((List.range 1001).map fun u : Nat => (u : Int) - CENTER_BIN_ID).Nodup :=
  List.Nodup.map (fun _ _ h => by simpa using h) List.nodup_range

/-- The ids between two bounds are different. -/
theorem nodup_idList (lo hi : Int) : (idList lo hi).Nodup :=
  List.Nodup.map (fun _ _ h => by simpa using h) List.nodup_range

/-! ## The bins a bootstrap asks for -/

/-- The bins a mode stands for. -/
def InMode (mode : BootstrapMode) (activeBinId id : Int) : Prop :=
  MIN_BIN_ID ≤ id ∧ id ≤ MAX_BIN_ID ∧
    match mode with
    | .window radius => (id - activeBinId).natAbs ≤ radius.toNat
    | _ => True

/-- The id lies in the range that is read bin by bin. -/
def InBinRange (overflowChecks : Bool) (mode : BootstrapMode) (activeBinId id : Int) : Prop :=
  ∃ lo hi, binRange overflowChecks mode activeBinId = .ok (lo, hi) ∧ lo ≤ id ∧ id ≤ hi

/-- The node answered for the bin: in the helper's list, or in a read of its own. -/
def Answered (rpc : Rpc) (overflowChecks : Bool) (poolContract : Principal)
    (mode : BootstrapMode) (tip : Option String) (activeBinId id : Int) : Prop :=
  match mode with
  | .full => ∃ (u : Nat) (v : ClarityValue), id = u - CENTER_BIN_ID ∧
      Answer rpc poolContract tip u (.responseOk v)
  | mode => InBinRange overflowChecks mode activeBinId id ∧
      ∃ v, readOk rpc poolContract "get-bin-balances"
        [cvUint (id + CENTER_BIN_ID).toNat] tip = .ok v

/-- With a radius that is an `i32`, and no overflow around the active bin, the ids read are
the ids of the window. -/
theorem inBinRange_window {overflowChecks : Bool} {radius : BitVec 32} {activeBinId : Int}
    (hradius : radius.toNat < 2 ^ 31) (hlo : -2 ^ 31 ≤ activeBinId - radius.toNat)
    (hhi : activeBinId + radius.toNat ≤ i32Max) {id : Int} :
    InBinRange overflowChecks (.window radius) activeBinId id ↔
      InMode (.window radius) activeBinId id := by
  -- a radius below half the range is itself as an `i32`, and nothing overflows
  have htoInt : radius.toInt = radius.toNat := BitVec.toInt_eq_toNat_of_lt (by omega)
  have hrange : binRange overflowChecks (.window radius) activeBinId =
      .ok (max (activeBinId - radius.toNat) MIN_BIN_ID,
        min (activeBinId + radius.toNat) MAX_BIN_ID) := by
    unfold i32Max at hhi
    simp only [binRange, htoInt]
    rw [i32Sub, if_pos ⟨hlo, by unfold i32Max; omega⟩, ok_bind, i32Add,
      if_pos ⟨by omega, by unfold i32Max; omega⟩, ok_bind]
  unfold InBinRange InMode
  rw [hrange]
  constructor
  · rintro ⟨lo, hi, hok, hge, hle⟩
    cases hok
    exact ⟨by omega, by omega, by omega⟩
  · rintro ⟨hmin, hmax, habs⟩
    exact ⟨_, _, rfl, by omega, by omega⟩

/-- Bin by bin: the map shows the chain's balances where there is nothing to show, or where
the id was read and its read was answered. -/
theorem collectBins_shows (htrue : Truthful rpc chain poolContract coreContract tip)
    (hparts : rpc.principalParts poolContract = .ok (deployer, name)) (landing : Landing Int)
    {lo hi : Int} {bins : Std.ExtTreeMap Int BinState}
    (h : rpc.collectBins deployer name tip (landing.order (idList lo hi)) ∅ = .ok bins)
    {id : Int} (hmin : MIN_BIN_ID ≤ id) (hmax : id ≤ MAX_BIN_ID) :
    valueAt bins id = chain.bins id ↔ chain.bins id = (0, 0) ∨
      (lo ≤ id ∧ id ≤ hi) ∧ ∃ v, readOk rpc poolContract "get-bin-balances"
        [cvUint (id + CENTER_BIN_ID).toNat] tip = .ok v := by
  have hperm := landing.perm (idList lo hi)
  have hnodup : ((landing.order (idList lo hi)).map fun id => id).Nodup := by
    rw [List.map_id']
    exact hperm.nodup_iff.mpr (nodup_idList lo hi)
  cases collectBins_eq h
  -- in the range the read decides, and outside of it the map has nothing
  by_cases hin : lo ≤ id ∧ id ≤ hi
  · have hmem : id ∈ landing.order (idList lo hi) := hperm.mem_iff.mpr (mem_idList.mpr hin)
    rw [valueAt_storeAll_of_mem hnodup (fun _ _ => valueAt_empty _) hmem]
    by_cases hread : ∃ v, readOk rpc poolContract "get-bin-balances"
        [cvUint (id + CENTER_BIN_ID).toNat] tip = .ok v
    · obtain ⟨v, hv⟩ := hread
      exact iff_of_true (seen_of_read htrue hparts hmin hmax hv) (Or.inr ⟨hin, v, hv⟩)
    · rw [seen_of_not_read hparts (not_exists.mp hread)]
      exact ⟨fun h0 => Or.inl h0.symm, fun h0 => (h0.resolve_right fun h' => hread h'.2).symm⟩
  · have hnot : id ∉ (landing.order (idList lo hi)).map fun id => id := by
      rw [List.map_id', hperm.mem_iff, mem_idList]
      exact hin
    rw [valueAt_storeAll_of_not_mem hnot, valueAt_empty]
    exact ⟨fun h0 => Or.inl h0.symm, fun h0 => (h0.resolve_right fun h' => hin h'.1).symm⟩

/-- In chunks: likewise for the items that are not errors. -/
theorem collectRaw_shows (htrue : Truthful rpc chain poolContract coreContract tip)
    {raw : List RawBinBalance}
    (h : rpc.fetchBinBalancesChunked MultiHelper.default poolContract (List.range 1001) none tip =
      .ok raw) {id : Int} (hmin : MIN_BIN_ID ≤ id) (hmax : id ≤ MAX_BIN_ID) :
    valueAt (Rpc.collectRaw raw) id = chain.bins id ↔ chain.bins id = (0, 0) ∨
      ∃ (u : Nat) (v : ClarityValue), id = u - CENTER_BIN_ID ∧
        Answer rpc poolContract tip u (.responseOk v) := by
  obtain ⟨hids, hsome, hshows⟩ := fetchBinBalancesChunked_shows htrue h
  have hnodup : (raw.map RawBinBalance.binIdSigned).Nodup := by
    rw [hids]
    exact nodup_signed
  -- what the map shows is the entry of the id
  have hvalue : ∀ {u : Nat} {item : ClarityValue}, Answer rpc poolContract tip u item →
      (∃ v, item = .responseOk v ∧
        valueAt (Rpc.collectRaw raw) (u - CENTER_BIN_ID) = chain.bins (u - CENTER_BIN_ID)) ∨
      (∃ v, item = .responseErr v ∧
        valueAt (Rpc.collectRaw raw) (u - CENTER_BIN_ID) = (0, 0)) := by
    intro u item hanswer
    obtain ⟨r, hr, hid, hor⟩ := hshows u item hanswer
    have hat : valueAt (storeAll RawBinBalance.binIdSigned (fun b => (b.x, b.y)) raw ∅)
        r.binIdSigned = (r.x, r.y) := valueAt_storeAll_of_mem hnodup (fun _ _ => valueAt_empty _) hr
    rw [hid] at hat
    change valueAt (Rpc.collectRaw raw) _ = _ at hat
    rw [hat]
    exact hor
  have hu : id = ((id + CENTER_BIN_ID).toNat : Int) - CENTER_BIN_ID := by
    unfold MIN_BIN_ID at hmin
    unfold CENTER_BIN_ID
    omega
  constructor
  · intro hshown
    obtain ⟨item, hanswer⟩ := hsome (id + CENTER_BIN_ID).toNat (by
      unfold MAX_BIN_ID at hmax
      unfold CENTER_BIN_ID
      omega)
    rcases hvalue hanswer with ⟨v, rfl, -⟩ | ⟨v, rfl, hzero⟩
    · exact Or.inr ⟨_, v, hu, hanswer⟩
    · rw [← hu] at hzero
      exact Or.inl (hshown.symm.trans hzero)
  · rintro (hzero | ⟨u, v, rfl, hanswer⟩)
    · obtain ⟨item, hanswer⟩ := hsome (id + CENTER_BIN_ID).toNat (by
        unfold MAX_BIN_ID at hmax
        unfold CENTER_BIN_ID
        omega)
      have := hvalue hanswer
      rw [← hu] at this
      rcases this with ⟨v, -, hok⟩ | ⟨v, -, herr⟩
      · exact hok
      · exact herr.trans hzero.symm
    · rcases hvalue hanswer with ⟨_, -, hok⟩ | ⟨_, hne, -⟩
      · exact hok
      · cases hne

/-- A bootstrap stores no empty bin, in any mode. -/
theorem holdsSomething_fetchBins {env : FetchEnv} {mode : BootstrapMode} {activeBinId : Int}
    {bins : Std.ExtTreeMap Int BinState}
    (h : rpc.fetchBins env poolContract deployer name activeBinId mode tip = .ok bins) :
    HoldsSomething bins := by
  -- both ways of reading store what they read, dropping zeros
  have hperbin : ∀ {ids : List Int}, rpc.collectBins deployer name tip ids ∅ = .ok bins →
      HoldsSomething bins := by
    intro ids hcollect
    rw [collectBins_eq hcollect]
    exact holdsSomething_storeAll ids holdsSomething_empty
  rcases mode with radius | _ | _
  · obtain ⟨_, -, h⟩ := bind_eq_ok.mp h
    exact hperbin h
  · obtain ⟨raw, -, h⟩ := bind_eq_ok.mp h
    obtain rfl := Except.ok.inj h
    have hstored : HoldsSomething
        (storeAll RawBinBalance.binIdSigned (fun b => (b.x, b.y)) raw ∅) :=
      holdsSomething_storeAll raw holdsSomething_empty
    exact hstored
  · obtain ⟨_, -, h⟩ := bind_eq_ok.mp h
    exact hperbin h

/-- What a bootstrap's bins show, by mode. -/
theorem fetchBins_shows (htrue : Truthful rpc chain poolContract coreContract tip)
    (hparts : rpc.principalParts poolContract = .ok (deployer, name)) {env : FetchEnv}
    {mode : BootstrapMode} {activeBinId : Int} {bins : Std.ExtTreeMap Int BinState}
    (h : rpc.fetchBins env poolContract deployer name activeBinId mode tip = .ok bins) {id : Int}
    (hid : InMode mode activeBinId id) :
    valueAt bins id = chain.bins id ↔ chain.bins id = (0, 0) ∨
      Answered rpc env.overflowChecks poolContract mode tip activeBinId id := by
  obtain ⟨hmin, hmax, -⟩ := hid
  -- the range of the mode is one value, so being in it is being between its ends
  have hperbin : ∀ {lo hi : Int}, binRange env.overflowChecks mode activeBinId = .ok (lo, hi) →
      (InBinRange env.overflowChecks mode activeBinId id ↔ lo ≤ id ∧ id ≤ hi) := by
    intro lo hi hrange
    constructor
    · rintro ⟨lo', hi', hrange', hin⟩
      cases hrange.symm.trans hrange'
      exact hin
    · exact fun hin => ⟨lo, hi, hrange, hin⟩
  cases mode with
  | full =>
    obtain ⟨raw, hraw, h⟩ := bind_eq_ok.mp h
    cases h
    exact collectRaw_shows htrue hraw hmin hmax
  | window radius =>
    obtain ⟨⟨lo, hi⟩, hrange, h⟩ := bind_eq_ok.mp h
    rw [collectBins_shows htrue hparts env.landing h hmin hmax, Answered, hperbin hrange]
    exact nofun
  | fullPerBin =>
    obtain ⟨⟨lo, hi⟩, hrange, h⟩ := bind_eq_ok.mp h
    rw [collectBins_shows htrue hparts env.landing h hmin hmax, Answered, hperbin hrange]
    exact nofun

/-! ## The registry -/

/-- An answer that encodes a listing is decoded as it. -/
theorem decodeListing_ok {o : Option DlmmPoolListing} {v : ClarityValue} (h : ListingOf o v) :
    rpc.decodeListing v = .ok o := by
  cases o with
  | none =>
    cases h
    rfl
  | some l =>
    obtain ⟨t, rfl, hid, hcontract, hname, hsymbol, hstatus⟩ := h
    -- the principal is the field's value, not what is made of it
    have hcontract' : Fields.get t "pool-contract" = some (.principal l.poolContract) := by
      unfold Fields.principal at hcontract
      split at hcontract
      · rename_i p hget
        rw [hget, Option.some.inj hcontract]
      · cases hcontract
    have hbool : rpc.boolAt t "status" = .ok (some l.status) := by
      rw [Rpc.boolAt, hstatus]
      rfl
    simp only [Rpc.decodeListing, uintAt_tuple hid, hcontract', hname, hsymbol, hbool, ok_bind]

/-- A lookup that is answered returns what is registered under the id. -/
theorem lookupListing_of_read (htrue : Truthful rpc chain poolContract coreContract tip)
    (hparts : rpc.principalParts coreContract = .ok (deployer, name)) {id : Nat} (hpos : 1 ≤ id)
    (hlast : id ≤ chain.lastId) {v : ClarityValue}
    (hread : readOk rpc coreContract "get-pool-by-id" [cvUint id] tip = .ok v) :
    rpc.lookupListing deployer name tip id = .ok (chain.registered id) := by
  have hlisting := htrue.listing id v hpos hlast hread
  rw [readOk_eq hparts] at hread
  obtain ⟨answer, hcall, hunwrap⟩ := bind_eq_ok.mp hread
  simp only [Rpc.lookupListing, hcall, hunwrap, dropErr_ok, ok_bind]
  exact decodeListing_ok hlisting

/-- A lookup that fails returns what an unassigned id returns. -/
theorem lookupListing_of_not_read
    (hparts : rpc.principalParts coreContract = .ok (deployer, name)) {id : Nat}
    (hread : ∀ v, readOk rpc coreContract "get-pool-by-id" [cvUint id] tip ≠ .ok v)
    {o : Option DlmmPoolListing} (h : rpc.lookupListing deployer name tip id = .ok o) :
    o = none := by
  rw [readOk_eq hparts] at hread
  obtain ⟨answered, hanswered, h⟩ := bind_eq_ok.mp h
  -- the call or the `ok` may be missing; with both there would have been a value
  cases answered with
  | none =>
    cases h
    rfl
  | some answer =>
    obtain ⟨unwrapped, hunwrapped, h⟩ := bind_eq_ok.mp h
    cases unwrapped with
    | none =>
      cases h
      rfl
    | some v =>
      refine absurd ?_ (hread v)
      rw [dropErr_eq_some hanswered, ok_bind, dropErr_eq_some hunwrapped]

/-- The listing a lookup leaves for an id. -/
def ListedAs (chain : DlmmChain) (rpc : Rpc) (coreContract : Principal) (tip : Option String)
    (id : Nat) (o : Option DlmmPoolListing) : Prop :=
  ∀ l, o = some l ↔ chain.registered id = some l ∧
    ∃ v, readOk rpc coreContract "get-pool-by-id" [cvUint id] tip = .ok v

/-- So a lookup that returns at all returns the registered listing or none, depending on whether
it was answered. -/
theorem lookupListing_listed (htrue : Truthful rpc chain poolContract coreContract tip)
    (hparts : rpc.principalParts coreContract = .ok (deployer, name)) {id : Nat} (hpos : 1 ≤ id)
    (hlast : id ≤ chain.lastId) {o : Option DlmmPoolListing}
    (h : rpc.lookupListing deployer name tip id = .ok o) :
    ListedAs chain rpc coreContract tip id o := by
  intro l
  by_cases hread : ∃ v, readOk rpc coreContract "get-pool-by-id" [cvUint id] tip = .ok v
  · obtain ⟨v, hv⟩ := hread
    cases h.symm.trans (lookupListing_of_read htrue hparts hpos hlast hv)
    exact ⟨fun hl => ⟨hl, v, hv⟩, fun hl => hl.1⟩
  · cases lookupListing_of_not_read hparts (not_exists.mp hread) h
    exact ⟨nofun, fun hl => absurd hl.2 hread⟩

/-- The ids of the listings come in the order of the lookups. -/
theorem ids_sublist {ids : List Nat} {os : List (Option DlmmPoolListing)}
    (h : List.Forall₂ (ListedAs chain rpc coreContract tip) ids os) :
    (os.reduceOption.map DlmmPoolListing.id).Sublist ids := by
  induction h with
  | nil => exact List.Sublist.slnil
  | @cons id o ids os hid _ ih =>
    cases o with
    | none =>
      rw [List.reduceOption_cons_of_none]
      exact ih.cons id
    | some l =>
      rw [List.reduceOption_cons_of_some, List.map_cons,
        chain.registered_id ((hid l).mp rfl).1]
      exact ih.cons_cons id

/-- `sort_by_key(|l| l.id)`. -/
theorem sorted_by_id {ls : List DlmmPoolListing} (hnodup : (ls.map DlmmPoolListing.id).Nodup) :
    (ls.mergeSort fun a b => decide (a.id ≤ b.id)).Pairwise fun a b => a.id < b.id := by
  have hsorted : (ls.mergeSort fun a b => decide (a.id ≤ b.id)).Pairwise
      (fun a b => decide (a.id ≤ b.id) = true) := by
    refine List.pairwise_mergeSort (fun a b c hab hbc => ?_) (fun a b => ?_) _
    · rw [decide_eq_true_eq] at hab hbc ⊢
      exact Nat.le_trans hab hbc
    · rw [Bool.or_eq_true, decide_eq_true_eq, decide_eq_true_eq]
      exact Nat.le_total a.id b.id
  have hne := List.pairwise_map.mp (((List.mergeSort_perm ls fun a b =>
    decide (a.id ≤ b.id)).map DlmmPoolListing.id).nodup_iff.mpr hnodup)
  exact (hsorted.and hne).imp fun hab => Nat.lt_of_le_of_ne (decide_eq_true_eq.mp hab.1) hab.2

/-- The ids `1..=last_id` in the order their lookups return. -/
theorem mem_order_ids (landing : Landing Nat) (lastId id : Nat) :
    id ∈ landing.order ((List.range lastId).map (· + 1)) ↔ 1 ≤ id ∧ id ≤ lastId := by
  rw [(landing.perm _).mem_iff, List.mem_map]
  constructor
  · rintro ⟨i, hi, rfl⟩
    have := List.mem_range.mp hi
    omega
  · rintro ⟨hpos, hle⟩
    exact ⟨id - 1, List.mem_range.mpr (by omega), by omega⟩

/-- **The walk over the registry** returns, in order of their ids, the listings registered
under `1..=last_id` whose lookup was answered. -/
theorem mem_discovered (htrue : Truthful rpc chain poolContract coreContract tip)
    {landing : Landing Nat} {list : List DlmmPoolListing}
    (h : rpc.discoverDlmmPools landing coreContract tip = .ok list) :
    list.Pairwise (fun a b => a.id < b.id) ∧ ∀ l, l ∈ list ↔ ∃ id, (1 ≤ id ∧ id ≤ chain.lastId) ∧
      chain.registered id = some l ∧
      ∃ v, readOk rpc coreContract "get-pool-by-id" [cvUint id] tip = .ok v := by
  obtain ⟨⟨deployer, name⟩, hparts, h⟩ := bind_eq_ok.mp h
  obtain ⟨answer, hcall, h⟩ := bind_eq_ok.mp h
  obtain ⟨v, hunwrap, h⟩ := bind_eq_ok.mp h
  -- `get-last-pool-id` is answered with the last id of the chain
  obtain ⟨n, rfl, hn⟩ := htrue.lastId v (by
    rw [readOk_eq hparts, hcall, ok_bind, hunwrap])
  obtain ⟨lastId, hlast, h⟩ := bind_eq_ok.mp h
  cases hlast
  rw [hn] at h
  split at h
  · rename_i hzero
    cases h
    refine ⟨.nil, fun l => ⟨nofun, ?_⟩⟩
    rintro ⟨id, ⟨hpos, hle⟩, -⟩
    omega
  · obtain ⟨os, hos, h⟩ := bind_eq_ok.mp h
    cases h
    -- each lookup yields the listing of its id, or nothing
    have hrange := mem_order_ids landing chain.lastId
    have hlisted : List.Forall₂ (ListedAs chain rpc coreContract tip)
        (landing.order ((List.range chain.lastId).map (· + 1))) os := by
      have hboth := (List.forall₂_and_left _ _).mpr ⟨fun id => (hrange id).mp, forall₂_of_mapM hos⟩
      exact hboth.imp fun id o ho => lookupListing_listed htrue hparts ho.1.1 ho.1.2 ho.2
    have hmem : ∀ l, l ∈ os.reduceOption.mergeSort (fun a b => decide (a.id ≤ b.id)) ↔
        some l ∈ os := fun l => List.mem_mergeSort.trans List.reduceOption_mem_iff
    constructor
    · -- no id comes twice among the lookups
      refine sorted_by_id ((ids_sublist hlisted).nodup ((landing.perm _).nodup_iff.mpr ?_))
      exact List.Nodup.map (fun _ _ hij => Nat.succ.inj hij) List.nodup_range
    · intro l
      rw [hmem]
      constructor
      -- what is listed was looked up, and what is registered and answered for is listed
      · intro hl
        have hflip : List.Forall₂ (flip (ListedAs chain rpc coreContract tip)) os _ :=
          List.Forall₂.flip hlisted
        obtain ⟨id, hid, hlist⟩ := exists_of_mem_forall₂ hflip hl
        exact ⟨id, (hrange id).mp hid, (hlist l).mp rfl⟩
      · rintro ⟨id, hbounds, hregistered⟩
        obtain ⟨o, ho, hlist⟩ := exists_of_mem_forall₂ hlisted ((hrange id).mpr hbounds)
        exact (hlist l).mpr hregistered ▸ ho

end Reads

end StacksDex.Bridge
