import StacksDex.Bridge.BulkReads
import StacksDex.Results.Isolation

/-!
# StacksDex — when the bulk reads are complete

A bootstrap that comes back with a pool should hold every bin of its mode's range, and a
discovery that comes back with a list every registered pool. Both pass over a read that
failed, and a window of `2 ^ 31` bins or more is read as no window at all; the pool or the
list is complete exactly when nothing that was passed over had anything in it.

## Main results

* `fetchDlmmPool_ok`: the pool that is returned has the chain's active bin, and the bins of
  its mode as the reads showed them;
* `bulk_reads_complete_iff`: the exact condition, for all modes and for the discovery;
* `bulk_reads_incomplete`: a window with one failed read, a window that is too wide, and a
  registry whose one lookup failed.

That an answer is the truth is assumed of every read that is answered, and nothing of those
that fail.
-/

namespace StacksDex.Results

open StacksDex.Model StacksDex.Bridge

section

variable {rpc : Rpc} {chain : DlmmChain} {poolContract coreContract : Principal}
variable {tip : Option String} {env : FetchEnv} {mode : BootstrapMode}

/-- Every bin of the mode's range shows what the chain holds. -/
def BinsComplete (chain : DlmmChain) (mode : BootstrapMode) (pool : DLMMPool) : Prop :=
  ∀ id, InMode mode chain.activeBinId id → valueAt pool.bins id = chain.bins id

/-- Every bin of the mode's range that holds something was answered for. -/
def BinsAnswered (rpc : Rpc) (chain : DlmmChain) (overflowChecks : Bool)
    (poolContract : Principal) (mode : BootstrapMode) (tip : Option String) : Prop :=
  ∀ id, InMode mode chain.activeBinId id → chain.bins id ≠ (0, 0) →
    Answered rpc overflowChecks poolContract mode tip chain.activeBinId id

/-- The list holds, sorted by id, the listings of the ids `1..=last_id`. -/
def RegistryComplete (chain : DlmmChain) (list : List DlmmPoolListing) : Prop :=
  list.Pairwise (fun a b => a.id < b.id) ∧ ∀ l, l ∈ list ↔
    ∃ id, (1 ≤ id ∧ id ≤ chain.lastId) ∧ chain.registered id = some l

/-- Every id that is registered was answered for. -/
def RegistryAnswered (rpc : Rpc) (chain : DlmmChain) (coreContract : Principal)
    (tip : Option String) : Prop :=
  ∀ id, 1 ≤ id → id ≤ chain.lastId → chain.registered id ≠ none →
    ∃ v, readOk rpc coreContract "get-pool-by-id" [cvUint id] tip = .ok v

/-- A conversion that succeeds keeps the number. -/
theorem tryI32_eq_ok {msg : String} {z w : Int} (h : tryI32 msg z = .ok w) : w = z := by
  unfold tryI32 i32OfI128 at h
  split at h
  · rename_i hz
    split at hz
    · cases hz
      cases h
      rfl
    · cases hz
  · cases h

/-- What a bootstrap that returns has read: the pool's tuple, its active bin, and the bins. -/
theorem fetchDlmmPool_reads {pool : DLMMPool}
    (h : rpc.fetchDlmmPool env poolContract coreContract mode tip = .ok pool) :
    ∃ deployer name answer v t raw activeBinId,
      rpc.principalParts poolContract = .ok (deployer, name) ∧
      rpc.callRead deployer name "get-pool" [] tip = .ok answer ∧
      answer.unwrapOk rpc.sha256 = .ok v ∧ rpc.poolTuple v = .ok t ∧
      rpc.readInt t "active-bin-id" = .ok raw ∧
      tryI32 "active-bin-id out of i32 range" raw = .ok activeBinId ∧
      rpc.fetchBins env poolContract deployer name activeBinId mode tip = .ok pool.bins := by
  -- the reads of the bootstrap one after the other, the bins last
  obtain ⟨⟨deployer, name⟩, hparts, h⟩ := bind_eq_ok.mp h
  obtain ⟨answer, hcall, h⟩ := bind_eq_ok.mp h
  obtain ⟨v, hunwrap, h⟩ := bind_eq_ok.mp h
  obtain ⟨t, ht, h⟩ := bind_eq_ok.mp h
  obtain ⟨xToken, -, h⟩ := bind_eq_ok.mp h
  obtain ⟨yToken, -, h⟩ := bind_eq_ok.mp h
  obtain ⟨rawStep, -, h⟩ := bind_eq_ok.mp h
  obtain ⟨binStep, -, h⟩ := bind_eq_ok.mp h
  obtain ⟨initialPrice, -, h⟩ := bind_eq_ok.mp h
  obtain ⟨raw, hraw, h⟩ := bind_eq_ok.mp h
  obtain ⟨activeBinId, hactive, h⟩ := bind_eq_ok.mp h
  obtain ⟨xProtocolFee, -, h⟩ := bind_eq_ok.mp h
  obtain ⟨xProviderFee, -, h⟩ := bind_eq_ok.mp h
  obtain ⟨yProtocolFee, -, h⟩ := bind_eq_ok.mp h
  obtain ⟨yProviderFee, -, h⟩ := bind_eq_ok.mp h
  obtain ⟨xVariableFee, -, h⟩ := bind_eq_ok.mp h
  obtain ⟨yVariableFee, -, h⟩ := bind_eq_ok.mp h
  obtain ⟨xDecimals, -, h⟩ := bind_eq_ok.mp h
  obtain ⟨yDecimals, -, h⟩ := bind_eq_ok.mp h
  obtain ⟨factors, -, h⟩ := bind_eq_ok.mp h
  obtain ⟨bins, hbins, h⟩ := bind_eq_ok.mp h
  cases h
  exact ⟨deployer, name, answer, v, t, raw, activeBinId, hparts, hcall, hunwrap, ht, hraw, hactive,
    hbins⟩

/-- The pool a bootstrap returns has the chain's active bin, and the bins of its mode. -/
theorem fetchDlmmPool_ok (htrue : Truthful rpc chain poolContract coreContract tip)
    {pool : DLMMPool} (h : rpc.fetchDlmmPool env poolContract coreContract mode tip = .ok pool) :
    ∃ deployer name, rpc.principalParts poolContract = .ok (deployer, name) ∧
      rpc.fetchBins env poolContract deployer name chain.activeBinId mode tip = .ok pool.bins := by
  obtain ⟨deployer, name, answer, v, p, raw, activeBinId, hparts, hcall, hunwrap, hp, hraw,
    hactiveBinId, hbins⟩ := fetchDlmmPool_reads h
  obtain ⟨t, a, rfl, hactive, ha⟩ := htrue.pool v (by
    rw [readOk_eq hparts, hcall, ok_bind, hunwrap])
  refine ⟨deployer, name, hparts, ?_⟩
  cases hp
  rw [Rpc.readInt, hactive] at hraw
  cases hraw
  rw [ha] at hactiveBinId
  cases tryI32_eq_ok hactiveBinId
  exact hbins

/--
**Bulk reads are complete** exactly when every bin, and every registered id, that has
something to show was answered for. For bins that means, in the mode of the bootstrap, a
multicall item that is no error, or a read that succeeds for an id in the range as the code
computes it; for the registry, a successful read of each id up to the last. A read that fails
is skipped, so the bootstrap and the listing return all the same. What the node does answer is
what the chain holds (`Truthful`).
-/
theorem bulk_reads_complete_iff (htrue : Truthful rpc chain poolContract coreContract tip)
    (env : FetchEnv) (landing : Landing Nat) (mode : BootstrapMode) :
    (∀ pool, rpc.fetchDlmmPool env poolContract coreContract mode tip = .ok pool →
      (BinsComplete chain mode pool ↔
        BinsAnswered rpc chain env.overflowChecks poolContract mode tip)) ∧
    ∀ list, rpc.discoverDlmmPools landing coreContract tip = .ok list →
      (RegistryComplete chain list ↔ RegistryAnswered rpc chain coreContract tip) := by
  constructor
  · intro pool hfetch
    obtain ⟨deployer, name, hparts, hbins⟩ := fetchDlmmPool_ok htrue hfetch
    have hshows := fun (id : Int) (hid : InMode mode chain.activeBinId id) =>
      fetchBins_shows htrue hparts hbins hid
    constructor
    · intro hcomplete id hid hne
      exact ((hshows id hid).mp (hcomplete id hid)).resolve_left hne
    · intro hanswered id hid
      refine (hshows id hid).mpr ?_
      by_cases hne : chain.bins id = (0, 0)
      · exact Or.inl hne
      · exact Or.inr (hanswered id hid hne)
  · intro list hlist
    obtain ⟨hsorted, hmem⟩ := mem_discovered htrue hlist
    constructor
    · rintro ⟨-, hcomplete⟩ id hpos hle hne
      obtain ⟨l, hl⟩ := Option.ne_none_iff_exists'.mp hne
      -- the listing is in the list, so its id was answered for
      obtain ⟨id', -, hl', hread⟩ := (hmem l).mp ((hcomplete l).mpr ⟨id, ⟨hpos, hle⟩, hl⟩)
      cases (chain.registered_id hl').symm.trans (chain.registered_id hl)
      exact hread
    · intro hanswered
      refine ⟨hsorted, fun l => (hmem l).trans ?_⟩
      constructor
      · rintro ⟨id, hbounds, hl, -⟩
        exact ⟨id, hbounds, hl⟩
      · rintro ⟨id, hbounds, hl⟩
        exact ⟨id, hbounds, hl, hanswered id hbounds.1 hbounds.2 (by rw [hl]; exact nofun)⟩

end

/-! ## A node with gaps -/

/-- A chain with one pool, every bin of which holds something. -/
def filledChain : DlmmChain where
  activeBinId := 0
  bins := fun _ => (5, 7)
  lastId := 1
  registered := fun id =>
    if id = 1 then some ⟨1, deployed "pool", "A-B-LP", "A-B", true⟩ else none
  registered_id := by
    intro id l h
    split at h
    · rename_i hid
      cases h
      exact hid.symm
    · cases h

/-- A node of that chain that fails the reads in `down`, the helper's and the lookups. -/
def nodeWithout (down : List (List UInt8) → Bool) : Rpc where
  sha256 := burnSha256
  callRead := fun _ _ function args _ =>
    if function = "get-pool" then
      .ok (.responseOk (.tuple
        [("active-bin-id", .int 0), ("bin-step", .uint 1), ("initial-price", .uint 100),
          ("x-token", .principal (deployed "x")), ("y-token", .principal (deployed "y"))]))
    else if function = "get-bin-balances" ∧ down args = false then
      .ok (.responseOk (.tuple [("x-balance", .uint 5), ("y-balance", .uint 7)]))
    else if function = "get-last-pool-id" then .ok (.responseOk (.uint 1))
    else .error (.err "call_read HTTP 503 Service Unavailable")
  decimals := fun _ => .ok 6

def asIs (α : Type) : Landing α where
  order := fun xs => xs
  perm := fun xs => List.Perm.refl xs

def releaseEnv : FetchEnv where
  cached := fun _ => some []
  landing := asIs Int
  overflowChecks := false

/-- The two names of a deployed contract. -/
theorem principalParts_deployed (down : List (List UInt8) → Bool) (name : String) :
    (nodeWithout down).principalParts (deployed name) =
      .ok ("SP000000000000000000002Q6VF78", name) := by
  have haddress : c32EncodeAddress (nodeWithout down).sha256 22 (List.Vector.replicate 20 0) =
      .ok "SP000000000000000000002Q6VF78" := by
    show c32EncodeAddress burnSha256 22 _ = _
    decide +kernel
  show (c32EncodeAddress (nodeWithout down).sha256 22 (List.Vector.replicate 20 0) >>= _) = _
  rw [haddress]
  rfl

/-- Whatever reads it fails, the node answers the others truthfully. -/
theorem nodeWithout_truthful (down : List (List UInt8) → Bool) :
    Truthful (nodeWithout down) filledChain (deployed "pool") (deployed "core") none where
  pool := by
    intro v h
    rw [readOk_eq (principalParts_deployed down "pool")] at h
    cases h
    exact ⟨_, 0, rfl, rfl, rfl⟩
  bin := by
    intro id v _ _ h
    rw [readOk_eq (principalParts_deployed down "pool")] at h
    by_cases hdown : down [cvUint (id + CENTER_BIN_ID).toNat] = false
    · have hcall : (nodeWithout down).callRead "SP000000000000000000002Q6VF78" "pool"
          "get-bin-balances" [cvUint (id + CENTER_BIN_ID).toNat] none =
          .ok (.responseOk (.tuple [("x-balance", .uint 5), ("y-balance", .uint 7)])) := by
        simp [nodeWithout, hdown]
      rw [hcall] at h
      cases h
      exact ⟨_, rfl, rfl, rfl⟩
    · have hcall : (nodeWithout down).callRead "SP000000000000000000002Q6VF78" "pool"
          "get-bin-balances" [cvUint (id + CENTER_BIN_ID).toNat] none =
          .error (.err "call_read HTTP 503 Service Unavailable") := by
        simp [nodeWithout, hdown]
      rw [hcall] at h
      cases h
  multi := by
    intro ids v _ h
    cases h
  lastId := by
    intro v h
    rw [readOk_eq (principalParts_deployed down "core")] at h
    cases h
    exact ⟨1, rfl, rfl⟩
  listing := by
    intro id v _ _ h
    rw [readOk_eq (principalParts_deployed down "core")] at h
    cases h

/-- It serves the pool's tuple, so a bootstrap returns when its bins do. -/
theorem nodeWithout_fetches (down : List (List UInt8) → Bool) (mode : BootstrapMode)
    {bins : Std.ExtTreeMap Int BinState}
    (h : (nodeWithout down).fetchBins releaseEnv (deployed "pool") "SP000000000000000000002Q6VF78"
      "pool" 0 mode none = .ok bins) :
    ∃ pool, (nodeWithout down).fetchDlmmPool releaseEnv (deployed "pool") (deployed "core") mode
      none = .ok pool ∧ pool.bins = bins ∧ ∀ d, (pool.fees d).total = 0 := by
  rw [Rpc.fetchDlmmPool, principalParts_deployed]
  apply Exists.intro
  constructor
  · show ((nodeWithout down).fetchBins releaseEnv (deployed "pool") "SP000000000000000000002Q6VF78"
        "pool" 0 mode none >>= _) = _
    rw [h]
    rfl
  · exact ⟨rfl, fun d => by cases d <;> rfl⟩

/-- It fails the one lookup, and the walk over the registry returns an empty list. -/
theorem nodeWithout_discovers (down : List (List UInt8) → Bool) :
    (nodeWithout down).discoverDlmmPools (asIs Nat) (deployed "core") none = .ok [] := by
  have hlast : (nodeWithout down).callRead "SP000000000000000000002Q6VF78" "core"
      "get-last-pool-id" [] none = .ok (.responseOk (.uint 1)) := rfl
  have hlookup : (nodeWithout down).lookupListing "SP000000000000000000002Q6VF78"
      "core" none 1 = .ok none := rfl
  have hids : (asIs Nat).order ((List.range (BitVec.toNat (1 : BitVec 128))).map (· + 1)) = [1] :=
    rfl
  simp only [Rpc.discoverDlmmPools, principalParts_deployed, ok_bind, hlast,
    ClarityValue.unwrapOk, ClarityValue.asUint]
  rw [if_neg (by decide), hids, List.mapM_cons, hlookup]
  simp

/-- A window of one bin to each side, without the read of the active bin. -/
theorem bulk_reads_complete_iff_window :
    (∃ pool, (nodeWithout (· == [cvUint 500])).fetchDlmmPool releaseEnv (deployed "pool")
        (deployed "core") (.window 1) none = .ok pool ∧
      (BinsComplete filledChain (.window 1) pool ↔
        BinsAnswered (nodeWithout (· == [cvUint 500])) filledChain false (deployed "pool")
          (.window 1) none)) ∧
    (RegistryComplete filledChain [] ↔
      RegistryAnswered (nodeWithout (· == [cvUint 500])) filledChain (deployed "core") none) := by
  obtain ⟨hbins, hregistry⟩ :=
    bulk_reads_complete_iff (nodeWithout_truthful (· == [cvUint 500])) releaseEnv (asIs Nat)
      (.window 1)
  obtain ⟨pool, hpool, -, -⟩ := nodeWithout_fetches (· == [cvUint 500]) (.window 1) rfl
  exact ⟨⟨pool, hpool, hbins pool hpool⟩, hregistry [] (nodeWithout_discovers _)⟩

/-- A window of one bin to each side, with the read of the active bin failing; a radius of
`u32::MAX`, which is -1 as an `i32`; and a registry whose one lookup fails. -/
theorem bulk_reads_incomplete :
    (∀ down, Truthful (nodeWithout down) filledChain (deployed "pool") (deployed "core") none) ∧
    (∃ pool, (nodeWithout (· == [cvUint 500])).fetchDlmmPool releaseEnv (deployed "pool")
        (deployed "core") (.window 1) none = .ok pool ∧
      ¬ BinsComplete filledChain (.window 1) pool) ∧
    (∃ pool, (nodeWithout fun _ => false).fetchDlmmPool releaseEnv (deployed "pool")
        (deployed "core") (.window 0xFFFFFFFF) none = .ok pool ∧
      ¬ BinsComplete filledChain (.window 0xFFFFFFFF) pool) ∧
    (nodeWithout fun _ => false).discoverDlmmPools (asIs Nat) (deployed "core") none = .ok [] ∧
      ¬ RegistryComplete filledChain [] := by
  refine ⟨nodeWithout_truthful, ?_, ?_, nodeWithout_discovers _, ?_⟩
  · have hid : InMode (.window 1) filledChain.activeBinId 0 := ⟨by decide, by decide, by decide⟩
    obtain ⟨pool, hpool, -, -⟩ := nodeWithout_fetches (· == [cvUint 500]) (.window 1) rfl
    refine ⟨pool, hpool, fun hcomplete => ?_⟩
    obtain ⟨deployer, name, hparts, hbins⟩ := fetchDlmmPool_ok (nodeWithout_truthful _) hpool
    rcases (fetchBins_shows (nodeWithout_truthful _) hparts hbins hid).mp
      (hcomplete 0 hid) with hempty | ⟨-, v, hread⟩
    · cases hempty
    · rw [readOk_eq (principalParts_deployed _ "pool")] at hread
      cases hread
  · have hid : InMode (.window 0xFFFFFFFF) filledChain.activeBinId 0 :=
      ⟨by decide, by decide, by decide⟩
    obtain ⟨pool, hpool, -, -⟩ := nodeWithout_fetches (fun _ => false) (.window 0xFFFFFFFF) rfl
    refine ⟨pool, hpool, fun hcomplete => ?_⟩
    obtain ⟨deployer, name, hparts, hbins⟩ := fetchDlmmPool_ok (nodeWithout_truthful _) hpool
    rcases (fetchBins_shows (nodeWithout_truthful _) hparts hbins hid).mp
      (hcomplete 0 hid) with hempty | ⟨⟨lo, hi, hrange, hlo, hhi⟩, -⟩
    · cases hempty
    -- the range read is `1..=-1`
    · cases hrange
      exact absurd hlo (by decide)
  · rintro ⟨-, hcomplete⟩
    have := (hcomplete ⟨1, deployed "pool", "A-B-LP", "A-B", true⟩).mpr
      ⟨1, ⟨Nat.le_refl 1, Nat.le_refl 1⟩, rfl⟩
    cases this

end StacksDex.Results
