import StacksDex.Lib.Run
import StacksDex.Model.BlockWalkingSource

/-!
# StacksDex — walking the blocks of a chain

The chain side of the block walker: a block is its list of transactions with
their events, and a reply that succeeds tells the truth about it (`Honest`); any
reply may fail instead. `walkBlock_covers` says what one turn of the block loop
has passed on, `walkBlocks_covers` what the loop has: every event of a registered
contract that decodes, except where the block was answered as not found or the
details of the transaction could not be had (`Gap`).
-/

namespace StacksDex.Bridge

open StacksDex.Lib StacksDex.Model

/-- A transaction on the chain, with all its events. -/
structure ChainTx where
  txId : String
  txType : String
  contractCall : Option String
  events : List RawEvent

abbrev Chain := (height : Nat) → List ChainTx

/-- Its entry in the block's list: the number of events, but not the events. -/
def ChainTx.listing (tx : ChainTx) : RawTx where
  txId := tx.txId
  txType := tx.txType
  contractCall := tx.contractCall
  events := []
  eventCount := tx.events.length

/-- The request succeeded and its body parsed. -/
def Served {β : Type} (reply : HttpReply β) : Prop :=
  ∃ status reason body, reply = .response status reason (.ok body) ∧ isSuccess status = true

/-- Replies that succeed agree with the chain. -/
structure Honest (chain : Chain) (pageSize : PageSize) (env : TickEnv) : Prop where
  /-- A page is the slice of the block at its offset, with the block's total. -/
  pages : ∀ height offset status reason page,
    env.blockPage height offset = .response status reason (.ok page) → isSuccess status = true →
      page.total = (chain height).length ∧
      page.results = (((chain height).drop offset).take pageSize.val).map ChainTx.listing
  /-- The details of a transaction are all of its events. -/
  details : ∀ height, ∀ tx ∈ chain height, ∀ status reason events,
    env.txDetail height tx.txId = .response status reason (.ok events) → isSuccess status = true →
      events = tx.events

/-- One of the requests for the block's transactions is answered with 404. -/
def NotFound (chain : Chain) (pageSize : PageSize) (env : TickEnv) (height : Nat) : Prop :=
  ∃ k reason body, (k = 0 ∨ k * pageSize.val < (chain height).length) ∧
    env.blockPage height (k * pageSize.val) = .response 404 reason body

/-- The block was not found, or the transaction's details could not be had. -/
def Gap (chain : Chain) (pageSize : PageSize) (env : TickEnv) (height : Nat) (tx : ChainTx) :
    Prop :=
  NotFound chain pageSize env height ∨ ¬ Served (env.txDetail height tx.txId)

/-! ## One block -/

/-- What the list says about a transaction: its id and event count, no events. -/
theorem decodeTx_listing {sha256 : Sha256} {tx : ChainTx} {b : BlockTransaction}
    (h : decodeTx sha256 tx.listing = .ok b) :
    b.txId = tx.txId ∧ b.eventCount = tx.events.length ∧ b.events = [] := by
  obtain ⟨target, -, h⟩ := bind_eq_ok.mp h
  obtain ⟨events, hevents, h⟩ := bind_eq_ok.mp h
  cases hevents
  cases h
  exact ⟨rfl, rfl, rfl⟩

section Block

variable {chain : Chain} {sha256 : Sha256} {config : BlockWalkingConfig} {env : TickEnv}

/-- What one page of a list that is returned says. -/
theorem blockPages_ok {pageSize : PageSize} {height offset : Nat} {reply : Nat → HttpReply TxPage}
    {out txs : List BlockTransaction}
    (h : blockPages sha256 pageSize height reply offset out = .ok txs) :
    (∃ reason body, reply offset = .response 404 reason body) ∨
      ∃ status reason page shown, reply offset = .response status reason (.ok page) ∧
        isSuccess status = true ∧ page.results.mapM (decodeTx sha256) = .ok shown ∧
        ((asU32 page.results.length < pageSize.val ∨
            offset + asU32 page.results.length ≥ page.total) ∧ txs = out ++ shown ∨
          pageSize.val ≤ asU32 page.results.length ∧
            offset + asU32 page.results.length < page.total ∧
            blockPages sha256 pageSize height reply (offset + asU32 page.results.length)
              (out ++ shown) = .ok txs) := by
  rw [blockPages] at h
  cases hreply : reply offset with
  | sendError e =>
    rw [hreply] at h
    cases h
  | response status reason body =>
    rw [hreply] at h
    dsimp only at h
    -- the statuses in the order of the source
    by_cases h429 : status = 429
    · rw [if_pos h429] at h
      cases h
    rw [if_neg h429] at h
    by_cases h404 : status = 404
    · exact Or.inl ⟨reason, body, by rw [h404]⟩
    rw [if_neg h404] at h
    by_cases hsuccess : isSuccess status = true
    · rw [if_neg (not_not_intro hsuccess)] at h
      cases body with
      | error e => cases h
      | ok page =>
        dsimp only at h
        cases hshown : page.results.mapM (decodeTx sha256) with
        | error fault =>
          rw [hshown] at h
          cases h
        | ok shown =>
          rw [hshown] at h
          dsimp only at h
          -- three ways on: a short page, the end of the list, another request
          refine Or.inr ⟨status, reason, page, shown, rfl, hsuccess, hshown, ?_⟩
          split at h
          case isTrue hshort =>
            cases h
            exact Or.inl ⟨Or.inl hshort, rfl⟩
          case isFalse hfull =>
            split at h
            case isTrue hoverflow => cases h
            case isFalse hfits =>
              split at h
              case isTrue hend =>
                cases h
                exact Or.inl ⟨Or.inr hend, rfl⟩
              case isFalse hmore => exact Or.inr ⟨by omega, by omega, h⟩
    · rw [if_pos hsuccess] at h
      cases h

/-- **The pagination is complete**: unless a page is answered with 404, a block list that is
returned holds every transaction of the block. -/
theorem blockPages_covers (hhonest : Honest chain config.pageSize env) {height k : Nat}
    {out txs : List BlockTransaction}
    (hk : k = 0 ∨ k * config.pageSize.val < (chain height).length)
    (h : blockPages sha256 config.pageSize height (env.blockPage height)
      (k * config.pageSize.val) out = .ok txs) :
    NotFound chain config.pageSize env height ∨
      ∃ rest, (((chain height).drop (k * config.pageSize.val)).map ChainTx.listing).mapM
        (decodeTx sha256) = .ok rest ∧ txs = out ++ rest := by
  obtain ⟨hpos, hmax⟩ := config.pageSize.property
  -- on what is left of the block behind this page's offset
  induction hleft : (chain height).length - k * config.pageSize.val using Nat.strong_induction_on
    generalizing k out with
  | _ n ih =>
    rcases blockPages_ok h with ⟨reason, body, hreply⟩ |
      ⟨status, reason, page, shown, hreply, hsuccess, hshown, hnext⟩
    · exact Or.inl ⟨k, reason, body, hk, hreply⟩
    obtain ⟨htotal, hresults⟩ := hhonest.pages _ _ _ _ _ hreply hsuccess
    -- as long as the page size, or as what is left of the block
    have hlength : page.results.length =
        min config.pageSize.val ((chain height).length - k * config.pageSize.val) := by
      rw [hresults, List.length_map, List.length_take, List.length_drop]
    -- a page is at most `page_size` long, so its length survives the cast
    have hgot : asU32 page.results.length = page.results.length := asU32_of_le (by omega)
    rw [hgot, htotal] at hnext
    rw [hresults] at hshown
    rcases hnext with ⟨hend, rfl⟩ | ⟨hfull, hmore, hrest⟩
    · -- the last page: the slice is all that is left
      have hall : ((chain height).drop (k * config.pageSize.val)).take config.pageSize.val =
          (chain height).drop (k * config.pageSize.val) := by
        refine List.take_of_length_le ?_
        rw [List.length_drop]
        omega
      rw [hall] at hshown
      exact Or.inr ⟨shown, hshown, rfl⟩
    -- a full page: the next offset is the next multiple of the page size
    · have hnext : k * config.pageSize.val + page.results.length =
          (k + 1) * config.pageSize.val := by
        rw [Nat.add_mul, Nat.one_mul]
        omega
      rw [hnext] at hrest hmore
      rcases ih _ (by omega) (Or.inr hmore) hrest rfl with hnotFound | ⟨rest, hdecoded, rfl⟩
      · exact Or.inl hnotFound
      · refine Or.inr ⟨shown ++ rest, ?_, by rw [List.append_assoc]⟩
        -- this page and the ones behind it are what was left
        have hsplit : (chain height).drop (k * config.pageSize.val) =
            ((chain height).drop (k * config.pageSize.val)).take config.pageSize.val ++
              (chain height).drop ((k + 1) * config.pageSize.val) := by
          rw [Nat.add_mul, Nat.one_mul, ← List.drop_drop, List.take_append_drop]
        rw [hsplit, List.map_append, List.mapM_append, hshown, ok_bind, hdecoded]
        rfl

/-- Where the details are served, they are what is filled in. -/
theorem populate_served {detail : String → HttpReply (List RawEvent)} {b b' : BlockTransaction}
    (hempty : b.events = []) (hcount : b.eventCount ≠ 0) {status : Nat} {reason : String}
    {events : List RawEvent} (hreply : detail b.txId = .response status reason (.ok events))
    (hsuccess : isSuccess status = true) (h : populate sha256 detail b = .ok b') :
    ∃ decoded, decodeRawEvents sha256 b.txId events = .ok decoded ∧
      b' = { b with events := decoded } := by
  have hfetch : fetchTxEvents sha256 b.txId (detail b.txId) =
      decodeRawEvents sha256 b.txId events := by
    -- a success is no rate limit
    have h429 : status ≠ 429 := by
      rintro rfl
      cases hsuccess
    rw [hreply, fetchTxEvents, if_neg h429, if_neg (not_not_intro hsuccess)]
  -- the list had no events, though there are some: the request is made
  have hmissing : ¬ (b.events ≠ [] ∨ b.eventCount = 0) := by
    rintro (hfilled | hzero)
    · exact hfilled hempty
    · exact hcount hzero
  rw [populate, if_neg hmissing, hfetch] at h
  -- decoding itself never fails, so there is nothing to drop
  obtain ⟨r, hr, h⟩ := bind_eq_ok.mp h
  obtain ⟨decoded, hdecoded, rfl⟩ := (noErr_decodeRawEvents _ _ _).dropErr_eq_ok hr
  cases h
  exact ⟨decoded, hdecoded, rfl⟩

/-- An event of a registered contract that the API's form of the transaction decodes to. -/
def Prints (sha256 : Sha256) (registered : List Principal) (tx : ChainTx) (event : StacksEvent) :
    Prop :=
  ∃ ev ∈ tx.events, decodeRawEvent sha256 tx.txId ev = .ok (some event) ∧
    event.emitter ∈ registered

/-- A transaction whose details are served has its events passed on. -/
theorem mem_ingested (hhonest : Honest chain config.pageSize env) {registered : List Principal}
    {height : Nat} {tx : ChainTx} (htx : tx ∈ chain height) {txs : List BlockTransaction}
    (hdecoded : ((chain height).map ChainTx.listing).mapM (decodeTx sha256) = .ok txs)
    (hserved : Served (env.txDetail height tx.txId)) {ingested : Ingested}
    (h : ingestBlockTxs sha256 registered (env.txDetail height) txs = .ok ingested)
    {event : StacksEvent} (hprints : Prints sha256 registered tx event) :
    event ∈ ingested.offered := by
  obtain ⟨ev, hev, hevent, hregistered⟩ := hprints
  obtain ⟨b, hb, hlisted⟩ := exists_of_mem_mapM hdecoded (List.mem_map_of_mem htx)
  obtain ⟨hid, hcount, hempty⟩ := decodeTx_listing hlisted
  obtain ⟨candidates, hcandidates, h⟩ := bind_eq_ok.mp h
  cases h
  -- it has an event, so its count is not zero
  have hsome : b.eventCount ≠ 0 := by
    rw [hcount]
    exact fun hzero => absurd hev (by rw [List.length_eq_zero_iff.mp hzero]; exact List.not_mem_nil)
  -- it has events, so it is a candidate whatever it calls
  have hcandidate : b ∈ txs.filter (isCandidate registered) := by
    refine List.mem_filter.mpr ⟨hb, ?_⟩
    simp [isCandidate, hsome]
  obtain ⟨b', hb', hpopulated⟩ := exists_of_mem_mapM hcandidates hcandidate
  obtain ⟨status, reason, events, hreply, hsuccess⟩ := hserved
  -- what is served are the transaction's own events
  obtain rfl := hhonest.details height tx htx status reason events hreply hsuccess
  rw [← hid] at hreply hevent
  obtain ⟨decoded, hall, rfl⟩ := populate_served hempty hsome hreply hsuccess hpopulated
  refine List.mem_flatMap.mpr ⟨_, hb', List.mem_filter.mpr ⟨?_, ?_⟩⟩
  · exact mem_decodeRawEvents hall hev hevent
  · -- in scope by its emitter, whatever the transaction called
    rw [decide_eq_true hregistered, Bool.or_true]

/-- **One turn of the block loop** passes on what it should, or there is a gap. -/
theorem walkBlock_covers (hhonest : Honest chain config.pageSize env)
    {registered : List Principal} {height : Nat} {w w' : WalkState}
    (h : walkBlock sha256 config env registered height w = .ok w') :
    w.offered ⊆ w'.offered ∧
      ∀ tx ∈ chain height, ∀ event, Prints sha256 registered tx event →
        event ∈ w'.offered ∨ Gap chain config.pageSize env height tx := by
  obtain ⟨txs, htxs, h⟩ := bind_eq_ok.mp h
  -- the list is the block, or there was a 404
  have hpages : NotFound chain config.pageSize env height ∨
      ((chain height).map ChainTx.listing).mapM (decodeTx sha256) = .ok txs := by
    rw [fetchBlockTransactions, ← Nat.zero_mul config.pageSize.val] at htxs
    rcases blockPages_covers hhonest (Or.inl rfl) htxs with hnotFound | ⟨rest, hrest, rfl⟩
    · exact Or.inl hnotFound
    · rw [Nat.zero_mul, List.drop_zero] at hrest
      exact Or.inr hrest
  by_cases hempty : txs = []
  · rw [if_pos hempty] at h
    cases h
    refine ⟨List.Subset.refl _, ?_⟩
    intro tx htx event _
    rcases hpages with hnotFound | hdecoded
    · exact Or.inr (Or.inl hnotFound)
    · -- an empty list that was not a 404 is an empty block
      obtain ⟨b, hb, -⟩ := exists_of_mem_mapM hdecoded (List.mem_map_of_mem htx)
      rw [hempty] at hb
      cases hb
  · rw [if_neg hempty] at h
    obtain ⟨ingested, hingested, h⟩ := bind_eq_ok.mp h
    cases h
    refine ⟨List.subset_append_left _ _, ?_⟩
    intro tx htx event hprints
    rcases hpages with hnotFound | hdecoded
    · exact Or.inr (Or.inl hnotFound)
    -- what is left to go wrong is the request for the details
    by_cases hserved : Served (env.txDetail height tx.txId)
    · refine Or.inl (List.mem_append_right _ ?_)
      exact mem_ingested hhonest htx hdecoded hserved hingested hprints
    · exact Or.inr (Or.inr hserved)

/-- **The block loop**: what a walk that ends without a fault has passed on. -/
theorem walkBlocks_covers (hhonest : Honest chain config.pageSize env)
    {registered : List Principal} {n height : Nat} {w w' : WalkState}
    (h : walkBlocks sha256 config env registered n height w = (w', none)) :
    w.offered ⊆ w'.offered ∧
      ∀ k, height ≤ k → k < height + n → ∀ tx ∈ chain k, ∀ event,
        Prints sha256 registered tx event →
          event ∈ w'.offered ∨ Gap chain config.pageSize env k tx := by
  induction n generalizing height w with
  | zero =>
    cases h
    exact ⟨List.Subset.refl _, fun k hfrom hto => absurd hto (by omega)⟩
  | succ n ih =>
    rw [walkBlocks] at h
    cases hblock : walkBlock sha256 config env registered height w with
    | error fault =>
      rw [hblock] at h
      cases h
    | ok next =>
      rw [hblock] at h
      obtain ⟨hkept, hcovered⟩ := walkBlock_covers hhonest hblock
      obtain ⟨hkept', hcovered'⟩ := ih h
      refine ⟨List.Subset.trans hkept hkept', ?_⟩
      intro k hfrom hto tx htx event hprints
      -- the first block of the walk, or one of the rest
      by_cases hk : k = height
      · subst hk
        exact (hcovered tx htx event hprints).imp_left fun hmem => hkept' hmem
      · exact hcovered' k (by omega) (by omega) tx htx event hprints

end Block

/-! ## One tick -/

/-- What a tick can do to the registry: nothing; a cold start; a jump, when there is
nothing to poll; or a walk up to some block. -/
theorem tick_cases (sha256 : Sha256) (config : BlockWalkingConfig) (env : TickEnv)
    (queue : EventQueue) (registry : PoolRegistry) :
    (tick sha256 config env queue registry).registry = registry ∨
      ∃ tip, env.tip = .ok tip ∧
        (registry.lastProcessedBlock = 0 ∧
            (tick sha256 config env queue registry).registry =
              registry.setLastProcessedBlock tip ∨
          registry.lastProcessedBlock ≠ 0 ∧ registry.polledContracts = [] ∧
            (tick sha256 config env queue registry).registry =
              registry.setLastProcessedBlock tip ∨
          registry.lastProcessedBlock ≠ 0 ∧ ∃ last w,
            walkBlocks sha256 config env registry.polledContracts
                (last - registry.lastProcessedBlock) (registry.lastProcessedBlock + 1)
                { queue, offered := [], stats := TickStats.zero } = (w, none) ∧
              (tick sha256 config env queue registry).registry =
                registry.setLastProcessedBlock last ∧
              (tick sha256 config env queue registry).offered = w.offered) := by
  -- the guards of the source, one after the other
  cases htip : env.tip with
  | error fault =>
    left
    simp only [tick, htip]
  | ok tip =>
    by_cases hcold : registry.lastProcessedBlock = 0
    · refine Or.inr ⟨tip, rfl, Or.inl ⟨hcold, ?_⟩⟩
      simp only [tick, htip, if_pos hcold]
    by_cases hbehind : tip ≤ registry.lastProcessedBlock
    · left
      simp only [tick, htip, if_neg hcold, if_pos hbehind]
    by_cases hnone : registry.polledContracts = []
    · refine Or.inr ⟨tip, rfl, Or.inr (Or.inl ⟨hcold, hnone, ?_⟩)⟩
      simp only [tick, htip, if_neg hcold, if_neg hbehind, if_pos hnone]
    cases hahead : u64Add env.overflowChecks registry.lastProcessedBlock
        config.maxBlocksPerTick with
    | error fault =>
      left
      simp only [tick, htip, if_neg hcold, if_neg hbehind, if_neg hnone, hahead]
    | ok ahead =>
      cases hwalk : walkBlocks sha256 config env registry.polledContracts
          (min ahead tip - registry.lastProcessedBlock) (registry.lastProcessedBlock + 1)
          { queue, offered := [], stats := TickStats.zero } with
      | mk w fault =>
        cases fault with
        | some fault =>
          left
          simp only [tick, htip, if_neg hcold, if_neg hbehind, if_neg hnone, hahead, hwalk]
        | none =>
          refine Or.inr ⟨tip, rfl, Or.inr (Or.inr ⟨hcold, min ahead tip, w, hwalk, ?_, ?_⟩)⟩
          · simp only [tick, htip, if_neg hcold, if_neg hbehind, if_neg hnone, hahead, hwalk]
          · simp only [tick, htip, if_neg hcold, if_neg hbehind, if_neg hnone, hahead, hwalk]

/-! ## The system -/

/-- The source with the record of its sends; `base` is where the last cold start left
the cursor, or where the run began. -/
structure Walking where
  queue : EventQueue
  registry : PoolRegistry
  offered : List StacksEvent
  base : Nat

namespace Walking

/-- Nothing sent yet. -/
def start (queue : EventQueue) (registry : PoolRegistry) : Walking :=
  { queue, registry, offered := [], base := registry.lastProcessedBlock }

def cursor (s : Walking) : Nat := s.registry.lastProcessedBlock

section System

variable (sha256 : Sha256) (config : BlockWalkingConfig)

/-- One tick. -/
def step (s : Walking) (env : TickEnv) : Walking :=
  let t := tick sha256 config env s.queue s.registry
  { queue := t.queue
    registry := t.registry
    offered := s.offered ++ t.offered
    base := if s.cursor = 0 then t.registry.lastProcessedBlock else s.base }

/-- The tick walks past a block in spite of a gap. -/
def PassesGap (chain : Chain) (height : Nat) (tx : ChainTx) (s : Walking) (env : TickEnv) : Prop :=
  s.cursor ≠ 0 ∧ s.cursor < height ∧ height ≤ (step sha256 config s env).cursor ∧
    Gap chain config.pageSize env height tx

end System

end Walking

end StacksDex.Bridge
