import StacksDex.Bridge.BlockWalk
import StacksDex.Results.Isolation

/-!
# StacksDex — no skipped block

The cursor of the block walker moves past a block only after its events have been
passed on, or past a gap: a block that was answered as not found is walked as an
empty one, and a transaction whose details could not be had is walked without its
events. Whatever else fails, fails the tick and leaves the cursor alone.

## Main results

* `passedOn_step`: one tick, with any tip and any failures;
* `no_skipped_block`: a run of ticks, by the rule that what was lost was lost in some step
  (`Run.exec_or_sometime`);
* `block_walk_skips`: the gaps, at one block.

"Passed on" means offered to the queue; what becomes of an event there is for the modules on
the queue.
-/

namespace StacksDex.Results

open StacksDex.Lib StacksDex.Model StacksDex.Bridge

/-! ## Runs of ticks -/

/-- The cursor is past the block only if the event has been passed on. -/
structure PassedOn (registered : List Principal) (height : Nat) (event : StacksEvent)
    (s : Walking) : Prop where
  /-- The polled contracts are those of the beginning. -/
  polled : s.registry.polledContracts = registered
  /-- Past a block above the base, with its event on record. -/
  passed : s.base < height → height ≤ s.cursor → event ∈ s.offered

section Runs

variable {chain : Chain} {sha256 : Sha256} {config : BlockWalkingConfig}
variable {registered : List Principal} {height : Nat} {tx : ChainTx} {event : StacksEvent}

/-- **One tick**, with any tip and any failures. -/
theorem passedOn_step (htx : tx ∈ chain height) (hprints : Prints sha256 registered tx event)
    (s : Walking) (env : TickEnv) (hs : PassedOn registered height event s)
    (hhonest : Honest chain config.pageSize env) :
    PassedOn registered height event (Walking.step sha256 config s env) ∨
      Walking.PassesGap sha256 config chain height tx s env := by
  obtain ⟨hpolled, hpassed⟩ := hs
  rcases tick_cases sha256 config env s.queue s.registry with
    hsame | ⟨tip, -, ⟨hcold, hset⟩ | ⟨hwarm, hnone, hset⟩ | ⟨hwarm, last, w, hwalk, hset, hsent⟩⟩
  · -- the cursor stays
    refine Or.inl ⟨?_, ?_⟩
    · show (tick sha256 config env s.queue s.registry).registry.polledContracts = registered
      rw [hsame]
      exact hpolled
    · intro hfrom hto
      simp only [Walking.step, Walking.cursor, hsame] at hfrom hto
      refine List.mem_append_left _ (hpassed ?_ hto)
      by_cases hzero : s.registry.lastProcessedBlock = 0
      · rw [if_pos hzero] at hfrom
        omega
      · rw [if_neg hzero] at hfrom
        exact hfrom
  · -- a cold start: the base moves with the cursor
    refine Or.inl ⟨?_, ?_⟩
    · show (tick sha256 config env s.queue s.registry).registry.polledContracts = registered
      rw [hset]
      exact hpolled
    · intro hfrom hto
      simp only [Walking.step, Walking.cursor, hset, if_pos hcold] at hfrom hto
      omega
  · -- nothing to poll, so nothing to miss
    obtain ⟨ev, -, -, hmem⟩ := hprints
    rw [← hpolled, hnone] at hmem
    cases hmem
  · -- a walk up to `last`
    have hbase : (Walking.step sha256 config s env).base = s.base := if_neg hwarm
    have hcursor : (Walking.step sha256 config s env).cursor = last := by
      show (tick sha256 config env s.queue s.registry).registry.lastProcessedBlock = last
      rw [hset]
      rfl
    have hoffered : (Walking.step sha256 config s env).offered = s.offered ++ w.offered := by
      show s.offered ++ (tick sha256 config env s.queue s.registry).offered = _
      rw [hsent]
    rw [hpolled] at hwalk
    obtain ⟨-, hcovered⟩ := walkBlocks_covers hhonest hwalk
    by_cases hgap : Walking.PassesGap sha256 config chain height tx s env
    · exact Or.inr hgap
    refine Or.inl ⟨?_, ?_⟩
    · show (tick sha256 config env s.queue s.registry).registry.polledContracts = registered
      rw [hset]
      exact hpolled
    · intro hfrom hto
      rw [hbase] at hfrom
      rw [hcursor] at hto
      rw [hoffered, List.mem_append]
      by_cases hold : height ≤ s.cursor
      · exact Or.inl (hpassed hfrom hold)
      · -- walked in this tick
        have hnew : s.registry.lastProcessedBlock < height := Nat.lt_of_not_le hold
        rcases hcovered height hnew (by omega) tx htx event hprints with hmem | hmissing
        · exact Or.inr hmem
        · exact absurd ⟨hwarm, hnew, by rw [hcursor]; exact hto, hmissing⟩ hgap

/--
**No skipped block.** In every run of ticks, whatever the tips and the answers: once the
cursor is past a block that lies above its cold start, every event of a polled contract in the
block that decodes has been passed to `send_dedup`, unless some tick of the run walked past
the block although it was not found or the details of the transaction could not be had. Any
other error stops the tick with the cursor below the block, and the next tick comes to it
again.
-/
theorem no_skipped_block {queue : EventQueue} {registry : PoolRegistry} {ticks : List TickEnv}
    (hhonest : ∀ env ∈ ticks, Honest chain config.pageSize env) (htx : tx ∈ chain height)
    (hprints : Prints sha256 registry.polledContracts tx event)
    (hfrom : (Run.exec (Walking.step sha256 config) (Walking.start queue registry) ticks).base <
      height)
    (hto : height ≤
      (Run.exec (Walking.step sha256 config) (Walking.start queue registry) ticks).cursor) :
    event ∈ (Run.exec (Walking.step sha256 config) (Walking.start queue registry) ticks).offered ∨
      Run.Sometime (Walking.step sha256 config) (Walking.PassesGap sha256 config chain height tx)
        (Walking.start queue registry) ticks := by
  -- at the start the cursor is at the base, so there is no block between them
  have hstart : PassedOn registry.polledContracts height event
      (Walking.start queue registry) :=
    ⟨rfl, fun hfrom hto => absurd hfrom (Nat.not_lt.mpr hto)⟩
  have hrun : Run.Along (Walking.step sha256 config)
      (fun _ env => Honest chain config.pageSize env) (Walking.start queue registry) ticks :=
    Run.along_of_forall (fun _ env henv => hhonest env henv) _
  rcases Run.exec_or_sometime (passedOn_step htx hprints) hstart hrun with hsafe | hgap
  · exact Or.inl (hsafe.passed hfrom hto)
  · exact Or.inr hgap

end Runs

/-- A print of a contract of the burn address, and the call that made it. -/
def printOf (hex : String) : RawEvent where
  eventType := "smart_contract_log"
  eventIndex := 0
  contractLog := some {
    contractId := "SP000000000000000000002Q6VF78.pool"
    topic := "print"
    value := some { hex := some hex } }

def callTx (hex : String) : ChainTx where
  txId := "0x01"
  txType := "contract_call"
  contractCall := some "SP000000000000000000002Q6VF78.pool"
  events := [printOf hex]

/-- Nothing but that transaction, in block 11. -/
def oneCall (hex : String) : Chain := fun height => if height = 11 then [callTx hex] else []

/-- `{action: "ping", data: {x: u42}}`. -/
def pingHex : String :=
  "0x0c0000000206616374696f6e0d0000000470696e6704646174610c000000010178010000000000000000000000000000002a"

def ping : StacksEvent where
  emitter := deployed "pool"
  txId := "0x01"
  eventIndex := 0
  action := "ping"
  data := [("x", .uint 42)]

def smallPages : BlockWalkingConfig where
  pageSize := ⟨50, by decide⟩
  maxBlocksPerTick := 30

/-- Every request is answered, and the tip is block 11. -/
def servingTick (chain : Chain) : TickEnv where
  tip := .ok 11
  blockPage := fun height offset => .response 200 "OK" (.ok
    { total := (chain height).length
      results := (((chain height).drop offset).take 50).map ChainTx.listing })
  txDetail := fun height txId =>
    match (chain height).find? (·.txId = txId) with
    | some tx => .response 200 "OK" (.ok tx.events)
    | none => .response 404 "Not Found" (.error "not found")
  iters := fun _ _ => []
  overflowChecks := true

/-- The block is not indexed yet. -/
def unindexedTick : TickEnv :=
  { servingTick (oneCall pingHex) with
    blockPage := fun _ _ => .response 404 "Not Found" (.error "not found") }

/-- The block is listed, but the details are rate limited. -/
def limitedTick : TickEnv :=
  { servingTick (oneCall pingHex) with
    txDetail := fun _ _ => .response 429 "Too Many Requests" (.error "rate limited") }

/-- The cursor is at block 10 and one contract is polled. -/
def atTen : Walking :=
  Walking.start { channel := [], capacity := 64, closed := false, seen := ∅, seenCap := 256 }
    { byId := []
      keysDistinct := List.nodup_nil
      watermarks := []
      topics := [⟨deployed "pool", "ping"⟩]
      lastProcessedBlock := 10 }

/-- The text of the contract that is polled. -/
theorem parse_burnPool :
    Principal.parse burnSha256 "SP000000000000000000002Q6VF78.pool" = .ok (deployed "pool") := by
  decide +kernel

/-- The print of the call, decoded. -/
theorem decode_ping :
    decodeRawEvent burnSha256 "0x01" (printOf pingHex) = .ok (some ping) := by
  have hhex : hexDecode (stripHexMark pingHex) = .ok
      [12, 0, 0, 0, 2, 6, 97, 99, 116, 105, 111, 110, 13, 0, 0, 0, 4, 112, 105, 110, 103, 4, 100,
        97, 116, 97, 12, 0, 0, 0, 1, 1, 120, 1, 0, 0, 0, 0, 0, 0, 0, 0, 0, 0, 0, 0, 0, 0, 0, 42] := by
    decide +kernel
  -- with the bytes known, the rest of the decoding is evaluation
  simp only [decodeRawEvent, printOf, parse_burnPool, dropErr_ok, ok_bind, Option.bind_some, hhex]
  rfl

/-- A node that answers everything is honest. -/
theorem honest_servingTick (hex : String) :
    Honest (oneCall hex) smallPages.pageSize (servingTick (oneCall hex)) where
  pages := by
    intro height offset status reason page hreply _
    cases hreply
    exact ⟨rfl, rfl⟩
  details := by
    intro height tx htx status reason events hreply hsuccess
    by_cases hheight : height = 11
    · subst hheight
      obtain rfl : tx = callTx hex := by simpa [oneCall] using htx
      have hfound : (oneCall hex 11).find? (fun tx => decide (tx.txId = (callTx hex).txId)) =
          some (callTx hex) := rfl
      simp only [servingTick, hfound] at hreply
      cases hreply
      rfl
    · simp [oneCall, hheight] at htx

/-- What the list says about the call. -/
def listedCall : BlockTransaction where
  txId := "0x01"
  contractCallTarget := some (deployed "pool")
  eventCount := 1
  events := []

/-- The one page of block 11, where it is served. -/
theorem fetch_oneCall (hex : String) :
    fetchBlockTransactions burnSha256 smallPages.pageSize 11
        ((servingTick (oneCall hex)).blockPage 11) =
      .ok [listedCall] := by
  -- the entry decodes, whatever the events of the transaction are
  have hlisted : [(callTx hex).listing].mapM (decodeTx burnSha256) = .ok [listedCall] := by
    simp only [List.mapM_cons, List.mapM_nil, decodeTx, callTarget, ChainTx.listing, callTx,
      parse_burnPool]
    rfl
  have hpage : (servingTick (oneCall hex)).blockPage 11 0 =
      .response 200 "OK" (.ok { total := 1, results := [(callTx hex).listing] }) := rfl
  rw [fetchBlockTransactions, blockPages, hpage]
  dsimp only
  rw [hlisted]
  rfl

/-- A tick that only walks block 11. -/
theorem exec_atTen {env : TickEnv} (htip : env.tip = .ok 11) (hchecks : env.overflowChecks = true)
    {w : WalkState}
    (hwalk : walkBlock burnSha256 smallPages env [deployed "pool"] 11
      { queue := atTen.queue, offered := [], stats := TickStats.zero } = .ok w) :
    (Run.exec (Walking.step burnSha256 smallPages) atTen [env]).cursor = 11 ∧
      (Run.exec (Walking.step burnSha256 smallPages) atTen [env]).offered = w.offered := by
  have hpolled : atTen.registry.polledContracts = [deployed "pool"] := by decide
  have htick : tick burnSha256 smallPages env atTen.queue atTen.registry =
      { queue := w.queue
        registry := atTen.registry.setLastProcessedBlock 11
        offered := w.offered
        result := .ok w.stats } := by
    have hcursor : atTen.registry.lastProcessedBlock = 10 := rfl
    have hahead : u64Add true 10 smallPages.maxBlocksPerTick = .ok 40 := rfl
    -- the walk is the one block
    have hwalks : walkBlocks burnSha256 smallPages env [deployed "pool"] 1 11
        { queue := atTen.queue, offered := [], stats := TickStats.zero } = (w, none) := by
      rw [walkBlocks, hwalk]
      rfl
    have hturns : min 40 11 - 10 = 1 := rfl
    simp only [tick, htip, hchecks, hcursor, hpolled, hahead, hturns, hwalks]
    rfl
  simp only [Run.exec_cons, Run.exec_nil, Walking.step, Walking.cursor, htick]
  exact ⟨rfl, rfl⟩

/-- Where the block is listed, what the details bring is passed on. -/
theorem exec_listed {env : TickEnv} {hex : String} (htip : env.tip = .ok 11)
    (hchecks : env.overflowChecks = true)
    (hpages : env.blockPage = (servingTick (oneCall hex)).blockPage) {events : List StacksEvent}
    (hdetail : populate burnSha256 (env.txDetail 11) listedCall = .ok { listedCall with events }) :
    (Run.exec (Walking.step burnSha256 smallPages) atTen [env]).cursor = 11 ∧
      (Run.exec (Walking.step burnSha256 smallPages) atTen [env]).offered = events := by
  -- the call is a candidate, and its events are in scope
  have hcandidates : [listedCall].filter (isCandidate [deployed "pool"]) = [listedCall] := rfl
  have hrelevant : relevantEvents [deployed "pool"] { listedCall with events } = events := by
    refine List.filter_eq_self.mpr ?_
    intro event _
    have htouches : touchesRegistered [deployed "pool"] { listedCall with events } = true := by
      simp [touchesRegistered, listedCall]
    rw [htouches, Bool.true_or]
  have hingested : ∃ n, ingestBlockTxs burnSha256 [deployed "pool"] (env.txDetail 11) [listedCall] =
      .ok { offered := events, txsRelevant := n } := by
    refine ⟨([{ listedCall with events }].filter fun tx =>
      relevantEvents [deployed "pool"] tx ≠ []).length, ?_⟩
    rw [ingestBlockTxs, hcandidates, List.mapM_cons, hdetail, ok_bind, List.mapM_nil]
    simp only [pure_bind, List.flatMap_cons, List.flatMap_nil, hrelevant, List.append_nil]
  obtain ⟨n, hingested⟩ := hingested
  have hwalk : ∃ w, walkBlock burnSha256 smallPages env [deployed "pool"] 11
      { queue := atTen.queue, offered := [], stats := TickStats.zero } = .ok w ∧
        w.offered = events := by
    rw [walkBlock, hpages, fetch_oneCall, ok_bind, if_neg (List.cons_ne_nil _ _), hingested]
    exact ⟨_, rfl, rfl⟩
  obtain ⟨w, hwalk, rfl⟩ := hwalk
  exact exec_atTen htip hchecks hwalk

/-- The details of the call bring what its print decodes to. -/
theorem populate_servingTick {hex : String} {decoded : Option StacksEvent}
    (h : decodeRawEvent burnSha256 "0x01" (printOf hex) = .ok decoded) :
    populate burnSha256 ((servingTick (oneCall hex)).txDetail 11) listedCall =
      .ok { listedCall with events := decoded.toList } := by
  have hreply : (servingTick (oneCall hex)).txDetail 11 listedCall.txId =
      .response 200 "OK" (.ok [printOf hex]) := rfl
  have hfetch : fetchTxEvents burnSha256 listedCall.txId
      (.response 200 "OK" (.ok [printOf hex])) = .ok decoded.toList := by
    show decodeRawEvents burnSha256 "0x01" [printOf hex] = _
    rw [decodeRawEvents, h]
    show Except.ok (decoded.toList ++ []) = _
    rw [List.append_nil]
  rw [populate, if_neg (by simp [listedCall]), hreply, hfetch]
  rfl

/-- The call prints an event in scope. -/
theorem prints_ping :
    Prints burnSha256 atTen.registry.polledContracts (callTx pingHex) ping :=
  ⟨printOf pingHex, List.mem_singleton.mpr rfl, decode_ping, by decide⟩

/-- A node that serves block 11 and the details of its call. -/
theorem no_skipped_block_ping :
    ping ∈ (Run.exec (Walking.step burnSha256 smallPages) atTen
        [servingTick (oneCall pingHex)]).offered ∨
      Run.Sometime (Walking.step burnSha256 smallPages)
        (Walking.PassesGap burnSha256 smallPages (oneCall pingHex) 11 (callTx pingHex)) atTen
        [servingTick (oneCall pingHex)] := by
  obtain ⟨hcursor, -⟩ := exec_listed rfl rfl rfl (populate_servingTick decode_ping)
  have htx : callTx pingHex ∈ oneCall pingHex 11 := List.mem_singleton.mpr rfl
  refine no_skipped_block ?_ htx prints_ping ?_ ?_
  · intro env henv
    rw [List.mem_singleton.mp henv]
    exact honest_servingTick pingHex
  · show 10 < 11
    decide
  · show 11 ≤ (Run.exec (Walking.step burnSha256 smallPages) atTen _).cursor
    rw [hcursor]

/-- A block that is not indexed yet, details that are rate limited, and a print that is not a
tuple: in each case the cursor moves past block 11 and nothing has been passed on. -/
theorem block_walk_skips :
    (Prints burnSha256 atTen.registry.polledContracts (callTx pingHex) ping ∧
      Honest (oneCall pingHex) smallPages.pageSize unindexedTick ∧
      (Run.exec (Walking.step burnSha256 smallPages) atTen [unindexedTick]).cursor = 11 ∧
      (Run.exec (Walking.step burnSha256 smallPages) atTen [unindexedTick]).offered = []) ∧
    (Honest (oneCall pingHex) smallPages.pageSize limitedTick ∧
      (Run.exec (Walking.step burnSha256 smallPages) atTen [limitedTick]).cursor = 11 ∧
      (Run.exec (Walking.step burnSha256 smallPages) atTen [limitedTick]).offered = []) ∧
    (Honest (oneCall "0x09") smallPages.pageSize (servingTick (oneCall "0x09")) ∧
      (Run.exec (Walking.step burnSha256 smallPages) atTen [servingTick (oneCall "0x09")]).cursor =
        11 ∧
      (Run.exec (Walking.step burnSha256 smallPages) atTen [servingTick (oneCall "0x09")]).offered =
        []) := by
  have hserving := honest_servingTick pingHex
  refine ⟨⟨prints_ping, ⟨?_, hserving.details⟩, ?_⟩, ⟨⟨hserving.pages, ?_⟩, ?_⟩,
    honest_servingTick "0x09", ?_⟩
  · intro height offset status reason page hreply hsuccess
    cases hreply
  · -- a 404 is an empty block
    have hwalk : walkBlock burnSha256 smallPages unindexedTick [deployed "pool"] 11
        { queue := atTen.queue, offered := [], stats := TickStats.zero } =
          .ok { queue := atTen.queue, offered := [], stats := TickStats.zero } := by
      rw [walkBlock, fetchBlockTransactions, blockPages]
      rfl
    exact exec_atTen rfl rfl hwalk
  · intro height tx htx status reason events hreply hsuccess
    cases hreply
  -- a failed request leaves the transaction without events
  · have hlost : populate burnSha256 (limitedTick.txDetail 11) listedCall = .ok listedCall := rfl
    have hpages : limitedTick.blockPage = (servingTick (oneCall pingHex)).blockPage := rfl
    exact exec_listed rfl rfl hpages hlost
  -- an `optionalNone` is no payload
  · have hdecode : decodeRawEvent burnSha256 "0x01" (printOf "0x09") = .ok none := by
      have hhex : hexDecode (stripHexMark "0x09") = .ok [9] := by decide +kernel
      simp only [decodeRawEvent, printOf, parse_burnPool, dropErr_ok, ok_bind, Option.bind_some,
        hhex]
      rfl
    exact exec_listed rfl rfl rfl (populate_servingTick hdecode)

end StacksDex.Results
