import StacksDex.Bridge.PollOrder
import StacksDex.Model.EventsPage

/-!
# StacksDex — how far a poll cycle walks

Which pages a cycle comes to depends on nothing but the transaction ids they list
(`ComesTo`): it goes on past a page that is full, does not list the watermark's transaction
and leaves the cap unreached, as long as it has pages to go.

## Main results

* `walkPages_returns_iff`: a cycle returns exactly when it gets every page it comes to;
* `turn_returns_iff`: so it returns exactly when every entry on those pages decodes, and
  otherwise it has done nothing.

The build is one with overflow checks, in which the offset of a page that does not fit a
`u32` panics; that, too, is a page the cycle does not get.
-/

namespace StacksDex.Bridge

open StacksDex.Model

section Reach

variable (config : CollectorConfig) (watermark : Option String) (ids : Nat → List String)

/-- How many entries the first `i` pages list. -/
def listed (i : Nat) : Nat := ((List.range i).map fun j => (ids j).length).sum

/-- A page's entries are listed behind those of the pages before. -/
theorem listed_succ (i : Nat) : listed ids (i + 1) = listed ids i + (ids i).length := by
  simp [listed, List.range_succ]

/-- The walk does not end with page `j`. -/
def GoesPast (j : Nat) : Prop :=
  ids j ≠ [] ∧ (∀ txId, watermark = some txId → txId ∉ ids j) ∧
    config.pageSize ≤ asU32 (ids j).length ∧
    asU32 (listed ids (j + 1)) < config.maxEventsPerCycle

/-- A walk of at most `n` pages, from page `i` on, comes to page `i + k`. -/
def ComesTo (n i k : Nat) : Prop := k < n ∧ ∀ j < k, GoesPast config watermark ids (i + j)

variable {config} {watermark} {ids}

/-- A cycle with a page to go comes to its first page. -/
theorem comesTo_zero (n i : Nat) : ComesTo config watermark ids (n + 1) i 0 :=
  ⟨Nat.succ_pos n, fun _ h => absurd h (Nat.not_lt_zero _)⟩

/-- Past the first page, a walk is one from the next page. -/
theorem comesTo_succ {n i k : Nat} : ComesTo config watermark ids (n + 1) i (k + 1) ↔
    GoesPast config watermark ids i ∧ ComesTo config watermark ids n (i + 1) k := by
  constructor
  · rintro ⟨hlt, hall⟩
    refine ⟨hall 0 (Nat.succ_pos k), Nat.lt_of_succ_lt_succ hlt, fun j hj => ?_⟩
    have hnext := hall (j + 1) (Nat.succ_lt_succ hj)
    rwa [show i + (j + 1) = i + 1 + j by omega] at hnext
  · rintro ⟨hfirst, hlt, hall⟩
    refine ⟨Nat.succ_lt_succ hlt, fun j hj => ?_⟩
    rcases j with _ | j
    · exact hfirst
    · rw [show i + (j + 1) = i + 1 + j by omega]
      exact hall j (Nat.lt_of_succ_lt_succ hj)

/-- Pages that list the same ids up to page `k` are walked alike up to there. -/
theorem ComesTo.congr {ids' : Nat → List String} {n k : Nat}
    (h : ComesTo config watermark ids n 0 k) (hsame : ∀ j < k, ids' j = ids j) :
    ComesTo config watermark ids' n 0 k := by
  refine ⟨h.1, fun j hj => ?_⟩
  obtain ⟨hsome, hmark, hfull, hcap⟩ := h.2 j hj
  rw [Nat.zero_add] at hsome hmark hfull hcap ⊢
  have hlisted : listed ids' (j + 1) = listed ids (j + 1) := by
    unfold listed
    refine congrArg List.sum (List.map_congr_left fun m hm => ?_)
    rw [hsame m (by rw [List.mem_range] at hm; omega)]
  exact ⟨hsame j hj ▸ hsome, hsame j hj ▸ hmark, hsame j hj ▸ hfull, hlisted ▸ hcap⟩

/-- It comes to every page in front of one it comes to. -/
theorem ComesTo.mono {n k m : Nat} (h : ComesTo config watermark ids n 0 k) (hm : m ≤ k) :
    ComesTo config watermark ids n 0 m :=
  ⟨Nat.lt_of_le_of_lt hm h.1, fun j hj => h.2 j (Nat.lt_of_lt_of_le hj hm)⟩

end Reach

section Walk

variable {config : CollectorConfig} {watermark : Option String}
variable {fetchPage : (request limit offset : Nat) → Except Fault (List EventEnvelope)}

/-- Request `i` can be made, and brings this page. -/
def Brings (config : CollectorConfig)
    (fetchPage : (request limit offset : Nat) → Except Fault (List EventEnvelope)) (i : Nat)
    (page : List EventEnvelope) : Prop :=
  i * config.pageSize ≤ u32Max ∧ fetchPage i config.pageSize (i * config.pageSize) = .ok page

/-- The ids a walk sees on page `i`. -/
def seenIds (config : CollectorConfig)
    (fetchPage : (request limit offset : Nat) → Except Fault (List EventEnvelope)) (i : Nat) :
    List String :=
  match fetchPage i config.pageSize (i * config.pageSize) with
  | .ok page => page.map (·.txId)
  | .error _ => []

variable (watermark) in
/-- A walk that has got a page ends with it unless it goes past. -/
theorem ends_iff {w : Walk} {newest : EventEnvelope} {rest : List EventEnvelope} {i : Nat}
    (hpage : Brings config fetchPage i (newest :: rest))
    (hlength : w.toApply.length = listed (seenIds config fetchPage) i) :
    (w.withPage watermark newest rest).Ends config (newest :: rest).length ↔
      ¬ GoesPast config watermark (seenIds config fetchPage) i := by
  have hids : seenIds config fetchPage i = (newest :: rest).map (·.txId) := by
    rw [seenIds, hpage.2]
  unfold Walk.Ends Walk.withPage GoesPast
  rw [collect_eq, listed_succ, hids, List.length_map]
  dsimp only
  by_cases hmark : ∃ txId, watermark = some txId ∧ txId ∈ (newest :: rest).map (·.txId)
  · -- the watermark is on the page
    obtain ⟨txId, rfl, hmem⟩ := hmark
    obtain ⟨env, henv, rfl⟩ := List.mem_map.mp hmem
    refine ⟨fun _ h => h.2.1 _ rfl hmem, fun _ => Or.inl ?_⟩
    exact List.any_eq_true.mpr ⟨env, henv, by simp⟩
  -- it is not, so the whole page is collected and the other two tests decide
  · have hnone : ∀ env ∈ newest :: rest, watermark ≠ some env.txId := fun env henv heq =>
      hmark ⟨env.txId, heq, List.mem_map_of_mem henv⟩
    have hany : ((newest :: rest).any fun env => decide (watermark = some env.txId)) = false := by
      rw [List.any_eq_false]
      exact fun env henv => by simpa using hnone env henv
    have hall : (newest :: rest).takeWhile (fun env => !decide (watermark = some env.txId)) =
        newest :: rest := by
      rw [List.takeWhile_eq_self_iff]
      exact fun env henv => by simpa using hnone env henv
    rw [hany, hall, List.length_append, hlength]
    constructor
    · rintro (h | h | h) ⟨-, -, hfull, hcap⟩
      · exact absurd h Bool.false_ne_true
      · omega
      · omega
    · intro h
      by_contra hgo
      simp only [not_or, not_lt, ge_iff_le, not_le] at hgo
      exact h ⟨by simp, fun txId heq hmem => hmark ⟨txId, heq, hmem⟩, hgo.2.1, hgo.2.2⟩

/-- The walk after a page it does not end with. -/
theorem length_withPage {w : Walk} {newest : EventEnvelope} {rest : List EventEnvelope} {i : Nat}
    (hpage : Brings config fetchPage i (newest :: rest))
    (hlength : w.toApply.length = listed (seenIds config fetchPage) i)
    (hgo : GoesPast config watermark (seenIds config fetchPage) i) :
    (w.withPage watermark newest rest).toApply.length =
      listed (seenIds config fetchPage) (i + 1) := by
  have hids : seenIds config fetchPage i = (newest :: rest).map (·.txId) := by
    rw [seenIds, hpage.2]
  obtain ⟨-, hmark, -, -⟩ := hgo
  rw [hids] at hmark
  have hall : (newest :: rest).takeWhile (fun env => !decide (watermark = some env.txId)) =
      newest :: rest := by
    rw [List.takeWhile_eq_self_iff]
    intro env henv
    have hne : watermark ≠ some env.txId := fun heq =>
      hmark env.txId heq (List.mem_map_of_mem henv)
    simpa using hne
  rw [Walk.withPage, collect_eq, hall, List.length_append, hlength, listed_succ, hids,
    List.length_map]

/-- What a walk does with a page. -/
theorem walkPages_page {w : Walk} {newest : EventEnvelope} {rest : List EventEnvelope} {n i : Nat}
    (hpage : Brings config fetchPage i (newest :: rest)) :
    ((w.withPage watermark newest rest).Ends config (newest :: rest).length →
        walkPages config fetchPage watermark (n + 1) i w =
          .ok (w.withPage watermark newest rest)) ∧
      (¬ (w.withPage watermark newest rest).Ends config (newest :: rest).length →
        walkPages config fetchPage watermark (n + 1) i w =
          walkPages config fetchPage watermark n (i + 1) (w.withPage watermark newest rest)) := by
  -- the three tests, one inside the other
  have hstep : walkPages config fetchPage watermark (n + 1) i w =
      if (w.withPage watermark newest rest).reachedWatermark then
        .ok (w.withPage watermark newest rest)
      else if asU32 (newest :: rest).length < config.pageSize then
        .ok (w.withPage watermark newest rest)
      else if asU32 (w.withPage watermark newest rest).toApply.length ≥
          config.maxEventsPerCycle then
        .ok (w.withPage watermark newest rest)
      else walkPages config fetchPage watermark n (i + 1) (w.withPage watermark newest rest) := by
    rw [walkPages, u32Mul_ok hpage.1, ok_bind, hpage.2, ok_bind]
    rfl
  rw [hstep]
  unfold Walk.Ends
  constructor
  · rintro (h | h | h)
    · rw [if_pos h]
    · rw [if_pos h, ite_self]
    · rw [if_pos h, ite_self, ite_self]
  · intro h
    simp only [not_or] at h
    rw [if_neg h.1, if_neg h.2.1, if_neg h.2.2]

/-- **A walk returns exactly when it gets every page it comes to.** -/
theorem walkPages_returns_iff {n i : Nat} {w : Walk}
    (hlength : w.toApply.length = listed (seenIds config fetchPage) i) :
    (∃ w', walkPages config fetchPage watermark n i w = .ok w') ↔
      ∀ k, ComesTo config watermark (seenIds config fetchPage) n i k →
        ∃ page, Brings config fetchPage (i + k) page := by
  -- on the pages to go
  induction n generalizing i w with
  | zero => exact ⟨fun _ k hk => absurd hk.1 (Nat.not_lt_zero k), fun _ => ⟨w, rfl⟩⟩
  | succ n ih =>
    by_cases hfirst : ∃ page, Brings config fetchPage i page
    · obtain ⟨page, hpage⟩ := hfirst
      rcases page with _ | ⟨newest, rest⟩
      · -- an empty page ends the walk
        have hnone : ¬ GoesPast config watermark (seenIds config fetchPage) i := by
          rintro ⟨hsome, -⟩
          rw [seenIds, hpage.2] at hsome
          exact hsome rfl
        refine ⟨fun _ k hk => ?_, fun _ => ⟨w, ?_⟩⟩
        · rcases k with _ | k
          · exact ⟨_, hpage⟩
          · exact absurd (comesTo_succ.mp hk).1 hnone
        · rw [walkPages, u32Mul_ok hpage.1, ok_bind, hpage.2]
          rfl
      · have hends := ends_iff watermark hpage hlength
        by_cases hgo : GoesPast config watermark (seenIds config fetchPage) i
        · rw [(walkPages_page hpage).2 (mt hends.mp (not_not.mpr hgo)),
            ih (length_withPage hpage hlength hgo)]
          constructor
          · intro h k hk
            rcases k with _ | k
            · exact ⟨_, hpage⟩
            · rw [show i + (k + 1) = i + 1 + k by omega]
              exact h k (comesTo_succ.mp hk).2
          · intro h k hk
            rw [show i + 1 + k = i + (k + 1) by omega]
            exact h (k + 1) (comesTo_succ.mpr ⟨hgo, hk⟩)
        · refine ⟨fun _ k hk => ?_, fun _ => ⟨_, (walkPages_page hpage).1 (hends.mpr hgo)⟩⟩
          rcases k with _ | k
          · exact ⟨_, hpage⟩
          · exact absurd (comesTo_succ.mp hk).1 hgo
    · constructor
      · rintro ⟨w', hok⟩
        obtain ⟨offset, hoffset, hok⟩ := bind_eq_ok.mp hok
        obtain ⟨page, hpage, -⟩ := bind_eq_ok.mp hok
        have hfits : i * config.pageSize ≤ u32Max := by
          by_contra hover
          rw [u32Mul, if_neg hover] at hoffset
          exact absurd hoffset (by simp)
        rw [u32Mul_eq_ok hoffset] at hpage
        exact absurd ⟨page, hfits, hpage⟩ hfirst
      · intro h
        exact absurd (h 0 (comesTo_zero n i)) hfirst

end Walk

/-! ## Entries -/

/-- No emitter makes the entry decode. -/
def Undecodable (r : PageEvent) : Prop :=
  ∀ emitter env, parseEnvelope emitter r ≠ .ok env

/-- A loop that fails with its first failure returns exactly when no element fails. -/
theorem mapM_returns_iff {α β : Type} {f : α → Except Fault β} {xs : List α} :
    (∃ ys, xs.mapM f = .ok ys) ↔ ∀ x ∈ xs, ∃ y, f x = .ok y := by
  constructor
  · rintro ⟨ys, hys⟩ x hx
    obtain ⟨y, -, hy⟩ := exists_of_mem_mapM hys hx
    exact ⟨y, hy⟩
  · intro h
    induction xs with
    | nil => exact ⟨[], rfl⟩
    | cons x xs ih =>
      obtain ⟨y, hy⟩ := h x (List.mem_cons_self ..)
      obtain ⟨ys, hys⟩ := ih fun x' hx' => h x' (List.mem_cons_of_mem _ hx')
      exact ⟨y :: ys, by rw [List.mapM_cons, hy, ok_bind, hys, ok_bind]; rfl⟩

/-- An envelope keeps its entry's transaction, and another emitter's decodes as well. -/
theorem parseEnvelope_ok {emitter : Principal} {r : PageEvent} {env : PageEnvelope}
    (h : parseEnvelope emitter r = .ok env) :
    env.txId = r.txId ∧ ∀ other, ∃ env', parseEnvelope other r = .ok env' := by
  unfold parseEnvelope at h ⊢
  rcases hhex : r.printHex with _ | hex
  · simp only [hhex] at h
    cases h
    exact ⟨rfl, fun _ => ⟨_, rfl⟩⟩
  · simp only [hhex] at h
    obtain ⟨bytes, hbytes, h⟩ := bind_eq_ok.mp h
    obtain ⟨payload, hpayload, h⟩ := bind_eq_ok.mp h
    cases h
    refine ⟨rfl, fun other => ?_⟩
    dsimp only
    rw [hbytes, ok_bind, hpayload, ok_bind]
    exact ⟨_, rfl⟩

/-- An entry is undecodable when reading it gives no envelope, whoever emitted it. -/
theorem not_undecodable_iff {r : PageEvent} (emitter : Principal) :
    ¬ Undecodable r ↔ ∃ env, parseEnvelope emitter r = .ok env := by
  constructor
  · intro h
    simp only [Undecodable, not_forall, not_not] at h
    obtain ⟨other, env, henv⟩ := h
    exact (parseEnvelope_ok henv).2 emitter
  · rintro ⟨env, henv⟩ h
    exact h emitter env henv

/-- Reading a page keeps its transaction ids, so where a walk ends does not depend on what the
entries decode to. -/
theorem txIds_parsePage {emitter : Principal} {rs : List PageEvent} {envs : List PageEnvelope}
    (h : rs.mapM (parseEnvelope emitter) = .ok envs) :
    envs.map (·.txId) = rs.map PageEvent.txId := by
  have hall := forall₂_of_mapM h
  clear h
  induction hall with
  | nil => rfl
  | cons hr _ ih => rw [List.map_cons, List.map_cons, (parseEnvelope_ok hr).1, ih]

/-! ## Cycles -/

section Cycle

variable {sha256 : Sha256} {baseUrl contractId : String} {config : CollectorConfig}
variable {env : PollEnv} {pages : Nat → List PageEvent}

/-- The cycle's requests are answered, with these pages. -/
def Serves (baseUrl contractId : String) (config : CollectorConfig) (env : PollEnv)
    (pages : Nat → List PageEvent) : Prop :=
  ∀ i, ∃ status reason, status ≠ 429 ∧ isSuccess status = true ∧
    env.reply i (eventsUrl baseUrl contractId config.pageSize (i * config.pageSize)) =
      .response status reason (.ok (pages i))

/-- The transactions the pages list. -/
def pageIds (pages : Nat → List PageEvent) (i : Nat) : List String := (pages i).map PageEvent.txId

/-- An answered page is the entries on it, parsed. -/
theorem Serves.fetchPage_eq (h : Serves baseUrl contractId config env pages) {emitter : Principal}
    (hparse : Principal.parse sha256 contractId = .ok emitter) (i : Nat) :
    env.fetchPage sha256 baseUrl contractId i config.pageSize (i * config.pageSize) =
      ((pages i).mapM (parseEnvelope emitter)).map (·.map PageEnvelope.toEventEnvelope) := by
  obtain ⟨status, reason, hlimited, hsuccess, hreply⟩ := h i
  rw [PollEnv.fetchPage, hreply, fetchEventsPage, if_neg hlimited,
    if_neg (not_not.mpr hsuccess), hparse]
  rfl

/-- A page is brought when its offset fits and all of its entries decode. -/
theorem Serves.brings_iff (h : Serves baseUrl contractId config env pages) {emitter : Principal}
    (hparse : Principal.parse sha256 contractId = .ok emitter) (i : Nat) :
    (∃ page, Brings config (env.fetchPage sha256 baseUrl contractId) i page) ↔
      i * config.pageSize ≤ u32Max ∧ ∀ r ∈ pages i, ¬ Undecodable r := by
  simp only [Brings, h.fetchPage_eq hparse, not_undecodable_iff emitter]
  rw [← mapM_returns_iff]
  rcases (pages i).mapM (parseEnvelope emitter) with fault | envs
  · simp
  · simp

/-- The walk sees the ids that are listed, on every page it gets. -/
theorem Serves.seenIds_eq (h : Serves baseUrl contractId config env pages) {emitter : Principal}
    (hparse : Principal.parse sha256 contractId = .ok emitter) {i : Nat}
    (hbrings : (∃ page, Brings config (env.fetchPage sha256 baseUrl contractId) i page) ∨
      seenIds config (env.fetchPage sha256 baseUrl contractId) i ≠ []) :
    seenIds config (env.fetchPage sha256 baseUrl contractId) i = pageIds pages i := by
  have hfetch := h.fetchPage_eq hparse i
  unfold seenIds at hbrings ⊢
  rcases henvs : (pages i).mapM (parseEnvelope emitter) with fault | envs
  · rw [henvs] at hfetch
    rw [hfetch] at hbrings
    rcases hbrings with ⟨page, -, hpage⟩ | hsome
    · rw [hfetch] at hpage
      cases hpage
    · exact absurd rfl hsome
  · rw [henvs] at hfetch
    rw [hfetch]
    dsimp only [map_ok]
    rw [List.map_map, pageIds, ← txIds_parsePage henvs]
    rfl

/-- **A cycle whose requests are answered returns exactly when every entry on the pages it comes
to decodes**; their ids alone decide which pages these are. -/
theorem Serves.walk_returns_iff (h : Serves baseUrl contractId config env pages)
    {emitter : Principal} (hparse : Principal.parse sha256 contractId = .ok emitter)
    (watermark : Option String) (n : Nat) :
    (∃ w, walkPages config (env.fetchPage sha256 baseUrl contractId) watermark n 0
        { toApply := [], newestSeen := none, reachedWatermark := false } = .ok w) ↔
      ∀ i, ComesTo config watermark (pageIds pages) n 0 i →
        i * config.pageSize ≤ u32Max ∧ ∀ r ∈ pages i, ¬ Undecodable r := by
  rw [walkPages_returns_iff rfl]
  constructor
  · intro hall i
    -- the pages before this one were brought, so the walk sees what they list
    induction i using Nat.strong_induction_on with
    | _ i ih =>
      intro hcomes
      have hsame : ∀ j < i, seenIds config (env.fetchPage sha256 baseUrl contractId) j =
          pageIds pages j := fun j hj =>
        h.seenIds_eq hparse (Or.inl ((h.brings_iff hparse j).mpr (ih j hj (hcomes.mono hj.le))))
      have hbrings := hall i (hcomes.congr hsame)
      rw [Nat.zero_add] at hbrings
      exact (h.brings_iff hparse i).mp hbrings
  · intro hall i hcomes
    rw [Nat.zero_add]
    refine (h.brings_iff hparse i).mpr (hall i (hcomes.congr fun j hj => ?_))
    have hpast := hcomes.2 j hj
    rw [Nat.zero_add] at hpast
    exact (h.seenIds_eq hparse (Or.inr hpast.1)).symm

end Cycle

end StacksDex.Bridge
