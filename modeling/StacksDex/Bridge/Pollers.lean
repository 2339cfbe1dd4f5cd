import StacksDex.Lib.Run
import StacksDex.Model.CollectorHandle

/-!
# StacksDex — which pollers a collector spawns

A running collector spawns pollers from two places: the source task, for the contracts it
finds in the registry when it starts, and `add_pool`, for those that are not in `polled`.
Every spawn is a step of its own here, so the two may interleave. `claims` lists the
pollers that run and those the two places are committed to, and each step is read off
from what it adds there.
-/

namespace StacksDex.Bridge

open StacksDex.Lib StacksDex.Model

/-- A collector with the per-contract source. -/
structure Collecting where
  handle : CollectorHandle
  /-- What an `add_pool` in progress has still to spawn. -/
  adding : List Principal
  /-- What the source task has still to spawn, once it has looked at the registry. -/
  source : Option (List Principal)
  /-- The contracts of the pollers the source has spawned. -/
  sourceTasks : List Principal

inductive CollectingStep where
  /-- A call of `add_pool`, up to its spawns. -/
  | add (id : String) (pool : Pool)
  /-- The next spawn of that call. -/
  | spawn
  | remove (id : String)
  /-- The source task starts. -/
  | run
  /-- The next spawn of the source task. -/
  | fanOut

namespace Collecting

/-- `start_collector` has returned, and the source task has not run yet. -/
def start (registry : PoolRegistry) : Collecting := ⟨.start true registry, [], none, []⟩

def step (s : Collecting) : CollectingStep → Collecting
  -- the handle is borrowed until an `add_pool` returns
  | .add id pool =>
    if s.adding = [] then
      { s with handle := s.handle.register id pool, adding := s.handle.newContracts pool }
    else s
  | .spawn =>
    match s.adding with
    | [] => s
    | c :: rest => { s with handle := s.handle.spawnPoller c, adding := rest }
  | .remove id => if s.adding = [] then { s with handle := s.handle.removePool id } else s
  | .run =>
    match s.source with
    | none => { s with source := some (perContractRun s.handle.registry) }
    | some _ => s
  | .fanOut =>
    match s.source with
    | some (c :: rest) => { s with source := some rest, sourceTasks := s.sourceTasks ++ [c] }
    | _ => s

/-- Letting the handle spawn all it is committed to is the loop of `add_pool`. -/
theorem exec_spawn (s : Collecting) :
    Run.exec step s (List.replicate s.adding.length .spawn) =
      { s with handle := s.adding.foldl CollectorHandle.spawnPoller s.handle, adding := [] } := by
  obtain ⟨handle, adding, source, sourceTasks⟩ := s
  induction adding generalizing handle with
  | nil => rfl
  | cons c rest ih => exact ih (handle.spawnPoller c)

/-- An `add_pool` that is not interrupted is what the handle computes. -/
theorem exec_add (s : Collecting) (id : String) (pool : Pool) (hidle : s.adding = [])
    (hspawn : s.handle.spawnPerContractOnAdd = true) :
    Run.exec step s (.add id pool :: List.replicate (s.handle.newContracts pool).length .spawn) =
      { s with handle := s.handle.addPool id pool } := by
  have hadd : s.step (.add id pool) =
      { s with handle := s.handle.register id pool, adding := s.handle.newContracts pool } :=
    if_pos hidle
  rw [Run.exec_cons, hadd]
  have hrest := exec_spawn { s with
    handle := s.handle.register id pool, adding := s.handle.newContracts pool }
  rw [hrest, CollectorHandle.addPool, if_pos hspawn, hidle]

/-- The tasks running, one entry each. -/
def spawned (s : Collecting) : List Principal := s.handle.tasks ++ s.sourceTasks

/-- No contract has two pollers. -/
def AtMostOne (s : Collecting) : Prop := ∀ c, s.spawned.count c ≤ 1

/-- The source task has spawned its pollers and no `add_pool` is in progress. -/
def Settled (s : Collecting) : Prop := s.source = some [] ∧ s.adding = []

/-- Once that is so, every contract of a topic has exactly one poller. -/
def ExactlyOne (s : Collecting) : Prop :=
  s.Settled → ∀ c ∈ s.handle.registry.polledContracts, s.spawned.count c = 1

/-- An added pool lists each contract that is not polled yet in one topic, and the source
task starts before any poller is spawned for an added pool. -/
def Fresh (s : Collecting) : CollectingStep → Prop
  | .add _ pool => s.adding = [] → ∀ c, c ∉ s.handle.polled →
    (pool.topics.map (·.contract)).count c ≤ 1
  | .run => s.source = none → s.handle.tasks = [] ∧ s.adding = []
  | _ => True

/-! ## What a step can do -/

/-- The state after a step, guards included. -/
inductive Effect (s : Collecting) : CollectingStep → Collecting → Prop
  | added {id pool} (hidle : s.adding = []) :
    Effect s (.add id pool)
      { s with handle := s.handle.register id pool, adding := s.handle.newContracts pool }
  | removed {id} : Effect s (.remove id) { s with handle := s.handle.removePool id }
  | spawned {c rest} (hadding : s.adding = c :: rest) :
    Effect s .spawn { s with handle := s.handle.spawnPoller c, adding := rest }
  | ran (hwaiting : s.source = none) :
    Effect s .run { s with source := some (perContractRun s.handle.registry) }
  | fannedOut {c rest} (hsource : s.source = some (c :: rest)) :
    Effect s .fanOut { s with source := some rest, sourceTasks := s.sourceTasks ++ [c] }
  | unchanged {l} (hadd : ∀ id pool, l = .add id pool → s.adding ≠ [])
    (hrun : l = .run → s.source ≠ none) : Effect s l s

/-- **Inversion**: what each step adds to which list. -/
theorem step_effect (s : Collecting) (l : CollectingStep) : s.Effect l (s.step l) := by
  cases l with
  -- the handle's calls are turned away while an `add_pool` is spawning
  | add id pool =>
    by_cases hidle : s.adding = []
    · rw [step, if_pos hidle]
      exact .added hidle
    · rw [step, if_neg hidle]
      exact .unchanged (fun _ _ _ => hidle) (fun h => by cases h)
  | remove id =>
    by_cases hidle : s.adding = []
    · rw [step, if_pos hidle]
      exact .removed
    · rw [step, if_neg hidle]
      exact .unchanged (fun _ _ h => by cases h) (fun h => by cases h)
  | spawn =>
    cases hadding : s.adding with
    | nil =>
      simp only [step, hadding]
      exact .unchanged (fun _ _ h => by cases h) (fun h => by cases h)
    | cons c rest =>
      simp only [step, hadding]
      exact .spawned hadding
  -- the source task reads its contracts once, and then spawns them one by one
  | run =>
    cases hsource : s.source with
    | none =>
      simp only [step, hsource]
      exact .ran hsource
    | some rest =>
      simp only [step, hsource]
      exact .unchanged (fun _ _ h => by cases h) (fun _ h => by rw [hsource] at h; cases h)
  | fanOut =>
    cases hsource : s.source with
    | none =>
      simp only [step, hsource]
      exact .unchanged (fun _ _ h => by cases h) (fun h => by cases h)
    | some contracts =>
      cases contracts with
      | nil =>
        simp only [step, hsource]
        exact .unchanged (fun _ _ h => by cases h) (fun h => by cases h)
      | cons c rest =>
        simp only [step, hsource]
        exact .fannedOut hsource

/-! ## What every run preserves -/

/-- The tasks running and those that will be spawned whatever happens next. -/
def claims (s : Collecting) : List Principal := s.spawned ++ (s.adding ++ s.source.getD [])

/-- A contract is claimed by a poller that runs, by the handle or by the source. -/
theorem mem_claims {s : Collecting} {c : Principal} :
    c ∈ s.claims ↔ c ∈ s.spawned ∨ c ∈ s.adding ∨ c ∈ s.source.getD [] := by
  rw [claims, List.mem_append, List.mem_append]

/-- The contracts of the topics are those in `polled` and those an `add_pool` is about to put
there; what is claimed is one of them, and once the source has run they are all claimed. -/
structure Tracked (s : Collecting) : Prop where
  polled : ∀ c, c ∈ s.handle.registry.polledContracts ↔ c ∈ s.handle.polled ∨ c ∈ s.adding
  known : ∀ c ∈ s.claims, c ∈ s.handle.registry.polledContracts
  covered : s.source ≠ none → ∀ c ∈ s.handle.registry.polledContracts, c ∈ s.claims
  waiting : s.source = none → s.sourceTasks = []

/-- At the start the handle knows the contracts that are to be polled, and nobody polls. -/
theorem tracked_start (registry : PoolRegistry) : (start registry).Tracked where
  polled := by
    intro c
    simp [start, CollectorHandle.start]
  known := by
    intro c hc
    cases hc
  covered := fun hsome => absurd rfl hsome
  waiting := fun _ => rfl

/-- The handle is new to a contract that it has not seen polled. -/
theorem mem_newContracts {handle : CollectorHandle} {pool : Pool} {c : Principal} :
    c ∈ handle.newContracts pool ↔ c ∈ pool.topics.map (·.contract) ∧ c ∉ handle.polled := by
  rw [CollectorHandle.newContracts, List.mem_filter, decide_eq_true_eq]

/-- A spawn moves a claim from those to come to those that run. -/
theorem claims_spawn {s : Collecting} {c : Principal} {rest : List Principal}
    (hadding : s.adding = c :: rest) :
    (claims { s with handle := s.handle.spawnPoller c, adding := rest }).Perm s.claims := by
  rw [List.perm_iff_count]
  intro d
  simp only [claims, spawned, CollectorHandle.spawnPoller, hadding, List.count_append,
    List.count_cons, List.count_nil]
  omega

/-- When the source spawns a poller, a claim becomes a running poller. -/
theorem claims_fanOut {s : Collecting} {c : Principal} {rest : List Principal}
    (hsource : s.source = some (c :: rest)) :
    (claims { s with source := some rest, sourceTasks := s.sourceTasks ++ [c] }).Perm
      s.claims := by
  rw [List.perm_iff_count]
  intro d
  simp only [claims, spawned, hsource, Option.getD_some, List.count_append, List.count_cons,
    List.count_nil]
  omega

/-- **Every step keeps track** of who polls what. -/
theorem Tracked.step {s : Collecting} (h : s.Tracked) (l : CollectingStep) :
    (s.step l).Tracked := by
  generalize hs' : s.step l = s'
  have heffect : s.Effect l s' := hs' ▸ step_effect s l
  cases heffect with
  | unchanged _ _ => exact h
  | removed => exact ⟨h.polled, h.known, h.covered, h.waiting⟩
  | @added id pool hidle =>
    -- before the call the topics' contracts are those in `polled`
    have hpolled : ∀ c, c ∈ s.handle.registry.polledContracts ↔ c ∈ s.handle.polled := by
      intro c
      rw [h.polled, hidle]
      exact or_iff_left List.not_mem_nil
    have hnew : ∀ c, c ∈ (s.handle.registry.insert id pool).polledContracts ↔
        c ∈ s.handle.newContracts pool ∨ c ∈ s.handle.registry.polledContracts := by
      intro c
      rw [PoolRegistry.mem_polledContracts_insert, mem_newContracts, hpolled]
      by_cases hc : c ∈ s.handle.polled
      · exact iff_of_true (Or.inr hc) (Or.inr hc)
      · exact or_congr_left (iff_self_and.mpr fun _ => hc)
    refine ⟨fun c => ?_, fun c hc => (hnew c).mpr ?_, fun hran c hc => ?_, h.waiting⟩
    · refine (hnew c).trans ?_
      rw [hpolled]
      exact or_comm
    · rcases mem_claims.mp hc with hc | hc | hc
      · exact Or.inr (h.known c (mem_claims.mpr (Or.inl hc)))
      · exact Or.inl hc
      · exact Or.inr (h.known c (mem_claims.mpr (Or.inr (Or.inr hc))))
    · rcases (hnew c).mp hc with hc | hc
      · exact mem_claims.mpr (Or.inr (Or.inl hc))
      · rcases mem_claims.mp (h.covered hran c hc) with hc | hc | hc
        · exact mem_claims.mpr (Or.inl hc)
        · rw [hidle] at hc
          cases hc
        · exact mem_claims.mpr (Or.inr (Or.inr hc))
  | @spawned c rest hadding =>
    have hclaims := claims_spawn hadding
    refine ⟨fun d => ?_, fun d hd => h.known d (hclaims.mem_iff.mp hd),
      fun hran d hd => hclaims.mem_iff.mpr (h.covered hran d hd), h.waiting⟩
    show d ∈ s.handle.registry.polledContracts ↔ d ∈ insert c s.handle.polled ∨ d ∈ rest
    rw [h.polled, hadding, List.mem_cons, Finset.mem_insert, or_assoc]
    exact or_left_comm
  | ran hwaiting =>
    refine ⟨h.polled, fun c hc => ?_, fun _ c hc => ?_, fun hnone => by cases hnone⟩
    · rcases mem_claims.mp hc with hc | hc | hc
      · exact h.known c (mem_claims.mpr (Or.inl hc))
      · exact h.known c (mem_claims.mpr (Or.inr (Or.inl hc)))
      · exact hc
    · exact mem_claims.mpr (Or.inr (Or.inr hc))
  | @fannedOut c rest hsource =>
    have hclaims := claims_fanOut hsource
    have hran : s.source ≠ none := by
      rw [hsource]
      exact Option.some_ne_none _
    exact ⟨h.polled, fun d hd => h.known d (hclaims.mem_iff.mp hd),
      fun _ d hd => hclaims.mem_iff.mpr (h.covered hran d hd), fun hnone => by cases hnone⟩

/-- No contract is claimed twice. -/
def Single (s : Collecting) : Prop := ∀ c, s.claims.count c ≤ 1

/-- With no claim twice there is at most one poller a contract. -/
theorem Single.atMostOne {s : Collecting} (h : s.Single) : s.AtMostOne := by
  intro c
  have := h c
  rw [claims, List.count_append] at this
  omega

/-- Once everything claimed has been spawned, the claims are the tasks that run. -/
theorem claims_settled {s : Collecting} (hsettled : s.Settled) : s.claims = s.spawned := by
  rw [claims, hsettled.1, hsettled.2]
  exact List.append_nil _

/-- And when all commitments are met there is exactly one. -/
theorem Single.exactlyOne {s : Collecting} (h : s.Single) (htracked : s.Tracked) :
    s.ExactlyOne := by
  intro hsettled c hc
  have hran : s.source ≠ none := by
    rw [hsettled.1]
    exact Option.some_ne_none _
  have hclaimed : 0 < s.claims.count c := List.count_pos_iff.mpr (htracked.covered hran c hc)
  have hsingle := h c
  rw [claims_settled hsettled] at hclaimed hsingle
  omega

section Step

variable {s : Collecting} {l : CollectingStep}

/-- What a call of `add_pool` adds to the claims. -/
theorem count_claims_added {id : String} {pool : Pool} (hidle : s.adding = []) (c : Principal) :
    (claims { s with
      handle := s.handle.register id pool, adding := s.handle.newContracts pool }).count c =
      s.claims.count c +
        if c ∈ s.handle.polled then 0 else (pool.topics.map (·.contract)).count c := by
  have hnew : (s.handle.newContracts pool).count c =
      if c ∈ s.handle.polled then 0 else (pool.topics.map (·.contract)).count c := by
    split
    · next hpolled => exact List.count_eq_zero.mpr fun h => (mem_newContracts.mp h).2 hpolled
    · next hpolled => exact List.count_filter (decide_eq_true hpolled)
  have htasks : spawned { s with
      handle := s.handle.register id pool, adding := s.handle.newContracts pool } = s.spawned := rfl
  rw [claims, claims, htasks, hidle]
  simp only [List.count_append, List.count_nil, hnew]
  omega

/-- What the start of the source task adds to the claims. -/
theorem count_claims_ran (hwaiting : s.source = none) (c : Principal) :
    (claims { s with source := some (perContractRun s.handle.registry) }).count c =
      s.claims.count c + if c ∈ s.handle.registry.polledContracts then 1 else 0 := by
  have hsnapshot : (perContractRun s.handle.registry).count c =
      if c ∈ s.handle.registry.polledContracts then 1 else 0 := by
    split
    · next hc => exact List.count_eq_one_of_mem (PoolRegistry.nodup_polledContracts _) hc
    · next hc => exact List.count_eq_zero.mpr hc
  have htasks : spawned { s with source := some (perContractRun s.handle.registry) } =
      s.spawned := rfl
  rw [claims, claims, htasks, hwaiting]
  simp only [List.count_append, Option.getD_some, Option.getD_none, List.count_nil, hsnapshot]
  omega

/-- **Step.** From a good state exactly the fresh steps lead to a good state. -/
theorem single_step_iff (htracked : s.Tracked) (h : s.Single) :
    (s.step l).Single ↔ s.Fresh l := by
  generalize hs' : s.step l = s'
  have heffect : s.Effect l s' := hs' ▸ step_effect s l
  cases heffect with
  | unchanged hadd hrun =>
    refine iff_of_true h ?_
    cases l with
    | add id pool => exact fun hidle => absurd hidle (hadd id pool rfl)
    | run => exact fun hwaiting => absurd hwaiting (hrun rfl)
    | spawn | remove id | fanOut => trivial
  | removed => exact iff_of_true h trivial
  | spawned hadding =>
    exact iff_of_true (fun c => (claims_spawn hadding).count_eq c ▸ h c) trivial
  | fannedOut hsource =>
    exact iff_of_true (fun c => (claims_fanOut hsource).count_eq c ▸ h c) trivial
  | @added id pool hidle =>
    constructor
    · intro hsingle _ c hc
      have := hsingle c
      rw [count_claims_added hidle, if_neg hc] at this
      omega
    · intro hfresh c
      rw [count_claims_added hidle]
      by_cases hc : c ∈ s.handle.polled
      · rw [if_pos hc]
        exact h c
      · -- a contract that is not polled is not claimed
        have hzero : s.claims.count c = 0 := by
          refine List.count_eq_zero.mpr fun hclaim => ?_
          rcases (htracked.polled c).mp (htracked.known c hclaim) with hin | hin
          · exact hc hin
          · rw [hidle] at hin
            cases hin
        have := hfresh hidle c hc
        rw [if_neg hc, hzero]
        omega
  | ran hwaiting =>
    -- before the source has run, only added pools have claims
    have hclaims : s.claims = s.handle.tasks ++ s.adding := by
      rw [claims, spawned, htracked.waiting hwaiting, hwaiting]
      simp only [Option.getD_none, List.append_nil]
    constructor
    · intro hsingle _
      have hnone : s.claims = [] := by
        refine List.eq_nil_iff_forall_not_mem.mpr fun c hc => ?_
        have hcount := hsingle c
        rw [count_claims_ran hwaiting, if_pos (htracked.known c hc)] at hcount
        have := List.count_pos_iff.mpr hc
        omega
      rw [hclaims] at hnone
      exact List.append_eq_nil_iff.mp hnone
    · intro hfresh c
      obtain ⟨htasks, hadding⟩ := hfresh hwaiting
      rw [count_claims_ran hwaiting, hclaims, htasks, hadding]
      split
      · exact Nat.le_refl 1
      · exact Nat.zero_le 1

/-- Claims are not taken back. -/
theorem single_of_step (h : (s.step l).Single) : s.Single := by
  generalize hs' : s.step l = s' at h
  have heffect : s.Effect l s' := hs' ▸ step_effect s l
  intro c
  have hc := h c
  cases heffect with
  | unchanged _ _ => exact hc
  | removed => exact hc
  | spawned hadding => exact (claims_spawn hadding).count_eq c ▸ hc
  | fannedOut hsource => exact (claims_fanOut hsource).count_eq c ▸ hc
  | added hidle =>
    rw [count_claims_added hidle] at hc
    omega
  | ran hwaiting =>
    rw [count_claims_ran hwaiting] at hc
    omega

end Step

end Collecting

end StacksDex.Bridge
