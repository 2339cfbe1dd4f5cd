import StacksDex.Bridge.Joining
import StacksDex.Results.Mirror
import StacksDex.Results.Pollers
import StacksDex.Results.SendOrder

/-!
# StacksDex — a pool added to a running collector

`add_pool` inserts what was fetched and leaves the core's watermark where it is. Events of
the core that were dispatched after the fetch and before the addition reach neither the
snapshot nor the pool, and no later cycle brings them again. The pool ends up right exactly
when later events write whatever those would have changed; and it does in every run that
adds the pool while nothing it misses matters.

## Main results

* `complete_iff_recovered`: in a state where everything has been dispatched, cell by cell;
* `added_pool_complete_iff`: every state of every valid run, and the condition on the step
  that adds the pool;
* `added_pool_incomplete`: a run that adds it too late.

The machine and its invariant are in `Bridge/Joining.lean`.
-/

namespace StacksDex.Results

open StacksDex.Lib StacksDex.Lib.Run StacksDex.Model StacksDex.Bridge StacksDex.Bridge.Joining

section

variable {id : String} {origin : DLMMPool} {s : Joining}

/-! ## One state -/

/-- When everything has been dispatched, the pool is complete exactly when what it missed
has been made up for. -/
theorem complete_iff_recovered (h : WellFormed id origin s) (hquiet : s.Quiescent origin)
    {n m : Nat} (hadded : s.added = some (n, m)) :
    s.Complete id origin ↔ s.Recovered origin n m := by
  obtain ⟨-, -, p, hget, hframe, hview⟩ := h.joined n m hadded
  have hcells : s.Recovered origin n m ↔ view p = view (.dlmm (snapshot origin s.chain)) := by
    rw [hview, funext_iff]
    exact forall_congr' fun k => (view_complete_iff h hquiet n m k).symm
  rw [hcells]
  constructor
  · rintro ⟨q, hq, heq⟩
    cases hget.symm.trans hq
    rw [← view_unstamped p, heq]
  · intro heq
    refine ⟨p, hget, ?_⟩
    have hsame : unstamped p = unstamped (.dlmm (snapshot origin s.chain)) :=
      unstamped_eq (hframe.trans (snapshot_frame origin s.chain).symm) heq
    rw [hsame]
    rfl

/-- What the pool misses changes none of the snapshot's cells. -/
def Harmless (origin : DLMMPool) (s : Joining) (n m : Nat) : Prop :=
  view (.dlmm ((snapshot origin (s.chain.take n)).applyEvents (fun _ => 0) (s.missed n m))) =
    view (.dlmm (snapshot origin (s.chain.take n)))

/-- The step adds no pool that has missed anything that matters. -/
def Timely (origin : DLMMPool) (s : Joining) : JoiningStep → Prop
  | .add => ∀ n, s.fetched = some n → Harmless origin s n s.dispatched.length
  | _ => True

/-- What the added pool misses, if any, is harmless. -/
def AddedHarmless (origin : DLMMPool) (s : Joining) : Prop :=
  ∀ n m, s.added = some (n, m) → Harmless origin s n m

/-- Whether what was missed matters depends on the two prefixes alone, so it does not change as
the run goes on. -/
theorem harmless_congr {s t : Joining} {n m : Nat} (hchain : t.chain.take n = s.chain.take n)
    (hdispatched : t.dispatched.take m = s.dispatched.take m) :
    Harmless origin t n m ↔ Harmless origin s n m := by
  unfold Harmless missed
  rw [hchain, hdispatched]

/-! ## One step -/

/-- A step that is timely adds no pool that misses something that matters. -/
theorem AddedHarmless.step (h : WellFormed id origin s) (hharmless : AddedHarmless origin s)
    {l : JoiningStep} (htimely : Timely origin s l) :
    AddedHarmless origin (s.step id origin l) := by
  cases l with
  -- the two prefixes it depends on are not touched by what comes later
  | append events =>
    intro n m hadded
    obtain ⟨hn, -, -⟩ := h.joined n m hadded
    refine (harmless_congr (s := s) ?_ ?_).mpr (hharmless n m hadded)
    · exact List.take_append_of_le_length hn
    · rfl
  | cycle c iters =>
    intro n m hadded
    exact (harmless_congr rfl rfl).mpr (hharmless n m hadded)
  | process now contended =>
    cases hchannel : s.queue.channel with
    | nil =>
      have hstep : s.step id origin (.process now contended) = s := by
        simp only [Joining.step, EventQueue.recv, hchannel]
      rw [hstep]
      exact hharmless
    | cons event rest =>
      intro n m hadded
      simp only [Joining.step, EventQueue.recv, hchannel] at hadded ⊢
      obtain ⟨-, hm, -⟩ := h.joined n m hadded
      refine (harmless_congr (s := s) ?_ ?_).mpr (hharmless n m hadded)
      · rfl
      · exact List.take_append_of_le_length hm
  | fetch =>
    intro n m hadded
    exact (harmless_congr rfl rfl).mpr (hharmless n m hadded)
  -- an `add` is the one step that decides what is missed
  | add =>
    cases hfetched : s.fetched with
    | none =>
      have hstep : s.step id origin .add = s := by simp only [Joining.step, hfetched]
      rw [hstep]
      exact hharmless
    | some n =>
      intro n' m' hadded
      simp only [Joining.step, hfetched] at hadded ⊢
      cases hadded
      exact (harmless_congr rfl rfl).mpr (htimely n hfetched)

/-! ## Runs -/

/--
**When an added pool is complete.** In every state of a run where everything has been polled
and dispatched, the added pool has the fields the whole chain leads to exactly when each field
that a missed event would have changed has been written since; and it has them in every run
that adds it in time. Missed are the events that were dispatched before `add_pool` and are
newer than the snapshot: nobody will send them again. No contract the pool hears has a
watermark when the run begins.
-/
theorem added_pool_complete_iff (id : String) (origin : DLMMPool) {handle : CollectorHandle}
    {queue : EventQueue} {capacity : Nat} (hbuild : EventQueue.build capacity = .ok queue)
    (hcold : ∀ c, Heard origin c → handle.registry.watermark c = none)
    {steps : List JoiningStep}
    (hvalid : Along (step id origin) (Valid origin) (Joining.start handle queue) steps) :
    Always (step id origin)
        (fun s => ∀ n m, s.added = some (n, m) → s.Quiescent origin →
          (s.Complete id origin ↔ s.Recovered origin n m))
        (Joining.start handle queue) steps ∧
      (Along (step id origin) (Timely origin) (Joining.start handle queue) steps →
        Always (step id origin)
          (fun s => s.added ≠ none → s.Quiescent origin → s.Complete id origin)
          (Joining.start handle queue) steps) := by
  have hstart : WellFormed id origin (Joining.start handle queue) := wellFormed_start hbuild hcold
  have hformed :
      Always (step id origin) (WellFormed id origin) (Joining.start handle queue) steps :=
    always_of_along (fun _ _ h hl => h.step hl) hstart hvalid
  refine ⟨hformed.mono fun s h n m hadded hquiet => complete_iff_recovered h hquiet hadded,
    fun htimely => ?_⟩
  have hharmless :
      Always (step id origin) (fun s => WellFormed id origin s ∧ AddedHarmless origin s)
        (Joining.start handle queue) steps :=
    always_of_along (fun _ _ h hl => ⟨h.1.step hl.1, h.2.step h.1 hl.2⟩) ⟨hstart, nofun⟩
      (hvalid.and htimely)
  refine hharmless.mono fun s h hadded hquiet => ?_
  obtain ⟨⟨n, m⟩, hnm⟩ := Option.ne_none_iff_exists'.mp hadded
  exact (complete_iff_recovered h.1 hquiet hnm).mpr fun k => Or.inr (congrFun (h.2 n m hnm) k)

end

/-- A collector that polls the core for another pool. -/
def sharedCore : CollectorHandle :=
  CollectorHandle.start true (emptyRegistry.insert "other"
    (.dlmm { oneSidedPool with poolContract := .contract 22 (List.Vector.replicate 20 0) "other" }))

/-- The swap is polled and dispatched between the fetch and the addition. -/
def addedTooLate : List JoiningStep :=
  [.fetch, .append [swapToOne], .cycle oneSidedPool.coreContract fun _ => [],
    .process (fun _ => 0) fun _ => false, .add]

/-- The pool is fetched once the swap has been dispatched. -/
def addedInTime : List JoiningStep :=
  [.append [swapToOne], .cycle oneSidedPool.coreContract fun _ => [],
    .process (fun _ => 0) fun _ => false, .fetch, .add]

/-- The core is polled already. -/
theorem core_polled : oneSidedPool.coreContract ∈ sharedCore.polled := by decide

/-- The core moves the active bin. -/
theorem swapToOne_emitted : ∀ e ∈ [swapToOne], EmittedBy oneSidedPool e := by
  intro e he
  obtain rfl := List.mem_singleton.mp he
  exact Or.inr ⟨rfl, by decide⟩

/-- Fetched, added, and then the core's event. -/
theorem addedInTime_valid :
    Along (step "pool" oneSidedPool) (Valid oneSidedPool) (Joining.start sharedCore eightQueue)
      addedInTime :=
  ⟨⟨⟨"0x01", by simp [swapToOne], nofun⟩, List.nodup_singleton _, swapToOne_emitted⟩, core_polled,
    trivial, rfl, ⟨nofun, rfl⟩, trivial⟩

/-- The run that adds the pool in time adds one, and completes it. -/
theorem added_pool_complete_iff_inTime :
    (exec (step "pool" oneSidedPool) (Joining.start sharedCore eightQueue) addedInTime).added =
        some (1, 1) ∧
      Always (step "pool" oneSidedPool)
        (fun s => s.added ≠ none → s.Quiescent oneSidedPool → s.Complete "pool" oneSidedPool)
        (Joining.start sharedCore eightQueue) addedInTime := by
  have htimely : Along (step "pool" oneSidedPool) (Timely oneSidedPool)
      (Joining.start sharedCore eightQueue) addedInTime := by
    refine ⟨trivial, trivial, trivial, trivial, fun n hn => ?_, trivial⟩
    cases hn
    rfl
  have hbuild : EventQueue.build 8 = .ok eightQueue := rfl
  refine ⟨by decide, ?_⟩
  exact (added_pool_complete_iff "pool" oneSidedPool hbuild (fun _ _ => rfl)
    addedInTime_valid).2 htimely

/-- Fetched, the core's event dispatched, and then added. -/
theorem addedTooLate_valid :
    Along (step "pool" oneSidedPool) (Valid oneSidedPool) (Joining.start sharedCore eightQueue)
      addedTooLate :=
  ⟨rfl, ⟨⟨"0x01", by simp [swapToOne], nofun⟩, List.nodup_singleton _, swapToOne_emitted⟩,
    core_polled, trivial, ⟨nofun, rfl⟩, trivial⟩

/-- The core's watermark and the channel are at the end of the chain, and the pool is still
at the bin it was fetched at. -/
theorem added_pool_incomplete :
    ¬ ∀ (id : String) (origin : DLMMPool) (handle : CollectorHandle) (queue : EventQueue)
        (capacity : Nat), EventQueue.build capacity = .ok queue →
      (∀ c, Heard origin c → handle.registry.watermark c = none) → ∀ steps,
      Along (step id origin) (Valid origin) (Joining.start handle queue) steps →
      Always (step id origin) (fun s => s.added ≠ none → s.Quiescent origin → s.Complete id origin)
        (Joining.start handle queue) steps := by
  intro h
  have hlast := (h "pool" oneSidedPool sharedCore eightQueue 8 rfl (fun _ _ => rfl) addedTooLate
    addedTooLate_valid).last
  have hquiet : (exec (step "pool" oneSidedPool) (Joining.start sharedCore eightQueue)
      addedTooLate).Quiescent oneSidedPool := by
    refine ⟨by decide, fun c hc => ?_⟩
    rcases hc with rfl | rfl
    · decide
    · decide
  obtain ⟨p, hget, heq⟩ := hlast (by decide) hquiet
  have hp : p = .dlmm (snapshot oneSidedPool []) := Option.some.inj (hget.symm.trans rfl)
  rw [hp] at heq
  -- the swap has moved the active bin
  have hbin : (0 : Int) = 1 := congrArg DLMMPool.activeBinId (Pool.dlmm.inj heq)
  exact absurd hbin (by decide)

end StacksDex.Results
