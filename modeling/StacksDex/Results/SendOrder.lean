import Mathlib.Logic.Equiv.List
import StacksDex.Bridge.Producers
import StacksDex.Results.Isolation

/-!
# StacksDex — the order in which concurrent producers are received

The lock of `seen` is released before the push, so the producer that loses the check on a
duplicate may push the next event of the emitter first. The channel is in chain order
in every run without such a step.

## Main results

* `concurrent_sends_in_order`: for every interleaving of any number of producers, runs of
  punctual steps keep the channel in chain order; a run that ends with nobody between the two
  steps is in order only if its steps were punctual; and producers that leave nothing out
  submit in time of themselves;
* `duplicate_overtakes`: the smallest run that is out of order.

The machine of the two-step sends and its invariants are in `Bridge/Producers.lean`.
-/

namespace StacksDex.Results

open StacksDex.Lib StacksDex.Lib.Run StacksDex.Model StacksDex.Bridge StacksDex.Bridge.Producing

variable {ι : Type} [DecidableEq ι]

omit [DecidableEq ι] in
/-- Nothing has been sent, so nothing is out of order. -/
theorem onTrack_start (pos : EventKey → Nat) (queue : EventQueue) :
    (start (ι := ι) queue).OnTrack pos := by
  refine ⟨List.Pairwise.nil, ?_⟩
  intro p e hp
  cases hp

/--
**When concurrent sends stay in order.** While nothing is evicted, punctual runs receive every
emitter's events in chain order, and a run whose calls have all returned was punctual if it
did. Punctual means that no event is pushed while an earlier one of its emitter is between the
check and the push, and that none passes the check after a later one was pushed. Where every
producer starts at the emitter's first event and leaves none out, only the first of the two
matters.
-/
theorem concurrent_sends_in_order {pos : EventKey → Nat} (hpos : Function.Injective pos)
    {capacity : Nat} {queue : EventQueue} (hqueue : EventQueue.build capacity = .ok queue)
    {steps : List (ProducerStep ι)} (hkept : Along step NoEviction (start queue) steps) :
    (Along step (Punctual pos) (start queue) steps →
      Always step (InOrder pos) (start queue) steps) ∧
    (Idle (exec step (start queue) steps) →
      (InOrder pos (exec step (start queue) steps) ↔
        Along step (Punctual pos) (start queue) steps)) ∧
    ∀ onChain : Set StacksEvent, Along step (GapFree pos onChain) (start queue) steps →
      (Along step (Punctual pos) (start queue) steps ↔
        Along step (NoOvertake pos) (start queue) steps) := by
  have hstart : WellFormed (start (ι := ι) queue) :=
    wellFormed_start (EventQueue.build_eq_ok hqueue).2.1
  have hwf : ∀ (s : Producing ι) l, s.WellFormed → s.NoEviction l → (s.step l).WellFormed :=
    fun s l h => h.step l
  -- a run is punctual exactly when it stays on track
  have hexact : Always step (OnTrack pos) (start queue) steps ↔
      Along step (Punctual pos) (start queue) steps :=
    always_iff_along hwf (fun s l h _ => onTrack_step_iff hpos h) hstart
      (onTrack_start pos queue) hkept
  refine ⟨?_, ?_, ?_⟩
  · intro hrun
    exact (hexact.mpr hrun).mono fun s h => h.1
  · intro hidle
    rw [← hexact, ← onTrack_iff_inOrder hidle]
    refine ⟨?_, Always.last⟩
    exact always_of_exec hwf (fun s l h => onTrack_of_step hpos h) hstart hkept
  · intro onChain hgap
    refine ⟨Along.mono fun s l h => h.1, fun hahead => ?_⟩
    have hcovered : Always step (fun s => s.WellFormed ∧ s.Covered onChain pos)
        (start queue) steps := by
      refine always_of_along (P := fun s l => s.NoEviction l ∧ s.GapFree pos onChain l)
        ?_ ⟨hstart, ?_⟩ (hkept.and hgap)
      · rintro s l ⟨hs, hcov⟩ ⟨hl, hg⟩
        exact ⟨hs.step l hl, hcov.step hs hl hg⟩
      · rintro e (he | ⟨p, hp⟩)
        · cases he
        · cases hp
    refine along_of_always (P := fun s l => s.NoOvertake pos l ∧ s.GapFree pos onChain l)
      ?_ hcovered (hahead.and hgap)
    rintro s l ⟨-, hcov⟩ ⟨hover, hg⟩
    exact ⟨hover, notLate_of_gapFree hcov hg⟩

/-- Keys in the order of an encoding of their transaction, then of their index. -/
def encodedPos (key : EventKey) : Nat :=
  Nat.pair (Encodable.encode (key.1.toList.map Char.toNat)) key.2

/-- Positions of different keys are different. -/
theorem encodedPos_injective : Function.Injective encodedPos := by
  rintro ⟨tx, index⟩ ⟨tx', index'⟩ h
  obtain ⟨htx, rfl⟩ := Nat.pair_eq_pair.mp h
  have hchars : tx.toList = tx'.toList :=
    List.map_injective_iff.mpr (fun a b hab => Char.ext (UInt32.toNat_inj.mp hab))
      (Encodable.encode_injective htx)
  rw [String.toList_injective hchars]

/-- Within a transaction, positions follow the index. -/
theorem encodedPos_lt {tx : String} {i j : Nat} (h : i < j) :
    encodedPos (tx, i) < encodedPos (tx, j) := Nat.pair_lt_pair_right _ h

/-- Two events of one transaction, the later one with the higher index. -/
def swapEvent (i : Nat) : StacksEvent where
  emitter := deployed "xyk-pool"
  txId := "0x01"
  eventIndex := i
  action := "swap-x-for-y"
  data := []

def eightQueue : EventQueue where
  channel := []
  capacity := 8
  closed := false
  seen := ∅
  seenCap := 256

/-- Both producers have the first event; the second one loses the check, goes on with the
next event and pushes that before the first producer's send completes. -/
def overtakingSteps : List (ProducerStep Bool) :=
  [.submit false [] (swapEvent 0), .submit true [] (swapEvent 0), .submit true [] (swapEvent 1),
    .push true, .push false]

/-- The later swap is received first. -/
theorem overtaking_received :
    (exec step (start eightQueue) overtakingSteps).received = [swapEvent 1, swapEvent 0] := rfl

/-- Every producer submits in chain order and leaves nothing out, and still the channel is out
of order: the duplicate's producer has overtaken the winner of the check. -/
theorem duplicate_overtakes :
    EventQueue.build 8 = .ok eightQueue ∧
      Along step NoEviction (start eightQueue) overtakingSteps ∧
      Along step (InChainOrder encodedPos) (start eightQueue) overtakingSteps ∧
      Along step (GapFree encodedPos {swapEvent 0, swapEvent 1}) (start eightQueue)
        overtakingSteps ∧
      ¬ InOrder encodedPos (exec step (start eightQueue) overtakingSteps) := by
  -- the first event comes before the second, and none before itself
  have hlt : encodedPos (swapEvent 0).key < encodedPos (swapEvent 1).key :=
    encodedPos_lt Nat.zero_lt_one
  have hfirst : ¬ Before encodedPos (swapEvent 1) (swapEvent 0) :=
    fun h => Nat.lt_asymm h.2 hlt
  have hself : ∀ e, ¬ Before encodedPos e e := fun e h => Nat.lt_irrefl _ h.2
  refine ⟨rfl, ⟨Or.inr rfl, Or.inr rfl, Or.inr rfl, trivial, trivial, trivial⟩, ?_, ?_, ?_⟩
  -- each producer submits in chain order
  · refine ⟨?_, ?_, ?_, trivial, trivial, trivial⟩
    · intro e he
      cases he
    · intro e he
      cases he
    · intro e he
      rw [List.mem_singleton.mp he]
      exact hfirst
  · -- the first event has no predecessor, and the second one only the first
    have hnone : ∀ e ∈ ({swapEvent 0, swapEvent 1} : Set StacksEvent),
        ¬ Before encodedPos e (swapEvent 0) := by
      rintro e (rfl | rfl)
      · exact hself _
      · exact hfirst
    refine ⟨⟨Or.inl rfl, fun e he h => absurd h (hnone e he)⟩,
      ⟨Or.inl rfl, fun e he h => absurd h (hnone e he)⟩, ⟨Or.inr rfl, ?_⟩, trivial, trivial,
      trivial⟩
    rintro e (rfl | rfl) h
    · exact List.mem_singleton_self _
    · exact absurd h (hself _)
  -- and still the second is received first
  · rw [InOrder, overtaking_received]
    intro horder
    have : encodedPos (swapEvent 1).key < encodedPos (swapEvent 0).key :=
      (List.pairwise_cons.mp horder).1 _ (List.mem_singleton_self _) rfl
    omega

/-- The same calls, with the first send completed before the second producer goes on. -/
def punctualSteps : List (ProducerStep Bool) :=
  [.submit false [] (swapEvent 0), .submit true [] (swapEvent 0), .push false,
    .submit true [] (swapEvent 1), .push true]

/-- The same sends, each of them pushed in time. -/
theorem concurrent_sends_in_order_punctual :
    Along step (Punctual encodedPos) (start eightQueue) punctualSteps ∧
      Always step (InOrder encodedPos) (start eightQueue) punctualSteps := by
  have hqueue : EventQueue.build 8 = .ok eightQueue := rfl
  have hkept : Along step NoEviction (start (ι := Bool) eightQueue) punctualSteps :=
    ⟨Or.inr rfl, Or.inr rfl, trivial, Or.inr rfl, trivial, trivial⟩
  have hidle : Idle (exec step (start eightQueue) punctualSteps) := by
    intro p
    cases p <;> rfl
  have hreceived : (exec step (start eightQueue) punctualSteps).received =
      [swapEvent 0, swapEvent 1] := rfl
  have hexact := concurrent_sends_in_order encodedPos_injective hqueue hkept
  have horder : InOrder encodedPos (exec step (start eightQueue) punctualSteps) := by
    rw [InOrder, hreceived]
    exact List.pairwise_pair.mpr fun _ => encodedPos_lt Nat.zero_lt_one
  have hpunctual := (hexact.2.1 hidle).mp horder
  exact ⟨hpunctual, hexact.1 hpunctual⟩

end StacksDex.Results
