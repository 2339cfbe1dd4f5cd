import StacksDex.Lib.Run
import StacksDex.Model.EventQueue
import Mathlib.Logic.Function.Basic

/-!
# StacksDex — concurrent producers

Several tasks share one `EventSender`. A call of `send_dedup` is two atomic steps, the
check of the seen set and the push into the channel, and between them anything may happen:
`submit` and `push` are labels of their own, and a list of labels is one interleaving.

A producer that loses the check on a duplicate goes on at once, also while the winner has
not pushed yet. `Punctual` says when that does no harm: no event is pushed ahead of an
earlier one that is between the two steps, and none is new after a later one was pushed.
-/

namespace StacksDex.Bridge

open StacksDex.Lib StacksDex.Model

/-- The shared sender, and where each producer stands. -/
structure Producing (ι : Type) where
  queue : EventQueue
  /-- The event a producer has got past the check and not pushed yet. -/
  pending : ι → Option StacksEvent
  /-- Every event that ever entered the channel, oldest first. -/
  received : List StacksEvent
  /-- The events a producer has called `send_dedup` with. -/
  submitted : ι → List StacksEvent

/-- One atomic step. -/
inductive ProducerStep (ι : Type) where
  /-- A producer calls `send_dedup`: the check and the insert. -/
  | submit (p : ι) (iter : List EventKey) (event : StacksEvent)
  /-- A producer's send completes. -/
  | push (p : ι)
  /-- The processor takes an event out. -/
  | recv

namespace Producing

variable {ι : Type} [DecidableEq ι]

/-- All producers in front of their first call. -/
def start (queue : EventQueue) : Producing ι := ⟨queue, fun _ => none, [], fun _ => []⟩

/-- The channel has room, so a send can complete. -/
def HasRoom (s : Producing ι) : Prop := s.queue.channel.length < s.queue.capacity

instance (s : Producing ι) : Decidable s.HasRoom :=
  inferInstanceAs (Decidable (s.queue.channel.length < s.queue.capacity))

def step (s : Producing ι) : ProducerStep ι → Producing ι
  | .submit p iter event =>
    match s.pending p with
    -- a producer awaits its call before it makes the next
    | some _ => s
    | none =>
      { s with
        queue := (s.queue.checkInsert iter event).1
        pending :=
          if (s.queue.checkInsert iter event).2 then Function.update s.pending p (some event)
          else s.pending
        submitted := Function.update s.submitted p (event :: s.submitted p) }
  | .push p =>
    match s.pending p with
    | none => s
    | some event =>
      -- a full channel keeps the producer waiting
      if s.HasRoom then
        { s with
          queue := (s.queue.push event).1
          pending := Function.update s.pending p none
          received := if (s.queue.push event).2 then s.received ++ [event] else s.received }
      else s
  | .recv =>
    match s.queue.recv with
    | none => s
    | some (_, queue) => { s with queue }

/-! ## What a step can do -/

/-- The state after a step into an open queue, guards included. -/
inductive Effect (s : Producing ι) : ProducerStep ι → Producing ι → Prop
  | busy {p iter event e} (hp : s.pending p = some e) : Effect s (.submit p iter event) s
  | duplicate {p iter event} (hp : s.pending p = none) (hseen : event.key ∈ s.queue.seen) :
    Effect s (.submit p iter event)
      { s with submitted := Function.update s.submitted p (event :: s.submitted p) }
  | fresh {p iter event} (hp : s.pending p = none) (hnew : event.key ∉ s.queue.seen) :
    Effect s (.submit p iter event)
      { s with
        queue := { s.queue with seen := insert event.key (s.queue.retained iter) }
        pending := Function.update s.pending p (some event)
        submitted := Function.update s.submitted p (event :: s.submitted p) }
  | waiting {p} (h : ∀ event, s.pending p = some event → ¬ s.HasRoom) : Effect s (.push p) s
  | pushed {p event} (hp : s.pending p = some event) (hroom : s.HasRoom) :
    Effect s (.push p)
      { s with
        queue := { s.queue with channel := s.queue.channel ++ [event] }
        pending := Function.update s.pending p none
        received := s.received ++ [event] }
  | taken (channel : List StacksEvent) :
    Effect s .recv { s with queue := { s.queue with channel } }

/-- **Inversion**: a submit that is refused, one that is accepted, a push, or nothing. -/
theorem step_effect {s : Producing ι} (hopen : s.queue.closed = false) (l : ProducerStep ι) :
    s.Effect l (s.step l) := by
  cases l with
  | submit p iter event =>
    -- a producer makes one call at a time
    cases hp : s.pending p with
    | some e =>
      have hstep : s.step (.submit p iter event) = s := by simp only [step, hp]
      rw [hstep]
      exact .busy hp
    | none =>
      -- the check: a key that is known ends the call, a new one is remembered
      by_cases hseen : event.key ∈ s.queue.seen
      · have hcheck : s.queue.checkInsert iter event = (s.queue, false) := if_pos hseen
        have hstep : s.step (.submit p iter event) =
            { s with submitted := Function.update s.submitted p (event :: s.submitted p) } := by
          simp only [step, hp, hcheck, Bool.false_eq_true, if_false]
        rw [hstep]
        exact .duplicate hp hseen
      · have hcheck : s.queue.checkInsert iter event =
            ({ s.queue with seen := insert event.key (s.queue.retained iter) }, true) :=
          if_neg hseen
        have hstep : s.step (.submit p iter event) =
            { s with
              queue := { s.queue with seen := insert event.key (s.queue.retained iter) }
              pending := Function.update s.pending p (some event)
              submitted := Function.update s.submitted p (event :: s.submitted p) } := by
          simp only [step, hp, hcheck, if_true]
        rw [hstep]
        exact .fresh hp hseen
  | push p =>
    cases hp : s.pending p with
    | none =>
      have hstep : s.step (.push p) = s := by simp only [step, hp]
      rw [hstep]
      exact .waiting fun event hevent => by rw [hp] at hevent; cases hevent
    | some event =>
      -- the push: into the channel if there is room, and otherwise later
      by_cases hroom : s.HasRoom
      · have hpush : s.queue.push event =
            ({ s.queue with channel := s.queue.channel ++ [event] }, true) := by
          simp only [EventQueue.push, hopen, Bool.false_eq_true, if_false]
        have hstep : s.step (.push p) =
            { s with
              queue := { s.queue with channel := s.queue.channel ++ [event] }
              pending := Function.update s.pending p none
              received := s.received ++ [event] } := by
          simp only [step, hp, if_pos hroom, hpush, if_true]
        rw [hstep]
        exact .pushed hp hroom
      · have hstep : s.step (.push p) = s := by simp only [step, hp, if_neg hroom]
        rw [hstep]
        exact .waiting fun _ _ => hroom
  | recv =>
    cases hchannel : s.queue.channel with
    | nil =>
      have hstep : s.step .recv = { s with queue := { s.queue with channel := [] } } := by
        simp only [step, EventQueue.recv, hchannel]
        rw [← hchannel]
      rw [hstep]
      exact .taken []
    | cons event rest =>
      have hstep : s.step .recv = { s with queue := { s.queue with channel := rest } } := by
        simp only [step, EventQueue.recv, hchannel]
      rw [hstep]
      exact .taken rest

/-! ## Chain order -/

section Order

variable (pos : EventKey → Nat)

/-- `a` is an earlier event of `b`'s emitter. -/
def Before (a b : StacksEvent) : Prop := a.emitter = b.emitter ∧ pos a.key < pos b.key

/-- What entered the channel is, emitter by emitter, in chain order. -/
def InOrder (s : Producing ι) : Prop :=
  s.received.Pairwise fun a b => a.emitter = b.emitter → pos a.key < pos b.key

/-- No producer is between the two steps of a call. -/
def Idle (s : Producing ι) : Prop := ∀ p, s.pending p = none

/-- Nothing is evicted from `seen`. -/
def NoEviction (s : Producing ι) : ProducerStep ι → Prop
  | .submit _ iter event => s.queue.Keeps iter event
  | _ => True

/-- A producer goes through the events of an emitter in chain order. -/
def InChainOrder (s : Producing ι) : ProducerStep ι → Prop
  | .submit p _ event => ∀ e ∈ s.submitted p, ¬ Before pos event e
  | _ => True

/-- A producer goes through the events of an emitter from the first one on. -/
def GapFree (onChain : Set StacksEvent) (s : Producing ι) : ProducerStep ι → Prop
  | .submit p _ event => event ∈ onChain ∧ ∀ e ∈ onChain, Before pos e event → e ∈ s.submitted p
  | _ => True

/-- No event is pushed while an earlier one is between the two steps. -/
def NoOvertake (s : Producing ι) : ProducerStep ι → Prop
  | .push p => ∀ event, s.pending p = some event → s.HasRoom →
    ∀ q e, s.pending q = some e → ¬ Before pos e event
  | _ => True

/-- No event passes the check after a later one was pushed. -/
def NotLate (s : Producing ι) : ProducerStep ι → Prop
  | .submit p _ event => s.pending p = none → event.key ∉ s.queue.seen →
    ∀ e ∈ s.received, ¬ Before pos event e
  | _ => True

/-- A push that overtakes nothing, a check that comes in time. -/
def Punctual (s : Producing ι) (l : ProducerStep ι) : Prop := s.NoOvertake pos l ∧ s.NotLate pos l

end Order

/-! ## What every run preserves -/

/-- The queue is open, `seen` covers whatever passed the check, and a key passes it once:
an event between the two steps is neither in the channel nor with another producer. -/
structure WellFormed (s : Producing ι) : Prop where
  isOpen : s.queue.closed = false
  submitted_seen : ∀ p, ∀ e ∈ s.submitted p, e.key ∈ s.queue.seen
  received_seen : ∀ e ∈ s.received, e.key ∈ s.queue.seen
  pending_seen : ∀ p e, s.pending p = some e → e.key ∈ s.queue.seen
  unsent : ∀ p e, s.pending p = some e → ∀ e' ∈ s.received, e'.key ≠ e.key
  apart : ∀ p q e e', s.pending p = some e → s.pending q = some e' → e.key = e'.key → p = q

omit [DecidableEq ι] in
/-- A queue with nothing sent and nobody between the two steps. -/
theorem wellFormed_start {queue : EventQueue} (hopen : queue.closed = false) :
    WellFormed (start (ι := ι) queue) where
  isOpen := hopen
  submitted_seen := by intro p e he; cases he
  received_seen := by intro e he; cases he
  pending_seen := by intro p e hp; cases hp
  unsent := by intro p e hp; cases hp
  apart := by intro p q e e' hp; cases hp

/-- What a producer holds after a fresh submission. -/
theorem pending_update {s : Producing ι} {p q : ι} {event e : StacksEvent}
    (h : Function.update s.pending p (some event) q = some e) :
    (q = p ∧ e = event) ∨ (q ≠ p ∧ s.pending q = some e) := by
  by_cases hq : q = p
  · subst hq
    rw [Function.update_self] at h
    exact Or.inl ⟨rfl, (Option.some.inj h).symm⟩
  · rw [Function.update_of_ne hq] at h
    exact Or.inr ⟨hq, h⟩

/-- After a push the producer holds nothing, and the others what they held. -/
theorem pending_cleared {s : Producing ι} {p q : ι} {e : StacksEvent}
    (h : Function.update s.pending p none q = some e) : q ≠ p ∧ s.pending q = some e := by
  by_cases hq : q = p
  · subst hq
    rw [Function.update_self] at h
    cases h
  · rw [Function.update_of_ne hq] at h
    exact ⟨hq, h⟩

/-- A producer has submitted what it had, and the event at hand. -/
theorem mem_submitted_update {s : Producing ι} {p q : ι} {event e : StacksEvent}
    (h : e ∈ Function.update s.submitted p (event :: s.submitted p) q) :
    e = event ∨ e ∈ s.submitted q := by
  by_cases hq : q = p
  · subst hq
    rw [Function.update_self] at h
    exact List.mem_cons.mp h
  · rw [Function.update_of_ne hq] at h
    exact Or.inr h

/-- Every step that evicts nothing keeps the queue well formed. -/
theorem WellFormed.step {s : Producing ι} (h : s.WellFormed) (l : ProducerStep ι)
    (hkept : s.NoEviction l) : (s.step l).WellFormed := by
  generalize hs' : s.step l = s'
  have heffect : s.Effect l s' := hs' ▸ step_effect h.isOpen l
  cases heffect with
  | busy _ => exact h
  | waiting _ => exact h
  | taken channel =>
    exact ⟨h.isOpen, h.submitted_seen, h.received_seen, h.pending_seen, h.unsent, h.apart⟩
  | duplicate hp hseen =>
    refine ⟨h.isOpen, ?_, h.received_seen, h.pending_seen, h.unsent, h.apart⟩
    intro q e he
    rcases mem_submitted_update he with rfl | he
    · exact hseen
    · exact h.submitted_seen q e he
  | @fresh p iter event hp hnew =>
    have hseen : ∀ k, k ∈ insert event.key (s.queue.retained iter) ↔
        k = event.key ∨ k ∈ s.queue.seen := by
      intro k
      rw [hkept.resolve_left hnew]
      exact Finset.mem_insert
    refine ⟨h.isOpen, ?_, ?_, ?_, ?_, ?_⟩
    · intro q e he
      rcases mem_submitted_update he with rfl | he
      · exact (hseen _).mpr (Or.inl rfl)
      · exact (hseen _).mpr (Or.inr (h.submitted_seen q e he))
    · intro e he
      exact (hseen _).mpr (Or.inr (h.received_seen e he))
    · intro q e hq
      rcases pending_update hq with ⟨-, rfl⟩ | ⟨-, hq⟩
      · exact (hseen _).mpr (Or.inl rfl)
      · exact (hseen _).mpr (Or.inr (h.pending_seen q e hq))
    · intro q e hq e' he' heq
      rcases pending_update hq with ⟨-, rfl⟩ | ⟨-, hq⟩
      -- what is in the channel has its key in `seen`, and the new event has not
      · exact hnew (heq ▸ h.received_seen e' he')
      · exact h.unsent q e hq e' he' heq
    · intro q r e e' hq hr heq
      rcases pending_update hq with ⟨hqp, he⟩ | ⟨-, hqs⟩
      · rcases pending_update hr with ⟨hrp, -⟩ | ⟨-, hrs⟩
        · exact hqp.trans hrp.symm
        · subst he
          exact absurd (heq ▸ h.pending_seen r e' hrs) hnew
      · rcases pending_update hr with ⟨-, he'⟩ | ⟨-, hrs⟩
        · subst he'
          exact absurd (heq ▸ h.pending_seen q e hqs) hnew
        · exact h.apart q r e e' hqs hrs heq
  | @pushed p event hp hroom =>
    refine ⟨h.isOpen, h.submitted_seen, ?_, ?_, ?_, ?_⟩
    · intro e he
      rcases List.mem_append.mp he with he | he
      · exact h.received_seen e he
      · rw [List.mem_singleton.mp he]
        exact h.pending_seen p event hp
    · intro q e hq
      exact h.pending_seen q e (pending_cleared hq).2
    · intro q e hq e' he' heq
      obtain ⟨hne, hq⟩ := pending_cleared hq
      rcases List.mem_append.mp he' with he' | he'
      · exact h.unsent q e hq e' he' heq
      · rw [List.mem_singleton.mp he'] at heq
        exact hne (h.apart q p e event hq hp heq.symm)
    · intro q r e e' hq hr heq
      exact h.apart q r e e' (pending_cleared hq).2 (pending_cleared hr).2 heq

/-- The channel is in order, and nothing between the two steps belongs ahead of what is
in it. -/
def OnTrack (pos : EventKey → Nat) (s : Producing ι) : Prop :=
  s.InOrder pos ∧ ∀ p e, s.pending p = some e → ∀ e' ∈ s.received, ¬ Before pos e e'

omit [DecidableEq ι] in
/-- With nobody between the two steps, being on track is being in order. -/
theorem onTrack_iff_inOrder {pos : EventKey → Nat} {s : Producing ι} (hidle : s.Idle) :
    s.OnTrack pos ↔ s.InOrder pos := by
  refine ⟨And.left, fun h => ⟨h, ?_⟩⟩
  intro p e hp
  rw [hidle p] at hp
  cases hp

/-- An event can be appended exactly when nothing in the channel is later. -/
theorem inOrder_append_iff {pos : EventKey → Nat} {received : List StacksEvent}
    {event : StacksEvent} (hpos : Function.Injective pos)
    (hnew : ∀ e ∈ received, e.key ≠ event.key) :
    (received ++ [event]).Pairwise (fun a b => a.emitter = b.emitter → pos a.key < pos b.key) ↔
      received.Pairwise (fun a b => a.emitter = b.emitter → pos a.key < pos b.key) ∧
        ∀ e ∈ received, ¬ Before pos event e := by
  rw [List.pairwise_append]
  constructor
  · rintro ⟨horder, -, hlast⟩
    refine ⟨horder, ?_⟩
    rintro e he ⟨hemitter, hlt⟩
    -- the new event is last, so all before it have to come first
    have : pos e.key < pos event.key :=
      hlast e he event (List.mem_singleton_self _) hemitter.symm
    omega
  · rintro ⟨horder, hlast⟩
    refine ⟨horder, List.pairwise_singleton _ _, ?_⟩
    intro e he b hb hemitter
    rw [List.mem_singleton.mp hb] at hemitter ⊢
    have hle : ¬ pos event.key < pos e.key := fun hlt => hlast e he ⟨hemitter.symm, hlt⟩
    have hne : pos e.key ≠ pos event.key := fun heq => hnew e he (hpos heq)
    omega

section Step

variable {pos : EventKey → Nat} {s : Producing ι} {l : ProducerStep ι}

/-- **Step.** From a good state exactly the punctual steps lead to a good state. -/
theorem onTrack_step_iff (hpos : Function.Injective pos) (hwf : s.WellFormed)
    (h : s.OnTrack pos) : (s.step l).OnTrack pos ↔ s.Punctual pos l := by
  generalize hs' : s.step l = s'
  have heffect : s.Effect l s' := hs' ▸ step_effect hwf.isOpen l
  cases heffect with
  | busy hp => exact iff_of_true h ⟨trivial, fun hnone => by rw [hp] at hnone; cases hnone⟩
  | waiting hfull => exact iff_of_true h ⟨fun e hp hroom => absurd hroom (hfull e hp), trivial⟩
  | taken channel => exact iff_of_true h ⟨trivial, trivial⟩
  | duplicate hp hseen => exact iff_of_true h ⟨trivial, fun _ hnew => absurd hseen hnew⟩
  | @fresh p iter event hp hnew =>
    constructor
    · rintro ⟨-, hlater⟩
      refine ⟨trivial, fun _ _ => ?_⟩
      exact hlater p event (Function.update_self ..)
    · rintro ⟨-, hlate⟩
      refine ⟨h.1, fun q e hq => ?_⟩
      rcases pending_update hq with ⟨-, rfl⟩ | ⟨-, hq⟩
      · exact hlate hp hnew
      · exact h.2 q e hq
  | @pushed p event hp hroom =>
    constructor
    · rintro ⟨-, hlater⟩
      refine ⟨?_, trivial⟩
      intro e he _ q e' hq hbefore
      have heq : event = e := Option.some.inj (hp.symm.trans he)
      subst heq
      by_cases hqp : q = p
      -- its own event is not before itself
      · have : e' = event := Option.some.inj (hq.symm.trans (hqp ▸ hp))
        exact absurd hbefore.2 (this ▸ Nat.lt_irrefl _)
      · refine hlater q e' ?_ event (List.mem_append_right _ (List.mem_singleton_self _)) hbefore
        exact (Function.update_of_ne hqp ..).trans hq
    · rintro ⟨hahead, -⟩
      refine ⟨(inOrder_append_iff hpos (hwf.unsent p event hp)).mpr ⟨h.1, h.2 p event hp⟩, ?_⟩
      intro q e hq e' he'
      obtain ⟨-, hq⟩ := pending_cleared hq
      rcases List.mem_append.mp he' with he' | he'
      · exact h.2 q e hq e' he'
      · rw [List.mem_singleton.mp he']
        exact hahead event hp hroom q e hq

/-- What is out of order stays so. -/
theorem onTrack_of_step (hpos : Function.Injective pos) (hwf : s.WellFormed)
    (h : (s.step l).OnTrack pos) : s.OnTrack pos := by
  generalize hs' : s.step l = s' at h
  have heffect : s.Effect l s' := hs' ▸ step_effect hwf.isOpen l
  cases heffect with
  | busy _ => exact h
  | waiting _ => exact h
  | taken channel => exact h
  | duplicate _ _ => exact h
  -- only its own producer's event is new between check and push
  | @fresh p iter event hp hnew =>
    refine ⟨h.1, fun q e hq => h.2 q e ?_⟩
    have hne : q ≠ p := by
      rintro rfl
      rw [hp] at hq
      cases hq
    exact (Function.update_of_ne hne ..).trans hq
  -- the pushed event was in order among those received and those about to be
  | @pushed p event hp hroom =>
    have horder := (inOrder_append_iff hpos (hwf.unsent p event hp)).mp h.1
    refine ⟨horder.1, fun q e hq e' he' => ?_⟩
    by_cases hqp : q = p
    · have : e = event := Option.some.inj (hq.symm.trans (hqp ▸ hp))
      exact this ▸ horder.2 e' he'
    · exact h.2 q e ((Function.update_of_ne hqp ..).trans hq) e' (List.mem_append_left _ he')

/-! ## Producers that leave nothing out -/

/-- Every event that passed the check is on the chain, and so did its predecessors. -/
def Covered (onChain : Set StacksEvent) (pos : EventKey → Nat) (s : Producing ι) : Prop :=
  ∀ e, (e ∈ s.received ∨ ∃ p, s.pending p = some e) →
    ∀ e' ∈ onChain, Before pos e' e → e'.key ∈ s.queue.seen

/-- **Every step** of producers that leave nothing out keeps the chain covered: whatever is
earlier than an event that got past the check has got past it, too. -/
theorem Covered.step {onChain : Set StacksEvent} (h : s.Covered onChain pos)
    (hwf : s.WellFormed) (hkept : s.NoEviction l) (hgap : s.GapFree pos onChain l) :
    (s.step l).Covered onChain pos := by
  generalize hs' : s.step l = s'
  have heffect : s.Effect l s' := hs' ▸ step_effect hwf.isOpen l
  cases heffect with
  | busy _ => exact h
  | waiting _ => exact h
  | taken channel => exact h
  | duplicate _ _ => exact h
  | @fresh p iter event hp hnew =>
    intro e he e' he' hbefore
    have hin : e'.key ∈ s.queue.seen := by
      rcases he with he | ⟨q, hq⟩
      · exact h e (Or.inl he) e' he' hbefore
      rcases pending_update hq with ⟨-, rfl⟩ | ⟨-, hq⟩
      -- the producer has submitted the predecessors itself
      · exact hwf.submitted_seen p e' (hgap.2 e' he' hbefore)
      · exact h e (Or.inr ⟨q, hq⟩) e' he' hbefore
    exact Finset.mem_insert_of_mem ((hkept.resolve_left hnew).symm ▸ hin)
  | @pushed p event hp hroom =>
    rintro e (he | ⟨q, hq⟩)
    · rcases List.mem_append.mp he with he | he
      · exact h e (Or.inl he)
      · rw [List.mem_singleton.mp he]
        exact h event (Or.inr ⟨p, hp⟩)
    · exact h e (Or.inr ⟨q, (pending_cleared hq).2⟩)

omit [DecidableEq ι] in
/-- Producers that leave no gap submit no new event after a later one was pushed, because the
later one's producer would have submitted it before. -/
theorem notLate_of_gapFree {onChain : Set StacksEvent} (h : s.Covered onChain pos)
    (hgap : s.GapFree pos onChain l) : s.NotLate pos l := by
  cases l with
  | push p => trivial
  | recv => trivial
  | submit p iter event =>
    intro _ hnew e he hbefore
    exact hnew (h e (Or.inl he) event hgap.1 hbefore)

end Step

end Producing

end StacksDex.Bridge
