import Mathlib.Data.Finset.Card
import StacksDex.Model.Registry

/-!
# StacksDex — the event queue

`collector/event_queue.rs`: a bounded channel behind a set of keys already sent.

* `checkInsert` is the first half of `send_dedup`: look the key up, make room if the
  set is full, and remember it.
* `push` is the second half, the send on the channel.
* `recv` is the processor's end.

When the set is full, half of it is dropped in the order a `HashSet` happens to
iterate in; that order is the argument `iter`, of which no more is ever assumed than that
it lists the set (`Iterates`). The two halves are apart because `send` waits for room in
the channel, and other tasks go on meanwhile; `sendDedup` is both at once, for a sender
that does not have to wait.
-/

namespace StacksDex.Model

/-- The dedup key: transaction id and event index. -/
abbrev EventKey := String × Nat

/-- The two ends of the channel, and the sender's `seen`. -/
structure EventQueue where
  /-- What was sent and not yet received, oldest first. -/
  channel : List StacksEvent
  capacity : Nat
  /-- The receiver is gone. -/
  closed : Bool
  /-- The keys sent, until the set is full. -/
  seen : Finset EventKey
  seenCap : Nat

namespace EventQueue

/-- The largest buffer a bounded channel takes. -/
def MAX_PERMITS : Nat := 2 ^ 61 - 1

/-- `build_queue`. A channel of no capacity cannot be made. -/
def build (capacity : Nat) : Except Fault EventQueue :=
  if capacity = 0 then .error (.panic "mpsc bounded channel requires buffer > 0")
  else if capacity > MAX_PERMITS then
    .error (.panic s!"a semaphore may not have more than MAX_PERMITS permits ({MAX_PERMITS})")
  else .ok { channel := [], capacity, closed := false, seen := ∅, seenCap := max capacity 64 * 4 }

/-- A queue as built is open, and nothing has been sent. -/
theorem build_eq_ok {capacity : Nat} {queue : EventQueue} (h : build capacity = .ok queue) :
    queue.channel = [] ∧ queue.closed = false ∧ queue.seen = ∅ := by
  unfold build at h
  split at h
  · cases h
  split at h
  · cases h
  · cases h
    exact ⟨rfl, rfl, rfl⟩

/-- `iter` lists the set as it is iterated: every key once. -/
def Iterates (iter : List EventKey) (seen : Finset EventKey) : Prop :=
  iter.Nodup ∧ iter.toFinset = seen

/-- The keys left once a full set has dropped half of its bound. -/
def retained (iter : List EventKey) (queue : EventQueue) : Finset EventKey :=
  if queue.seen.card ≥ queue.seenCap then
    -- `seen.iter().take(cap / 2)`, in whatever order that is
    queue.seen \ (iter.take (queue.seenCap / 2)).toFinset
  else queue.seen

/-- `send_dedup`. The key is remembered even when the receiver is gone. -/
def sendDedup (iter : List EventKey) (queue : EventQueue) (event : StacksEvent) :
    EventQueue × Bool :=
  if event.key ∈ queue.seen then (queue, false)
  else
    -- the key goes in before the send, and stays if the send fails
    let seen := insert event.key (queue.retained iter)
    if queue.closed then ({ queue with seen }, false)
    else ({ queue with seen, channel := queue.channel ++ [event] }, true)

/-- The first half of `send_dedup`, under the lock of `seen`: is the key new? -/
def checkInsert (iter : List EventKey) (queue : EventQueue) (event : StacksEvent) :
    EventQueue × Bool :=
  if event.key ∈ queue.seen then (queue, false)
  else ({ queue with seen := insert event.key (queue.retained iter) }, true)

/-- The second half: `self.tx.send(..)`, once the channel has room. -/
def push (queue : EventQueue) (event : StacksEvent) : EventQueue × Bool :=
  if queue.closed then (queue, false)
  else ({ queue with channel := queue.channel ++ [event] }, true)

/-- `send_dedup` is its two halves. -/
theorem sendDedup_eq (iter : List EventKey) (queue : EventQueue) (event : StacksEvent) :
    queue.sendDedup iter event =
      if (queue.checkInsert iter event).2 then (queue.checkInsert iter event).1.push event
      else ((queue.checkInsert iter event).1, false) := by
  unfold sendDedup checkInsert
  by_cases hseen : event.key ∈ queue.seen
  · simp only [if_pos hseen]
    rfl
  · simp only [if_neg hseen]
    rfl

/-- Sending the event evicts nothing. -/
def Keeps (iter : List EventKey) (queue : EventQueue) (event : StacksEvent) : Prop :=
  event.key ∈ queue.seen ∨ queue.retained iter = queue.seen

/-- `rx.recv()`. -/
def recv (queue : EventQueue) : Option (StacksEvent × EventQueue) :=
  match queue.channel with
  | [] => none
  | event :: rest => some (event, { queue with channel := rest })

/-- Eviction only forgets: what is retained had been sent. -/
theorem retained_subset (iter : List EventKey) (queue : EventQueue) :
    queue.retained iter ⊆ queue.seen := by
  unfold retained
  split
  · exact Finset.sdiff_subset
  · exact Finset.Subset.refl _

/-- A key that is remembered is a duplicate, and nothing happens. -/
theorem sendDedup_of_mem {queue : EventQueue} {event : StacksEvent} (h : event.key ∈ queue.seen)
    (iter : List EventKey) : queue.sendDedup iter event = (queue, false) := if_pos h

/-- A key that is not remembered is sent, and remembered with whatever the eviction has left of
the others. -/
theorem sendDedup_of_not_mem {queue : EventQueue} {event : StacksEvent}
    (h : event.key ∉ queue.seen) (hopen : queue.closed = false) (iter : List EventKey) :
    queue.sendDedup iter event =
      ({ queue with
          seen := insert event.key (queue.retained iter)
          channel := queue.channel ++ [event] }, true) := by
  rw [sendDedup, if_neg h, hopen]
  rfl

/-- Sending adds at most the event's own key to those remembered. -/
theorem mem_seen_sendDedup {iter : List EventKey} {queue : EventQueue} {event : StacksEvent}
    {k : EventKey} (h : k ∈ (queue.sendDedup iter event).1.seen) :
    k = event.key ∨ k ∈ queue.seen := by
  unfold sendDedup at h
  split at h
  · exact Or.inr h
  -- whether or not the channel is closed, the key set is the same
  · have hins : k ∈ insert event.key (queue.retained iter) := by
      split at h <;> exact h
    rcases Finset.mem_insert.mp hins with hk | hk
    · exact Or.inl hk
    · exact Or.inr (retained_subset iter queue hk)

/-- A send that evicts nothing remembers its own key beside those it knew. -/
theorem seen_sendDedup {iter : List EventKey} {queue : EventQueue} {event : StacksEvent}
    (hkeeps : queue.Keeps iter event) :
    (queue.sendDedup iter event).1.seen = insert event.key queue.seen := by
  unfold sendDedup
  by_cases hseen : event.key ∈ queue.seen
  · rw [if_pos hseen, Finset.insert_eq_of_mem hseen]
  · rw [if_neg hseen, ← hkeeps.resolve_left hseen]
    split <;> rfl

/-- Sending does not close the channel. -/
theorem closed_sendDedup (iter : List EventKey) (queue : EventQueue) (event : StacksEvent) :
    (queue.sendDedup iter event).1.closed = queue.closed := by
  unfold sendDedup
  split
  · rfl
  · split <;> rfl

/-- A new event enters the channel, unless that is closed. -/
theorem channel_sendDedup (iter : List EventKey) (queue : EventQueue) (event : StacksEvent) :
    (queue.sendDedup iter event).1.channel = queue.channel ∨
      (event.key ∉ queue.seen ∧
        (queue.sendDedup iter event).1.channel = queue.channel ++ [event]) := by
  unfold sendDedup
  by_cases hseen : event.key ∈ queue.seen
  · rw [if_pos hseen]
    exact Or.inl rfl
  · rw [if_neg hseen]
    split
    · exact Or.inl rfl
    · exact Or.inr ⟨hseen, rfl⟩

/-- What waits in the channel afterwards waited there before, or is the event that was sent. -/
theorem mem_channel_sendDedup {iter : List EventKey} {queue : EventQueue} {event e : StacksEvent}
    (h : e ∈ (queue.sendDedup iter event).1.channel) : e ∈ queue.channel ∨ e = event := by
  rcases channel_sendDedup iter queue event with hsame | ⟨-, hpushed⟩
  · rw [hsame] at h
    exact Or.inl h
  · rw [hpushed] at h
    exact (List.mem_append.mp h).imp_right List.mem_singleton.mp

end EventQueue

end StacksDex.Model
