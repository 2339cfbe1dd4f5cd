import StacksDex.Model.Clarity

/-!
# StacksDex — events and topics

`pool/event.rs`: one decoded print event with its provenance, the typed readers
of its `data` tuple, and the `(contract, action)` subscription key. The readers
return nothing for a missing key and for a key of another Clarity type alike.

An event's `key` is its transaction and its index there, by which the queue tells a
repetition. A topic names the contract that prints, which is not always the pool's own: the
pools of a singleton contract share theirs.
-/

namespace StacksDex.Model

/-- One decoded event ready to be applied to a pool. -/
structure StacksEvent where
  /-- The contract whose `print` this is. -/
  emitter : Principal
  txId : String
  eventIndex : Nat
  /-- The `action` (or `op`) of the payload, and the rest of it. -/
  action : String
  data : Fields

namespace StacksEvent

/-- `data_uint`. -/
def dataUint (event : StacksEvent) (key : String) : Option Nat :=
  match event.data.get key with
  | some (.uint n) => some n.toNat
  | _ => none

/-- `data_int`. -/
def dataInt (event : StacksEvent) (key : String) : Option Int :=
  match event.data.get key with
  | some (.int n) => some n.toInt
  | _ => none

/-- `data_principal`. -/
def dataPrincipal (event : StacksEvent) (key : String) : Option Principal :=
  match event.data.get key with
  | some (.principal p) => some p
  | _ => none

/-- The dedup key. -/
def key (event : StacksEvent) : String × Nat := (event.txId, event.eventIndex)

end StacksEvent

/-- Subscription key: which contract to poll, for which action. -/
structure StacksTopic where
  contract : Principal
  action : String
  deriving DecidableEq

end StacksDex.Model
