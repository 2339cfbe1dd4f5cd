import StacksDex.Bridge.Cells
import StacksDex.Bridge.Dispatch
import StacksDex.Results.Caches
import StacksDex.Results.Pollers

/-!
# StacksDex — pools under their ids

The registry keeps its pools by `id()`, a text. What it makes the text of is the pool's slot: a
contract, an LP token, or for ALEX a number within a contract. Slots have different texts
(`text_injective`), as long as no contract has a `#` in its name, so the registry is a map of
slots in every run of its operations (`registry_keeps_slots_apart`).

A slot is what a pool is about, whatever it holds, and no event moves a pool to another one
(`slotOf_applyEvent`). `slotStep` is what an operation does to one slot; the main result is a
simulation of the registry by these, slot by slot, for runs in which every pool is inserted
under its own id.
-/

namespace StacksDex.Results

open StacksDex.Lib StacksDex.Model StacksDex.Bridge

/-! ## Slots and their texts -/

/-- A principal, and for ALEX the number of the pool in it. -/
abbrev Slot := Principal × Option Nat

def slotOf : Pool → Slot
  | .dlmm p => (p.poolContract, none)
  | .arkadiko p => (p.swapToken, none)
  | .velar p => (p.lpToken, none)
  | .alex p => (p.poolContract, some p.poolId)
  | .bitflowXyk p => (p.poolContract, none)
  | .stableV1 p => (p.poolContract, none)
  | .stableV2 p => (p.poolContract, none)

def Slot.text (sha256 : Sha256) (i : Slot) : Except Fault String :=
  match i.2 with
  | none => i.1.display sha256
  | some n => do .ok s!"{← i.1.display sha256}#{n}"

/-- A pool's `id()` is the text of its slot. -/
theorem id_eq_text (sha256 : Sha256) (pool : Pool) :
    pool.id sha256 = Slot.text sha256 (slotOf pool) := by
  rcases pool with p | p | p | p | p | p | p <;> rfl

/-- No `#` in the name of the contract. -/
def Plain (p : Principal) : Prop :=
  match p with
  | .standard _ _ => True
  | .contract _ _ name => '#' ∉ name.toList

instance : DecidablePred Plain
  | .standard _ _ => inferInstanceAs (Decidable True)
  | .contract _ _ name => inferInstanceAs (Decidable ('#' ∉ name.toList))

/-- Addresses have no `#` in them. -/
theorem hash_notMem_address {sha256 : Sha256} {version : UInt8} {hash160 : Hash160} {addr : String}
    (hversion : version.toNat < 32) (h : c32EncodeAddress sha256 version hash160 = .ok addr) :
    '#' ∉ addr.toList := by
  have hdigit : ∀ d : Fin 32, digitChar d.val ≠ '#' := by decide
  obtain ⟨k, n, -, -, hencode⟩ := c32EncodeAddress_eq sha256 hversion hash160
  obtain rfl := Except.ok.inj (hencode.symm.trans h)
  rw [String.toList_ofList]
  intro hmem
  rcases List.mem_cons.mp hmem with hS | hmem
  · exact absurd hS (by decide)
  rcases List.mem_cons.mp hmem with hfirst | hmem
  · exact hdigit ⟨_, hversion⟩ hfirst.symm
  rcases List.mem_append.mp hmem with hzero | hbody
  · exact absurd (List.eq_of_mem_replicate hzero) (by decide)
  · obtain ⟨d, hd, hchar⟩ := List.mem_map.mp hbody
    exact hdigit ⟨d, bodyDigits_lt hd⟩ hchar

/-- Nor has the text of a principal whose name has none. -/
theorem hash_notMem_display {sha256 : Sha256} {p : Principal} {text : String} (hp : Plain p)
    (h : p.display sha256 = .ok text) : '#' ∉ text.toList := by
  have hversion : p.address.1.toNat < 32 := by
    by_contra hnot
    obtain ⟨msg, hpanic⟩ := display_panics sha256 (not_lt.mp hnot)
    rw [hpanic] at h
    cases h
  rw [Principal.display] at h
  obtain ⟨addr, hencode, h⟩ := bind_eq_ok.mp h
  have haddr := hash_notMem_address hversion hencode
  rcases p with ⟨version, hash160⟩ | ⟨version, hash160, name⟩
  · obtain rfl := Except.ok.inj h
    exact haddr
  · obtain rfl := Except.ok.inj h
    intro hmem
    rw [String.toList_append, String.toList_append, List.mem_append, List.mem_append] at hmem
    rcases hmem with (hmem | hmem) | hmem
    · exact haddr hmem
    · exact absurd hmem (by decide)
    · exact hp hmem

/-- A slot without a number has the text of its contract. -/
theorem text_none {sha256 : Sha256} {p : Principal} {text : String} (hp : Plain p)
    (h : Slot.text sha256 (p, none) = .ok text) :
    p.display sha256 = .ok text ∧ splitOnce '#' text.toList = none :=
  ⟨h, splitOnce_none (hash_notMem_display hp h)⟩

/-- A number is what stands behind the first `#`. -/
theorem text_some {sha256 : Sha256} {p : Principal} {n : Nat} {text : String} (hp : Plain p)
    (h : Slot.text sha256 (p, some n) = .ok text) :
    ∃ shown, p.display sha256 = .ok shown ∧
      splitOnce '#' text.toList = some (shown.toList, Nat.toDigits 10 n) := by
  obtain ⟨shown, hshown, h⟩ := bind_eq_ok.mp h
  obtain rfl := Except.ok.inj h
  have hchars : (s!"{shown}#{n}").toList = shown.toList ++ '#' :: Nat.toDigits 10 n := by
    simp [toString, Nat.toList_repr]
  refine ⟨shown, hshown, ?_⟩
  show splitOnce '#' (s!"{shown}#{n}").toList = _
  rw [hchars, splitOnce_append (hash_notMem_display hp hshown)]

/-- **Different slots have different texts**, as long as no contract has a `#` in its name. -/
theorem text_injective {sha256 : Sha256} {i j : Slot} {text : String} (hi : Plain i.1)
    (hj : Plain j.1) (hti : Slot.text sha256 i = .ok text)
    (htj : Slot.text sha256 j = .ok text) : i = j := by
  obtain ⟨p, number⟩ := i
  obtain ⟨q, number'⟩ := j
  rcases number with _ | n <;> rcases number' with _ | m
  · obtain ⟨hshown, -⟩ := text_none hi hti
    obtain ⟨hshown', -⟩ := text_none hj htj
    obtain rfl : p = q := display_injective sha256 hshown hshown'
    rfl
  -- a text with a number has a `#`, and one without has none
  · obtain ⟨-, hnone⟩ := text_none hi hti
    obtain ⟨shown, -, hsome⟩ := text_some hj htj
    simp [hnone] at hsome
  · obtain ⟨-, hnone⟩ := text_none hj htj
    obtain ⟨shown, -, hsome⟩ := text_some hi hti
    simp [hnone] at hsome
  · obtain ⟨shown, hshown, hparts⟩ := text_some hi hti
    obtain ⟨shown', hshown', hparts'⟩ := text_some hj htj
    obtain ⟨hsame, hdigits⟩ := Prod.mk.inj (Option.some.inj (hparts.symm.trans hparts'))
    obtain rfl := String.toList_inj.mp hsame
    have hnumbers := congrArg (fun cs => Nat.ofDigitChars 10 cs 0) hdigits
    simp only [Nat.ofDigitChars_ten_toDigits] at hnumbers
    obtain rfl : p = q := display_injective sha256 hshown hshown'
    rw [hnumbers]

/-! ## The registry's operations -/

/-- What is done to a registry. The writes through pool handles are those of `dispatch`. -/
inductive RegistryStep where
  /-- `insert`, under the pool's `id()`. -/
  | insert (id : String) (pool : Pool)
  | remove (id : String)
  | dispatch (now : String → Nat) (contended : String → Bool) (event : StacksEvent)
  | setWatermark (contract : Principal) (txId : String)
  | setLastProcessedBlock (b : Nat)

def registryStep (registry : PoolRegistry) : RegistryStep → PoolRegistry
  | .insert id pool => registry.insert id pool
  | .remove id => registry.remove id
  | .dispatch now contended event => registry.dispatch now contended event
  | .setWatermark contract txId => registry.setWatermark contract txId
  | .setLastProcessedBlock b => registry.setLastProcessedBlock b

/-- The key is the pool's own id, and nothing in it is mistaken for the number of an ALEX pool. -/
def OwnKey (sha256 : Sha256) : RegistryStep → Prop
  | .insert id pool => pool.id sha256 = .ok id ∧ Plain (slotOf pool).1
  | _ => True

/-- What a step does to the pool in one slot, whose text is `id`. -/
def slotStep (slot : Slot) (id : String) (held : Option Pool) : RegistryStep → Option Pool
  | .insert _ pool => if slotOf pool = slot then some pool else held
  | .remove removed => if removed = id then none else held
  | .dispatch now contended event => held.map fun p =>
    if (contended id || p.subscribedTo event.emitter) = true then p.applyEvent (now id) event else p
  | _ => held

/-- Removing one key does not change what is found under another. -/
theorem lookup_filter_ne {α : Type} (entries : List (String × α)) {k id : String} (h : id ≠ k) :
    (entries.filter fun e => e.1 ≠ k).lookup id = entries.lookup id := by
  induction entries with
  | nil => rfl
  | cons e rest ih =>
    by_cases he : e.1 = k
    · rw [List.filter_cons_of_neg (by simpa using he), ih, List.lookup_cons,
        beq_false_of_ne (he ▸ h)]
    · rw [List.filter_cons_of_pos (by simpa using he), List.lookup_cons, List.lookup_cons, ih]

/-- Inserting under one id does not change what is found under another. -/
theorem get_insert_of_ne (registry : PoolRegistry) {k id : String} (h : id ≠ k) (pool : Pool) :
    (registry.insert k pool).get id = registry.get id := by
  show List.lookup id ((k, pool) :: registry.byId.filter fun e => e.1 ≠ k) = _
  rw [List.lookup_cons, beq_false_of_ne h]
  exact lookup_filter_ne registry.byId h

/-- A removed pool is not found, and every other one is. -/
theorem get_remove (registry : PoolRegistry) (k id : String) :
    (registry.remove k).get id = if k = id then none else registry.get id := by
  show List.lookup id (registry.byId.filter fun e => e.1 ≠ k) = _
  by_cases h : k = id
  · rw [if_pos h, List.lookup_eq_none_iff]
    intro e he
    have hne : e.1 ≠ k := of_decide_eq_true (List.mem_filter.mp he).2
    exact bne_iff_ne.mpr (h ▸ hne.symm)
  · rw [if_neg h]
    exact lookup_filter_ne registry.byId (Ne.symm h)

section Slots

variable {sha256 : Sha256} {slot : Slot} {id : String} {registry : PoolRegistry}
variable {l : RegistryStep}

/-- A step of the registry is, in every slot, that slot's step. -/
theorem get_registryStep (hslot : Plain slot.1) (htext : Slot.text sha256 slot = .ok id)
    (hl : OwnKey sha256 l) :
    (registryStep registry l).get id = slotStep slot id (registry.get id) l := by
  rcases l with ⟨k, pool⟩ | k | ⟨now, contended, event⟩ | ⟨contract, txId⟩ | b
  case insert =>
    obtain ⟨hid, hplain⟩ := hl
    rw [id_eq_text] at hid
    rw [slotStep]
    by_cases hk : k = id
    · rw [if_pos (text_injective hplain hslot (hk ▸ hid) htext), ← hk]
      exact PoolRegistry.get_insert registry k pool
    · have hother : slotOf pool ≠ slot := by
        rintro rfl
        exact hk (Except.ok.inj (hid.symm.trans htext))
      rw [if_neg hother]
      exact get_insert_of_ne registry (Ne.symm hk) pool
  case remove => exact get_remove registry k id
  case dispatch => exact get_dispatch now contended registry event id
  case setWatermark => rfl
  case setLastProcessedBlock => rfl

/-- Every pool stands under its own id. -/
def Keyed (sha256 : Sha256) (registry : PoolRegistry) : Prop :=
  ∀ id p, registry.get id = some p → p.id sha256 = .ok id

/-- No event moves a pool to another slot. -/
theorem slotOf_applyEvent (now : Nat) (pool : Pool) (event : StacksEvent) :
    slotOf (pool.applyEvent now event) = slotOf pool := by
  have hfixed : ∀ p : Pool, slotOf p = slotOf (frame p) := by
    intro p
    rcases p with p | p | p | p | p | p | p <;> rfl
  rw [hfixed, (applyEvent_overlays now pool event).2, ← hfixed]

/-- A step under its own id keeps every pool under its own. -/
theorem Keyed.step (h : Keyed sha256 registry) (hl : OwnKey sha256 l) :
    Keyed sha256 (registryStep registry l) := by
  intro id p hp
  rcases l with ⟨k, pool⟩ | k | ⟨now, contended, event⟩ | ⟨contract, txId⟩ | b
  case insert =>
    by_cases hk : id = k
    · subst hk
      obtain rfl := Option.some.inj ((PoolRegistry.get_insert registry id pool).symm.trans hp)
      exact hl.1
    · exact h id p ((get_insert_of_ne registry hk pool).symm.trans hp)
  case remove =>
    rw [registryStep, get_remove] at hp
    split_ifs at hp
    exact h id p hp
  -- an event may write into the pool, but not into what its id is made of
  case dispatch =>
    rw [registryStep, get_dispatch] at hp
    obtain ⟨q, hq, rfl⟩ := Option.map_eq_some_iff.mp hp
    split
    · rw [id_eq_text, slotOf_applyEvent, ← id_eq_text]
      exact h id q hq
    · exact h id q hq
  case setWatermark => exact h id p hp
  case setLastProcessedBlock => exact h id p hp

/--
**The registry is a map of slots.** In every run of inserts under the pool's own id, removals,
dispatches and watermarks, each pool stands under its own id, and what is in a slot is what
the steps about that slot made of it, whatever the other pools are. A slot is what an id is
the text of: a contract, or an ALEX contract with a number. Contract names have no `#`, which
is what separates the number in the text.
-/
theorem registry_keeps_slots_apart {steps : List RegistryStep} (hstart : Keyed sha256 registry)
    (hsteps : ∀ l ∈ steps, OwnKey sha256 l) :
    Keyed sha256 (Run.exec registryStep registry steps) ∧
      ∀ slot id, Plain slot.1 → Slot.text sha256 slot = .ok id →
        (Run.exec registryStep registry steps).get id =
          Run.exec (slotStep slot id) (registry.get id) steps := by
  induction steps generalizing registry with
  | nil => exact ⟨hstart, fun _ _ _ _ => rfl⟩
  | cons l rest ih =>
    have hl := hsteps l (List.mem_cons_self ..)
    obtain ⟨hkeyed, hslots⟩ :=
      ih (hstart.step hl) fun l' hl' => hsteps l' (List.mem_cons_of_mem _ hl')
    refine ⟨hkeyed, fun slot id hslot htext => ?_⟩
    rw [Run.exec_cons, Run.exec_cons, hslots slot id hslot htext,
      get_registryStep hslot htext hl]

end Slots

/-- A pool of the ALEX singleton. -/
def alexNumbered (poolId : Nat) : AlexPool where
  poolContract := deployed "amm-pool-v2-01"
  poolId
  xToken := deployed "x"
  yToken := deployed "y"
  xDecimals := 8
  yDecimals := 8
  balanceX := 1
  balanceY := 2
  factor := CONSTANT_PRODUCT_FACTOR
  feeRateX := 0
  feeRateY := 0
  lastTxId := none

/-- Three pools come, and the last one goes. -/
def alexComings : List RegistryStep :=
  [.insert "SP000000000000000000002Q6VF78.amm-pool-v2-01#7" (.alex (alexNumbered 7)),
    .insert "SP000000000000000000002Q6VF78.amm-pool-v2-01#77" (.alex (alexNumbered 77)),
    .insert "SP000000000000000000002Q6VF78.lp-1" (.arkadiko (arkadikoPair "lp-1")),
    .remove "SP000000000000000000002Q6VF78.amm-pool-v2-01#77"]

/-- Two ALEX pools of one contract come and go. -/
theorem registry_keeps_slots_apart_alex :
    (Run.exec registryStep emptyRegistry alexComings).get
        "SP000000000000000000002Q6VF78.amm-pool-v2-01#7" = some (.alex (alexNumbered 7)) := by
  have hkeyed : Keyed burnSha256 emptyRegistry := fun id p h => by cases h
  have hown : ∀ l ∈ alexComings, OwnKey burnSha256 l := by
    intro l hl
    simp only [alexComings, List.mem_cons, List.not_mem_nil, or_false] at hl
    rcases hl with rfl | rfl | rfl | rfl
    · exact ⟨by decide, by decide⟩
    · exact ⟨by decide, by decide⟩
    · exact ⟨by decide, by decide⟩
    · trivial
  exact (registry_keeps_slots_apart hkeyed hown).2 (deployed "amm-pool-v2-01", some 7) _
    (by decide) (by decide)

end StacksDex.Results
