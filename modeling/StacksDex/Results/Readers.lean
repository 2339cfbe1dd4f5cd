import StacksDex.Bridge.DecoderSafety
import StacksDex.Results.Address

/-!
# StacksDex — reading a decoded value as another type

A reader that meets a value of another type prints it into its error message. Printing a
principal runs the address encoder on its version byte, and `cv_decode` accepts any byte
there, so the readers are safe on a decoded value exactly when every principal in it has
a version of the c32 alphabet.

* `debug_ok`: a value whose versions are known can be printed, by recursion on the value;
* `readersReturn_nested_iff`: so the readers return on everything nested in it, and only then;
* `decoded_readers_return_iff`: the same of what `cv_decode` returns;
* `decoded_readers_panic`: a version byte of 32.

`ReadersReturn` is about all readers of the codec at once: no call of any of them panics.
-/

namespace StacksDex.Results

open StacksDex.Model StacksDex.Bridge

/-- The first value is the second one, or lies somewhere inside it. -/
inductive Nested : ClarityValue → ClarityValue → Prop
  | self (v : ClarityValue) : Nested v v
  | responseOk {w v : ClarityValue} (h : Nested w v) : Nested w (.responseOk v)
  | responseErr {w v : ClarityValue} (h : Nested w v) : Nested w (.responseErr v)
  | optionalSome {w v : ClarityValue} (h : Nested w v) : Nested w (.optionalSome v)
  | item {w v : ClarityValue} {items : List ClarityValue} (hmem : v ∈ items) (h : Nested w v) :
    Nested w (.list items)
  | field {w v : ClarityValue} {name : String} {fields : Fields} (hmem : (name, v) ∈ fields)
    (h : Nested w v) : Nested w (.tuple fields)

/-- What is nested in something nested is nested. -/
theorem Nested.trans {u v w : ClarityValue} (huv : Nested u v) (hvw : Nested v w) :
    Nested u w := by
  induction hvw with
  | self => exact huv
  | responseOk _ ih => exact .responseOk ih
  | responseErr _ ih => exact .responseErr ih
  | optionalSome _ ih => exact .optionalSome ih
  | item hmem _ ih => exact .item hmem ih
  | field hmem _ ih => exact .field hmem ih

/-- Every principal in the value has a version the alphabet has a character for. -/
def VersionsKnown (v : ClarityValue) : Prop :=
  ∀ p, Nested (.principal p) v → p.address.1.toNat < 32

/-- A part has no principal that the whole does not have. -/
theorem VersionsKnown.nested {v w : ClarityValue} (h : VersionsKnown v) (hw : Nested w v) :
    VersionsKnown w := fun p hp => h p (hp.trans hw)

/-- Every reader returns: a value or an `Err`. -/
structure ReadersReturn (sha256 : Sha256) (v : ClarityValue) : Prop where
  unwrapOk : NoPanic (v.unwrapOk sha256)
  field : ∀ key, NoPanic (v.field sha256 key)
  asUint : NoPanic (v.asUint sha256)
  asInt : NoPanic (v.asInt sha256)
  asBool : NoPanic (v.asBool sha256)
  asPrincipal : NoPanic (v.asPrincipal sha256)

/-! ## Printing -/

/-- A version of the alphabet has a character. -/
theorem display_ok (sha256 : Sha256) {p : Principal} (h : p.address.1.toNat < 32) :
    ∃ s, p.display sha256 = .ok s := by
  obtain ⟨k, n, -, -, hencode⟩ := c32EncodeAddress_eq sha256 h p.address.2
  rcases p with ⟨version, hash160⟩ | ⟨version, hash160, name⟩
  · exact ⟨_, by rw [Principal.display, hencode, ok_bind]⟩
  · exact ⟨_, by rw [Principal.display, hencode, ok_bind]⟩

/-- The alphabet has no character for a higher version. -/
theorem display_panics (sha256 : Sha256) {p : Principal} (h : 32 ≤ p.address.1.toNat) :
    ∃ msg, p.display sha256 = .error (.panic msg) := by
  have hlength : c32Alphabet.length = 32 := by decide +kernel
  have hnone : c32Alphabet[p.address.1.toNat]? = none :=
    List.getElem?_eq_none (hlength.trans_le h)
  obtain ⟨k, n, -, -, hencode⟩ := c32EncodeAddress_body sha256 p.address.1 p.address.2
  rw [c32Char, hnone] at hencode
  exact ⟨_, by rw [Principal.display, hencode, error_bind, error_bind]⟩

mutual
/-- By recursion on the value: what is nested in a part is nested in the whole. -/
theorem debug_ok (sha256 : Sha256) : ∀ v, VersionsKnown v → ∃ s, v.debug sha256 = .ok s
  | .int _, _ => ⟨_, rfl⟩
  | .uint _, _ => ⟨_, rfl⟩
  | .buffer _, _ => ⟨_, rfl⟩
  | .bool _, _ => ⟨_, rfl⟩
  -- the one place that can fail
  | .principal p, h => by
    obtain ⟨s, hs⟩ := display_ok sha256 (h p (.self _))
    exact ⟨_, by rw [ClarityValue.debug, hs, ok_bind]⟩
  | .responseOk v, h => by
    obtain ⟨s, hs⟩ := debug_ok sha256 v (h.nested (.responseOk (.self v)))
    exact ⟨_, by rw [ClarityValue.debug, hs, ok_bind]⟩
  | .responseErr v, h => by
    obtain ⟨s, hs⟩ := debug_ok sha256 v (h.nested (.responseErr (.self v)))
    exact ⟨_, by rw [ClarityValue.debug, hs, ok_bind]⟩
  | .optionalNone, _ => ⟨_, rfl⟩
  | .optionalSome v, h => by
    obtain ⟨s, hs⟩ := debug_ok sha256 v (h.nested (.optionalSome (.self v)))
    exact ⟨_, by rw [ClarityValue.debug, hs, ok_bind]⟩
  -- lists and tuples by their items
  | .list items, h => by
    obtain ⟨ss, hss⟩ := debugItems_ok sha256 items fun v hv => h.nested (.item hv (.self v))
    exact ⟨_, by rw [ClarityValue.debug, hss, ok_bind]⟩
  | .tuple fields, h => by
    obtain ⟨ss, hss⟩ := debugFields_ok sha256 fields fun e he => h.nested (.field he (.self e.2))
    exact ⟨_, by rw [ClarityValue.debug, hss, ok_bind]⟩
  | .stringAscii _, _ => ⟨_, rfl⟩
  | .stringUtf8 _, _ => ⟨_, rfl⟩

/-- The same for the items of a list. -/
theorem debugItems_ok (sha256 : Sha256) : ∀ items : List ClarityValue,
    (∀ v ∈ items, VersionsKnown v) → ∃ ss, debugItems sha256 items = .ok ss
  | [], _ => ⟨_, rfl⟩
  | item :: rest, h => by
    obtain ⟨s, hs⟩ := debug_ok sha256 item (h item (List.mem_cons_self ..))
    obtain ⟨ss, hss⟩ := debugItems_ok sha256 rest fun v hv => h v (List.mem_cons_of_mem _ hv)
    exact ⟨_, by rw [debugItems, hs, ok_bind, hss, ok_bind]⟩

/-- The same for the fields of a tuple. -/
theorem debugFields_ok (sha256 : Sha256) : ∀ fields : List (String × ClarityValue),
    (∀ e ∈ fields, VersionsKnown e.2) → ∃ ss, debugFields sha256 fields = .ok ss
  | [], _ => ⟨_, rfl⟩
  | (name, value) :: rest, h => by
    obtain ⟨s, hs⟩ := debug_ok sha256 value (h (name, value) (List.mem_cons_self ..))
    obtain ⟨ss, hss⟩ := debugFields_ok sha256 rest fun e he => h e (List.mem_cons_of_mem _ he)
    exact ⟨_, by rw [debugFields, hs, ok_bind, hss, ok_bind]⟩
end

/-! ## The readers -/

/-- A reader that prints what it cannot use is as safe as the printing. -/
theorem noPanic_mismatch {α : Type} {text : String} {shown : Except Fault String}
    (h : ∃ s, shown = .ok s) :
    NoPanic (do .error (.err (text ++ (← shown))) : Except Fault α) := by
  obtain ⟨s, rfl⟩ := h
  exact .err _

/-- Where printing succeeds, so does every reader, with a value or an `Err`. -/
theorem VersionsKnown.readersReturn {sha256 : Sha256} {v : ClarityValue} (h : VersionsKnown v) :
    ReadersReturn sha256 v := by
  have hdebug := debug_ok sha256 v h
  constructor
  · rcases v <;> first
      | exact noPanic_mismatch hdebug
      | exact .ok _
      | exact noPanic_mismatch (debug_ok sha256 _ (h.nested (.responseErr (.self _))))
  · intro key
    unfold ClarityValue.field
    split
    -- a tuple without the key is not printed
    · split
      · exact .ok _
      · exact .err _
    · exact noPanic_mismatch hdebug
  · rcases v <;> first | exact noPanic_mismatch hdebug | exact .ok _
  · rcases v <;> first | exact noPanic_mismatch hdebug | exact .ok _
  · rcases v <;> first | exact noPanic_mismatch hdebug | exact .ok _
  · rcases v <;> first | exact noPanic_mismatch hdebug | exact .ok _

/-- The other way round, a principal with a higher version is nested in the value itself, and
reading it as anything else panics. -/
theorem readersReturn_nested_iff (sha256 : Sha256) (v : ClarityValue) :
    (∀ w, Nested w v → ReadersReturn sha256 w) ↔ VersionsKnown v := by
  constructor
  · intro hreturn p hp
    by_contra hversion
    -- a principal is no `uint`, so `as_uint` prints it
    obtain ⟨msg, hpanic⟩ := display_panics sha256 (not_lt.mp hversion)
    refine (hreturn _ hp).asUint msg ?_
    rw [ClarityValue.asUint, ClarityValue.debug, hpanic]
    · rfl
    · rintro n ⟨⟩
  · intro hknown w hw
    exact (hknown.nested hw).readersReturn

/--
**When the readers return** on all that is nested in a decoded value: exactly when every
principal in it has a version below 32. That is whatever the hash function, for every buffer
and offset. The decoder takes any byte for the version; a reader that meets a value of another
type prints it into its message, and printing a principal panics on a version that has no
character.
-/
theorem decoded_readers_return_iff (sha256 : Sha256) {buf : List UInt8} {off n : Nat}
    {v : ClarityValue} (_hdecoded : cvDecode buf off = .ok (v, n)) :
    (∀ w, Nested w v → ReadersReturn sha256 w) ↔ VersionsKnown v :=
  readersReturn_nested_iff sha256 v

/-- Twenty zero bytes as an address of the given version. -/
def zeroAddress (version : UInt8) : Principal := .standard version (List.Vector.replicate 20 0)

/-- Twenty-two bytes that decode to a principal of any version. -/
theorem cvDecode_zeroAddress (version : UInt8) :
    cvDecode (0x05 :: version :: List.replicate 20 0) 0 =
      .ok (.principal (zeroAddress version), 22) :=
  cvDecode_eq_ok.mpr ⟨.principal (zeroAddress version),
    ⟨trivial, ⟨Nat.zero_le _, List.prefix_rfl⟩, rfl⟩, rfl⟩

/-- A mainnet address. -/
theorem decoded_readers_return_mainnet :
    ReadersReturn burnSha256 (.principal (zeroAddress 22)) := by
  have hknown : VersionsKnown (.principal (zeroAddress 22)) := by
    rintro p ⟨⟩
    decide
  exact (decoded_readers_return_iff burnSha256 (cvDecode_zeroAddress 22)).mpr hknown _ (.self _)

/-- A version byte of 32 is decoded, and reading the principal as a `uint` panics. -/
theorem decoded_readers_panic :
    ¬ ∀ (sha256 : Sha256) (buf : List UInt8) (off n : Nat) (v w : ClarityValue),
      cvDecode buf off = .ok (v, n) → Nested w v → ReadersReturn sha256 w := by
  intro hall
  have hreturn : ∀ w, Nested w (.principal (zeroAddress 32)) → ReadersReturn burnSha256 w :=
    fun w hw => hall burnSha256 _ 0 22 _ w (cvDecode_zeroAddress 32) hw
  have hknown := (readersReturn_nested_iff burnSha256 _).mp hreturn
  exact absurd (hknown _ (.self _)) (by decide)

end StacksDex.Results
