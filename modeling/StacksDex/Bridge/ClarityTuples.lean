import StacksDex.Bridge.ClarityWire

/-!
# StacksDex — tuples as maps

`cv_decode` differs from the wire parser only in building each tuple as a map,
which is the function `canon` on its result (`cvDecode_eq_ok`).

## Main results

* `cvDecode_eq_map_rebuild`: the decoder is the wire parser followed by `canon`;
* `canon_namesAscending`, `canon_lengthsFit`: `canon` yields maps and keeps lengths within
  their fields;
* `canon_of_ascending`: it is the identity on values whose tuples are already in name order,
  so that an encoded map decodes to itself;
* `decodeFuel_congr`: the nesting bound of `cvDecode` is never reached.

The lemmas come in threes, for a value, for the items of a list and for the fields of a
tuple, as `ClarityValue` is a nested inductive type.
-/

namespace StacksDex.Bridge

open StacksDex.Lib StacksDex.Model

/-! ## Rebuilding the tuples -/

mutual
/-- Rebuild every tuple as a map: insert its fields in buffer order. -/
def canon : ClarityValue → ClarityValue
  | .responseOk v => .responseOk (canon v)
  | .responseErr v => .responseErr (canon v)
  | .optionalSome v => .optionalSome (canon v)
  | .list items => .list (canonItems items)
  | .tuple fields => .tuple (SortedAssoc.insertAll byteKey [] (canonFields fields))
  | v => v

def canonItems : List ClarityValue → List ClarityValue
  | [] => []
  | item :: rest => canon item :: canonItems rest

def canonFields : List (String × ClarityValue) → List (String × ClarityValue)
  | [] => []
  | (name, value) :: rest => (name, canon value) :: canonFields rest
end

/-- The items of a list are rebuilt one by one. -/
theorem canonItems_eq_map (items : List ClarityValue) : canonItems items = items.map canon := by
  induction items with
  | nil => rfl
  | cons item rest ih => rw [canonItems, ih, List.map_cons]

/-- The values of a tuple's fields are rebuilt one by one, under their names. -/
theorem canonFields_eq_map (fields : Fields) :
    canonFields fields = fields.map fun e => (e.1, canon e.2) := by
  induction fields with
  | nil => rfl
  | cons e rest ih => rw [canonFields, ih, List.map_cons]

/-! ### `cv_decode` is the wire parser followed by `canon` -/

/-- Rebuild the value of a result, keep its offset. -/
def rebuild (r : ClarityValue × Nat) : ClarityValue × Nat := (canon r.1, r.2)

/-- A list of which every item is rebuilt is the rebuilt list. -/
theorem decodeItems_rebuild (dec : Nat → Except Fault (ClarityValue × Nat)) (cnt o : Nat)
    (acc : List ClarityValue) :
    decodeItems (fun o => (dec o).map rebuild) cnt o (acc.map canon) =
      (decodeItems dec cnt o acc).map fun r => (r.1.map canon, r.2) := by
  induction cnt generalizing o acc with
  | zero => rfl
  | succ cnt ih =>
    rw [decodeItems, decodeItems]
    cases dec o with
    | error e => rfl
    | ok r => simpa [rebuild] using ih r.2 (acc ++ [r.1])

/-- Inserting rebuilt fields into a rebuilt map is rebuilding the map of all fields. This is
where the two decoders differ: one inserts, the other appends. -/
theorem decodeFields_rebuild (buf : List UInt8)
    (dec : Nat → Except Fault (ClarityValue × Nat)) (cnt o : Nat) (acc : Fields) :
    decodeFields Fields.insert (fun o => (dec o).map rebuild) buf cnt o
        (SortedAssoc.insertAll byteKey [] (canonFields acc)) =
      (decodeFields wireIns dec buf cnt o acc).map fun r =>
        (SortedAssoc.insertAll byteKey [] (canonFields r.1), r.2) := by
  induction cnt generalizing o acc with
  | zero => rfl
  | succ cnt ih =>
    rw [decodeFields, decodeFields]
    split_ifs
    · rfl
    cases byteAt buf o with
    | error e => rfl
    | ok b =>
      rw [ok_bind, ok_bind]
      dsimp only
      split_ifs
      · rfl
      cases slice buf (o + 1) b.toNat with
      | error e => rfl
      | ok bytes =>
        rw [ok_bind, ok_bind]
        cases utf8 "CV tuple: field name not UTF-8" bytes with
        | error e => rfl
        | ok name =>
          rw [ok_bind, ok_bind]
          cases dec (o + 1 + b.toNat) with
          | error e => rfl
          | ok r =>
            -- inserting the field last is inserting it after the others
            have h := ih r.2 (acc ++ [(name, r.1)])
            rw [canonFields_eq_map, List.map_append, List.map_cons, List.map_nil,
              SortedAssoc.insertAll_append_singleton, ← canonFields_eq_map] at h
            exact h

/-- One level of the value: rebuilding what is nested rebuilds the whole. -/
theorem decodeTagged_rebuild (buf : List UInt8)
    (dec : Nat → Except Fault (ClarityValue × Nat)) (tag : UInt8) (off : Nat) :
    decodeTagged Fields.insert (fun o => (dec o).map rebuild) buf tag off =
      (decodeTagged wireIns dec buf tag off).map rebuild := by
  unfold decodeTagged
  split
  · rw [map_bind]; rfl
  · rw [map_bind]; rfl
  · rw [map_bind]; rfl
  · rfl
  · rfl
  · split_ifs <;> [rfl; (rw [map_bind]; rfl)]
  · -- contract principal: no value inside it is a tuple
    split_ifs
    · rfl
    rw [map_bind]
    apply bind_congr
    intro a
    rw [map_bind]
    apply bind_congr
    intro b
    dsimp only
    split_ifs <;> [rfl; (rw [map_bind]; refine bind_congr fun bytes => ?_; rw [map_bind]; rfl)]
  · dsimp only
    cases dec off <;> rfl
  · dsimp only
    cases dec off <;> rfl
  · rfl
  · dsimp only
    cases dec off <;> rfl
  · -- list
    split_ifs
    · rfl
    rw [map_bind]
    apply bind_congr
    intro l
    -- the loop starts from no items, and none rebuilt is none
    have hitems := decodeItems_rebuild dec (ofBeBytes l) (off + 4) []
    rw [List.map_nil] at hitems
    dsimp only
    rw [hitems]
    cases decodeItems dec (ofBeBytes l) (off + 4) [] with
    | error e => rfl
    | ok r => simp [rebuild, canon, canonItems_eq_map]
  · -- tuple
    split_ifs
    · rfl
    rw [map_bind]
    apply bind_congr
    intro l
    -- the loop starts from the empty map
    have hfields := decodeFields_rebuild buf dec (ofBeBytes l) (off + 4) []
    rw [canonFields, SortedAssoc.insertAll_nil] at hfields
    dsimp only
    rw [hfields]
    cases decodeFields wireIns dec buf (ofBeBytes l) (off + 4) [] with
    | error e => rfl
    | ok r => rfl
  · rw [map_bind]
    apply bind_congr
    intro r
    rw [map_bind]
    rfl
  · rw [map_bind]
    apply bind_congr
    intro r
    rw [map_bind]
    rfl
  · rfl

/-- Hence every level, by induction on the nesting bound. -/
theorem decodeFuel_rebuild (buf : List UInt8) (fuel : Nat) :
    decodeFuel Fields.insert buf fuel =
      fun off => (decodeFuel wireIns buf fuel off).map rebuild := by
  induction fuel with
  | zero => rfl
  | succ fuel ih =>
    funext off
    rw [decodeFuel, decodeFuel, decodeBody, decodeBody]
    split_ifs
    · rfl
    rw [map_bind]
    apply bind_congr
    intro tag
    rw [ih, decodeTagged_rebuild]

/-- **Refinement.** `cv_decode` is the wire parser with every tuple rebuilt as a map. It reads
the same bytes, stops at the same place and fails in the same way. -/
theorem cvDecode_eq_map_rebuild (buf : List UInt8) (off : Nat) :
    cvDecode buf off = (wireDecode buf off).map rebuild := by
  rw [cvDecode, decodeFuel_rebuild]
  rfl

/-- What `cv_decode` returns is the canonical form of what the bytes encode, and it returns
wherever they encode something. -/
theorem cvDecode_eq_ok {buf : List UInt8} {off n : Nat} {v : ClarityValue} :
    cvDecode buf off = .ok (v, n) ↔ ∃ w, Encoded buf off w n ∧ v = canon w := by
  rw [cvDecode_eq_map_rebuild]
  constructor
  · intro h
    cases hw : wireDecode buf off with
    | error e =>
      rw [hw] at h
      cases h
    | ok r =>
      rw [hw] at h
      obtain ⟨rfl, rfl⟩ := Prod.mk.inj (Except.ok.inj h)
      exact ⟨r.1, wireDecode_sound hw, rfl⟩
  · rintro ⟨w, hw, rfl⟩
    rw [wireDecode_eq_ok.mpr hw]
    rfl

/-! ### `canon` yields maps and leaves maps alone -/

mutual

/-- A value whose tuples are in name order is its own canonical form. -/
theorem canon_of_ascending : ∀ {v : ClarityValue}, v.NamesAscending → canon v = v
  | .responseOk v, h => congrArg _ (canon_of_ascending (v := v) h)
  | .responseErr v, h => congrArg _ (canon_of_ascending (v := v) h)
  | .optionalSome v, h => congrArg _ (canon_of_ascending (v := v) h)
  | .list _, h => congrArg ClarityValue.list (canonItems_of_ascending h)
  | .tuple fields, ⟨hord, hvalues⟩ => by
    rw [canon, canonFields_of_ascending hvalues,
      SortedAssoc.insertAll_nil_of_ascending byteKey hord]
  | .int _, _ | .uint _, _ | .buffer _, _ | .bool _, _ | .principal _, _ | .optionalNone, _
  | .stringAscii _, _ | .stringUtf8 _, _ => rfl

/-- The same for the items of a list. -/
theorem canonItems_of_ascending : ∀ {items : List ClarityValue},
    itemsAscending items → canonItems items = items
  | [], _ => rfl
  | item :: rest, ⟨hitem, hrest⟩ => by
    rw [canonItems, canon_of_ascending hitem, canonItems_of_ascending hrest]

/-- The same for the fields of a tuple, whose map is rebuilt in the order it has. -/
theorem canonFields_of_ascending : ∀ {fields : List (String × ClarityValue)},
    fieldsAscending fields → canonFields fields = fields
  | [], _ => rfl
  | (name, value) :: rest, ⟨hvalue, hrest⟩ => by
    rw [canonFields, canon_of_ascending hvalue, canonFields_of_ascending hrest]
end

/-- The condition on fields, without the recursion. -/
theorem fieldsAscending_iff {fields : Fields} :
    fieldsAscending fields ↔ ∀ e ∈ fields, e.2.NamesAscending := by
  induction fields with
  | nil => simp [fieldsAscending]
  | cons e rest ih => simp [fieldsAscending, ih]

/-- The length condition on fields, without the recursion. -/
theorem fieldsFit_iff {fields : Fields} :
    fieldsFit fields ↔ ∀ e ∈ fields, (asBytes e.1).length ≤ 255 ∧ e.2.LengthsFit := by
  induction fields with
  | nil => simp [fieldsFit]
  | cons e rest ih => simp [fieldsFit, ih, and_assoc]

/-- The entries of a rebuilt map are entries it was built from. -/
theorem mem_of_mem_insertAll_nil {entries : Fields} {e : String × ClarityValue}
    (h : e ∈ SortedAssoc.insertAll byteKey [] entries) : e ∈ entries := by
  simpa using SortedAssoc.mem_insertAll byteKey h

mutual

/-- A canonical form is a map at every level. -/
theorem canon_namesAscending : ∀ (v : ClarityValue), (canon v).NamesAscending
  | .responseOk v => canon_namesAscending v
  | .responseErr v => canon_namesAscending v
  | .optionalSome v => canon_namesAscending v
  | .list items => canonItems_ascending items
  | .tuple fields => by
    -- the entries of the map are rebuilt fields, so their values are maps already
    have hvalues := fieldsAscending_iff.mp (canonFields_ascending fields)
    refine ⟨SortedAssoc.ascending_insertAll byteKey List.Pairwise.nil, ?_⟩
    exact fieldsAscending_iff.mpr fun e he => hvalues e (mem_of_mem_insertAll_nil he)
  | .int _ | .uint _ | .buffer _ | .bool _ | .principal _ | .optionalNone
  | .stringAscii _ | .stringUtf8 _ => trivial

/-- The same for the items of a list. -/
theorem canonItems_ascending : ∀ (items : List ClarityValue), itemsAscending (canonItems items)
  | [] => trivial
  | item :: rest => ⟨canon_namesAscending item, canonItems_ascending rest⟩

/-- The same for the fields of a tuple. -/
theorem canonFields_ascending : ∀ (fields : List (String × ClarityValue)),
    fieldsAscending (canonFields fields)
  | [] => trivial
  | (_, value) :: rest => ⟨canon_namesAscending value, canonFields_ascending rest⟩
end

mutual

/-- Rebuilding a tuple drops repeated names and adds nothing, so lengths that fit still do. -/
theorem canon_lengthsFit : ∀ {v : ClarityValue}, v.LengthsFit → (canon v).LengthsFit
  | .responseOk v, h => canon_lengthsFit (v := v) h
  | .responseErr v, h => canon_lengthsFit (v := v) h
  | .optionalSome v, h => canon_lengthsFit (v := v) h
  | .list items, ⟨hcount, hitems⟩ => by
    refine ⟨?_, canonItems_fit hitems⟩
    rwa [canonItems_eq_map, List.length_map]
  | .tuple fields, ⟨hcount, hfields⟩ => by
    have hentries := fieldsFit_iff.mp (canonFields_fit hfields)
    refine ⟨?_, fieldsFit_iff.mpr fun e he => hentries e (mem_of_mem_insertAll_nil he)⟩
    -- inserting may drop an earlier field of the same name, so the count only falls
    have hle := SortedAssoc.length_insertAll_le byteKey [] (canonFields fields)
    rw [canonFields_eq_map, List.length_map, List.length_nil] at hle
    rw [canonFields_eq_map]
    omega
  | .principal p, h => h
  | .buffer _, h => h
  | .stringAscii _, h => h
  | .stringUtf8 _, h => h
  | .int _, _ | .uint _, _ | .bool _, _ | .optionalNone, _ => trivial

/-- The same for the items of a list. -/
theorem canonItems_fit : ∀ {items : List ClarityValue}, itemsFit items → itemsFit (canonItems items)
  | [], _ => trivial
  | _ :: _, ⟨hitem, hrest⟩ => ⟨canon_lengthsFit hitem, canonItems_fit hrest⟩

/-- The same for the fields of a tuple. -/
theorem canonFields_fit : ∀ {fields : List (String × ClarityValue)},
    fieldsFit fields → fieldsFit (canonFields fields)
  | [], _ => trivial
  | (_, _) :: _, ⟨hname, hvalue, hrest⟩ =>
    ⟨hname, canon_lengthsFit hvalue, canonFields_fit hrest⟩
end

/-! ## The nesting bound is never reached -/

section Bound

variable {buf : List UInt8} {dec dec' : Nat → Except Fault (ClarityValue × Nat)} {base : Nat}
  (hsame : ∀ o, base ≤ o → dec o = dec' o)
  (hstep : ∀ {o v n}, dec' o = .ok (v, n) → o ≤ n)

include hsame hstep

/-- Decoders that agree behind an offset read the same items from there. -/
theorem decodeItems_congr {cnt o : Nat} (ho : base ≤ o) (acc : List ClarityValue) :
    decodeItems dec cnt o acc = decodeItems dec' cnt o acc := by
  induction cnt generalizing o acc with
  | zero => rfl
  | succ cnt ih =>
    rw [decodeItems, decodeItems, hsame o ho]
    cases hd : dec' o with
    | error e => rfl
    -- the next item starts where this one stopped
    | ok r => exact ih (ho.trans (hstep hd)) _

/-- They read the same fields. -/
theorem decodeFields_congr {cnt o : Nat} (ho : base ≤ o) (acc : Fields) :
    decodeFields Fields.insert dec buf cnt o acc =
      decodeFields Fields.insert dec' buf cnt o acc := by
  induction cnt generalizing o acc with
  | zero => rfl
  | succ cnt ih =>
    rw [decodeFields, decodeFields]
    split_ifs
    · rfl
    apply bind_congr
    intro b
    dsimp only
    split_ifs
    · rfl
    apply bind_congr
    intro bytes
    apply bind_congr
    intro name
    -- the value starts behind the name, so still at or beyond `base`
    have hnext : base ≤ o + 1 + b.toNat := by omega
    rw [hsame _ hnext]
    cases hd : dec' (o + 1 + b.toNat) with
    | error e => rfl
    | ok r => exact ih (hnext.trans (hstep hd)) _

/-- They read the same value. -/
theorem decodeTagged_congr {off : Nat} (hoff : base ≤ off) (tag : UInt8) :
    decodeTagged Fields.insert dec buf tag off = decodeTagged Fields.insert dec' buf tag off := by
  unfold decodeTagged
  rw [hsame off hoff]
  split
  -- only the list and the tuple make more than one nested call
  case h_12 =>
    simp only [decodeItems_congr hsame hstep (hoff.trans (Nat.le_add_right off 4))]
  case h_13 =>
    simp only [decodeFields_congr hsame hstep (hoff.trans (Nat.le_add_right off 4))]
  all_goals rfl

end Bound

/-- A value ends no earlier than it starts. -/
theorem decodeFuel_stop {buf : List UInt8} {fuel off n : Nat} {v : ClarityValue}
    (h : decodeFuel Fields.insert buf fuel off = .ok (v, n)) : off ≤ n := by
  rw [decodeFuel_rebuild] at h
  dsimp only at h
  cases hw : decodeFuel wireIns buf fuel off with
  | error e =>
    rw [hw] at h
    cases h
  | ok r =>
    rw [hw] at h
    obtain ⟨rfl, rfl⟩ := Prod.mk.inj (Except.ok.inj h)
    have := (decodeFuel_sound hw).stop
    omega

/-- Two nesting bounds above the bytes that remain give the same result. Every nested value
starts at least one byte further on, so a bound above the number of bytes is never used up. -/
theorem decodeFuel_congr {buf : List UInt8} {fuel fuel' off : Nat}
    (h : buf.length - off < fuel) (h' : buf.length - off < fuel') :
    decodeFuel Fields.insert buf fuel off = decodeFuel Fields.insert buf fuel' off := by
  induction fuel generalizing fuel' off with
  | zero => omega
  | succ fuel ih =>
    obtain ⟨fuel', rfl⟩ := Nat.exists_eq_succ_of_ne_zero (by omega : fuel' ≠ 0)
    rw [decodeFuel, decodeFuel, decodeBody, decodeBody]
    split_ifs with hoff
    · rfl
    apply bind_congr
    intro tag
    -- a nested call starts behind the tag, with fewer bytes to go
    have hnested : ∀ o, off + 1 ≤ o →
        decodeFuel Fields.insert buf fuel o = decodeFuel Fields.insert buf fuel' o :=
      fun o ho => ih (by omega) (by omega)
    exact decodeTagged_congr hnested decodeFuel_stop le_rfl tag

/-- **The decoder is its own body.** The nesting bound of `cvDecode` never shows: it
satisfies the recursion of `cv_decode` on every input, errors included. -/
theorem cvDecode_body (buf : List UInt8) (off : Nat) :
    cvDecode buf off = decodeBody Fields.insert (cvDecode buf) buf off := by
  rw [cvDecode, decodeFuel, decodeBody, decodeBody]
  split_ifs with hoff
  · rfl
  apply bind_congr
  intro tag
  -- one level less is still enough for what is behind the tag
  have hnested : ∀ o, off + 1 ≤ o →
      decodeFuel Fields.insert buf buf.length o =
        decodeFuel Fields.insert buf (buf.length + 1) o :=
    fun o ho => decodeFuel_congr (by omega) (by omega)
  exact decodeTagged_congr hnested decodeFuel_stop le_rfl tag

end StacksDex.Bridge
