import StacksDex.Lib.Framing
import StacksDex.Model.Clarity

/-!
# StacksDex — the codec against the wire format

`wireDecode` keeps every tuple's fields in buffer order, so it is an exact
inverse of the encoder: it returns `(w, n)` at `off` iff `cvEncode w` sits in the
buffer between `off` and `n` and every length of `w` fits its length field
(`wireDecode_eq_ok`).

One direction follows the decoder's branches: each reader is characterised by what sits in
the buffer, and the loops by what they append. The other is a structural induction over the
value. The nesting bound of the decoder enters in the second direction only, where the
number of bytes of the value bounds its depth.

That `cv_decode` itself rebuilds tuples as maps is a matter for `Bridge/ClarityTuples.lean`.
-/

namespace StacksDex.Bridge

open StacksDex.Lib StacksDex.Model

/-- Keep a tuple's fields as they lie in the buffer. -/
abbrev wireIns : Fields → String → ClarityValue → Fields :=
  fun m name v => m ++ [(name, v)]

/-! ## The readers -/

/-- A byte is read where there is one. -/
theorem byteAt_eq_ok {buf : List UInt8} {i : Nat} {b : UInt8} :
    byteAt buf i = .ok b ↔ buf[i]? = some b := by
  unfold byteAt
  cases buf[i]? <;> simp

/-- A slice is read where its bytes sit in the buffer. -/
theorem slice_eq_ok {buf : List UInt8} {a n : Nat} {bs : List UInt8} :
    slice buf a n = .ok bs ↔ SitsAt buf a bs ∧ bs.length = n := by
  unfold slice
  constructor
  · intro h
    split_ifs at h with hle
    obtain rfl := Except.ok.inj h
    exact ⟨sitsAt_slice hle, length_slice hle⟩
  · rintro ⟨hs, rfl⟩
    rw [if_pos hs.le, hs.take]

/-- Text is read from the bytes of that text. -/
theorem utf8_eq_ok {msg : String} {bytes : List UInt8} {s : String} :
    utf8 msg bytes = .ok s ↔ asBytes s = bytes := by
  rw [← fromUtf8_eq_some]
  unfold utf8
  cases fromUtf8 bytes <;> simp

/-- And the bytes of a text are always readable. -/
theorem utf8_asBytes (msg s : String) : utf8 msg (asBytes s) = .ok s :=
  utf8_eq_ok.mpr rfl

/-- A 128-bit integer is its sixteen bytes, most significant first. -/
theorem readInteger_eq_ok {buf : List UInt8} {short : String} {off n : Nat} {v : BitVec 128} :
    readInteger buf short off = .ok (v, n) ↔
      SitsAt buf off (bitsToBe 16 v) ∧ n = off + 16 := by
  unfold readInteger
  constructor
  · intro h
    split_ifs at h with hle
    obtain ⟨a, ha, h⟩ := bind_eq_ok.mp h
    obtain ⟨hs, hlen⟩ := slice_eq_ok.mp ha
    obtain ⟨rfl, rfl⟩ := Prod.mk.inj (Except.ok.inj h)
    -- the bytes read are those the value writes back
    have hback : bitsToBe 16 (bitsOfBe 128 a) = a := by
      have := bitsToBe_bitsOfBe (w := 128) (l := a) (by rw [hlen]; rfl)
      rwa [hlen] at this
    exact ⟨by rwa [hback], rfl⟩
  · rintro ⟨hs, rfl⟩
    have hle := hs.le
    rw [length_bitsToBe] at hle
    have hslice := slice_eq_ok.mpr ⟨hs, length_bitsToBe 16 v⟩
    rw [if_neg (by omega), hslice, ok_bind, bitsOfBe_bitsToBe (by rfl)]

/-- A four-byte count is below `2 ^ 32` and writes back as the bytes it was read from. -/
theorem count_of_slice {l : List UInt8} (hlen : l.length = 4) :
    ofBeBytes l < 2 ^ 32 ∧ beBytes 4 (ofBeBytes l) = l := by
  refine ⟨?_, hlen ▸ beBytes_ofBeBytes l⟩
  have := ofBeBytes_lt l
  rw [hlen] at this
  omega

/-- A length-prefixed block: four bytes of length and as many bytes as they say. -/
theorem readBlock_eq_ok {buf : List UInt8} {header : String} {body : Nat → String}
    {off n : Nat} {bytes : List UInt8} :
    readBlock buf header body off = .ok (bytes, n) ↔
      bytes.length < 2 ^ 32 ∧ SitsAt buf off (beBytes 4 bytes.length ++ bytes) ∧
        n = off + (4 + bytes.length) := by
  unfold readBlock
  constructor
  · intro h
    split_ifs at h with hle
    -- first the length field, then the body behind it
    obtain ⟨l, hl, h⟩ := bind_eq_ok.mp h
    obtain ⟨hsl, hlen⟩ := slice_eq_ok.mp hl
    dsimp only at h
    split_ifs at h with hle'
    obtain ⟨bs, hbs, h⟩ := bind_eq_ok.mp h
    obtain ⟨hsb, hblen⟩ := slice_eq_ok.mp hbs
    obtain ⟨rfl, rfl⟩ := Prod.mk.inj (Except.ok.inj h)
    obtain ⟨hfit, hback⟩ := count_of_slice hlen
    refine ⟨hblen ▸ hfit, ?_, by omega⟩
    rw [sitsAt_append, hblen, hback, hlen]
    exact ⟨hsl, hsb⟩
  · rintro ⟨hfit, hs, rfl⟩
    have hle := hs.le
    rw [List.length_append, length_beBytes] at hle
    obtain ⟨hsl, hsb⟩ := sitsAt_append.mp hs
    rw [length_beBytes] at hsb
    rw [if_neg (by omega), slice_eq_ok.mpr ⟨hsl, length_beBytes 4 _⟩, ok_bind,
      ofBeBytes_beBytes_of_lt (by simpa using hfit)]
    dsimp only
    rw [if_neg (by omega), slice_eq_ok.mpr ⟨hsb, rfl⟩, ok_bind, Nat.add_assoc]

/-- An address is its version byte and the twenty bytes behind it. -/
theorem readAddress_eq_ok {buf : List UInt8} {off : Nat} {version : UInt8}
    {hash160 : Hash160} :
    readAddress buf off = .ok (version, hash160) ↔
      SitsAt buf off (version :: hash160.toList) := by
  unfold readAddress
  rw [sitsAt_cons]
  constructor
  · intro h
    obtain ⟨b, hb, h⟩ := bind_eq_ok.mp h
    obtain ⟨bs, hbs, h⟩ := bind_eq_ok.mp h
    split_ifs at h with hlen
    obtain ⟨rfl, rfl⟩ := Prod.mk.inj (Except.ok.inj h)
    exact ⟨byteAt_eq_ok.mp hb, (slice_eq_ok.mp hbs).1⟩
  · rintro ⟨hb, hs⟩
    have hlen : hash160.toList.length = 20 := hash160.toList_length
    rw [byteAt_eq_ok.mpr hb, ok_bind, slice_eq_ok.mpr ⟨hs, hlen⟩, ok_bind, dif_pos hlen]
    rfl

/-- The four-byte count in front of a body, and the body behind it. -/
theorem slice_count {buf rest : List UInt8} {off n : Nat} (hn : n < 2 ^ 32)
    (hs : SitsAt buf off (beBytes 4 n ++ rest)) :
    slice buf off 4 = .ok (beBytes 4 n) ∧ ofBeBytes (beBytes 4 n) = n ∧
      SitsAt buf (off + 4) rest := by
  obtain ⟨hcount, hrest⟩ := sitsAt_append.mp hs
  rw [length_beBytes] at hrest
  exact ⟨slice_eq_ok.mpr ⟨hcount, length_beBytes 4 n⟩,
    ofBeBytes_beBytes_of_lt (by simpa using hn), hrest⟩

/-- The two string branches: a block that is text. -/
theorem readText_eq_ok {buf : List UInt8} {header msg : String} {body : Nat → String}
    {wrap : String → ClarityValue} {off n : Nat} {v : ClarityValue} :
    (do let r ← readBlock buf header body off
        let s ← utf8 msg r.1
        .ok (wrap s, r.2)) = .ok (v, n) ↔
      ∃ s, v = wrap s ∧ (asBytes s).length < 2 ^ 32 ∧
        SitsAt buf off (beBytes 4 (asBytes s).length ++ asBytes s) ∧
        n = off + (4 + (asBytes s).length) := by
  constructor
  · intro h
    obtain ⟨⟨bytes, m⟩, hblock, h⟩ := bind_eq_ok.mp h
    obtain ⟨s, hs, h⟩ := bind_eq_ok.mp h
    obtain rfl := utf8_eq_ok.mp hs
    obtain ⟨rfl, rfl⟩ := Prod.mk.inj (Except.ok.inj h)
    exact ⟨s, rfl, readBlock_eq_ok.mp hblock⟩
  · rintro ⟨s, rfl, hblock⟩
    rw [readBlock_eq_ok.mpr hblock, ok_bind, utf8_asBytes, ok_bind]

/-- A name with its length in one byte. -/
theorem name_of_slice {buf bytes : List UInt8} {off : Nat} {b : UInt8} {msg name : String}
    (hbytes : slice buf off b.toNat = .ok bytes) (hname : utf8 msg bytes = .ok name) :
    (asBytes name).length ≤ 255 ∧ UInt8.ofNat (asBytes name).length = b ∧
      (asBytes name).length = b.toNat ∧ SitsAt buf off (asBytes name) := by
  obtain ⟨hsits, hlen⟩ := slice_eq_ok.mp hbytes
  obtain rfl := utf8_eq_ok.mp hname
  refine ⟨?_, ?_, hlen, hsits⟩
  · have hlt := b.toNat_lt
    omega
  · rw [hlen]
    simp

/-- The one-byte length of a name that fits reads back as that length. -/
theorem nameLength_toNat {name : String} (h : (asBytes name).length ≤ 255) :
    (UInt8.ofNat (asBytes name).length).toNat = (asBytes name).length := by
  rw [UInt8.toNat_ofNat', Nat.mod_eq_of_lt (by omega)]

/-! ## Soundness: what the wire parser accepts is an encoding -/

/-- The value lies encoded between two offsets of the buffer, with lengths that fit. -/
structure Encoded (buf : List UInt8) (off : Nat) (v : ClarityValue) (n : Nat) : Prop where
  fits : v.LengthsFit
  sits : SitsAt buf off (cvEncode v)
  stop : n = off + (cvEncode v).length

section Sound

variable {buf : List UInt8} {dec : Nat → Except Fault (ClarityValue × Nat)}
  (hdec : ∀ {o v n}, dec o = .ok (v, n) → Encoded buf o v n)

include hdec

/-- What the loop over items returns is what it was given and new items, whose encodings sit in
the buffer one behind the other. -/
theorem decodeItems_sound {cnt o n : Nat} {acc items : List ClarityValue}
    (ho : o ≤ buf.length) (h : decodeItems dec cnt o acc = .ok (items, n)) :
    ∃ new, items = acc ++ new ∧ new.length = cnt ∧ itemsFit new ∧
      SitsAt buf o (encodeItems new) ∧ n = o + (encodeItems new).length := by
  induction cnt generalizing o acc with
  | zero =>
    obtain ⟨rfl, rfl⟩ := Prod.mk.inj (Except.ok.inj h)
    exact ⟨[], by simp, rfl, trivial, sitsAt_nil.mpr ho, rfl⟩
  | succ cnt ih =>
    obtain ⟨⟨v, m⟩, hv, h⟩ := bind_eq_ok.mp h
    -- the first item lies at the start, the others behind it
    obtain ⟨hfit, hsits, rfl⟩ := hdec hv
    obtain ⟨new, rfl, hlen, hfits, hrest, hn⟩ := ih hsits.le h
    refine ⟨v :: new, by simp, by simp [hlen], ⟨hfit, hfits⟩, ?_, ?_⟩
    · rw [encodeItems]
      exact sitsAt_append.mpr ⟨hsits, hrest⟩
    · rw [encodeItems, List.length_append]
      omega

/-- The same for the loop over fields, names included. -/
theorem decodeFields_sound {cnt o n : Nat} {acc fields : Fields}
    (ho : o ≤ buf.length) (h : decodeFields wireIns dec buf cnt o acc = .ok (fields, n)) :
    ∃ new, fields = acc ++ new ∧ new.length = cnt ∧ fieldsFit new ∧
      SitsAt buf o (encodeFields new) ∧ n = o + (encodeFields new).length := by
  induction cnt generalizing o acc with
  | zero =>
    obtain ⟨rfl, rfl⟩ := Prod.mk.inj (Except.ok.inj h)
    exact ⟨[], by simp, rfl, trivial, sitsAt_nil.mpr ho, rfl⟩
  | succ cnt ih =>
    rw [decodeFields] at h
    -- one round: length byte, name, value, and the rest from there on
    split_ifs at h with hlt
    obtain ⟨b, hb, h⟩ := bind_eq_ok.mp h
    dsimp only at h
    split_ifs at h with hle
    obtain ⟨bs, hbs, h⟩ := bind_eq_ok.mp h
    obtain ⟨name, hname, h⟩ := bind_eq_ok.mp h
    obtain ⟨⟨v, m⟩, hv, h⟩ := bind_eq_ok.mp h
    obtain ⟨hnl, hbyte, hblen, hsname⟩ := name_of_slice hbs hname
    rw [← hblen] at hv
    obtain ⟨hfit, hsits, rfl⟩ := hdec hv
    obtain ⟨new, rfl, hlen, hfits, hrest, hn⟩ := ih hsits.le h
    refine ⟨(name, v) :: new, by simp, by simp [hlen], ⟨hnl, hfit, hfits⟩, ?_, ?_⟩
    · rw [encodeFields, sitsAt_cons, hbyte, sitsAt_append, sitsAt_append]
      exact ⟨byteAt_eq_ok.mp hb, hsname, hsits, hrest⟩
    · rw [encodeFields, List.length_cons, List.length_append, List.length_append]
      omega

/-- The branches that wrap one value. -/
theorem wrapped_sound {wrap : ClarityValue → ClarityValue} {off n : Nat} {v : ClarityValue}
    (h : (dec off >>= fun r => .ok (wrap r.1, r.2)) = Except.ok (v, n)) :
    ∃ inner, v = wrap inner ∧ Encoded buf off inner n := by
  obtain ⟨⟨inner, m⟩, hinner, h⟩ := bind_eq_ok.mp h
  obtain ⟨rfl, rfl⟩ := Prod.mk.inj (Except.ok.inj h)
  exact ⟨inner, rfl, hdec hinner⟩

/-- One value behind its tag, branch by branch of the decoder. -/
theorem decodeTagged_sound {tag : UInt8} {off n : Nat} {v : ClarityValue}
    (hoff : off ≤ buf.length)
    (h : decodeTagged wireIns dec buf tag off = .ok (v, n)) :
    v.LengthsFit ∧ ∃ body, cvEncode v = tag :: body ∧ SitsAt buf off body ∧
      n = off + body.length := by
  unfold decodeTagged at h
  split at h
  -- int and uint
  · obtain ⟨⟨a, m⟩, ha, h⟩ := bind_eq_ok.mp h
    obtain ⟨hs, rfl⟩ := readInteger_eq_ok.mp ha
    obtain ⟨rfl, rfl⟩ := Prod.mk.inj (Except.ok.inj h)
    exact ⟨trivial, _, by rw [cvEncode], hs, by simp⟩
  · obtain ⟨⟨a, m⟩, ha, h⟩ := bind_eq_ok.mp h
    obtain ⟨hs, rfl⟩ := readInteger_eq_ok.mp ha
    obtain ⟨rfl, rfl⟩ := Prod.mk.inj (Except.ok.inj h)
    exact ⟨trivial, _, by rw [cvEncode], hs, by simp⟩
  -- buffer
  · obtain ⟨⟨a, m⟩, ha, h⟩ := bind_eq_ok.mp h
    obtain ⟨hfit, hs, rfl⟩ := readBlock_eq_ok.mp ha
    obtain ⟨rfl, rfl⟩ := Prod.mk.inj (Except.ok.inj h)
    exact ⟨hfit, _, by rw [cvEncode], hs, by simp⟩
  -- the two booleans have no body
  · obtain ⟨rfl, rfl⟩ := Prod.mk.inj (Except.ok.inj h)
    exact ⟨trivial, [], by rw [cvEncode], sitsAt_nil.mpr hoff, rfl⟩
  · obtain ⟨rfl, rfl⟩ := Prod.mk.inj (Except.ok.inj h)
    exact ⟨trivial, [], by rw [cvEncode], sitsAt_nil.mpr hoff, rfl⟩
  -- standard principal
  · split_ifs at h
    obtain ⟨⟨version, hash160⟩, ha, h⟩ := bind_eq_ok.mp h
    obtain ⟨rfl, rfl⟩ := Prod.mk.inj (Except.ok.inj h)
    exact ⟨trivial, _, by rw [cvEncode], readAddress_eq_ok.mp ha, by simp⟩
  · -- contract principal: the address, then a one-byte length and the name
    split_ifs at h
    obtain ⟨⟨version, hash160⟩, ha, h⟩ := bind_eq_ok.mp h
    obtain ⟨b, hb, h⟩ := bind_eq_ok.mp h
    dsimp only at h
    split_ifs at h
    obtain ⟨bs, hbs, h⟩ := bind_eq_ok.mp h
    obtain ⟨name, hname, h⟩ := bind_eq_ok.mp h
    obtain ⟨rfl, rfl⟩ := Prod.mk.inj (Except.ok.inj h)
    obtain ⟨hnl, hbyte, hblen, hsname⟩ := name_of_slice hbs hname
    have hhash : hash160.toList.length = 20 := hash160.2
    refine ⟨hnl, _, by rw [cvEncode], ?_, by simp [hhash, hblen]; omega⟩
    rw [← List.cons_append, sitsAt_append, List.length_cons, hhash, hbyte]
    exact ⟨readAddress_eq_ok.mp ha, sitsAt_cons.mpr ⟨byteAt_eq_ok.mp hb, hsname⟩⟩
  -- ok, err, none and some
  · obtain ⟨inner, rfl, hfit, hs, rfl⟩ := wrapped_sound hdec h
    exact ⟨hfit, _, by rw [cvEncode], hs, rfl⟩
  · obtain ⟨inner, rfl, hfit, hs, rfl⟩ := wrapped_sound hdec h
    exact ⟨hfit, _, by rw [cvEncode], hs, rfl⟩
  · obtain ⟨rfl, rfl⟩ := Prod.mk.inj (Except.ok.inj h)
    exact ⟨trivial, [], by rw [cvEncode], sitsAt_nil.mpr hoff, rfl⟩
  · obtain ⟨inner, rfl, hfit, hs, rfl⟩ := wrapped_sound hdec h
    exact ⟨hfit, _, by rw [cvEncode], hs, rfl⟩
  · -- list: a count, then the items
    split_ifs at h with hle
    obtain ⟨l, hl, h⟩ := bind_eq_ok.mp h
    obtain ⟨⟨items, m⟩, hi, h⟩ := bind_eq_ok.mp h
    obtain ⟨rfl, rfl⟩ := Prod.mk.inj (Except.ok.inj h)
    obtain ⟨hsl, hlen⟩ := slice_eq_ok.mp hl
    obtain ⟨new, rfl, hcnt, hfits, hs, rfl⟩ := decodeItems_sound hdec (by omega) hi
    obtain ⟨hcount, hback⟩ := count_of_slice hlen
    dsimp only
    refine ⟨⟨hcnt ▸ hcount, hfits⟩, _, by rw [cvEncode], ?_, by simp; omega⟩
    rw [hcnt, hback, sitsAt_append, hlen]
    exact ⟨hsl, hs⟩
  · -- tuple: a count, then the fields
    split_ifs at h with hle
    obtain ⟨l, hl, h⟩ := bind_eq_ok.mp h
    obtain ⟨⟨fields, m⟩, hf, h⟩ := bind_eq_ok.mp h
    obtain ⟨rfl, rfl⟩ := Prod.mk.inj (Except.ok.inj h)
    obtain ⟨hsl, hlen⟩ := slice_eq_ok.mp hl
    obtain ⟨new, rfl, hcnt, hfits, hs, rfl⟩ := decodeFields_sound hdec (by omega) hf
    obtain ⟨hcount, hback⟩ := count_of_slice hlen
    dsimp only
    refine ⟨⟨hcnt ▸ hcount, hfits⟩, _, by rw [cvEncode], ?_, by simp; omega⟩
    rw [hcnt, hback, sitsAt_append, hlen]
    exact ⟨hsl, hs⟩
  -- the two strings
  · obtain ⟨s, rfl, hfit, hs, rfl⟩ := readText_eq_ok.mp h
    exact ⟨hfit, _, by rw [cvEncode], hs, by simp⟩
  · obtain ⟨s, rfl, hfit, hs, rfl⟩ := readText_eq_ok.mp h
    exact ⟨hfit, _, by rw [cvEncode], hs, by simp⟩
  -- no other tag is accepted
  · cases h

end Sound

/-- Soundness at every nesting depth: the tag, then the branch it selects. -/
theorem decodeFuel_sound {buf : List UInt8} {fuel off n : Nat} {v : ClarityValue}
    (h : decodeFuel wireIns buf fuel off = .ok (v, n)) : Encoded buf off v n := by
  induction fuel generalizing off n v with
  | zero => cases h
  | succ fuel ih =>
    rw [decodeFuel, decodeBody] at h
    split_ifs at h with hoff
    obtain ⟨tag, htag, h⟩ := bind_eq_ok.mp h
    obtain ⟨hfit, body, henc, hs, rfl⟩ := decodeTagged_sound ih (by omega) h
    refine ⟨hfit, ?_, by rw [henc, List.length_cons]; omega⟩
    rw [henc]
    exact sitsAt_cons.mpr ⟨byteAt_eq_ok.mp htag, hs⟩

/-- What the wire parser returns is what the bytes it passed over encode. -/
theorem wireDecode_sound {buf : List UInt8} {off n : Nat} {v : ClarityValue}
    (h : wireDecode buf off = .ok (v, n)) : Encoded buf off v n :=
  decodeFuel_sound h

/-! ## Completeness: every encoding is parsed -/

/-- Every encoding has its tag, so a nested value takes at least one byte. -/
theorem length_cvEncode_pos (v : ClarityValue) : 0 < (cvEncode v).length := by
  unfold cvEncode
  split <;> simp

section Complete

variable {buf : List UInt8} {ins : Fields → String → ClarityValue → Fields}

/-- Reading the tag byte selects the branch. -/
theorem decodeFuel_succ_of_sits {fuel off : Nat} {tag : UInt8} {body : List UInt8}
    (h : SitsAt buf off (tag :: body)) :
    decodeFuel ins buf (fuel + 1) off =
      decodeTagged ins (decodeFuel ins buf fuel) buf tag (off + 1) := by
  have hle := h.le
  rw [List.length_cons] at hle
  rw [decodeFuel, decodeBody, if_neg (by omega), byteAt_eq_ok.mpr (sitsAt_cons.mp h).1, ok_bind]

/-- The branches that wrap one value: a byte of tag in front of it. -/
theorem wrapped_complete {wrap : ClarityValue → ClarityValue} {fuel off : Nat} {tag : UInt8}
    {inner : ClarityValue}
    (hbranch : ∀ (dec : Nat → Except Fault (ClarityValue × Nat)) (o : Nat),
      decodeTagged ins dec buf tag o = dec o >>= fun r => .ok (wrap r.1, r.2))
    (hs : SitsAt buf off (tag :: cvEncode inner))
    (hinner : decodeFuel ins buf fuel (off + 1) =
      .ok (inner, off + 1 + (cvEncode inner).length)) :
    decodeFuel ins buf (fuel + 1) off =
      .ok (wrap inner, off + (tag :: cvEncode inner).length) := by
  rw [decodeFuel_succ_of_sits hs, hbranch, hinner, ok_bind, List.length_cons]
  simp only [Nat.add_assoc, Nat.add_comm 1]

mutual
/-- By recursion on the value: its encoding is longer than the encodings inside it, so the
fuel lasts. -/
theorem decodeFuel_complete : ∀ (v : ClarityValue) {fuel off : Nat}, v.LengthsFit →
    (cvEncode v).length ≤ fuel → SitsAt buf off (cvEncode v) →
    decodeFuel wireIns buf fuel off = .ok (v, off + (cvEncode v).length)
  | v, 0, _, _, hfuel, _ => absurd hfuel (not_le.mpr (length_cvEncode_pos v))
  | .int n, fuel + 1, off, _, _, hs => by
    rw [cvEncode] at hs ⊢
    have hn : readInteger buf "CV int: short read" (off + 1) = .ok (n, off + 1 + 16) :=
      readInteger_eq_ok.mpr ⟨(sitsAt_cons.mp hs).2, rfl⟩
    rw [decodeFuel_succ_of_sits hs]
    simp [decodeTagged, hn]
  | .uint n, fuel + 1, off, _, _, hs => by
    rw [cvEncode] at hs ⊢
    have hn : readInteger buf "CV uint: short read" (off + 1) = .ok (n, off + 1 + 16) :=
      readInteger_eq_ok.mpr ⟨(sitsAt_cons.mp hs).2, rfl⟩
    rw [decodeFuel_succ_of_sits hs]
    simp [decodeTagged, hn]
  | .buffer b, fuel + 1, off, hfit, _, hs => by
    rw [cvEncode] at hs ⊢
    have hb : readBlock buf "CV buffer: short header"
        (fun ln => s!"CV buffer: short body ({ln})") (off + 1) =
          .ok (b, off + 1 + (4 + b.length)) :=
      readBlock_eq_ok.mpr ⟨hfit, (sitsAt_cons.mp hs).2, rfl⟩
    rw [decodeFuel_succ_of_sits hs]
    simp only [decodeTagged, hb, ok_bind, List.length_cons, List.length_append, length_beBytes,
      Nat.add_assoc, Nat.add_comm 1]
  | .bool true, fuel + 1, off, _, _, hs => by
    rw [cvEncode] at hs ⊢
    rw [decodeFuel_succ_of_sits hs]
    rfl
  | .bool false, fuel + 1, off, _, _, hs => by
    rw [cvEncode] at hs ⊢
    rw [decodeFuel_succ_of_sits hs]
    rfl
  | .principal (.standard version hash160), fuel + 1, off, _, _, hs => by
    rw [cvEncode] at hs ⊢
    have ha := readAddress_eq_ok.mpr (sitsAt_cons.mp hs).2
    have hle := hs.le
    have hhash : hash160.toList.length = 20 := hash160.toList_length
    simp only [List.length_cons, hhash] at hle
    rw [decodeFuel_succ_of_sits hs]
    simp [decodeTagged, ha, hhash]
    omega
  | .principal (.contract version hash160 name), fuel + 1, off, hfit, _, hs => by
    rw [cvEncode] at hs ⊢
    have hhash : hash160.toList.length = 20 := hash160.toList_length
    have hle := hs.le
    simp only [List.length_cons, List.length_append, hhash] at hle
    -- the body is an address, a length byte and a name
    have hsplit := (sitsAt_cons.mp hs).2
    rw [← List.cons_append] at hsplit
    obtain ⟨haddr, hrest⟩ := sitsAt_append.mp hsplit
    rw [List.length_cons, hhash] at hrest
    obtain ⟨hlen, hname⟩ := sitsAt_cons.mp hrest
    rw [decodeFuel_succ_of_sits hs]
    simp only [decodeTagged]
    rw [if_neg (by omega), readAddress_eq_ok.mpr haddr, ok_bind, byteAt_eq_ok.mpr hlen, ok_bind]
    dsimp only
    rw [nameLength_toNat hfit, if_neg (by omega), slice_eq_ok.mpr ⟨hname, rfl⟩, ok_bind,
      utf8_asBytes, ok_bind]
    simp only [List.length_cons, List.length_append, hhash]
    congr 2
    omega
  | .responseOk inner, fuel + 1, off, hfit, hfuel, hs => by
    rw [cvEncode] at hs hfuel ⊢
    rw [List.length_cons] at hfuel
    exact wrapped_complete (fun _ _ => rfl) hs
      (decodeFuel_complete inner hfit (by omega) (sitsAt_cons.mp hs).2)
  | .responseErr inner, fuel + 1, off, hfit, hfuel, hs => by
    rw [cvEncode] at hs hfuel ⊢
    rw [List.length_cons] at hfuel
    exact wrapped_complete (fun _ _ => rfl) hs
      (decodeFuel_complete inner hfit (by omega) (sitsAt_cons.mp hs).2)
  | .optionalNone, fuel + 1, off, _, _, hs => by
    rw [cvEncode] at hs ⊢
    rw [decodeFuel_succ_of_sits hs]
    rfl
  | .optionalSome inner, fuel + 1, off, hfit, hfuel, hs => by
    rw [cvEncode] at hs hfuel ⊢
    rw [List.length_cons] at hfuel
    exact wrapped_complete (fun _ _ => rfl) hs
      (decodeFuel_complete inner hfit (by omega) (sitsAt_cons.mp hs).2)
  | .list items, fuel + 1, off, ⟨hcount, hfits⟩, hfuel, hs => by
    rw [cvEncode] at hs hfuel ⊢
    simp only [List.length_cons, List.length_append, length_beBytes] at hfuel
    have hle := hs.le
    simp only [List.length_cons, List.length_append, length_beBytes] at hle
    -- the count tells how often the loop runs
    obtain ⟨hl, hn, hsi⟩ := slice_count hcount (sitsAt_cons.mp hs).2
    have hi : decodeItems (decodeFuel wireIns buf fuel) items.length (off + 1 + 4) [] =
        .ok ([] ++ items, off + 1 + 4 + (encodeItems items).length) :=
      decodeItems_complete items hfits (by omega) hsi
    rw [decodeFuel_succ_of_sits hs]
    simp only [decodeTagged]
    rw [if_neg (by omega), hl, ok_bind, hn, hi, ok_bind]
    simp only [List.length_cons, List.length_append, length_beBytes, List.nil_append,
      Nat.add_assoc, Nat.add_comm 1]
  | .tuple fields, fuel + 1, off, ⟨hcount, hfits⟩, hfuel, hs => by
    rw [cvEncode] at hs hfuel ⊢
    simp only [List.length_cons, List.length_append, length_beBytes] at hfuel
    have hle := hs.le
    simp only [List.length_cons, List.length_append, length_beBytes] at hle
    obtain ⟨hl, hn, hsf⟩ := slice_count hcount (sitsAt_cons.mp hs).2
    -- the loop runs once a field
    have hf : decodeFields wireIns (decodeFuel wireIns buf fuel) buf fields.length (off + 1 + 4)
        [] = .ok ([] ++ fields, off + 1 + 4 + (encodeFields fields).length) :=
      decodeFields_complete fields hfits (by omega) hsf
    rw [decodeFuel_succ_of_sits hs]
    simp only [decodeTagged]
    rw [if_neg (by omega), hl, ok_bind, hn, hf, ok_bind]
    simp only [List.length_cons, List.length_append, length_beBytes, List.nil_append,
      Nat.add_assoc, Nat.add_comm 1]
  | .stringAscii s, fuel + 1, off, hfit, _, hs => by
    rw [cvEncode] at hs ⊢
    rw [decodeFuel_succ_of_sits hs]
    refine readText_eq_ok.mpr ⟨s, rfl, hfit, (sitsAt_cons.mp hs).2, ?_⟩
    rw [List.length_cons, List.length_append, length_beBytes]
    omega
  | .stringUtf8 s, fuel + 1, off, hfit, _, hs => by
    rw [cvEncode] at hs ⊢
    rw [decodeFuel_succ_of_sits hs]
    refine readText_eq_ok.mpr ⟨s, rfl, hfit, (sitsAt_cons.mp hs).2, ?_⟩
    rw [List.length_cons, List.length_append, length_beBytes]
    omega

/-- Items whose encodings sit in the buffer are read, by induction on the value; the nesting
bound goes down with every level, and the bytes of the items bound the levels. -/
theorem decodeItems_complete : ∀ (items : List ClarityValue) {fuel off : Nat}
    {acc : List ClarityValue}, itemsFit items →
    (encodeItems items).length ≤ fuel → SitsAt buf off (encodeItems items) →
    decodeItems (decodeFuel wireIns buf fuel) items.length off acc =
      .ok (acc ++ items, off + (encodeItems items).length)
  | [], fuel, off, acc, _, _, _ => by simp [decodeItems, encodeItems]
  | item :: rest, fuel, off, acc, hfit, hfuel, hs => by
    rw [encodeItems] at hfuel hs
    rw [List.length_append] at hfuel
    obtain ⟨hitem, hrest⟩ := sitsAt_append.mp hs
    rw [List.length_cons, decodeItems, decodeFuel_complete item hfit.1 (by omega) hitem, ok_bind,
      decodeItems_complete rest hfit.2 (by omega) hrest, encodeItems, List.length_append]
    simp [Nat.add_assoc]

/-- The same for fields. -/
theorem decodeFields_complete : ∀ (fields : List (String × ClarityValue)) {fuel off : Nat}
    {acc : Fields}, fieldsFit fields →
    (encodeFields fields).length ≤ fuel → SitsAt buf off (encodeFields fields) →
    decodeFields wireIns (decodeFuel wireIns buf fuel) buf fields.length off acc =
      .ok (acc ++ fields, off + (encodeFields fields).length)
  | [], fuel, off, acc, _, _, _ => by simp [decodeFields, encodeFields]
  | (name, value) :: rest, fuel, off, acc, hfit, hfuel, hs => by
    obtain ⟨hname, hvalue, hrest⟩ := hfit
    have hle := hs.le
    rw [encodeFields] at hfuel hs hle
    simp only [List.length_append, List.length_cons] at hfuel hle
    -- length byte, name, value, and the other fields
    obtain ⟨hbyte, hs⟩ := sitsAt_cons.mp hs
    obtain ⟨hsname, hs⟩ := sitsAt_append.mp hs
    obtain ⟨hsvalue, hsrest⟩ := sitsAt_append.mp hs
    rw [List.length_cons, decodeFields, if_neg (by omega), byteAt_eq_ok.mpr hbyte, ok_bind]
    dsimp only
    rw [nameLength_toNat hname, if_neg (by omega), slice_eq_ok.mpr ⟨hsname, rfl⟩, ok_bind,
      utf8_asBytes, ok_bind, decodeFuel_complete value hvalue (by omega) hsvalue, ok_bind,
      decodeFields_complete rest hrest (by omega) hsrest, encodeFields]
    simp only [List.length_append, List.length_cons, wireIns, List.append_assoc,
      List.singleton_append]
    congr 2
    omega
end

end Complete

/-- **The wire parser inverts the encoder**: it reads `v` between two offsets exactly
when the encoding of `v` lies between them and every length of `v` fits. -/
theorem wireDecode_eq_ok {buf : List UInt8} {off n : Nat} {v : ClarityValue} :
    wireDecode buf off = .ok (v, n) ↔ Encoded buf off v n := by
  refine ⟨wireDecode_sound, ?_⟩
  rintro ⟨hfit, hsits, hstop⟩
  have hle := hsits.le
  rw [hstop]
  exact decodeFuel_complete v hfit (by omega) hsits

end StacksDex.Bridge
