import StacksDex.Bridge.HexText

/-!
# StacksDex — the hex transport codec

What `hex` writes is read back. Of all strings the decoders also accept some with signs in
them, because the integer parser takes a leading `+`, and they panic on some that are not
ASCII, because the slice of a pair may end inside a character. On every other string they do
what is expected: a value for hex digits in even number, an `Err` for anything else.

## Main results

* `hexDecodeOr_hex`: the round trip;
* `decodesHex_iff`: which strings a decoder treats as it should, for any text of its error;
* `hex_codec_iff`: the two together, for the copies of the decoder the crate has.

`DecodesHex` is the expectation: an `Err` for a string that is not hex text, its bytes for one
that is, and never a panic.
-/

namespace StacksDex.Results

open StacksDex.Model StacksDex.Bridge

/-! ## Round trip -/

/-- The two digits of a byte are read as that byte. -/
theorem u8FromHex_digits (x : UInt8) :
    u8FromHex (UInt8.ofNat (Nat.digitChar (x.toNat / 16)).toNat)
        (UInt8.ofNat (Nat.digitChar (x.toNat % 16)).toNat) = some x ∧
      (Nat.digitChar (x.toNat / 16)).toNat < 128 ∧ (Nat.digitChar (x.toNat % 16)).toNat < 128 := by
  have hall : ∀ i : Fin 256,
      u8FromHex (UInt8.ofNat (Nat.digitChar (i.val / 16)).toNat)
          (UInt8.ofNat (Nat.digitChar (i.val % 16)).toNat) = some (UInt8.ofNat i.val) ∧
        (Nat.digitChar (i.val / 16)).toNat < 128 ∧ (Nat.digitChar (i.val % 16)).toNat < 128 := by
    decide +kernel
  have hx := hall ⟨x.toNat, x.toNat_lt⟩
  rwa [UInt8.ofNat_toNat] at hx

/-- The characters `hex` writes. -/
def hexChars (b : List UInt8) : List Char :=
  b.flatMap fun x => [Nat.digitChar (x.toNat / 16), Nat.digitChar (x.toNat % 16)]

/-- What is written is two digits a byte. -/
theorem hex_eq (b : List UInt8) : hex b = String.ofList (hexChars b) := by
  have hfold : ∀ cs : List Char, b.foldl (fun s x => s ++ hexByte x) (String.ofList cs) =
      String.ofList (cs ++ hexChars b) := by
    induction b with
    | nil => intro cs; simp [hexChars]
    | cons x b ih =>
      intro cs
      rw [List.foldl_cons, hexByte, ← String.ofList_append, ih, List.append_assoc]
      rfl
  exact hfold []

/-- The digits are ASCII, so no pair cuts a character. -/
theorem hexChars_ascii {b : List UInt8} {c : Char} (h : c ∈ hexChars b) : c.toNat < 128 := by
  obtain ⟨x, -, hc⟩ := List.mem_flatMap.mp h
  obtain ⟨-, hhigh, hlow⟩ := u8FromHex_digits x
  rcases List.mem_pair.mp hc with rfl | rfl
  · exact hhigh
  · exact hlow

/-- **What is written is read back**, a byte at a time. -/
theorem hexDecodeOr_hex (refusal : String) (b : List UInt8) :
    hexDecodeOr refusal (hex b) = .ok b := by
  have hbytes : asBytes (hex b) = (hexChars b).map fun c => UInt8.ofNat c.toNat := by
    rw [hex_eq]
    exact asBytes_ofList_ascii fun c => hexChars_ascii
  have heven : ((hexChars b).map fun c => UInt8.ofNat c.toNat).length % 2 = 0 := by
    rw [List.length_map, hexChars, List.length_flatMap]
    simp
  -- ASCII bytes continue no character
  have hboundary : ∀ b : List UInt8,
      (((hexChars b).map fun c => UInt8.ofNat c.toNat).head?.any isContinuation) = false := by
    intro b
    rcases b with _ | ⟨x, b⟩
    · rfl
    · obtain ⟨-, hhigh, -⟩ := u8FromHex_digits x
      show isContinuation (UInt8.ofNat (Nat.digitChar (x.toNat / 16)).toNat) = false
      simp [isContinuation, UInt8.toNat_ofNat']
      omega
  rw [hexDecodeOr, hbytes, if_neg (by rw [heven]; decide)]
  clear hbytes heven
  induction b with
  | nil => rfl
  | cons x b ih =>
    obtain ⟨hx, -⟩ := u8FromHex_digits x
    show hexPairsOr refusal (_ :: _ :: (hexChars b).map fun c => UInt8.ofNat c.toNat) = _
    rw [hexPairsOr, if_neg (by rw [hboundary b]; decide), hx, ih]
    rfl

/-! ## Acceptance -/

/-- One of the characters `0-9`, `a-f` and `A-F`. -/
def IsHexChar (c : Char) : Prop :=
  ('0' ≤ c ∧ c ≤ '9') ∨ ('a' ≤ c ∧ c ≤ 'f') ∨ ('A' ≤ c ∧ c ≤ 'F')

instance (c : Char) : Decidable (IsHexChar c) := inferInstanceAs (Decidable (_ ∨ _))

/-- An even number of such characters. -/
def IsHexText (s : String) : Prop :=
  (asBytes s).length % 2 = 0 ∧ ∀ c ∈ s.toList, IsHexChar c

/-- The byte of such a character is a digit to the parser. -/
theorem hexDigit_of_isHexChar {c : Char} (h : IsHexChar c) :
    c.toNat < 128 ∧ (hexDigit (UInt8.ofNat c.toNat)).isSome := by
  -- the same three ranges, of code points
  have hranges : (48 ≤ c.toNat ∧ c.toNat ≤ 57) ∨ (97 ≤ c.toNat ∧ c.toNat ≤ 102) ∨
      (65 ≤ c.toNat ∧ c.toNat ≤ 70) := h
  have hascii : c.toNat < 128 := by omega
  have hbyte : (UInt8.ofNat c.toNat).toNat = c.toNat := by
    rw [UInt8.toNat_ofNat']
    omega
  refine ⟨hascii, ?_⟩
  unfold hexDigit
  dsimp only
  rw [hbyte]
  rcases hranges with h | h | h
  · rw [if_pos h]
    rfl
  · rw [if_neg (by omega), if_pos h]
    rfl
  · rw [if_neg (by omega), if_neg (by omega), if_pos h]
    rfl

/-- Hex text gives a value, and anything else an `Err`. -/
def DecodesHex (decode : String → Except Fault (List UInt8)) (s : String) : Prop :=
  (IsHexText s → ∃ out, decode s = .ok out) ∧
    (¬ IsHexText s → ∃ msg, decode s = .error (.err msg))

/-- An even number of digits is a list of accepted pairs. -/
theorem pairsAccepted_of_digits : ∀ bytes : List UInt8, bytes.length % 2 = 0 →
    (∀ b ∈ bytes, (hexDigit b).isSome) → PairsAccepted bytes
  | [], _, _ => trivial
  | [_], h, _ => absurd h one_ne_zero
  | a :: b :: rest, hlength, hdigits => by
    obtain ⟨hi, hhi⟩ := Option.isSome_iff_exists.mp (hdigits a (by simp))
    obtain ⟨lo, hlo⟩ := Option.isSome_iff_exists.mp (hdigits b (by simp))
    rw [List.length_cons, List.length_cons] at hlength
    refine ⟨?_, pairsAccepted_of_digits rest (by omega) fun c hc => hdigits c (by simp [hc])⟩
    unfold u8FromHex
    split_ifs
    · rw [hlo]
      rfl
    · rw [hhi, Option.bind_eq_bind, Option.bind_some, hlo]
      rfl

/-- So is hex text. -/
theorem pairsAccepted_of_isHexText {s : String} (h : IsHexText s) : PairsAccepted (asBytes s) := by
  obtain ⟨heven, hchars⟩ := h
  have hbytes : asBytes s = s.toList.map fun c => UInt8.ofNat c.toNat := by
    have hascii : ∀ c ∈ s.toList, c.toNat < 128 := fun c hc =>
      (hexDigit_of_isHexChar (hchars c hc)).1
    rw [← asBytes_ofList_ascii hascii, String.ofList_toList]
  refine pairsAccepted_of_digits _ heven ?_
  intro b hb
  rw [hbytes] at hb
  obtain ⟨c, hc, rfl⟩ := List.mem_map.mp hb
  exact (hexDigit_of_isHexChar (hchars c hc)).2

/-- When a decoder treats a string as it should: it has an odd number of bytes, or is hex text,
or the first pair that is refused ends with a character. -/
theorem decodesHex_iff (refusal s : String) :
    DecodesHex (hexDecodeOr refusal) s ↔
      (asBytes s).length % 2 ≠ 0 ∨ IsHexText s ∨ RefusedAtBoundary (asBytes s) := by
  by_cases hodd : (asBytes s).length % 2 ≠ 0
  · refine iff_of_true ⟨fun htext => absurd htext.1 hodd, fun _ => ?_⟩ (Or.inl hodd)
    exact ⟨_, by rw [hexDecodeOr, if_pos hodd]⟩
  have hdecode : hexDecodeOr refusal s = hexPairsOr refusal (asBytes s) := by
    rw [hexDecodeOr, if_neg hodd]
  rw [DecodesHex, hdecode, or_iff_right hodd]
  rcases hexPairsOr_cases refusal (asBytes s) (not_not.mp hodd) (asBytes_isChain s) with
    ⟨hall, out, hout⟩ | ⟨hfirst, herr⟩ | ⟨hnot, hfirst, msg, hpanic⟩
  · -- accepted, so right for hex text only
    rw [hout, or_iff_left (not_refused_of_accepted _ hall)]
    refine ⟨fun h => ?_, fun htext => ⟨fun _ => ⟨out, rfl⟩, fun h => absurd htext h⟩⟩
    by_contra htext
    obtain ⟨msg, hmsg⟩ := h.2 htext
    cases hmsg
  -- refused where a character ends: an `Err`, and right, since no hex text is refused
  · have hnot : ¬ IsHexText s := fun htext =>
      not_refused_of_accepted _ (pairsAccepted_of_isHexText htext) hfirst
    exact iff_of_true ⟨fun htext => absurd htext hnot, fun _ => ⟨refusal, herr⟩⟩ (Or.inr hfirst)
  -- refused inside a character: the slice panics, where an `Err` was due
  · have hnottext : ¬ IsHexText s := fun htext => hnot (pairsAccepted_of_isHexText htext)
    refine iff_of_false ?_ (not_or.mpr ⟨hnottext, hfirst⟩)
    rintro ⟨-, herr⟩
    obtain ⟨msg', hmsg⟩ := herr hnottext
    rw [hpanic] at hmsg
    cases hmsg

/--
**The hex codec.** What `hex` writes is read back by every copy of the decoder. A string is
treated as it should be, hex text giving bytes and anything else an `Err`, exactly when its
length is odd, or it is hex text, or the first pair of bytes that is refused ends at a
character boundary. The others are taken with a sign for a digit, or cut inside a character,
which panics.
-/
theorem hex_codec_iff (b : List UInt8) (s : String) :
    (clientHexDecode (hex b) = .ok b ∧ hexDecode (hex b) = .ok b) ∧
    (DecodesHex clientHexDecode s ↔
      (asBytes s).length % 2 ≠ 0 ∨ IsHexText s ∨ RefusedAtBoundary (asBytes s)) ∧
    (DecodesHex hexDecode s ↔
      (asBytes s).length % 2 ≠ 0 ∨ IsHexText s ∨ RefusedAtBoundary (asBytes s)) := by
  have hsibling : hexDecode = hexDecodeOr "invalid digit found in string" := funext hexDecode_eq
  rw [hsibling]
  exact ⟨⟨hexDecodeOr_hex _ b, hexDecodeOr_hex _ b⟩, decodesHex_iff _ s, decodesHex_iff _ s⟩

/-- A sign is taken for a digit, and a slice may end inside a character. -/
theorem hex_codec_fails :
    ¬ DecodesHex clientHexDecode "+f" ∧ ¬ DecodesHex clientHexDecode "aéb" ∧
      ¬ DecodesHex hexDecode "+f" ∧ ¬ DecodesHex hexDecode "aéb" := by
  have hsign : ¬ IsHexText "+f" := fun h => absurd (h.2 '+' (by decide)) (by decide)
  have haccent : ¬ IsHexText "aéb" := fun h => absurd (h.2 'é' (by decide)) (by decide)
  -- neither outcome is an `Err`
  have htaken : ∀ decode, decode "+f" = .ok [15] → ¬ DecodesHex decode "+f" := by
    rintro decode hok ⟨-, herr⟩
    obtain ⟨msg, hmsg⟩ := herr hsign
    rw [hok] at hmsg
    cases hmsg
  have hcut : ∀ decode, decode "aéb" = .error (.panic "byte index is not a char boundary") →
      ¬ DecodesHex decode "aéb" := by
    rintro decode hpanic ⟨-, herr⟩
    obtain ⟨msg, hmsg⟩ := herr haccent
    rw [hpanic] at hmsg
    cases hmsg
  exact ⟨htaken _ (by decide +kernel), hcut _ (by decide +kernel), htaken _ (by decide +kernel),
    hcut _ (by decide +kernel)⟩

end StacksDex.Results
