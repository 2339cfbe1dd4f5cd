import StacksDex.Model.Client
import Mathlib.Data.List.Chain

/-!
# StacksDex — hex text, pair by pair

The decoder takes two bytes a round. A pair is accepted if it is two digits, or a sign and
a digit; a slice that ends inside a character panics before the pair is looked at. In a
string no character goes on behind an ASCII byte, so that only happens at a pair that would
be refused, and the first such pair decides the outcome (`hexPairsOr_cases`).

The sign is a peculiarity of the source's parser: `u8::from_str_radix` takes `+a` for `0a`.
The section on bytes says what the UTF-8 encoding guarantees of a string, and that is all that
is used of it.
-/

namespace StacksDex.Bridge

open StacksDex.Model

/-! ## The bytes of a string -/

/-- No character goes on behind an ASCII byte. -/
def Follows (a b : UInt8) : Prop := a.toNat < 128 → isContinuation b = false

/-- The bytes of one character: a byte that continues none, and others that continue it. -/
theorem utf8EncodeChar_spec (c : Char) :
    (String.utf8EncodeChar c).IsChain Follows ∧
      ∀ b ∈ (String.utf8EncodeChar c).head?, isContinuation b = false := by
  unfold String.utf8EncodeChar
  dsimp only
  generalize c.val.toNat = v
  -- one byte below 128, or several from 128 on
  split_ifs with h
  · refine ⟨List.isChain_singleton _, ?_⟩
    simp [isContinuation]
    omega
  all_goals
    simp [Follows, isContinuation]
    omega

/-- In the bytes of a string every byte may follow the one before it. -/
theorem asBytes_isChain (s : String) : (asBytes s).IsChain Follows := by
  have hbytes : asBytes s = s.toList.flatMap String.utf8EncodeChar := by
    show s.toByteArray.data.toList = _
    rw [← String.ofList_toList (s := s), String.toByteArray_ofList, List.utf8Encode,
      List.toList_data_toByteArray, String.toList_ofList]
  -- character by character: each is a leading byte and its continuations
  have hchars : ∀ cs : List Char, (cs.flatMap String.utf8EncodeChar).IsChain Follows ∧
      ∀ b ∈ (cs.flatMap String.utf8EncodeChar).head?, isContinuation b = false := by
    intro cs
    induction cs with
    | nil => exact ⟨.nil, by simp⟩
    | cons c cs ih =>
      obtain ⟨hchain, hhead⟩ := utf8EncodeChar_spec c
      obtain ⟨hrest, hnext⟩ := ih
      rw [List.flatMap_cons]
      refine ⟨List.isChain_append.mpr ⟨hchain, hrest, fun _ _ b hb _ => hnext b hb⟩, ?_⟩
      intro b hb
      rw [List.head?_append_of_ne_nil _ (String.utf8EncodeChar_ne_nil)] at hb
      exact hhead b hb
  rw [hbytes]
  exact (hchars _).1

/-! ## The decoders -/

/-- The decoder of the event sources is an instance of the client's. -/
theorem hexDecode_eq (s : String) :
    hexDecode s = hexDecodeOr "invalid digit found in string" s := by
  have hpairs : ∀ bytes, hexPairs bytes = hexPairsOr "invalid digit found in string" bytes := by
    intro bytes
    induction bytes using hexPairs.induct with
    | case1 a b rest h => rw [hexPairs, hexPairsOr, if_pos h, if_pos h]
    | case2 a b rest h hrefused => rw [hexPairs, hexPairsOr, if_neg h, if_neg h, hrefused]
    | case3 a b rest h x hx ih => rw [hexPairs, hexPairsOr, if_neg h, if_neg h, hx, ih]
    | case4 bytes h =>
      rw [hexPairs, hexPairsOr]
      · exact h
      · exact h
  rw [hexDecode, hexDecodeOr, hpairs]

/-- Every pair is accepted. -/
def PairsAccepted : List UInt8 → Prop
  | a :: b :: rest => (u8FromHex a b).isSome ∧ PairsAccepted rest
  | [_] => False
  | [] => True

/-- A pair is refused, and the first one that is ends with a character. -/
def RefusedAtBoundary : List UInt8 → Prop
  | a :: b :: rest =>
    match u8FromHex a b with
    | some _ => RefusedAtBoundary rest
    | none => rest.head?.any isContinuation = false
  | _ => False

/-- Text whose pairs are all accepted has no pair that is refused. -/
theorem not_refused_of_accepted : ∀ bytes : List UInt8, PairsAccepted bytes →
    ¬ RefusedAtBoundary bytes
  | [], _ => id
  | a :: b :: rest, ⟨hpair, hrest⟩ => by
    obtain ⟨x, hx⟩ := Option.isSome_iff_exists.mp hpair
    rw [RefusedAtBoundary, hx]
    exact not_refused_of_accepted rest hrest

/-- The second byte of an accepted pair is a digit, so no character goes on behind it. -/
theorem boundary_of_accepted {a b x : UInt8} {rest : List UInt8} (hx : u8FromHex a b = some x)
    (hchain : (a :: b :: rest).IsChain Follows) : rest.head?.any isContinuation = false := by
  -- the second digit of an accepted pair is ASCII, so a character ends with it
  have hdigit : ∃ d, hexDigit b = some d := by
    unfold u8FromHex at hx
    split_ifs at hx
    · obtain ⟨d, hd, -⟩ := Option.map_eq_some_iff.mp hx
      exact ⟨d, hd⟩
    · obtain ⟨hi, -, hx⟩ := Option.bind_eq_some_iff.mp hx
      obtain ⟨lo, hlo, -⟩ := Option.bind_eq_some_iff.mp hx
      exact ⟨lo, hlo⟩
  have hascii : b.toNat < 128 := by
    obtain ⟨d, hd⟩ := hdigit
    unfold hexDigit at hd
    dsimp only at hd
    split_ifs at hd <;> omega
  rcases rest with _ | ⟨c, rest⟩
  · rfl
  · exact (List.isChain_cons_cons.mp (List.isChain_cons_cons.mp hchain).2).1 hascii

/-- **The first refused pair decides.** -/
theorem hexPairsOr_cases (refusal : String) : ∀ bytes : List UInt8, bytes.length % 2 = 0 →
    bytes.IsChain Follows →
    (PairsAccepted bytes ∧ ∃ out, hexPairsOr refusal bytes = .ok out) ∨
    (RefusedAtBoundary bytes ∧ hexPairsOr refusal bytes = .error (.err refusal)) ∨
    (¬ PairsAccepted bytes ∧ ¬ RefusedAtBoundary bytes ∧
      ∃ msg, hexPairsOr refusal bytes = .error (.panic msg))
  | [], _, _ => Or.inl ⟨trivial, [], rfl⟩
  | [_], h, _ => absurd h one_ne_zero
  | a :: b :: rest, hlength, hchain => by
    have heven : rest.length % 2 = 0 := by
      rw [List.length_cons, List.length_cons] at hlength
      omega
    have hrest : rest.IsChain Follows := hchain.tail.tail
    rw [hexPairsOr, PairsAccepted, RefusedAtBoundary]
    cases hx : u8FromHex a b with
    | some x =>
      rw [boundary_of_accepted hx hchain, if_neg Bool.false_ne_true]
      dsimp only
      -- accepted, so the rest decides
      rcases hexPairsOr_cases refusal rest heven hrest with
        ⟨hall, out, hout⟩ | ⟨hfirst, herr⟩ | ⟨hnot, hfirst, msg, hpanic⟩
      · exact Or.inl ⟨⟨rfl, hall⟩, x :: out, by rw [hout, ok_bind]⟩
      · exact Or.inr (Or.inl ⟨hfirst, by rw [herr, error_bind]⟩)
      · exact Or.inr (Or.inr ⟨fun h => hnot h.2, hfirst, msg, by rw [hpanic, error_bind]⟩)
    | none =>
      dsimp only
      cases hend : rest.head?.any isContinuation with
      | true =>
        refine Or.inr (Or.inr ⟨fun h => ?_, fun h => ?_, _, if_pos rfl⟩)
        · exact Bool.false_ne_true h.1
        · exact Bool.false_ne_true h.symm
      | false => exact Or.inr (Or.inl ⟨rfl, if_neg Bool.false_ne_true⟩)

end StacksDex.Bridge
