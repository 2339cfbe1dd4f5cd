import StacksDex.Results.Address

/-!
# StacksDex — accepted addresses and their canonical form

`stacks_addr_decode` pads the bytes of a short body with zeros up to the expected length,
so an address is also accepted without some of the `0` digits that stand for its leading
zero bytes. That is the only freedom: with the missing digits put back, what is accepted
is what `c32_encode_address` writes.

## Main result

`stacksAddrDecode_canonical`: the canonical text is the accepted one with exactly
`paddedBytes` more zeros; the two are the same exactly when there is nothing to pad; and
among the texts of one length only one is accepted for a version and hash.

The argument goes from the text back to its payload: the accumulator takes characters of the
alphabet only, the number they denote is the payload's, and a payload has one way to be
written as zeros and a number.
-/

namespace StacksDex.Results

open StacksDex.Lib StacksDex.Model StacksDex.Bridge

/-! ## Decoded bodies -/

/-- The accumulator takes characters of the alphabet only. -/
theorem digits_of_c32Accumulate {bytes acc acc' : List UInt8}
    (h : c32Accumulate bytes acc = .ok acc') :
    ∃ ds : List Nat, (∀ d ∈ ds, d < 32) ∧
      bytes = ds.map fun d => UInt8.ofNat (digitChar d).toNat := by
  induction bytes generalizing acc with
  | nil => exact ⟨[], by simp, rfl⟩
  | cons ch rest ih =>
    rw [c32Accumulate] at h
    cases hindex : c32Index ch with
    | none =>
      rw [hindex] at h
      cases h
    | some d =>
      rw [hindex] at h
      obtain ⟨hlt, hchar⟩ := c32Index_eq_some hindex
      obtain ⟨ds, hds, rfl⟩ := ih h
      refine ⟨d.toNat :: ds, ?_, by rw [List.map_cons, hchar]⟩
      intro d' hd'
      rcases List.mem_cons.mp hd' with rfl | hmem
      · exact hlt
      · exact hds d' hmem

/-- `expected_len - full.len()`: the zero bytes put in front of a short body. -/
def paddedBytes (digits : List UInt8) : Nat :=
  let nzero := (digits.takeWhile (· = zeroDigit)).length
  match c32Accumulate (digits.drop nzero) [] with
  | .ok acc => 24 - (nzero + acc.length)
  | .error _ => 0

/-- **What is accepted as a body** is that of some number, behind zero digits. The bytes that
are padded are the zero digits that are missing. -/
theorem body_of_c32checkDecode {digits payload : List UInt8}
    (h : c32checkDecode digits 24 = .ok payload) :
    ∃ k n, digits = (bodyChars k n).map (fun c => UInt8.ofNat c.toNat) ∧ NoLeadingZero n ∧
      payload = List.replicate (paddedBytes digits + k) 0 ++ n := by
  obtain ⟨k, rest, hk, hrest, hdigits, hfirst⟩ := leadingRun_spec zeroDigit digits
  unfold c32checkDecode at h
  dsimp only at h
  rw [hk, hrest] at h
  obtain ⟨acc, hacc, h⟩ := bind_eq_ok.mp h
  split_ifs at h
  obtain ⟨ds, hds, hchars⟩ := digits_of_c32Accumulate hacc
  have hpadded : paddedBytes digits = 24 - (k + acc.length) := by
    unfold paddedBytes
    dsimp only
    rw [hk, hrest, hacc]
  -- the digits behind the zeros start with another one
  have hhead : ds.head? ≠ some 0 := by
    intro hzero
    rw [hchars, List.head?_map, hzero] at hfirst
    exact hfirst (by decide +kernel)
  have hempty : NoLeadingZero [] := by nofun
  obtain ⟨n, hn, hvalue, hlead⟩ := c32Accumulate_digits hds hempty (Or.inr hhead)
  rw [← hchars, hacc] at hn
  obtain rfl := Except.ok.inj hn
  refine ⟨k, acc, ?_, hlead, ?_⟩
  · have hbody : bodyDigits acc = ds := by
      unfold bodyDigits
      rw [hvalue]
      exact digits_hornerC32 hds hhead
    rw [bodyChars, hbody, List.map_append, List.map_replicate, List.map_map, hdigits, hchars]
    rfl
  · rw [← Except.ok.inj h, hpadded, List.length_append, List.length_replicate,
      List.replicate_add, List.append_assoc]

/-- Zeros in front of something that does not start with one. -/
theorem replicate_append_inj {a b : Nat} {l m : List UInt8} (hl : NoLeadingZero l)
    (hm : NoLeadingZero m) (h : List.replicate a 0 ++ l = List.replicate b 0 ++ m) :
    a = b ∧ l = m := by
  have hrun := congrArg (fun l : List UInt8 => (l.takeWhile (· = 0)).length) h
  simp only [takeWhile_replicate_append 0 _ hl, takeWhile_replicate_append 0 _ hm,
    List.length_replicate] at hrun
  subst hrun
  exact ⟨rfl, List.append_cancel_left h⟩

/-- What is accepted has the expected length, as it is padded to it. -/
theorem length_c32checkDecode {digits payload : List UInt8} {len : Nat}
    (h : c32checkDecode digits len = .ok payload) : payload.length = len := by
  unfold c32checkDecode at h
  obtain ⟨acc, -, h⟩ := bind_eq_ok.mp h
  dsimp only at h
  split_ifs at h with hlong
  rw [← Except.ok.inj h, List.length_append, List.length_replicate]
  omega

/-! ## Decoded addresses -/

/-- What is accepted is an `S`, a version character, and a body of the hash with its checksum. -/
theorem body_of_stacksAddrDecode {sha256 : Sha256} {addr : String} {version : UInt8}
    {hash160 : Hash160} (h : stacksAddrDecode sha256 addr = .ok (version, hash160)) :
    ∃ c digits, asBytes addr = 83 :: c :: digits ∧ c32Index c = some version ∧
      c32checkDecode digits 24 = .ok (hash160.toList ++ c32Checksum sha256 version hash160) := by
  unfold stacksAddrDecode at h
  split at h
  case h_2 => cases h
  case h_1 c digits haddr =>
    refine ⟨c, digits, haddr, ?_⟩
    cases hindex : c32Index c with
    | none =>
      rw [hindex] at h
      cases h
    | some v =>
      rw [hindex] at h
      obtain ⟨payload, hpayload, h⟩ := bind_eq_ok.mp h
      split_ifs at h with hlength
      dsimp only at h
      split_ifs at h with hsum
      obtain ⟨rfl, rfl⟩ := Prod.mk.inj (Except.ok.inj h)
      refine ⟨rfl, ?_⟩
      -- twenty bytes of hash and four of checksum are the whole payload
      have hfour : (payload.drop 20).take 4 = payload.drop 20 := by
        refine List.take_of_length_le ?_
        rw [List.length_drop, length_c32checkDecode hpayload]
      rw [hpayload, ← not_not.mp hsum, hfour]
      exact congrArg Except.ok (List.take_append_drop 20 payload).symm

/-- Different strings have different bytes. -/
theorem asBytes_injective {s t : String} (h : asBytes s = asBytes t) : s = t := by
  have hs := fromUtf8_eq_some.mpr h
  rw [fromUtf8_eq_some.mpr rfl] at hs
  exact (Option.some.inj hs).symm

/-- **An accepted address, with the missing zeros put back, is the canonical one.** -/
theorem encode_of_stacksAddrDecode {sha256 : Sha256} {addr : String} {version : UInt8}
    {hash160 : Hash160} (h : stacksAddrDecode sha256 addr = .ok (version, hash160)) :
    ∃ body, addr = String.ofList ('S' :: digitChar version.toNat :: body) ∧
      c32EncodeAddress sha256 version hash160 = .ok (String.ofList
        ('S' :: digitChar version.toNat ::
          (List.replicate (paddedBytes ((asBytes addr).drop 2)) '0' ++ body))) := by
  obtain ⟨c, digits, haddr, hindex, hbody⟩ := body_of_stacksAddrDecode h
  obtain ⟨hversion, hchar⟩ := c32Index_eq_some hindex
  obtain ⟨k, n, rfl, hlead, hpayload⟩ := body_of_c32checkDecode hbody
  obtain ⟨k', n', hpayload', hlead', hencode⟩ := c32EncodeAddress_eq sha256 hversion hash160
  -- the payload has one number of leading zeros and one rest
  obtain ⟨rfl, rfl⟩ := replicate_append_inj hlead' hlead (hpayload'.symm.trans hpayload)
  refine ⟨bodyChars k n', asBytes_injective ?_, ?_⟩
  · have hascii : ∀ c ∈ 'S' :: digitChar version.toNat :: bodyChars k n', c.toNat < 128 := by
      intro c hc
      rcases List.mem_cons.mp hc with rfl | hc
      · decide
      rcases List.mem_cons.mp hc with rfl | hc
      · exact (digitChar_spec hversion).2.1
      · exact (bodyChars_spec hc).1
    rw [asBytes_ofList_ascii hascii, haddr, List.map_cons, List.map_cons, hchar]
    rfl
  · rw [hencode, haddr]
    unfold bodyChars
    rw [List.replicate_add, List.append_assoc]
    rfl

/--
**Accepted addresses are canonical up to their leading zeros**: the canonical address is what
is accepted, with as many further zeros behind the version as bytes were padded. So it is the
accepted one exactly when none were, and no other address of its length is accepted for the
same version and hash. The decoder fills a short payload up with zero bytes and does not ask
how many digits stood for them.
-/
theorem stacksAddrDecode_canonical {sha256 : Sha256} {addr : String} {version : UInt8}
    {hash160 : Hash160} (h : stacksAddrDecode sha256 addr = .ok (version, hash160)) :
    (∃ c body, addr = String.ofList ('S' :: c :: body) ∧
      c32EncodeAddress sha256 version hash160 = .ok (String.ofList
        ('S' :: c :: (List.replicate (paddedBytes ((asBytes addr).drop 2)) '0' ++ body)))) ∧
    (c32EncodeAddress sha256 version hash160 = .ok addr ↔
      paddedBytes ((asBytes addr).drop 2) = 0) ∧
    ∀ addr', stacksAddrDecode sha256 addr' = .ok (version, hash160) →
      addr'.length = addr.length → addr' = addr := by
  obtain ⟨body, haddr, hencode⟩ := encode_of_stacksAddrDecode h
  generalize paddedBytes ((asBytes addr).drop 2) = padded at hencode ⊢
  refine ⟨⟨_, body, haddr, hencode⟩, ?_, ?_⟩
  · rw [hencode, haddr, Except.ok.injEq, String.ofList_inj]
    constructor
    · intro hsame
      have hlength := congrArg List.length hsame
      simp only [List.length_cons, List.length_append, List.length_replicate] at hlength
      omega
    · rintro rfl
      rfl
  · intro addr' h' hlength
    obtain ⟨body', haddr', hencode'⟩ := encode_of_stacksAddrDecode h'
    -- both are the canonical address with zeros taken out, and equally many
    have hsame := Except.ok.inj (hencode'.symm.trans hencode)
    rw [String.ofList_inj] at hsame
    have hbodies : body'.length = body.length := by
      rw [haddr, haddr', String.length_ofList, String.length_ofList] at hlength
      simpa using hlength
    obtain ⟨-, rfl⟩ := List.append_inj' (List.cons.inj (List.cons.inj hsame).2).2 hbodies
    rw [haddr, haddr']

/-- The burn address without the twenty zeros of its hash. -/
theorem stacksAddrDecode_short :
    stacksAddrDecode burnSha256 "SP2Q6VF78" = .ok (22, List.Vector.replicate 20 0) := by
  decide +kernel

/-- The burn address without its zeros is not the canonical text, and the only one of its
length. -/
theorem stacksAddrDecode_canonical_short :
    c32EncodeAddress burnSha256 22 (List.Vector.replicate 20 0) ≠ .ok "SP2Q6VF78" ∧
    ∀ addr', stacksAddrDecode burnSha256 addr' = .ok (22, List.Vector.replicate 20 0) →
      addr'.length = 9 → addr' = "SP2Q6VF78" := by
  obtain ⟨-, hcanonical, honly⟩ := stacksAddrDecode_canonical stacksAddrDecode_short
  have hpadded : paddedBytes ((asBytes "SP2Q6VF78").drop 2) = 20 := by decide +kernel
  exact ⟨fun h => absurd (hpadded.symm.trans (hcanonical.mp h)) (by decide), honly⟩

/-- It is accepted, and what is written back has the zeros. -/
theorem stacksAddrDecode_not_canonical :
    ¬ ∀ (sha256 : Sha256) (addr : String) (version : UInt8) (hash160 : Hash160),
      stacksAddrDecode sha256 addr = .ok (version, hash160) →
        c32EncodeAddress sha256 version hash160 = .ok addr := by
  intro hall
  have hsame := hall burnSha256 "SP2Q6VF78" 22 _ stacksAddrDecode_short
  have hencode : c32EncodeAddress burnSha256 22 (List.Vector.replicate 20 0) =
      .ok "SP000000000000000000002Q6VF78" := by decide +kernel
  exact absurd (Except.ok.inj (hsame.symm.trans hencode)) (by decide)

end StacksDex.Results
