import StacksDex.Bridge.C32Radix
import StacksDex.Results.Isolation
import Mathlib.Data.List.TakeWhile

/-!
# StacksDex — addresses and principals round trip

Whatever the hash function, decoding an encoded address gives its version and hash
back, and parsing the `Display` form of a principal gives the principal back. So
`Display`, which keys the registry, is injective.

## Main result

`address_round_trip`, of three parts: addresses, principals, and injectivity.

The body of an address is the base-32 text of its payload, the hash followed by its checksum.
Leading zero bytes are the delicate part: they are not part of the number, so the encoder
writes a `0` for each of them and the decoder counts these off before it accumulates. The
lemmas split a payload into its zeros and the rest (`leadingRun_spec`), encode and decode the
rest as a number, and put the zeros back. The checksum is computed from the same bytes on both
sides, so that nothing has to be known about the hash.
-/

namespace StacksDex.Results

open StacksDex.Lib StacksDex.Model StacksDex.Bridge

/-! ## Leading zeros -/

/-- A run of `a`s in front of something that does not start with `a`. -/
theorem takeWhile_replicate_append (a : UInt8) (k : Nat) {l : List UInt8}
    (hl : l.head? ≠ some a) :
    (List.replicate k a ++ l).takeWhile (· = a) = List.replicate k a := by
  induction k with
  | zero =>
    cases l with
    | nil => rfl
    | cons b l =>
      have hb : b ≠ a := fun h => hl (congrArg some h)
      show (b :: l).takeWhile (· = a) = []
      rw [List.takeWhile_cons_of_neg (by simpa using hb)]
  | succ k ih =>
    rw [List.replicate_succ, List.cons_append, List.takeWhile_cons_of_pos (by simp), ih]

/-- The `a`s in front of a list, counted and dropped. -/
theorem leadingRun_spec (a : UInt8) (l : List UInt8) :
    ∃ k rest, (l.takeWhile (· = a)).length = k ∧ l.drop k = rest ∧
      l = List.replicate k a ++ rest ∧ rest.head? ≠ some a := by
  have hrun : l.takeWhile (· = a) = List.replicate (l.takeWhile (· = a)).length a := by
    refine List.eq_replicate_iff.mpr ⟨rfl, ?_⟩
    intro b hb
    simpa using List.mem_takeWhile_imp hb
  have hsplit : l.takeWhile (· = a) ++ l.dropWhile (· = a) = l := List.takeWhile_append_dropWhile
  have hdrop : (l.takeWhile (· = a) ++ l.dropWhile (· = a)).drop (l.takeWhile (· = a)).length =
      l.dropWhile (· = a) := List.drop_left' rfl
  rw [hsplit] at hdrop
  refine ⟨_, l.dropWhile (· = a), rfl, hdrop, ?_, ?_⟩
  · rw [← hrun, hsplit]
  · -- what is dropped down to starts with something else
    intro hhead
    have hnot := List.head?_dropWhile_not (fun b : UInt8 => decide (b = a)) l
    rw [hhead] at hnot
    simp at hnot

/-! ## The body -/

/-- The digits of a number, most significant first. -/
def bodyDigits (n : List UInt8) : List Nat := (Nat.digits 32 (ofBeBytes n)).reverse

/-- The digits of a body are base-32 digits. -/
theorem bodyDigits_lt {n : List UInt8} {d : Nat} (hd : d ∈ bodyDigits n) : d < 32 :=
  Nat.digits_lt_base (by decide) (List.mem_reverse.mp hd)

/-- Division stops at the number, so the first digit is not zero. -/
theorem bodyDigits_head (n : List UInt8) : (bodyDigits n).head? ≠ some 0 := by
  unfold bodyDigits
  rw [List.head?_reverse]
  rcases Nat.eq_zero_or_pos (ofBeBytes n) with hzero | hpos
  · rw [hzero, Nat.digits_zero]
    nofun
  · have hne : Nat.digits 32 (ofBeBytes n) ≠ [] := Nat.digits_ne_nil_iff_ne_zero.mpr hpos.ne'
    rw [List.getLast?_eq_some_getLast hne]
    intro h
    exact Nat.getLast_digit_ne_zero 32 hpos.ne' (Option.some.inj h)

/-- The characters of a payload with `k` leading zero bytes. -/
def bodyChars (k : Nat) (n : List UInt8) : List Char :=
  List.replicate k '0' ++ (bodyDigits n).map digitChar

/-- A body is ASCII and has no dot in it, so the dot behind an address is the one that ends it. -/
theorem bodyChars_spec {k : Nat} {n : List UInt8} {c : Char} (hc : c ∈ bodyChars k n) :
    c.toNat < 128 ∧ c ≠ '.' := by
  rcases List.mem_append.mp hc with hzero | hdigit
  · obtain rfl := List.eq_of_mem_replicate hzero
    decide
  · obtain ⟨d, hd, rfl⟩ := List.mem_map.mp hdigit
    obtain ⟨-, hascii, hdot, -⟩ := digitChar_spec (bodyDigits_lt hd)
    exact ⟨hascii, hdot⟩

/-- **The body decodes to its payload.** The zero digits in front are counted off and put back
as zero bytes, and the others are accumulated to the number they were divided from. -/
theorem c32checkDecode_body {k : Nat} {n : List UInt8} (hn : NoLeadingZero n) :
    c32checkDecode ((bodyChars k n).map fun c => UInt8.ofNat c.toNat) (k + n.length) =
      .ok (List.replicate k 0 ++ n) := by
  have hbytes : ((bodyChars k n).map fun c => UInt8.ofNat c.toNat) =
      List.replicate k zeroDigit ++
        (bodyDigits n).map fun d => UInt8.ofNat (digitChar d).toNat := by
    unfold bodyChars
    rw [List.map_append, List.map_replicate, List.map_map]
    rfl
  have hhead : ((bodyDigits n).map fun d => UInt8.ofNat (digitChar d).toNat).head? ≠
      some zeroDigit := by
    rw [List.head?_map]
    intro h
    obtain ⟨d, hd, hchar⟩ := Option.map_eq_some_iff.mp h
    obtain ⟨-, -, -, -, hzero⟩ := digitChar_spec (bodyDigits_lt (List.mem_of_head? hd))
    rw [hzero.mp hchar] at hd
    exact bodyDigits_head n hd
  have hempty : NoLeadingZero [] := by nofun
  obtain ⟨acc, hacc, hvalue, hlead⟩ := c32Accumulate_digits (fun d hd => bodyDigits_lt hd) hempty
    (Or.inr (bodyDigits_head n))
  -- the accumulated bytes have the payload's number, so they are its bytes
  have heq : acc = n := by
    refine eq_of_noLeadingZero hlead hn ?_
    rw [hvalue]
    exact hornerC32_digits _
  subst heq
  unfold c32checkDecode
  rw [hbytes, takeWhile_replicate_append _ _ hhead, List.length_replicate]
  dsimp only
  rw [List.drop_left' (List.length_replicate ..), hacc, ok_bind, List.length_append,
    List.length_replicate, if_neg (lt_irrefl _), Nat.sub_self]
  rfl

/-! ## Addresses -/

/-- Digits below 32 have a character each. -/
theorem mapM_c32Char {ds : List Nat} (hds : ∀ d ∈ ds, d < 32) :
    ds.mapM c32Char = .ok (ds.map digitChar) := by
  induction ds with
  | nil => rfl
  | cons d ds ih =>
    obtain ⟨hchar, -⟩ := digitChar_spec (hds d (List.mem_cons_self ..))
    rw [List.mapM_cons, hchar, ok_bind, ih fun d' hd' => hds d' (List.mem_cons_of_mem _ hd'),
      ok_bind]
    rfl

/-- A checksum has four bytes. -/
theorem length_c32Checksum (sha256 : Sha256) (version : UInt8) (hash160 : Hash160) :
    (c32Checksum sha256 version hash160).length = 4 := by
  unfold c32Checksum
  simp

/-- An encoded address up to its version character: the body is that of the payload. -/
theorem c32EncodeAddress_body (sha256 : Sha256) (version : UInt8) (hash160 : Hash160) :
    ∃ k n, hash160.toList ++ c32Checksum sha256 version hash160 = List.replicate k 0 ++ n ∧
      NoLeadingZero n ∧ c32EncodeAddress sha256 version hash160 =
        c32Char version.toNat >>= fun c => .ok (String.ofList ('S' :: c :: bodyChars k n)) := by
  obtain ⟨k, n, hk, hn, hpayload, hlead⟩ :=
    leadingRun_spec 0 (hash160.toList ++ c32Checksum sha256 version hash160)
  refine ⟨k, n, hpayload, hlead, ?_⟩
  have hdigits : c32Digits (2 * n.length + 1) n = Nat.digits 32 (ofBeBytes n) :=
    c32Digits_eq (fun _ => hlead) (ofBeBytes_lt_fuel n)
  unfold c32EncodeAddress
  dsimp only
  rw [hk, hn, hdigits, mapM_c32Char fun d hd => Nat.digits_lt_base (by decide) hd, ok_bind]
  unfold bodyChars bodyDigits
  rw [List.map_reverse]
  rfl

/-- An encoded address, character by character: `S`, the version, the body. -/
theorem c32EncodeAddress_eq (sha256 : Sha256) {version : UInt8} (hversion : version.toNat < 32)
    (hash160 : Hash160) :
    ∃ k n, hash160.toList ++ c32Checksum sha256 version hash160 = List.replicate k 0 ++ n ∧
      NoLeadingZero n ∧ c32EncodeAddress sha256 version hash160 =
        .ok (String.ofList ('S' :: digitChar version.toNat :: bodyChars k n)) := by
  obtain ⟨k, n, hpayload, hlead, hencode⟩ := c32EncodeAddress_body sha256 version hash160
  obtain ⟨hchar, -⟩ := digitChar_spec hversion
  exact ⟨k, n, hpayload, hlead, by rw [hencode, hchar, ok_bind]⟩

/-- An `S`, a version character and the digits of a hash with its checksum are decoded. -/
theorem stacksAddrDecode_ok {sha256 : Sha256} {addr : String} {c version : UInt8}
    {digits : List UInt8} {hash160 : Hash160} (haddr : asBytes addr = 83 :: c :: digits)
    (hversion : c32Index c = some version)
    (hbody : c32checkDecode digits 24 =
      .ok (hash160.toList ++ c32Checksum sha256 version hash160)) :
    stacksAddrDecode sha256 addr = .ok (version, hash160) := by
  have hlen20 : hash160.toList.length = 20 := hash160.toList_length
  have htake : (hash160.toList ++ c32Checksum sha256 version hash160).take 20 =
      hash160.toList := List.take_left' hlen20
  have hdrop : ((hash160.toList ++ c32Checksum sha256 version hash160).drop 20).take 4 =
      c32Checksum sha256 version hash160 := by
    rw [List.drop_left' hlen20]
    exact List.take_of_length_le (length_c32Checksum ..).le
  unfold stacksAddrDecode
  split
  case h_1 c' digits' heq =>
    cases haddr.symm.trans heq
    simp only [hversion, hbody, ok_bind, htake, hdrop, hlen20, dif_pos]
    exact if_neg fun h => h rfl
  case h_2 hnot => exact absurd haddr (hnot c digits)

/-- **An address decodes to what it was encoded from**, and there is no dot in it. -/
theorem stacksAddrDecode_c32EncodeAddress (sha256 : Sha256) {version : UInt8}
    (hversion : version.toNat < 32) (hash160 : Hash160) :
    ∃ addr, c32EncodeAddress sha256 version hash160 = .ok addr ∧
      stacksAddrDecode sha256 addr = .ok (version, hash160) ∧ '.' ∉ addr.toList := by
  obtain ⟨k, n, hpayload, hlead, hencode⟩ := c32EncodeAddress_eq sha256 hversion hash160
  obtain ⟨-, hascii, hdot, hindex, -⟩ := digitChar_spec hversion
  refine ⟨_, hencode, ?_, ?_⟩
  -- all characters are ASCII, so the byte walk and the characters are the same
  · have hchars : ∀ c ∈ 'S' :: digitChar version.toNat :: bodyChars k n, c.toNat < 128 := by
      intro c hc
      rcases List.mem_cons.mp hc with rfl | hc
      · decide
      rcases List.mem_cons.mp hc with rfl | hc
      · exact hascii
      · exact (bodyChars_spec hc).1
    -- the body's digits and zeros make up the 24 bytes of hash and checksum
    have hlength : k + n.length = 24 := by
      have h := congrArg List.length hpayload
      rw [List.length_append, List.length_append, List.length_replicate, length_c32Checksum,
        List.Vector.toList_length] at h
      exact h.symm
    have hbody := c32checkDecode_body (k := k) hlead
    rw [hlength, ← hpayload] at hbody
    have hversion' : UInt8.ofNat version.toNat = version := UInt8.ofNat_toNat
    rw [hversion'] at hindex
    exact stacksAddrDecode_ok (asBytes_ofList_ascii hchars) hindex hbody
  · -- neither the two characters in front nor the body has a dot
    rw [String.toList_ofList]
    intro hmem
    rcases List.mem_cons.mp hmem with h | hmem
    · exact absurd h (by decide)
    rcases List.mem_cons.mp hmem with h | hmem
    · exact hdot h.symm
    · exact (bodyChars_spec hmem).2 rfl

/-! ## Principals -/

/-- A split at the first dot, when the front part has none. -/
theorem splitOnce_append {c : Char} {front : List Char} (h : c ∉ front) (back : List Char) :
    splitOnce c (front ++ c :: back) = some (front, back) := by
  induction front with
  | nil => simp [splitOnce]
  | cons x front ih =>
    obtain ⟨hne, hnot⟩ := List.ne_and_not_mem_of_not_mem_cons h
    rw [List.cons_append, splitOnce, if_neg hne.symm, ih hnot]
    rfl

/-- Without a dot there is no split. -/
theorem splitOnce_none {c : Char} {cs : List Char} (h : c ∉ cs) : splitOnce c cs = none := by
  induction cs with
  | nil => rfl
  | cons x cs ih =>
    obtain ⟨hne, hnot⟩ := List.ne_and_not_mem_of_not_mem_cons h
    rw [splitOnce, if_neg hne.symm, ih hnot]
    rfl

/-- A version of the alphabet; the name of a contract is ASCII of at most 128 bytes. -/
def Printable : Principal → Prop
  | .standard version _ => version.toNat < 32
  | .contract version _ name =>
    version.toNat < 32 ∧ (asBytes name).length ≤ 128 ∧ (asBytes name).all (· < 128) = true

/-- **A principal is parsed from its own text.** The dot tells the two kinds apart. -/
theorem parse_display (sha256 : Sha256) {p : Principal} (hp : Printable p) :
    ∃ s, p.display sha256 = .ok s ∧ Principal.parse sha256 s = .ok p := by
  cases p with
  | standard version hash160 =>
    obtain ⟨addr, hencode, hdecode, hdot⟩ := stacksAddrDecode_c32EncodeAddress sha256 hp hash160
    refine ⟨addr, ?_, ?_⟩
    · rw [Principal.display, Principal.address, hencode]
      rfl
    · rw [Principal.parse, splitOnce_none hdot]
      show Principal.ofStandard sha256 addr = _
      rw [Principal.ofStandard, hdecode]
      rfl
  | contract version hash160 name =>
    obtain ⟨hversion, hlength, hascii⟩ := hp
    obtain ⟨addr, hencode, hdecode, hdot⟩ :=
      stacksAddrDecode_c32EncodeAddress sha256 hversion hash160
    refine ⟨addr ++ "." ++ name, ?_, ?_⟩
    · rw [Principal.display, Principal.address, hencode]
      rfl
    · -- the address has no dot, so the first one is where the name begins
      have hsplit : splitOnce '.' (addr ++ "." ++ name).toList =
          some (addr.toList, name.toList) := by
        rw [String.toList_append, String.toList_append, List.append_assoc]
        exact splitOnce_append hdot name.toList
      rw [Principal.parse, hsplit]
      show Principal.ofContract sha256 (String.ofList addr.toList) (String.ofList name.toList) = _
      rw [String.ofList_toList, String.ofList_toList, Principal.ofContract, hdecode, ok_bind]
      dsimp only
      rw [if_neg (by omega), if_neg (not_not_intro hascii)]

/--
**Addresses and principals round trip**, whatever the hash function, and `Display` tells
principals apart. Every version below 32 and every hash give an address that decodes to them,
and every principal that can be printed is parsed back from its text. The base-32 digits of
the payload are read back with its leading zero bytes, and the checksum is recomputed from the
same bytes, so the hash is never inverted.
-/
theorem address_round_trip (sha256 : Sha256) :
    (∀ (version : UInt8) (hash160 : Hash160), version.toNat < 32 →
      ∃ addr, c32EncodeAddress sha256 version hash160 = .ok addr ∧
        stacksAddrDecode sha256 addr = .ok (version, hash160)) ∧
    (∀ p, Printable p → ∃ s, p.display sha256 = .ok s ∧ Principal.parse sha256 s = .ok p) ∧
    ∀ p q, Printable p → Printable q → p.display sha256 = q.display sha256 → p = q := by
  refine ⟨?_, fun p hp => parse_display sha256 hp, ?_⟩
  · intro version hash160 hversion
    obtain ⟨addr, hencode, hdecode, -⟩ :=
      stacksAddrDecode_c32EncodeAddress sha256 hversion hash160
    exact ⟨addr, hencode, hdecode⟩
  · intro p q hp hq heq
    obtain ⟨s, hs, hparse⟩ := parse_display sha256 hp
    obtain ⟨s', hs', hparse'⟩ := parse_display sha256 hq
    -- one string parses to one principal
    obtain rfl := Except.ok.inj (hs.symm.trans (heq.trans hs'))
    exact Except.ok.inj (hparse.symm.trans hparse')

/-- The address of twenty zero bytes, a contract it deployed, and another one whose text is
therefore another one too. -/
theorem address_round_trip_burn :
    (∃ addr, c32EncodeAddress burnSha256 22 (List.Vector.replicate 20 0) = .ok addr ∧
      stacksAddrDecode burnSha256 addr = .ok (22, List.Vector.replicate 20 0)) ∧
    (∃ s, (deployed "pool").display burnSha256 = .ok s ∧
      Principal.parse burnSha256 s = .ok (deployed "pool")) ∧
    (deployed "pool").display burnSha256 ≠ (deployed "core").display burnSha256 := by
  obtain ⟨haddress, hparse, hinjective⟩ := address_round_trip burnSha256
  have hpool : Printable (deployed "pool") := ⟨by decide, by decide +kernel, by decide +kernel⟩
  have hcore : Printable (deployed "core") := ⟨by decide, by decide +kernel, by decide +kernel⟩
  have hdistinct : deployed "pool" ≠ deployed "core" := by decide
  exact ⟨haddress 22 _ (by decide), hparse _ hpool, mt (hinjective _ _ hpool hcore) hdistinct⟩

end StacksDex.Results
