import StacksDex.Lib.BigEndian
import StacksDex.Model.C32
import Mathlib.Data.Nat.Digits.Lemmas

/-!
# StacksDex — the two base conversions of c32check

Both directions of the codec are hand-written conversions between big-endian bytes
and base-32 digits. Decoding shifts an accumulator left by five bits for each digit
(`pushDigit`): its number is multiplied by 32 and the digit added, and no leading zero
byte appears. Encoding divides by 32 over and over (`c32Digits`): its digits are those
of the number, least significant first.

Each loop is described by the number its bytes denote; `Lib.BigEndian` turns equal numbers
back into equal bytes. The lemmas follow one step of a loop first, then the loop by induction
on what is left to read or to divide.
-/

namespace StacksDex.Bridge

open StacksDex.Lib StacksDex.Model

/-! ## Pushing a digit -/

/-- One byte of the shift: the low eight bits stay, the rest is carried. The carry is a base-32
digit at most, so the disjunction of the source is a sum. -/
theorem shiftByte_eq {b : UInt8} {bytes : List UInt8} {carry : Nat} (hcarry : carry < 32) :
    shiftByte b (bytes, carry) =
      (UInt8.ofNat ((b.toNat * 32 + carry) % 256) :: bytes, (b.toNat * 32 + carry) / 256) := by
  -- the low five bits are free, so the bitwise or is an addition
  have hor : b.toNat <<< 5 ||| carry = b.toNat * 32 + carry := by
    rw [← Nat.shiftLeft_add_eq_or_of_lt hcarry, Nat.shiftLeft_eq]
  have hand : ∀ v : Nat, v &&& 0xff = v % 256 := fun v => Nat.and_two_pow_sub_one_eq_mod v 8
  have hshift : ∀ v : Nat, v >>> 8 = v / 256 := fun v => Nat.shiftRight_eq_div_pow v 8
  unfold shiftByte
  simp only [hor, hand, hshift]

/-- One pass over the accumulator: five more bits, with what does not fit left as a carry. -/
theorem foldr_shiftByte (acc : List UInt8) {d : Nat} (hd : d < 32) :
    (acc.foldr shiftByte ([], d)).1.length = acc.length ∧
    (acc.foldr shiftByte ([], d)).2 < 32 ∧
    (acc.foldr shiftByte ([], d)).2 * 256 ^ acc.length +
      ofBeBytes (acc.foldr shiftByte ([], d)).1 = ofBeBytes acc * 32 + d := by
  induction acc with
  | nil => exact ⟨rfl, hd, by simp⟩
  | cons b acc ih =>
    rw [List.foldr_cons]
    obtain ⟨hlength, hcarry, hvalue⟩ := ih
    generalize acc.foldr shiftByte ([], d) = p at hlength hcarry hvalue ⊢
    obtain ⟨bytes, carry⟩ := p
    have hb : b.toNat < 256 := b.toNat_lt
    rw [shiftByte_eq hcarry]
    dsimp only at hlength hcarry hvalue ⊢
    refine ⟨by rw [List.length_cons, List.length_cons, hlength], by omega, ?_⟩
    -- the byte's own 13 bits split into the new byte and the new carry
    have hbyte : (UInt8.ofNat ((b.toNat * 32 + carry) % 256)).toNat =
        (b.toNat * 32 + carry) % 256 := by
      rw [UInt8.toNat_ofNat']
      omega
    have hsplit : (b.toNat * 32 + carry) / 256 * 256 + (b.toNat * 32 + carry) % 256 =
        b.toNat * 32 + carry := Nat.div_add_mod' _ _
    rw [ofBeBytes_cons, ofBeBytes_cons, hbyte, hlength, List.length_cons, Nat.pow_succ']
    generalize (b.toNat * 32 + carry) / 256 = high at hsplit ⊢
    generalize (b.toNat * 32 + carry) % 256 = low at hsplit ⊢
    generalize 256 ^ acc.length = scale at hvalue ⊢
    calc high * (256 * scale) + (low * scale + ofBeBytes bytes)
        = (high * 256 + low) * scale + ofBeBytes bytes := by ring
      _ = (b.toNat * 32 + carry) * scale + ofBeBytes bytes := by rw [hsplit]
      _ = b.toNat * 32 * scale + (carry * scale + ofBeBytes bytes) := by ring
      _ = b.toNat * 32 * scale + (ofBeBytes acc * 32 + d) := by rw [hvalue]
      _ = (b.toNat * scale + ofBeBytes acc) * 32 + d := by ring

/-- What is carried out of the first byte becomes a byte of its own, unless it is zero. -/
theorem insertCarry_eq {carry : Nat} (hcarry : carry < 256) (acc : List UInt8) :
    insertCarry 4 carry acc = if carry = 0 then acc else UInt8.ofNat carry :: acc := by
  have hand : carry &&& 0xff = carry := by
    rw [Nat.and_two_pow_sub_one_eq_mod carry 8]
    exact Nat.mod_eq_of_lt hcarry
  have hshift : carry >>> 8 = 0 := by
    rw [Nat.shiftRight_eq_div_pow]
    exact Nat.div_eq_of_lt hcarry
  rw [insertCarry, hand, hshift]
  -- a second round finds no carry
  rfl

/-- **A digit is pushed**: the number is multiplied by 32 and the digit added. -/
theorem pushDigit_value (acc : List UInt8) {d : Nat} (hd : d < 32) :
    ofBeBytes (pushDigit acc d) = ofBeBytes acc * 32 + d := by
  obtain ⟨hlength, hcarry, hvalue⟩ := foldr_shiftByte acc hd
  unfold pushDigit
  rw [insertCarry_eq (by omega), ← hvalue]
  by_cases hzero : (acc.foldr shiftByte ([], d)).2 = 0
  · rw [if_pos hzero, hzero, Nat.zero_mul, Nat.zero_add]
  · rw [if_neg hzero, ofBeBytes_cons, hlength, UInt8.toNat_ofNat', Nat.mod_eq_of_lt (by omega)]

/-- A digit pushed onto a number, or a first digit that is not zero, brings no leading zero. -/
theorem pushDigit_noLeadingZero {acc : List UInt8} {d : Nat} (hd : d < 32)
    (hacc : NoLeadingZero acc) (hstart : acc ≠ [] ∨ d ≠ 0) : NoLeadingZero (pushDigit acc d) := by
  obtain ⟨hlength, hcarry, hvalue⟩ := foldr_shiftByte acc hd
  unfold pushDigit
  rw [insertCarry_eq (by omega)]
  generalize acc.foldr shiftByte ([], d) = p at hlength hcarry hvalue ⊢
  obtain ⟨bytes, carry⟩ := p
  dsimp only at hlength hcarry hvalue ⊢
  by_cases hzero : carry = 0
  · -- without a carry the accumulator keeps its length, and its number has only grown
    rw [if_pos hzero]
    cases acc with
    | nil =>
      rw [List.eq_nil_of_length_eq_zero hlength]
      nofun
    | cons b acc =>
      cases bytes with
      | nil => nofun
      | cons b' bytes =>
        have hle := noLeadingZero_cons_iff.mp hacc
        have hlen : bytes.length = acc.length := Nat.succ.inj hlength
        rw [hzero, Nat.zero_mul, Nat.zero_add] at hvalue
        refine noLeadingZero_cons_iff.mpr ?_
        rw [hlen, hvalue]
        omega
  -- a carry is one more byte in front, and it is not zero
  · rw [if_neg hzero]
    refine noLeadingZero_cons_iff.mpr ?_
    rw [ofBeBytes_cons, UInt8.toNat_ofNat', Nat.mod_eq_of_lt (by omega)]
    have hone : 1 * 256 ^ bytes.length ≤ carry * 256 ^ bytes.length :=
      Nat.mul_le_mul_right _ (by omega)
    omega

/-! ## The alphabet -/

/-- The character of a digit. -/
def digitChar (d : Nat) : Char := Char.ofNat (c32Alphabet.getD d 0).toNat

/-- What is needed of the alphabet, digit by digit. -/
theorem digitChar_spec {d : Nat} (hd : d < 32) :
    c32Char d = .ok (digitChar d) ∧ (digitChar d).toNat < 128 ∧ digitChar d ≠ '.' ∧
    c32Index (UInt8.ofNat (digitChar d).toNat) = some (UInt8.ofNat d) ∧
    (UInt8.ofNat (digitChar d).toNat = zeroDigit ↔ d = 0) := by
  have hall : ∀ d : Fin 32, c32Char d = .ok (digitChar d) ∧ (digitChar d).toNat < 128 ∧
      digitChar d ≠ '.' ∧
      c32Index (UInt8.ofNat (digitChar d).toNat) = some (UInt8.ofNat d) ∧
      (UInt8.ofNat (digitChar d).toNat = zeroDigit ↔ d.val = 0) := by decide +kernel
  exact hall ⟨d, hd⟩

/-- A character with an index is the character of that digit. -/
theorem c32Index_eq_some {ch d : UInt8} (h : c32Index ch = some d) :
    d.toNat < 32 ∧ UInt8.ofNat (digitChar d.toNat).toNat = ch := by
  have hall : ∀ i : Fin 256, ∀ d ∈ c32Index (UInt8.ofNat i.val),
      d.toNat < 32 ∧ (digitChar d.toNat).toNat = i.val := by decide +kernel
  have hch : UInt8.ofNat ch.toNat = ch := UInt8.ofNat_toNat
  obtain ⟨hlt, hchar⟩ := hall ⟨ch.toNat, ch.toNat_lt⟩ d (by rw [hch]; exact h)
  exact ⟨hlt, by rw [hchar, hch]⟩

/-- The number of digits given most significant first. -/
def hornerC32 (start : Nat) (ds : List Nat) : Nat := ds.foldl (fun n d => n * 32 + d) start

/-- **The accumulator holds the number of its digits**, without a leading zero byte. -/
theorem c32Accumulate_digits {ds : List Nat} (hds : ∀ d ∈ ds, d < 32) {acc : List UInt8}
    (hacc : NoLeadingZero acc) (hstart : acc ≠ [] ∨ ds.head? ≠ some 0) :
    ∃ acc', c32Accumulate (ds.map fun d => UInt8.ofNat (digitChar d).toNat) acc = .ok acc' ∧
      ofBeBytes acc' = hornerC32 (ofBeBytes acc) ds ∧ NoLeadingZero acc' := by
  induction ds generalizing acc with
  | nil => exact ⟨acc, rfl, rfl, hacc⟩
  | cons d ds ih =>
    have hd : d < 32 := hds d (List.mem_cons_self ..)
    obtain ⟨-, -, -, hindex, -⟩ := digitChar_spec hd
    have hdigit : (UInt8.ofNat d).toNat = d := by
      rw [UInt8.toNat_ofNat', Nat.mod_eq_of_lt (by omega)]
    have hfirst : acc ≠ [] ∨ d ≠ 0 := by simpa using hstart
    have hpushed := pushDigit_noLeadingZero hd hacc hfirst
    -- after the first digit the accumulator is not empty any more
    have hnonempty : pushDigit acc d ≠ [] := by
      intro hnil
      have hvalue := pushDigit_value acc hd
      rw [hnil, ofBeBytes_nil] at hvalue
      rcases hfirst with hne | hne
      · have hzero : ofBeBytes acc = ofBeBytes [] := by
          rw [ofBeBytes_nil]
          omega
        exact hne (eq_of_noLeadingZero hacc nofun hzero)
      · omega
    obtain ⟨acc', hok, hvalue, hnext⟩ :=
      ih (fun d' hd' => hds d' (List.mem_cons_of_mem _ hd')) hpushed (Or.inl hnonempty)
    refine ⟨acc', ?_, ?_, hnext⟩
    · rw [List.map_cons, c32Accumulate, hindex]
      dsimp only
      rw [hdigit]
      exact hok
    · rw [hvalue, pushDigit_value acc hd]
      rfl

/-! ## Dividing by 32 -/

/-- One long division: the quotient, in as many bytes, and the remainder. -/
theorem foldl_divByte (n : List UInt8) :
    (n.foldl divByte ([], 0)).1.length = n.length ∧ (n.foldl divByte ([], 0)).2 < 32 ∧
    ofBeBytes (n.foldl divByte ([], 0)).1 * 32 + (n.foldl divByte ([], 0)).2 = ofBeBytes n := by
  induction n using List.reverseRecOn with
  | nil => exact ⟨rfl, by decide, rfl⟩
  | append_singleton n b ih =>
    rw [List.foldl_append]
    obtain ⟨hlength, hrem, hvalue⟩ := ih
    generalize n.foldl divByte ([], 0) = p at hlength hrem hvalue ⊢
    obtain ⟨out, rem⟩ := p
    have hb : b.toNat < 256 := b.toNat_lt
    have hcur : rem <<< 8 ||| b.toNat = rem * 256 + b.toNat := by
      rw [← Nat.shiftLeft_add_eq_or_of_lt hb, Nat.shiftLeft_eq]
    have hstep : [b].foldl divByte (out, rem) =
        (out ++ [UInt8.ofNat ((rem * 256 + b.toNat) / 32)], (rem * 256 + b.toNat) % 32) := by
      show divByte (out, rem) b = _
      rw [divByte, hcur]
    dsimp only at hlength hrem hvalue
    rw [hstep]
    refine ⟨by simp [hlength], Nat.mod_lt _ (by decide), ?_⟩
    -- the quotient of the last step is one byte, because the remainder before was below 32
    have hbyte : (UInt8.ofNat ((rem * 256 + b.toNat) / 32)).toNat = (rem * 256 + b.toNat) / 32 := by
      rw [UInt8.toNat_ofNat', Nat.mod_eq_of_lt (by omega)]
    show ofBeBytes (out ++ [UInt8.ofNat ((rem * 256 + b.toNat) / 32)]) * 32 +
      (rem * 256 + b.toNat) % 32 = _
    rw [ofBeBytes_append_singleton, ofBeBytes_append_singleton, hbyte]
    omega

/-- Leading zero bytes are worth nothing. -/
theorem ofBeBytes_stripZeros (n : List UInt8) : ofBeBytes (stripZeros n) = ofBeBytes n := by
  induction n with
  | nil => rfl
  | cons b rest ih =>
    cases rest with
    | nil => rfl
    | cons b' rest =>
      rw [stripZeros]
      by_cases hb : b = 0
      · rw [if_pos hb, ih, ofBeBytes_cons b, hb]
        simp
      · rw [if_neg hb]

/-- At most one leading zero byte is left, where it is the only byte. -/
def Stripped (n : List UInt8) : Prop := n.length > 1 → NoLeadingZero n

/-- After stripping, the first byte is not zero, or it is the only one. -/
theorem stripped_stripZeros (n : List UInt8) : Stripped (stripZeros n) := by
  induction n with
  | nil => exact fun h => absurd h (by decide)
  | cons b rest ih =>
    cases rest with
    | nil => exact fun h => absurd h (by show ¬ 1 < 1; omega)
    | cons b' rest =>
      rw [stripZeros]
      by_cases hb : b = 0
      · rw [if_pos hb]
        exact ih
      · rw [if_neg hb]
        intro _ hhead
        exact hb (Option.some.inj hhead)

/-- The loop goes on exactly while the number is not zero. -/
theorem loop_iff_pos {n : List UInt8} (hn : Stripped n) :
    (n.length > 1 ∨ n.head?.any (· ≠ 0) = true) ↔ 0 < ofBeBytes n := by
  match n with
  | [] => simp
  | [b] =>
    have hvalue : ofBeBytes [b] = b.toNat := by simp [ofBeBytes]
    have hzero : b = 0 ↔ b.toNat = 0 := UInt8.toNat_inj.symm
    rw [hvalue, Nat.pos_iff_ne_zero]
    simp [hzero]
  | b :: b' :: rest =>
    have hlong : (b :: b' :: rest).length > 1 := by simp
    have hle := noLeadingZero_cons_iff.mp (hn hlong)
    have hpow : 0 < 256 ^ (b' :: rest).length := Nat.pow_pos (by decide)
    exact ⟨fun _ => by omega, fun _ => Or.inl hlong⟩

/-- **The encoder's digits are those of the number.** -/
theorem c32Digits_eq {fuel : Nat} {n : List UInt8} (hn : Stripped n)
    (hfuel : ofBeBytes n < 32 ^ fuel) : c32Digits fuel n = Nat.digits 32 (ofBeBytes n) := by
  induction fuel generalizing n with
  | zero =>
    have hzero : ofBeBytes n = 0 := by omega
    rw [hzero, Nat.digits_zero]
    rfl
  | succ fuel ih =>
    rw [c32Digits]
    by_cases hpos : 0 < ofBeBytes n
    · rw [if_pos ((loop_iff_pos hn).mpr hpos)]
      obtain ⟨-, hrem, hvalue⟩ := foldl_divByte n
      dsimp only
      generalize n.foldl divByte ([], 0) = p at hrem hvalue ⊢
      -- the quotient goes into the next round
      have hquot : ofBeBytes (stripZeros p.1) = ofBeBytes n / 32 := by
        rw [ofBeBytes_stripZeros]
        omega
      have hsmall : ofBeBytes (stripZeros p.1) < 32 ^ fuel := by
        rw [hquot]
        exact Nat.div_lt_of_lt_mul (by rw [← Nat.pow_succ']; exact hfuel)
      have hdigit : p.2 = ofBeBytes n % 32 := by omega
      rw [ih (stripped_stripZeros _) hsmall, hquot, hdigit, Nat.digits_def' (by decide) hpos]
    · rw [if_neg (fun h => hpos ((loop_iff_pos hn).mp h))]
      have hzero : ofBeBytes n = 0 := by omega
      rw [hzero, Nat.digits_zero]

/-- Two base-32 digits are more than a byte, so the fuel of the encoder is enough. -/
theorem ofBeBytes_lt_fuel (n : List UInt8) : ofBeBytes n < 32 ^ (2 * n.length + 1) :=
  calc ofBeBytes n < 256 ^ n.length := ofBeBytes_lt n
    _ ≤ (32 ^ 2) ^ n.length := Nat.pow_le_pow_left (by decide) _
    _ = 32 ^ (2 * n.length) := (Nat.pow_mul ..).symm
    _ ≤ 32 ^ (2 * n.length + 1) := Nat.pow_le_pow_right (by decide) (Nat.le_succ _)

/-- Digits read from the most significant one give the number they are the digits of. -/
theorem hornerC32_reverse (ds : List Nat) : hornerC32 0 ds.reverse = Nat.ofDigits 32 ds := by
  induction ds with
  | nil => rfl
  | cons d ds ih =>
    rw [List.reverse_cons, hornerC32, List.foldl_append, Nat.ofDigits_cons]
    show hornerC32 0 ds.reverse * 32 + d = _
    rw [ih]
    show Nat.ofDigits 32 ds * 32 + d = d + 32 * Nat.ofDigits 32 ds
    omega

/-- Most significant digit first, the digits give the number back. -/
theorem hornerC32_digits (n : Nat) : hornerC32 0 (Nat.digits 32 n).reverse = n := by
  rw [hornerC32_reverse, Nat.ofDigits_digits]

/-- Digits without a leading zero are those of their number. -/
theorem digits_hornerC32 {ds : List Nat} (hds : ∀ d ∈ ds, d < 32) (hfirst : ds.head? ≠ some 0) :
    (Nat.digits 32 (hornerC32 0 ds)).reverse = ds := by
  have hvalue := hornerC32_reverse ds.reverse
  rw [List.reverse_reverse] at hvalue
  rw [hvalue, Nat.digits_ofDigits 32 (by decide) _ fun d hd => hds d (List.mem_reverse.mp hd),
    List.reverse_reverse]
  -- the last of the reversed digits is the first one
  intro hne hzero
  rw [List.getLast_reverse] at hzero
  exact hfirst ((List.head?_eq_some_head _).trans (congrArg some hzero))

end StacksDex.Bridge
