import StacksDex.Bridge.ClarityTuples

/-!
# StacksDex — the decoder never panics

Every access of `cv_decode` to the buffer stands behind the check that covers it, so
malformed input of any kind is an `Err`. A nested call starts behind the tag that makes
it, and the two loops only move on, so the argument goes by the bytes that are left.

`NoPanic` passes along sequences (`NoPanic.bind`), so each function of the decoder has one
lemma, with the condition on the buffer its caller has tested. The readers come first, then
the two loops over a nested decoder that is safe from an offset on, then one level of the
value, and the whole by induction on the nesting bound.
-/

namespace StacksDex.Bridge

open StacksDex.Lib StacksDex.Model

/-! ## Computations that do not panic -/

/-- A value or an `Err`. -/
def NoPanic {α : Type} (x : Except Fault α) : Prop := ∀ msg, x ≠ .error (.panic msg)

/-- A value is no panic. -/
theorem NoPanic.ok {α : Type} (a : α) : NoPanic (.ok a : Except Fault α) := by
  rintro msg ⟨⟩

/-- Nor is an `Err`. -/
theorem NoPanic.err {α : Type} (msg : String) : NoPanic (.error (.err msg) : Except Fault α) := by
  rintro msg' ⟨⟩

/-- A sequence does not panic if its steps do not. The second step only has to be safe for what
the first returns. -/
theorem NoPanic.bind {α β : Type} {x : Except Fault α} {f : α → Except Fault β}
    (hx : NoPanic x) (hf : ∀ a, x = .ok a → NoPanic (f a)) : NoPanic (x >>= f) := by
  rcases x with fault | a
  · intro msg h
    exact hx msg (by rw [Except.error.inj h])
  · exact hf a rfl

/-- What neither panics nor returns a value is an `Err`. -/
theorem NoPanic.exists_err {α : Type} {x : Except Fault α} (hx : NoPanic x)
    (hnot : ∀ a, x ≠ .ok a) : ∃ msg, x = .error (.err msg) := by
  rcases x with (msg | msg) | a
  · exact ⟨msg, rfl⟩
  · exact absurd rfl (hx msg)
  · exact absurd rfl (hnot a)

/-! ## The readers -/

variable {buf : List UInt8}

/-- Reading a byte inside the buffer. -/
theorem byteAt_noPanic {i : Nat} (h : i < buf.length) : NoPanic (byteAt buf i) := by
  rw [byteAt, List.getElem?_eq_getElem h]
  exact .ok _

/-- Reading a slice inside the buffer. -/
theorem slice_noPanic {a n : Nat} (h : a + n ≤ buf.length) : NoPanic (slice buf a n) := by
  rw [slice, if_pos h]
  exact .ok _

/-- Bytes that are no text are an `Err`. -/
theorem utf8_noPanic (msg : String) (bytes : List UInt8) : NoPanic (utf8 msg bytes) := by
  unfold utf8
  rcases fromUtf8 bytes with _ | s
  · exact .err msg
  · exact .ok s

/-- The length is tested before the bytes are read. -/
theorem readInteger_noPanic (short : String) (off : Nat) :
    NoPanic (readInteger buf short off) := by
  unfold readInteger
  split_ifs
  · exact .err short
  · exact .bind (slice_noPanic (by omega)) fun _ _ => .ok _

/-- Both lengths are tested, the header's and the body's. -/
theorem readBlock_noPanic (header : String) (body : Nat → String) (off : Nat) :
    NoPanic (readBlock buf header body off) := by
  unfold readBlock
  split_ifs
  · exact .err header
  refine .bind (slice_noPanic (by omega)) fun l _ => ?_
  dsimp only
  split_ifs
  · exact .err _
  · exact .bind (slice_noPanic (by omega)) fun _ _ => .ok _

/-- An address inside the buffer; the caller has tested its length. -/
theorem readAddress_noPanic {off : Nat} (h : off + 21 ≤ buf.length) :
    NoPanic (readAddress buf off) := by
  refine .bind (byteAt_noPanic (by omega)) fun version _ => ?_
  refine .bind (slice_noPanic (by omega)) fun bytes hbytes => ?_
  -- twenty bytes were read, so they fill the hash
  rw [dif_pos (slice_eq_ok.mp hbytes).2]
  exact .ok _

/-- The string branches: a block, then its text. -/
theorem readText_noPanic {header msg : String} {body : Nat → String}
    {wrap : String → ClarityValue} (off : Nat) :
    NoPanic (do
      let r ← readBlock buf header body off
      let s ← utf8 msg r.1
      .ok (wrap s, r.2)) :=
  .bind (readBlock_noPanic _ _ _) fun _ _ => .bind (utf8_noPanic _ _) fun _ _ => .ok _

/-! ## The decoder -/

section Nested

variable {ins : Fields → String → ClarityValue → Fields}
  {dec : Nat → Except Fault (ClarityValue × Nat)} {base : Nat}
  (hdec : ∀ o, base ≤ o → NoPanic (dec o))
  (hstep : ∀ {o v n}, dec o = .ok (v, n) → o ≤ n)

include hdec hstep

/-- The loop over items, with a decoder that is safe from `base` on: every item ends behind its
start, so the loop stays in the safe part. -/
theorem decodeItems_noPanic {cnt o : Nat} (ho : base ≤ o) (acc : List ClarityValue) :
    NoPanic (decodeItems dec cnt o acc) := by
  induction cnt generalizing o acc with
  | zero => exact .ok _
  | succ cnt ih =>
    -- the next item starts where this one stops
    exact .bind (hdec o ho) fun r hr => ih (ho.trans (hstep hr)) _

/-- The loop over fields; the name in front of a value moves on, too. -/
theorem decodeFields_noPanic {cnt o : Nat} (ho : base ≤ o) (acc : Fields) :
    NoPanic (decodeFields ins dec buf cnt o acc) := by
  induction cnt generalizing o acc with
  | zero => exact .ok _
  | succ cnt ih =>
    rw [decodeFields]
    split_ifs with hend
    · exact .err _
    refine .bind (byteAt_noPanic (by omega)) fun b _ => ?_
    dsimp only
    split_ifs
    · exact .err _
    refine .bind (slice_noPanic (by omega)) fun bytes _ => ?_
    refine .bind (utf8_noPanic _ _) fun name _ => ?_
    -- the value stands behind the name
    have hvalue : base ≤ o + 1 + b.toNat := by omega
    exact .bind (hdec _ hvalue) fun r hr => ih (hvalue.trans (hstep hr)) _

/-- One value behind its tag, branch by branch. -/
theorem decodeTagged_noPanic {off : Nat} (hoff : base ≤ off) (tag : UInt8) :
    NoPanic (decodeTagged ins dec buf tag off) := by
  unfold decodeTagged
  split
  -- int, uint and buffer
  · exact .bind (readInteger_noPanic _ _) fun _ _ => .ok _
  · exact .bind (readInteger_noPanic _ _) fun _ _ => .ok _
  · exact .bind (readBlock_noPanic _ _ _) fun _ _ => .ok _
  · exact .ok _
  · exact .ok _
  -- the two principals
  · split_ifs
    · exact .err _
    · exact .bind (readAddress_noPanic (by omega)) fun _ _ => .ok _
  · split_ifs
    · exact .err _
    refine .bind (readAddress_noPanic (by omega)) fun a _ => ?_
    refine .bind (byteAt_noPanic (by omega)) fun b _ => ?_
    dsimp only
    split_ifs
    · exact .err _
    refine .bind (slice_noPanic (by omega)) fun bytes _ => ?_
    exact .bind (utf8_noPanic _ _) fun _ _ => .ok _
  -- ok, err, none and some
  · exact .bind (hdec off hoff) fun _ _ => .ok _
  · exact .bind (hdec off hoff) fun _ _ => .ok _
  · exact .ok _
  · exact .bind (hdec off hoff) fun _ _ => .ok _
  -- list and tuple: the count, then as many nested values
  · split_ifs
    · exact .err _
    refine .bind (slice_noPanic (by omega)) fun l _ => ?_
    exact .bind (decodeItems_noPanic hdec hstep (by omega) _) fun _ _ => .ok _
  · split_ifs
    · exact .err _
    refine .bind (slice_noPanic (by omega)) fun l _ => ?_
    exact .bind (decodeFields_noPanic hdec hstep (by omega) _) fun _ _ => .ok _
  -- the two strings, and a tag that is none
  · exact readText_noPanic off
  · exact readText_noPanic off
  · exact .err _

end Nested

/-- **`cv_decode` never panics.** -/
theorem cvDecode_noPanic (buf : List UInt8) (off : Nat) : NoPanic (cvDecode buf off) := by
  -- by the bytes behind the offset
  induction hleft : buf.length - off using Nat.strong_induction_on generalizing off with
  | h left ih =>
    rw [cvDecode_body, decodeBody]
    split_ifs with hend
    · exact .err _
    refine .bind (byteAt_noPanic (by omega)) fun tag _ => ?_
    have hnested : ∀ o, off + 1 ≤ o → NoPanic (cvDecode buf o) := by
      intro o ho
      exact ih (buf.length - o) (by omega) o rfl
    exact decodeTagged_noPanic hnested decodeFuel_stop le_rfl tag

end StacksDex.Bridge
