import Mathlib.Data.List.Basic
import Mathlib.Data.List.Infix

/-!
# Lib — what sits where in a buffer

`SitsAt buf off x` says that the elements `x` occupy `buf` from offset `off` on. A
parser that threads offsets is described by such facts alone: `sitsAt_append`
splits a frame into consecutive pieces, and `SitsAt.take` recovers a piece as the
slice between its offsets.

* soundness of a decoder is a statement of the form "if it accepts, an encoding of
  its result sits between the two offsets", proved by gluing pieces together;
* completeness is the converse, proved by taking a frame apart;
* locality and truncation are `SitsAt.congr` and `SitsAt.of_take`: only what lies
  between the offsets matters.

The element type is arbitrary. Offsets past the end are allowed and hold nothing,
not even the empty piece, so a bound on the end of a piece never has to be carried
beside the fact that it sits there (`SitsAt.le`).
-/

namespace StacksDex.Lib

variable {α : Type*} {buf x y : List α} {off n : Nat}

/-- The list `x` occupies `buf` from offset `off` on. -/
def SitsAt (buf : List α) (off : Nat) (x : List α) : Prop :=
  off ≤ buf.length ∧ x <+: buf.drop off

/-- What sits in a buffer ends within it. -/
theorem SitsAt.le (h : SitsAt buf off x) : off + x.length ≤ buf.length := by
  have hlen := h.2.length_le
  have hoff := h.1
  rw [List.length_drop] at hlen
  omega

/-- The piece is the slice between its offsets, so a parser that takes the slice has the piece. -/
theorem SitsAt.take (h : SitsAt buf off x) : (buf.drop off).take x.length = x :=
  (List.prefix_iff_eq_take.mp h.2).symm

/-- The empty piece sits at every offset up to the end, and at none past it. -/
theorem sitsAt_nil : SitsAt buf off ([] : List α) ↔ off ≤ buf.length :=
  ⟨fun h => h.1, fun h => ⟨h, List.nil_prefix⟩⟩

/-- Consecutive pieces: a frame sits where its first part does with its second part right
behind. This is how an encoding that is written part by part is met by a decoder that reads part
by part. -/
theorem sitsAt_append :
    SitsAt buf off (x ++ y) ↔ SitsAt buf off x ∧ SitsAt buf (off + x.length) y := by
  constructor
  · intro h
    have hle := h.le
    rw [List.length_append] at hle
    obtain ⟨t, ht⟩ := h.2
    refine ⟨⟨h.1, y ++ t, by rw [← ht, List.append_assoc]⟩, by omega, t, ?_⟩
    rw [← List.drop_drop, ← ht, List.append_assoc, List.drop_left]
  -- what follows `y` is what follows the whole frame
  · rintro ⟨⟨hoff, s, hs⟩, -, t, ht⟩
    rw [← List.drop_drop, ← hs, List.drop_left] at ht
    exact ⟨hoff, t, by rw [List.append_assoc, ht, hs]⟩

/-- The first element is at the offset and the rest right behind. -/
theorem sitsAt_cons {a : α} :
    SitsAt buf off (a :: x) ↔ buf[off]? = some a ∧ SitsAt buf (off + 1) x := by
  rw [show a :: x = [a] ++ x from rfl, sitsAt_append]
  refine and_congr_left ?_
  intro _
  constructor
  · rintro ⟨-, t, ht⟩
    have := congrArg (·[0]?) ht
    simpa using this.symm
  · intro h
    obtain ⟨hlt, heq⟩ := List.getElem?_eq_some_iff.mp h
    refine ⟨hlt.le, buf.drop (off + 1), ?_⟩
    rw [List.drop_eq_getElem_cons hlt, heq]
    rfl

/-- The slice between two offsets inside the buffer sits at the first one: the converse of
`SitsAt.take`. -/
theorem sitsAt_slice (h : off + n ≤ buf.length) :
    SitsAt buf off ((buf.drop off).take n) :=
  ⟨by omega, List.take_prefix ..⟩

/-- A slice within the buffer has its nominal length. -/
theorem length_slice (h : off + n ≤ buf.length) : ((buf.drop off).take n).length = n := by
  rw [List.length_take, List.length_drop]
  omega

/-- Position by position: the reading of `SitsAt` that arguments about single bytes use. -/
theorem sitsAt_iff_getElem? :
    SitsAt buf off x ↔ off ≤ buf.length ∧ ∀ i < x.length, buf[off + i]? = x[i]? := by
  unfold SitsAt
  refine and_congr_right ?_
  intro _
  rw [List.prefix_iff_getElem?]
  constructor
  · intro h i hi
    rw [← List.getElem?_drop, h i hi, List.getElem?_eq_getElem hi]
  · intro h i hi
    rw [List.getElem?_drop, h i hi, List.getElem?_eq_getElem hi]

/-- Another buffer with the same elements there holds the same piece. What a parser returns thus
depends on the bytes it has looked at alone. -/
theorem SitsAt.congr {buf' : List α} (h : SitsAt buf off x) (hoff : off ≤ buf'.length)
    (hsame : ∀ i, off ≤ i → i < off + x.length → buf'[i]? = buf[i]?) : SitsAt buf' off x := by
  obtain ⟨-, hget⟩ := sitsAt_iff_getElem?.mp h
  refine sitsAt_iff_getElem?.mpr ⟨hoff, ?_⟩
  intro i hi
  rw [hsame (off + i) (by omega) (by omega), hget i hi]

/-- What sits in the front of a buffer sits in the buffer. -/
theorem SitsAt.of_take {m : Nat} (h : SitsAt (buf.take m) off x) : SitsAt buf off x := by
  obtain ⟨hoff, hpre⟩ := h
  rw [List.length_take] at hoff
  refine ⟨by omega, hpre.trans ?_⟩
  rw [List.drop_take]
  exact List.take_prefix ..

/-- A piece between two others sits behind the first of them. -/
theorem sitsAt_frame (pre post : List α) : SitsAt (pre ++ x ++ post) pre.length x := by
  refine ⟨by simp, post, ?_⟩
  rw [List.append_assoc, List.drop_left]

end StacksDex.Lib
