import Mathlib.Data.Nat.Basic
import Mathlib.Order.Basic
import Mathlib.Tactic.Ring

/-!
# Lib — rounding in integer pricing

Floor and ceiling divisions as an exchange uses them: an amount is priced up
(`ceilDiv`), grossed up for a proportional fee (`grossUp`), and the fee is then
taken off again with a floor. The facts that make such a chain lossless are
`grossUp_sub_fee` (taking the fee off a grossed-up amount gives the net amount
back) and `le_div_of_ceilDiv` (the input priced up for an output pays for it).
A fee that is rounded once, either way, leaves more of a larger amount
(`sub_fee_mono`, `sub_ceil_mono`); two fees floored apart may leave one unit less
(`lessTwoFees_le_succ`), but not of an amount that is enough larger.
-/

namespace StacksDex.Lib.Rounding

/-- Division rounded up. -/
def ceilDiv (a b : Nat) : Nat := (a + b - 1) / b

/-- Rounding up is enough: `ceilDiv a b` units of size `b` cover `a`. -/
theorem le_ceilDiv_mul (a : Nat) {b : Nat} (hb : 0 < b) : a ≤ ceilDiv a b * b := by
  have hfloor : a + b - 1 < (a + b - 1) / b * b + b := Nat.lt_div_mul_add hb
  show a ≤ (a + b - 1) / b * b
  omega

/-- Only nothing is priced at nothing, since the division rounds up. -/
theorem ceilDiv_eq_zero {a b : Nat} (hb : 0 < b) : ceilDiv a b = 0 ↔ a = 0 := by
  rw [ceilDiv, Nat.div_eq_zero_iff]
  omega

/-- The input priced up for an output pays for that output: converted back at the same rate, and
floored, it gives at least the output it was priced for. -/
theorem le_div_of_ceilDiv {out inRate outRate : Nat} (hin : 0 < inRate) (hout : 0 < outRate) :
    out ≤ ceilDiv (out * inRate) outRate * outRate / inRate :=
  (Nat.le_div_iff_mul_le hin).mpr (le_ceilDiv_mul _ hout)

/-- The gross amount whose net, after a fee of `fee / scale`, is `net`. -/
def grossUp (net scale fee : Nat) : Nat := net * scale / (scale - fee)

/-- Without a fee the gross amount is the net amount. -/
theorem grossUp_zero_fee {net scale : Nat} (hscale : 0 < scale) : grossUp net scale 0 = net := by
  rw [grossUp, Nat.sub_zero, Nat.mul_div_cancel _ hscale]

/-- A gross amount is zero only for a zero net amount, however large the fee: the floor never
takes the last unit, because one unit of net input already fills the divisor. -/
theorem grossUp_eq_zero {net scale fee : Nat} (hfee : fee < scale) :
    grossUp net scale fee = 0 ↔ net = 0 := by
  rw [grossUp, Nat.div_eq_zero_iff]
  constructor
  · rintro (h | h)
    · omega
    · by_contra hnet
      -- one unit of net input already fills the divisor
      have : 1 * scale ≤ net * scale := Nat.mul_le_mul_right _ (Nat.pos_of_ne_zero hnet)
      omega
  · rintro rfl
    right
    omega

/-- A floored proportional fee is at most the amount. -/
theorem fee_le {amount scale fee : Nat} (hfee : fee < scale) : amount * fee / scale ≤ amount :=
  Nat.div_le_of_le_mul (by rw [Nat.mul_comm scale]; exact Nat.mul_le_mul_left _ hfee.le)

/-- More gross input leaves at least as much net input, also where the fee's product is
capped at `top`. -/
theorem sub_fee_mono {a b scale fee : Nat} (hfee : fee < scale) (hab : a ≤ b) (top : Nat) :
    a - min (a * fee) top / scale ≤ b - min (b * fee) top / scale := by
  obtain ⟨k, rfl⟩ := Nat.exists_eq_add_of_le hab
  have hscale : 0 < scale := by omega
  -- the fee grows by at most the extra input
  have hgrow : min ((a + k) * fee) top ≤ min (a * fee) top + k * scale := by
    have hk : k * fee ≤ k * scale := Nat.mul_le_mul_left _ hfee.le
    rw [Nat.add_mul]
    omega
  have hfees : min ((a + k) * fee) top / scale ≤ min (a * fee) top / scale + k :=
    calc min ((a + k) * fee) top / scale
        ≤ (min (a * fee) top + k * scale) / scale := Nat.div_le_div_right hgrow
      _ = min (a * fee) top / scale + k := Nat.add_mul_div_right _ _ hscale
  omega

/-- More gross input leaves at least as much net input when the fee is rounded up, for any rate
up to the whole scale. -/
theorem sub_ceil_mono {a b scale rate : Nat} (hscale : 0 < scale) (hrate : rate ≤ scale)
    (hab : a ≤ b) : a - ceilDiv (a * rate) scale ≤ b - ceilDiv (b * rate) scale := by
  obtain ⟨k, rfl⟩ := Nat.exists_eq_add_of_le hab
  have hfees : ceilDiv ((a + k) * rate) scale ≤ ceilDiv (a * rate) scale + k :=
    calc ((a + k) * rate + scale - 1) / scale
        ≤ (a * rate + scale - 1 + k * scale) / scale := by
          have hk : k * rate ≤ k * scale := Nat.mul_le_mul_left _ hrate
          rw [Nat.add_mul]
          exact Nat.div_le_div_right (by omega)
      _ = (a * rate + scale - 1) / scale + k := Nat.add_mul_div_right _ _ hscale
  omega

/-- What two fees leave that are floored apart. -/
def lessTwoFees (amount scale p q : Nat) : Nat :=
  amount - (amount * p / scale + amount * q / scale)

section TwoFees

variable {scale p q : Nat}

/-- The two floors by the exact fees: each loses less than one unit. -/
theorem floors_growth (hscale : 0 < scale) (a k : Nat) :
    scale * ((a + k) * p / scale + (a + k) * q / scale) + 2 ≤
      scale * (a * p / scale + a * q / scale) + 2 * scale + k * (p + q) := by
  have hp := Nat.div_mul_le_self ((a + k) * p) scale
  have hq := Nat.div_mul_le_self ((a + k) * q) scale
  have hp' : a * p < a * p / scale * scale + scale := Nat.lt_div_mul_add hscale
  have hq' : a * q < a * q / scale * scale + scale := Nat.lt_div_mul_add hscale
  have hleft : scale * ((a + k) * p / scale + (a + k) * q / scale) =
      (a + k) * p / scale * scale + (a + k) * q / scale * scale := by ring
  have hright : scale * (a * p / scale + a * q / scale) =
      a * p / scale * scale + a * q / scale * scale := by ring
  have hsplit : (a + k) * p + (a + k) * q = a * p + a * q + k * (p + q) := by ring
  omega

/-- **Two floors cost at most one unit**: more input leaves at least as much, but one. -/
theorem lessTwoFees_le_succ (hscale : 0 < scale) (hpq : p + q ≤ scale) {a b : Nat} (hab : a ≤ b) :
    lessTwoFees a scale p q ≤ lessTwoFees b scale p q + 1 := by
  obtain ⟨k, rfl⟩ := Nat.exists_eq_add_of_le hab
  have hgrowth := floors_growth (p := p) (q := q) hscale a k
  have hk : k * (p + q) ≤ k * scale := Nat.mul_le_mul_left _ hpq
  unfold lessTwoFees
  generalize (a + k) * p / scale + (a + k) * q / scale = fees' at hgrowth ⊢
  generalize a * p / scale + a * q / scale = fees at hgrowth ⊢
  have hlt : scale * fees' < scale * (fees + k + 2) := by
    have hexpand : scale * (fees + k + 2) = scale * fees + k * scale + 2 * scale := by ring
    omega
  have := Nat.lt_of_mul_lt_mul_left hlt
  omega

/-- Enough more input makes up for that unit. -/
theorem lessTwoFees_mono_of_gap (hscale : 0 < scale) (hpq : p + q ≤ scale) {a b : Nat}
    (hab : a ≤ b) (hgap : scale ≤ (b - a) * (scale - (p + q))) :
    lessTwoFees a scale p q ≤ lessTwoFees b scale p q := by
  obtain ⟨k, rfl⟩ := Nat.exists_eq_add_of_le hab
  obtain ⟨keep, rfl⟩ := Nat.exists_eq_add_of_le hpq
  rw [Nat.add_sub_cancel_left, Nat.add_sub_cancel_left] at hgap
  have hgrowth := floors_growth (p := p) (q := q) hscale a k
  unfold lessTwoFees
  generalize hscale' : p + q + keep = scale at hgrowth hgap ⊢
  generalize (a + k) * p / scale + (a + k) * q / scale = fees' at hgrowth ⊢
  generalize a * p / scale + a * q / scale = fees at hgrowth ⊢
  have hlt : scale * fees' < scale * (fees + k + 1) := by
    have hexpand : scale * (fees + k + 1) = scale * fees + k * scale + scale := by ring
    have hk : k * scale = k * (p + q) + k * keep := by rw [← hscale']; ring
    omega
  have := Nat.lt_of_mul_lt_mul_left hlt
  omega

/-- One fee alone is floored once, and costs nothing. -/
theorem lessTwoFees_mono_of_single (hscale : 0 < scale) (hpq : p + q ≤ scale)
    (hsingle : p = 0 ∨ q = 0) {a b : Nat} (hab : a ≤ b) :
    lessTwoFees a scale p q ≤ lessTwoFees b scale p q := by
  obtain ⟨k, rfl⟩ := Nat.exists_eq_add_of_le hab
  have hone : ∀ {r : Nat}, r ≤ scale → (a + k) * r / scale ≤ a * r / scale + k := by
    intro r hr
    have hk : k * r ≤ k * scale := Nat.mul_le_mul_left _ hr
    calc (a + k) * r / scale
        ≤ (a * r + k * scale) / scale := Nat.div_le_div_right (by rw [Nat.add_mul]; omega)
      _ = a * r / scale + k := Nat.add_mul_div_right _ _ hscale
  unfold lessTwoFees
  rcases hsingle with rfl | rfl
  · have := hone (r := q) (by omega)
    simp only [Nat.mul_zero, Nat.zero_div]
    omega
  · have := hone (r := p) (by omega)
    simp only [Nat.mul_zero, Nat.zero_div]
    omega

end TwoFees

/-- **Grossing up is exact.** The floored fee on the grossed-up amount leaves exactly the
net amount. -/
theorem grossUp_sub_fee {net scale fee : Nat} (hfee : fee < scale) :
    grossUp net scale fee - grossUp net scale fee * fee / scale = net := by
  obtain ⟨keep, rfl⟩ : ∃ keep, scale = fee + keep := ⟨scale - fee, by omega⟩
  have hkeep : 0 < keep := by omega
  generalize hg : grossUp net (fee + keep) fee = g
  rw [grossUp, Nat.add_sub_cancel_left] at hg
  -- `g` is the floor of the exact gross amount …
  have hlow : g * keep ≤ net * (fee + keep) := by
    rw [← hg]
    exact Nat.div_mul_le_self _ _
  have hhigh : net * (fee + keep) < g * keep + keep := by
    rw [← hg]
    exact Nat.lt_div_mul_add hkeep
  -- … and `q` the floor of the exact fee on it
  generalize hq : g * fee / (fee + keep) = q
  have hqlow : q * (fee + keep) ≤ g * fee := by
    rw [← hq]
    exact Nat.div_mul_le_self _ _
  have hqhigh : g * fee < q * (fee + keep) + (fee + keep) := by
    rw [← hq]
    exact Nat.lt_div_mul_add (by omega)
  have hsplit : g * (fee + keep) = g * fee + g * keep := Nat.mul_add ..
  -- a gap in either direction would be a multiple of the whole scale
  have hge : net + q ≤ g := by
    by_contra hlt
    have hmul : (g + 1) * (fee + keep) ≤ (net + q) * (fee + keep) :=
      Nat.mul_le_mul_right _ (by omega)
    rw [Nat.add_mul, Nat.add_mul] at hmul
    omega
  have hle : g ≤ net + q := by
    by_contra hgt
    have hmul : (net + q + 1) * (fee + keep) ≤ g * (fee + keep) :=
      Nat.mul_le_mul_right _ (by omega)
    rw [Nat.add_mul, Nat.add_mul] at hmul
    omega
  omega

end StacksDex.Lib.Rounding
