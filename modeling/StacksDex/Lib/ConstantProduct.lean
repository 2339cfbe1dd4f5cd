import Mathlib.Tactic.Ring

/-!
# Lib — constant-product trades

A pool holds two reserves. A trade pays `dx` into one and takes `dy` out of the other.
`Fair` says that what it takes is at most the constant-product price of some net input
`net ≤ dx`: whatever a venue keeps as a fee, and however it rounds, is in that inequality.

* `Fair.out_lt` — a fair trade never empties the reserve it takes from;
* `Fair.product_le` — a fair trade never lowers the product of the reserves;
* `fair_of_floor` — a quotient rounded down, of a numerator that may have been cut, is fair;
* `out_mono` — the quotient rounded down grows with the net input;
* `capped_le` — cut numerator and denominator as one may, it never exceeds the reserve.

The numbers are natural numbers without a bound. What a machine word does to them enters
through the cuts: `min (a * b) top` for a saturating product, and the side condition that a
sum fits where the code adds without saturating.
-/

namespace StacksDex.Lib.ConstantProduct

/-- What is taken is worth at most some net part of what is paid. -/
def Fair (reserveIn reserveOut dx dy : Nat) : Prop :=
  ∃ net, net ≤ dx ∧ dy * (reserveIn + net) ≤ reserveOut * net

/-- Taking nothing is fair, whatever is paid. -/
theorem fair_zero (reserveIn reserveOut dx : Nat) : Fair reserveIn reserveOut dx 0 :=
  ⟨0, Nat.zero_le _, by simp⟩

/-- A floored quote is fair, also with a numerator that is too small: a product that saturates
lowers the quotient, which is to the pool's advantage. -/
theorem fair_of_floor {reserveIn reserveOut dx net num : Nat} (hnet : net ≤ dx)
    (hnum : num ≤ reserveOut * net) :
    Fair reserveIn reserveOut dx (num / (reserveIn + net)) :=
  ⟨net, hnet, (Nat.div_mul_le_self _ _).trans hnum⟩

/-- A fair trade leaves something of the reserve it takes from: the price of the last unit is
never reached, as the other reserve would have to be infinite. -/
theorem Fair.out_lt {reserveIn reserveOut dx dy : Nat} (h : Fair reserveIn reserveOut dx dy)
    (hin : 0 < reserveIn) (hout : 0 < reserveOut) : dy < reserveOut := by
  obtain ⟨net, -, hvalue⟩ := h
  by_contra hge
  -- taking the whole reserve would cost more than any input buys
  have hall : reserveOut * (reserveIn + net) ≤ reserveOut * net :=
    (Nat.mul_le_mul_right _ (not_lt.mp hge)).trans hvalue
  have hle := Nat.le_of_mul_le_mul_left hall hout
  omega

/-- **A fair trade keeps the product.** The net input pays for the output at the
constant-product price, and whatever of the gross input is not net input only makes the product
larger. -/
theorem Fair.product_le {reserveIn reserveOut dx dy : Nat} (h : Fair reserveIn reserveOut dx dy)
    (hin : 0 < reserveIn) (hout : 0 < reserveOut) :
    reserveIn * reserveOut ≤ (reserveIn + dx) * (reserveOut - dy) := by
  have hlt := h.out_lt hin hout
  obtain ⟨net, hnet, hvalue⟩ := h
  obtain ⟨rest, rfl⟩ := Nat.exists_eq_add_of_lt hlt
  have hkeep : dy + rest + 1 - dy = rest + 1 := by omega
  rw [hkeep]
  -- the net input alone already pays for what is taken
  calc reserveIn * (dy + rest + 1)
      ≤ (reserveIn + net) * (rest + 1) := by
        have hsplit : (dy + rest + 1) * net = dy * net + (rest + 1) * net := by ring
        have hprice : dy * (reserveIn + net) = reserveIn * dy + dy * net := by ring
        have hpaid : reserveIn * dy ≤ (rest + 1) * net := by omega
        have hleft : reserveIn * (dy + rest + 1) = reserveIn * dy + reserveIn * (rest + 1) := by
          ring
        have hright : (reserveIn + net) * (rest + 1) =
            (rest + 1) * net + reserveIn * (rest + 1) := by ring
        omega
    _ ≤ (reserveIn + dx) * (rest + 1) :=
        Nat.mul_le_mul_right _ (Nat.add_le_add_left hnet _)

/-! ## The floored quotient -/

/-- What a net input buys, rounded down. -/
def out (reserveIn reserveOut net : Nat) : Nat := reserveOut * net / (reserveIn + net)

/-- No net input buys nothing. -/
theorem out_zero (reserveIn reserveOut : Nat) : out reserveIn reserveOut 0 = 0 := by
  rw [out, Nat.mul_zero, Nat.zero_div]

/-- The quotient is a fraction of the reserve below one. -/
theorem out_le (reserveIn reserveOut net : Nat) : out reserveIn reserveOut net ≤ reserveOut := by
  refine Nat.div_le_of_le_mul ?_
  rw [Nat.mul_comm]
  exact Nat.mul_le_mul_right _ (Nat.le_add_left ..)

/-- **More net input never buys less.** Numerator and denominator both grow, and the numerator
by more. -/
theorem out_mono {reserveIn : Nat} (hin : 0 < reserveIn) (reserveOut : Nat) {a b : Nat}
    (hab : a ≤ b) : out reserveIn reserveOut a ≤ out reserveIn reserveOut b := by
  obtain ⟨k, rfl⟩ := Nat.exists_eq_add_of_le hab
  have hall := out_le reserveIn reserveOut a
  have hfloor : out reserveIn reserveOut a * (reserveIn + a) ≤ reserveOut * a :=
    Nat.div_mul_le_self _ _
  refine (Nat.le_div_iff_mul_le (by omega)).mpr ?_
  -- every unit more is worth at most the reserve, and the quotient is no more than that
  calc out reserveIn reserveOut a * (reserveIn + (a + k))
      = out reserveIn reserveOut a * (reserveIn + a) + out reserveIn reserveOut a * k := by ring
    _ ≤ reserveOut * a + reserveOut * k := Nat.add_le_add hfloor (Nat.mul_le_mul_right _ hall)
    _ = reserveOut * (a + k) := by ring

/-- A quotient whose numerator and denominator are cut at `top`, each for itself, still does not
exceed the reserve: a cut denominator is `top`, and the numerator is at most that. -/
theorem capped_le {reserveIn reserveOut net top : Nat} (hout : 0 < reserveOut) :
    min (reserveOut * net) top / min (reserveIn + net) top ≤ reserveOut := by
  rcases Nat.le_total (reserveIn + net) top with hle | hge
  · rw [Nat.min_eq_left hle]
    exact (Nat.div_le_div_right (Nat.min_le_left _ _)).trans (out_le reserveIn reserveOut net)
  · -- a cut denominator is no smaller than the numerator
    rw [Nat.min_eq_right hge]
    exact (Nat.div_le_of_le_mul (by rw [Nat.mul_one]; exact Nat.min_le_right _ _)).trans hout

end StacksDex.Lib.ConstantProduct
