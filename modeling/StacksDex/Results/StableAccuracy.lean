import Mathlib.Data.Nat.ModEq
import StacksDex.Bridge.CurveAccuracy
import StacksDex.Results.StableReserves

/-!
# StacksDex — stable quotes against the curve

As long as nothing saturates.

* `invariant_near_curve` — `get_d` ends within five thresholds of the invariant that the
  reserves have on the curve.
* `stable_quote_near_curve` — the reserve a V2 quote leaves is within a threshold and a few
  units of the curve through the invariant of `get_d`. What is paid may exceed what the curve
  pays by up to a native unit of the output token more, which is many of the precise units the
  curve is computed in.
* `stable_quote_monotone` — the more of an input the fees leave, the more is paid, up to a
  threshold and a native unit.

## The conditions

A pool is `Priced` when its midpoint and amplification are positive; `XWorthUnit` says that its
x reserve is worth a unit at the midpoint, `XForYFits` that nothing saturates in the quote of an
input, and `Reachable` that the loop of `get_y` can start from where it does. The results for a
sale of y are those for a sale of x to the pool with its sides exchanged (`mirrored`).

The curve is over the reals (`Newton.OnCurve`); how near the solvers come to it is in
`Bridge/CurveAccuracy.lean`.
-/

namespace StacksDex.Results

open StacksDex.Lib StacksDex.Model StacksDex.Bridge

/-! ## The invariant -/

/--
**`get_d` finds the invariant of the curve.** Where no operation of the loop saturates, the
threshold is at least 2 and the first reserve is at most `2 * threshold² * (2 * amp - 1)`
times the second, the loop ends because two iterates came within the threshold of each other,
never because its iterations ran out. The real root `D` of the curve equation then lies less
than one unit above the answer and at most `5 * threshold + 1` below it.
-/
theorem invariant_near_curve {x y amp threshold : Nat} (hx : 0 < x) (hy : 0 < y) (hamp : 1 ≤ amp)
    (ht : 2 ≤ threshold) (hratio : x ≤ 2 * threshold ^ 2 * (2 * amp - 1) * y)
    (hfits : GetDFits x y amp threshold) :
    ∃ d, getDExit x y amp threshold = .ok (d, .converged) ∧
      ∃ D : ℝ, 0 ≤ D ∧ Newton.OnCurve (2 * amp) x y D ∧ D < d + 1 ∧
        d ≤ D + 5 * threshold + 1 := by
  obtain ⟨a, ha, han⟩ := exists_an hamp
  have han' : 2 * amp = a + 1 := by
    unfold N_TOKENS at han
    omega
  have hless : 2 * amp - 1 = a := by omega
  obtain ⟨D, hroot⟩ := Newton.exists_cubicRoot a ((a + 1) * (x + y)) (4 * x * y)
  rw [hless] at hratio
  obtain ⟨d, hd, hlow, hhigh⟩ := getD_near hx hy ha ht han hratio hfits hroot
  refine ⟨d, hd, D, hroot.nonneg, ?_, hlow, hhigh⟩
  have hcast : (2 * amp : ℝ) = a + 1 := by exact_mod_cast han'
  rw [hcast]
  exact hroot.onCurve hx hy

/-- Reserves eight times apart, at the smallest amplification. -/
theorem invariant_near_curve_eightfold :
    ∃ d, getDExit 8000 1000 1 2 = .ok (d, .converged) ∧
      ∃ D : ℝ, 0 ≤ D ∧ Newton.OnCurve (2 * (1 : Nat)) (8000 : Nat) (1000 : Nat) D ∧ D < d + 1 ∧
        d ≤ D + 5 * (2 : Nat) + 1 :=
  invariant_near_curve (by decide) (by decide) (by decide) (by decide) (by decide)
    (by decide +kernel)

/-! ## Payouts -/

/-- Paying the difference in native units rounds up by less than one. -/
theorem payout_near {Y m n : Nat} {y t : ℝ} (hm : 0 < m) (hlow : y < n + 4)
    (hhigh : n ≤ y + t + 1) :
    (Y - (y + t + 1) / m : ℝ) ≤ (Y - n / m : Nat) ∧
      (Y - n / m = 0 ∨ ((Y - n / m : Nat) : ℝ) < Y - (y - (4 : Nat)) / m + 1) := by
  have hm' : (0 : ℝ) < m := by exact_mod_cast hm
  have hfloor : ((n / m : Nat) : ℝ) ≤ n / m := Nat.cast_div_le
  have hquot : (n : ℝ) < m * ((n / m : Nat) + 1) := by exact_mod_cast Nat.lt_mul_div_succ n hm
  have hhigh' : (n / m : ℝ) ≤ (y + t + 1) / m := by gcongr
  constructor
  · have hsub : (Y : ℝ) ≤ (Y - n / m : Nat) + (n / m : Nat) := by
      exact_mod_cast Nat.sub_le_iff_le_add.mp le_rfl
    linarith
  · rcases Nat.eq_zero_or_pos (Y - n / m) with hzero | hpos
    · exact Or.inl hzero
    · refine Or.inr ?_
      rw [Nat.cast_sub (by omega)]
      have hdiv : (y - (4 : Nat)) / m < (n / m : Nat) + 1 := by
        rw [div_lt_iff₀ hm']
        push_cast
        linarith
      linarith

/-- The reserve less what `get_y` leaves of it is near the curve through the invariant of
`get_d`. A unit of the reserve is `m` units of the curve. -/
theorem getY_pays {X dx Y m amp t : Nat} (hX : 0 < X) (hY : 0 < Y) (hm : 0 < m) (hamp : 1 ≤ amp)
    (ht : 1 ≤ t) (hfits : GetYFits dx X (Y * m) amp t)
    (hreach : (X + dx + 2 * amp) ^ 2 ≤ (2 * amp) ^ 2 * (4 * X * (Y * m))) :
    ∃ newYS, getY dx X (Y * m) amp t = .ok newYS ∧
      ∃ d, getD X (Y * m) amp t = .ok d ∧
        ∃ y : ℝ, 0 < y ∧ Newton.OnCurve (2 * amp : Nat) (X + dx : Nat) y d ∧
          Y - (y + t + 1) / m ≤ (Y - newYS / m : Nat) ∧
          (Y - newYS / m = 0 ∨ ((Y - newYS / m : Nat) : ℝ) < Y - (y - (4 : Nat)) / m + 1) := by
  obtain ⟨a, ha, han⟩ := exists_an hamp
  have han' : 2 * amp = a + 1 := by
    unfold N_TOKENS at han
    omega
  rw [han'] at hreach ⊢
  obtain ⟨d, newYS, hd, hnewYS, hdpos, hlow, hhigh⟩ :=
    getY_near hX (Nat.mul_pos hY hm) ha ht han hfits hreach
  have hX' : (0 : ℝ) < (X + dx : Nat) := by exact_mod_cast Nat.add_pos_left hX _
  have hanpos : (0 : ℝ) < (a + 1 : Nat) := by positivity
  have hdpos' : (0 : ℝ) < d := by exact_mod_cast hdpos
  obtain ⟨hbelow, habove⟩ := payout_near (Y := Y) hm hlow hhigh
  exact ⟨newYS, hnewYS, d, hd, Newton.curveRoot (a + 1 : Nat) (X + dx : Nat) d,
    Newton.curveRoot_pos hanpos hX' hdpos', Newton.curveRoot_onCurve hanpos hX' hdpos', hbelow,
    habove⟩

/-! ## Quotes -/

/-- The pool with its two sides exchanged. -/
def mirrored (pool : BitflowStableSwapV2Pool) : BitflowStableSwapV2Pool :=
  { pool with
    xToken := pool.yToken, yToken := pool.xToken
    xDecimals := pool.yDecimals, yDecimals := pool.xDecimals
    xBalance := pool.yBalance, yBalance := pool.xBalance
    xProtocolFeeBps := pool.yProtocolFeeBps, yProtocolFeeBps := pool.xProtocolFeeBps
    xProviderFeeBps := pool.yProviderFeeBps, yProviderFeeBps := pool.xProviderFeeBps
    midpointNum := pool.midpointDen, midpointDen := pool.midpointNum }

/-- A sale of y is a sale of x to the pool with its sides exchanged. -/
theorem quoteYForX_eq_mirrored (pool : BitflowStableSwapV2Pool) (dy : Nat) :
    pool.quoteYForX dy = (mirrored pool).quoteXForY dy := rfl

/-- What the fees leave of an input, scaled. -/
def netScaled (pool : BitflowStableSwapV2Pool) (dx : Nat) : Nat :=
  netInput (dx * scaleFactor pool.xDecimals pool.yDecimals) pool.xProtocolFeeBps
    pool.xProviderFeeBps

/-- The same at the midpoint, as the curve sees it. -/
def inputMid (pool : BitflowStableSwapV2Pool) (dx : Nat) : Nat :=
  netScaled pool dx * pool.midpointNum / pool.midpointDen

/-- The input reserve as the curve sees it. -/
def reserveMid (pool : BitflowStableSwapV2Pool) : Nat :=
  pool.xBalance * scaleFactor pool.xDecimals pool.yDecimals * pool.midpointNum / pool.midpointDen

/-- A unit of the output reserve, as the curve sees it. -/
def outputUnit (pool : BitflowStableSwapV2Pool) : Nat :=
  scaleFactor pool.yDecimals pool.xDecimals

/-- The curve is not too steep where the input leads. -/
def Reachable (pool : BitflowStableSwapV2Pool) (dx : Nat) : Prop :=
  (reserveMid pool + inputMid pool dx + 2 * pool.amp) ^ 2 ≤
    (2 * pool.amp) ^ 2 * (4 * reserveMid pool * (pool.yBalance * outputUnit pool))

/-- `dy` is what the curve through the pool's invariant pays for `dx`, up to the threshold and
a few units below it, and up to a native unit and a few more above it. -/
def NearCurve (pool : BitflowStableSwapV2Pool) (dx dy : Nat) : Prop :=
  ∃ d, getD (reserveMid pool) (pool.yBalance * outputUnit pool) pool.amp pool.threshold = .ok d ∧
    ∃ y : ℝ, 0 < y ∧
      Newton.OnCurve (2 * pool.amp : Nat) (reserveMid pool + inputMid pool dx : Nat) y d ∧
      pool.yBalance - (y + pool.threshold + 1) / outputUnit pool ≤ dy ∧
      (dy = 0 ∨ dy < pool.yBalance - (y - (4 : Nat)) / outputUnit pool + 1)

section Quote

variable {pool : BitflowStableSwapV2Pool}

/-- A quote of an open pool: the reserve less what the curve leaves of it. -/
theorem quoteXForY_eq (hopen : pool.poolStatus = true) (hx : 0 < pool.xBalance)
    (hy : 0 < pool.yBalance) (hden : 0 < pool.midpointDen) {dx : Nat} (hdx : 0 < dx)
    (hfits : XForYFits pool dx) (newYS : Nat)
    (hnewYS : getY (inputMid pool dx) (reserveMid pool) (pool.yBalance * outputUnit pool)
      pool.amp pool.threshold = .ok newYS) :
    pool.quoteXForY dx = .ok (pool.yBalance - newYS / outputUnit pool) := by
  unfold BitflowStableSwapV2Pool.quoteXForY
  rw [hopen]
  exact quoteAmountOut_eq hdx hx hy hden hfits newYS hnewYS

/-- A native unit is worth at least one precise unit. -/
theorem outputUnit_pos (pool : BitflowStableSwapV2Pool) : 0 < outputUnit pool :=
  scaleFactor_pos _ _

/-- One direction: what the quote pays is near what the curve pays. -/
theorem quoteXForY_near (hpriced : Priced pool) (hopen : pool.poolStatus = true)
    (hx : 0 < pool.xBalance) (hy : 0 < pool.yBalance) (hunit : XWorthUnit pool)
    (ht : 1 ≤ pool.threshold) {dx : Nat} (hdx : 0 < dx) (hfits : XForYFits pool dx)
    (hreach : Reachable pool dx) :
    ∃ dy, pool.quoteXForY dx = .ok dy ∧ NearCurve pool dx dy := by
  have hxMid : 0 < reserveMid pool := Nat.div_pos hunit hpriced.midpointDen
  obtain ⟨newYS, hnewYS, hpays⟩ :=
    getY_pays hxMid hy (outputUnit_pos pool) hpriced.amp ht hfits.solve hreach
  exact ⟨_, quoteXForY_eq hopen hx hy hpriced.midpointDen hdx hfits newYS hnewYS, hpays⟩

/--
**A V2 quote pays what the curve pays**, in both directions. The curve is the one at the
invariant `get_d` returns for the scaled reserves, and it is solved over the real numbers. The
payout is below the curve's by at most the threshold and one unit of the more precise side.
Unless it is zero, it is above the curve's by less than one native unit of the output token
and four units of the more precise side: the last division of the scaled payout by the
output's factor takes off a part of a native unit, and the solver's floor may leave the
reserve that much short. The pool is open and priced, both reserves are positive, the input
side is worth a unit at the midpoint, no operation saturates, and the curve is not too steep
where the input leads (`Reachable`).
-/
theorem stable_quote_near_curve (hpriced : Priced pool) (hopen : pool.poolStatus = true)
    (hx : 0 < pool.xBalance) (hy : 0 < pool.yBalance) (ht : 1 ≤ pool.threshold) :
    (XWorthUnit pool → ∀ dx, 0 < dx → XForYFits pool dx → Reachable pool dx →
      ∃ dy, pool.quoteXForY dx = .ok dy ∧ NearCurve pool dx dy) ∧
    (YWorthUnit pool → ∀ dy, 0 < dy → YForXFits pool dy → Reachable (mirrored pool) dy →
      ∃ dx, pool.quoteYForX dy = .ok dx ∧ NearCurve (mirrored pool) dy dx) := by
  constructor
  · intro hunit dx hdx hfits hreach
    exact quoteXForY_near hpriced hopen hx hy hunit ht hdx hfits hreach
  · intro hunit dy hdy hfits hreach
    have hpriced' : Priced (mirrored pool) :=
      ⟨hpriced.amp, hpriced.midpointDen, hpriced.midpointNum⟩
    rw [quoteYForX_eq_mirrored]
    exact quoteXForY_near hpriced' hopen hy hx hunit ht hdy hfits hreach

end Quote

/-- Ten STX for stSTX, and ten stSTX for STX. -/
theorem stable_quote_near_curve_stStx :
    (∃ dy, stStxPool.quoteXForY 10000000 = .ok dy ∧ NearCurve stStxPool 10000000 dy) ∧
      ∃ dx, stStxPool.quoteYForX 10000000 = .ok dx ∧
        NearCurve (mirrored stStxPool) 10000000 dx := by
  have hpriced : Priced stStxPool := ⟨by decide, by decide, by decide⟩
  obtain ⟨hxForY, hyForX⟩ := stable_quote_near_curve hpriced rfl (by decide) (by decide) (by decide)
  refine ⟨hxForY ?_ 10000000 (by decide) ?_ ?_, hyForX ?_ 10000000 (by decide) ?_ ?_⟩
  · unfold XWorthUnit
    decide +kernel
  · unfold XForYFits
    decide +kernel
  · unfold Reachable
    decide +kernel
  · unfold YWorthUnit
    decide +kernel
  · unfold YForXFits
    decide +kernel
  · unfold Reachable
    decide +kernel

section Quote

variable {pool : BitflowStableSwapV2Pool}

/-- Of two inputs to a sale of x that the solver can work with, the one that is larger net of
its fees is paid no less, up to what a threshold is worth and a unit for the rounding: `get_y`
stops within a threshold of the same fixed point for both, and the division by the output's
scale can lose one unit more. -/
theorem quoteXForY_monotone (hpriced : Priced pool) (hopen : pool.poolStatus = true)
    (hx : 0 < pool.xBalance) (hy : 0 < pool.yBalance) (hunit : XWorthUnit pool)
    (ht : 1 ≤ pool.threshold) {dx dx' : Nat} (hdx : 0 < dx) (hdx' : 0 < dx')
    (hfits : XForYFits pool dx) (hfits' : XForYFits pool dx')
    (hnet : netScaled pool dx ≤ netScaled pool dx') :
    ∃ dy dy', pool.quoteXForY dx = .ok dy ∧ pool.quoteXForY dx' = .ok dy' ∧
      dy ≤ dy' + (pool.threshold / outputUnit pool + 1) := by
  have hm := outputUnit_pos pool
  have hxMid : 0 < reserveMid pool := Nat.div_pos hunit hpriced.midpointDen
  -- both inputs go through the same midpoint
  have hinput : inputMid pool dx ≤ inputMid pool dx' :=
    Nat.div_le_div_right (Nat.mul_le_mul_right _ hnet)
  have hsolve : GetYFits (inputMid pool dx) (reserveMid pool) (pool.yBalance * outputUnit pool)
      pool.amp pool.threshold := hfits.solve
  have hsolve' : GetYFits (inputMid pool dx') (reserveMid pool) (pool.yBalance * outputUnit pool)
      pool.amp pool.threshold := hfits'.solve
  -- more input leaves a lower reserve, up to the threshold
  obtain ⟨newYS, newYS', hnewYS, hnewYS', hle⟩ :=
    getY_antitone hxMid (Nat.mul_pos hy hm) hpriced.amp ht hsolve hsolve' hinput
  refine ⟨_, _, quoteXForY_eq hopen hx hy hpriced.midpointDen hdx hfits newYS hnewYS,
    quoteXForY_eq hopen hx hy hpriced.midpointDen hdx' hfits' newYS' hnewYS', ?_⟩
  -- and the floor of the last division costs one unit more
  have hkept : newYS' / outputUnit pool ≤
      newYS / outputUnit pool + (pool.threshold / outputUnit pool + 1) :=
    calc newYS' / outputUnit pool ≤ (newYS + pool.threshold) / outputUnit pool :=
          Nat.div_le_div_right hle
      _ ≤ newYS / outputUnit pool + pool.threshold / outputUnit pool + 1 :=
          Nat.add_div_le_div_add_div_add_one ..
  generalize pool.threshold / outputUnit pool + 1 = slack at hkept ⊢
  omega

/--
**More net input is paid no less**, in both directions, less `threshold / unit + 1` native
units of the output, `unit` being the factor its balance is scaled by. The inputs are compared
net of their fees, because the two fees are rounded down one by one and a larger input can
leave less net of them. The pool is open and priced, with the input side worth a unit at the
midpoint, and no operation of the two quotes saturates: past that the solver's intermediate
products lose the order, and a larger input can be paid nothing.
-/
theorem stable_quote_monotone (hpriced : Priced pool) (hopen : pool.poolStatus = true)
    (hx : 0 < pool.xBalance) (hy : 0 < pool.yBalance) (ht : 1 ≤ pool.threshold) :
    (XWorthUnit pool → ∀ dx dx', 0 < dx → 0 < dx' → XForYFits pool dx → XForYFits pool dx' →
      netScaled pool dx ≤ netScaled pool dx' →
      ∃ dy dy', pool.quoteXForY dx = .ok dy ∧ pool.quoteXForY dx' = .ok dy' ∧
        dy ≤ dy' + (pool.threshold / outputUnit pool + 1)) ∧
    (YWorthUnit pool → ∀ dy dy', 0 < dy → 0 < dy' → YForXFits pool dy → YForXFits pool dy' →
      netScaled (mirrored pool) dy ≤ netScaled (mirrored pool) dy' →
      ∃ dx dx', pool.quoteYForX dy = .ok dx ∧ pool.quoteYForX dy' = .ok dx' ∧
        dx ≤ dx' + (pool.threshold / outputUnit (mirrored pool) + 1)) := by
  constructor
  · intro hunit dx dx' hdx hdx' hfits hfits' hnet
    exact quoteXForY_monotone hpriced hopen hx hy hunit ht hdx hdx' hfits hfits' hnet
  · intro hunit dy dy' hdy hdy' hfits hfits' hnet
    have hpriced' : Priced (mirrored pool) :=
      ⟨hpriced.amp, hpriced.midpointDen, hpriced.midpointNum⟩
    rw [quoteYForX_eq_mirrored, quoteYForX_eq_mirrored]
    exact quoteXForY_monotone hpriced' hopen hy hx hunit ht hdy hdy' hfits hfits' hnet

end Quote

/-- Ten STX and eleven, and ten stSTX and eleven. -/
theorem stable_quote_monotone_stStx :
    (∃ dy dy', stStxPool.quoteXForY 10000000 = .ok dy ∧ stStxPool.quoteXForY 11000000 = .ok dy' ∧
      dy ≤ dy' + (stStxPool.threshold / outputUnit stStxPool + 1)) ∧
    ∃ dx dx', stStxPool.quoteYForX 10000000 = .ok dx ∧ stStxPool.quoteYForX 11000000 = .ok dx' ∧
      dx ≤ dx' + (stStxPool.threshold / outputUnit (mirrored stStxPool) + 1) := by
  have hpriced : Priced stStxPool := ⟨by decide, by decide, by decide⟩
  obtain ⟨hxForY, hyForX⟩ := stable_quote_monotone hpriced rfl (by decide) (by decide) (by decide)
  refine ⟨hxForY ?_ 10000000 11000000 (by decide) (by decide) ?_ ?_ (by decide +kernel),
    hyForX ?_ 10000000 11000000 (by decide) (by decide) ?_ ?_ (by decide +kernel)⟩
  · unfold XWorthUnit
    decide +kernel
  · unfold XForYFits
    decide +kernel
  · unfold XForYFits
    decide +kernel
  · unfold YWorthUnit
    decide +kernel
  · unfold YForXFits
    decide +kernel
  · unfold YForXFits
    decide +kernel

end StacksDex.Results
