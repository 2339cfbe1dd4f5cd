import StacksDex.Results.StableAccuracy

/-!
# StacksDex — the two generations of stable pools

* `v1_quotes_are_v2_quotes` — a V1 quote with the fixed `get-y` is a V2 quote at midpoint one, and
  one with the double count is the same quote of a pool that has the input already. The input
  token has at least as many decimals as the output.
* `v1_quote_near_curve` — so both kinds pay what a curve pays, the second what the wrong one
  does. Here the decimals are arbitrary, and nothing saturates.

The curve is that of the reserves the solver is handed (`handedReserve`), at the invariant that
`get_d` returns for them. With the double count these are not the pool's reserves but those with
the input added once already, so what is paid is what that other curve pays.

Where the input token has fewer decimals, the V1 fee is taken off before scaling and the V2 fee
after it, and the two quotes are no longer the same; the second result covers this case on its
own.
-/

namespace StacksDex.Results

open StacksDex.Lib StacksDex.Model StacksDex.Bridge

/-! ## One generation as the other -/

/-- What `get_dy` takes off the input: a fee of the amount before it is scaled. -/
def v1Net (dxS dx feeTotalBps : Nat) : Nat := dxS - saturatingMul dx feeTotalBps / BPS

/-- The more precise side is not scaled, and the other is whatever it is. -/
theorem scaleUp_precise {xDp yDp : Nat} (hdp : yDp ≤ xDp) (y : Nat) :
    ∃ yS, ∀ x, scaleUp x y xDp yDp = .ok (x, yS) := by
  unfold scaleUp
  by_cases heq : xDp = yDp
  · exact ⟨y, fun x => if_pos heq⟩
  · refine ⟨saturatingMul y (saturatingPow 10 (xDp - yDp)), fun x => ?_⟩
    rw [if_neg heq, if_pos (by omega), decimalFactor_ok hdp, ok_bind]

section Generations

variable {dx xBalance yBalance xDecimals yDecimals feeTotalBps amp threshold : Nat}

/-- The fixed variant is the quote of a V2 pool whose tokens are worth the same and whose whole
fee is the protocol's. -/
theorem getDy_fixed (hdp : yDecimals ≤ xDecimals) (hdx : dx ≤ u128Max) (hx : xBalance ≤ u128Max) :
    BitflowStableSwapV1Pool.getDy dx xBalance yBalance xDecimals yDecimals feeTotalBps amp
      threshold .fixed =
    BitflowStableSwapV2Pool.quoteAmountOut dx xBalance yBalance xDecimals yDecimals feeTotalBps 0
      1 1 amp threshold := by
  have hbps : 0 < BPS := by decide
  unfold BitflowStableSwapV1Pool.getDy BitflowStableSwapV2Pool.quoteAmountOut
  by_cases hzero : dx = 0 ∨ xBalance = 0 ∨ yBalance = 0
  · rw [if_pos hzero, if_pos (by tauto)]
  rw [if_neg hzero, if_neg (by omega)]
  obtain ⟨byS, hreserves⟩ := scaleUp_precise hdp yBalance
  obtain ⟨rest, hinput⟩ := scaleUp_precise hdp 0
  -- nothing is lost at midpoint one
  have hmid : ∀ n ≤ u128Max, saturatingMul n 1 = n := by
    intro n hn
    rw [saturatingMul_of_le (by rwa [Nat.mul_one]), Nat.mul_one]
  have hnet : dx - saturatingMul dx feeTotalBps / BPS ≤ u128Max := (Nat.sub_le _ _).trans hdx
  have hfit := bps_fees_fit dx feeTotalBps 0
  have hnone : saturatingMul dx 0 / BPS = 0 := by
    rw [saturatingMul, Nat.mul_zero, Nat.zero_min, Nat.zero_div]
  rw [hnone] at hfit
  have hfee : u128Add true (saturatingMul dx feeTotalBps / BPS) 0 =
      .ok (saturatingMul dx feeTotalBps / BPS) := u128Add_ok hfit
  simp only [hreserves, hinput, ok_bind, u128Div_ok hbps, u128Div_ok Nat.one_pos, hnone, hfee,
    hmid _ hnet, hmid _ hx, Nat.div_one]

/-- The double count is the fixed quote of a pool that has the net input already. -/
theorem getDy_balBug (hdp : yDecimals ≤ xDecimals) (hx : 0 < xBalance) :
    BitflowStableSwapV1Pool.getDy dx xBalance yBalance xDecimals yDecimals feeTotalBps amp
      threshold .balBug =
    BitflowStableSwapV1Pool.getDy dx (saturatingAdd xBalance (v1Net dx dx feeTotalBps)) yBalance
      xDecimals yDecimals feeTotalBps amp threshold .fixed := by
  have hbps : 0 < BPS := by decide
  have hgrown : 0 < saturatingAdd xBalance (v1Net dx dx feeTotalBps) :=
    lt_min (by omega) (by decide)
  unfold BitflowStableSwapV1Pool.getDy
  by_cases hzero : dx = 0 ∨ xBalance = 0 ∨ yBalance = 0
  · rw [if_pos hzero, if_pos (by omega)]
  rw [if_neg hzero, if_neg (by omega)]
  obtain ⟨byS, hreserves⟩ := scaleUp_precise hdp yBalance
  obtain ⟨rest, hinput⟩ := scaleUp_precise hdp 0
  simp only [hreserves, hinput, ok_bind, u128Div_ok hbps, v1Net]

end Generations

/-- The pool with its two sides exchanged. -/
def v1Mirrored (pool : BitflowStableSwapV1Pool) : BitflowStableSwapV1Pool :=
  { pool with
    xToken := pool.yToken, yToken := pool.xToken
    xDecimals := pool.yDecimals, yDecimals := pool.xDecimals
    xBalance := pool.yBalance, yBalance := pool.xBalance
    buyFeeBps := pool.sellFeeBps, sellFeeBps := pool.buyFeeBps }

/-- A sale of y is a sale of x to the pool with its sides exchanged. -/
theorem v1_quoteYForX_eq_mirrored (pool : BitflowStableSwapV1Pool) (dy : Nat) :
    pool.quoteYForX dy = (v1Mirrored pool).quoteXForY dy := rfl

/-- A V2 pool with the reserves, tokens and fees of a V1 pool, at midpoint one. -/
def asV2 (core : Principal) (pool : BitflowStableSwapV1Pool) : BitflowStableSwapV2Pool where
  poolContract := pool.poolContract
  coreContract := core
  xToken := pool.xToken
  yToken := pool.yToken
  xDecimals := pool.xDecimals
  yDecimals := pool.yDecimals
  xBalance := pool.xBalance
  yBalance := pool.yBalance
  xProtocolFeeBps := pool.buyFeeBps
  xProviderFeeBps := 0
  yProtocolFeeBps := pool.sellFeeBps
  yProviderFeeBps := 0
  amp := pool.amp
  threshold := pool.threshold
  midpointNum := 1
  midpointDen := 1
  poolStatus := pool.approval
  lastTxId := pool.lastTxId

/-- The pool once the net input has come in. -/
def withInput (pool : BitflowStableSwapV1Pool) (dx : Nat) : BitflowStableSwapV1Pool :=
  { pool with xBalance := saturatingAdd pool.xBalance (v1Net dx dx pool.buyFeeBps) }

/-- What a quote takes for the pool's reserves. -/
def quotedAs (pool : BitflowStableSwapV1Pool) (dx : Nat) : BitflowStableSwapV1Pool :=
  match pool.variant with
  | .fixed => pool
  | .balBug => withInput pool dx

/-- A sale of x, as a quote of the V2 pool with the same reserves, or with the input in them. -/
theorem v1_quoteXForY_eq (pool : BitflowStableSwapV1Pool) (core : Principal)
    (hdp : pool.yDecimals ≤ pool.xDecimals) {dx : Nat} (hdx : dx ≤ u128Max)
    (hx : pool.xBalance ≤ u128Max) (hpos : 0 < pool.xBalance) :
    pool.quoteXForY dx = (asV2 core (quotedAs pool dx)).quoteXForY dx := by
  have hcapped : saturatingAdd pool.xBalance (v1Net dx dx pool.buyFeeBps) ≤ u128Max :=
    Nat.min_le_right _ _
  unfold BitflowStableSwapV1Pool.quoteXForY BitflowStableSwapV2Pool.quoteXForY quotedAs
  rcases pool.variant with _ | _
  · rw [getDy_balBug hdp hpos, getDy_fixed hdp hdx hcapped]
    rfl
  · rw [getDy_fixed hdp hdx hx]
    rfl

/--
**The V1 quotes are V2 quotes**, fault for fault and saturated or not. With the fixed `get-y`
they are those of the pool's own reserves at midpoint one, and with the double count those of
the reserves after the net input has come in. The V1 fee stands as the protocol fee there, and
decimals, amplification and threshold are the pool's. It takes positive reserves, all values
in `u128`, and an input token with at least as many decimals as the output: V1 computes the
fee from the unscaled amount and takes it from the scaled one, and only then are these two the
same.
-/
theorem v1_quotes_are_v2_quotes (pool : BitflowStableSwapV1Pool) (core : Principal) {amount : Nat}
    (hamount : amount ≤ u128Max) (hx : pool.xBalance ≤ u128Max) (hy : pool.yBalance ≤ u128Max)
    (hxpos : 0 < pool.xBalance) (hypos : 0 < pool.yBalance) :
    (pool.yDecimals ≤ pool.xDecimals →
      pool.quoteXForY amount = (asV2 core (quotedAs pool amount)).quoteXForY amount) ∧
    (pool.xDecimals ≤ pool.yDecimals →
      pool.quoteYForX amount =
        (asV2 core (quotedAs (v1Mirrored pool) amount)).quoteXForY amount) :=
  ⟨fun hdp => v1_quoteXForY_eq pool core hdp hamount hx hxpos,
    fun hdp => (v1_quoteYForX_eq_mirrored pool amount).trans
      (v1_quoteXForY_eq (v1Mirrored pool) core hdp hamount hy hypos)⟩

/-! ## Against the curve -/

/-- What the fee leaves of the scaled input. -/
def v1NetScaled (pool : BitflowStableSwapV1Pool) (dx : Nat) : Nat :=
  dx * scaleFactor pool.xDecimals pool.yDecimals - dx * pool.buyFeeBps / BPS

/-- The reserve that `get_y` is handed. -/
def handedReserve (pool : BitflowStableSwapV1Pool) (dx : Nat) : Nat :=
  match pool.variant with
  | .fixed => pool.xBalance * scaleFactor pool.xDecimals pool.yDecimals
  | .balBug => pool.xBalance * scaleFactor pool.xDecimals pool.yDecimals + v1NetScaled pool dx

def v1OutputUnit (pool : BitflowStableSwapV1Pool) : Nat :=
  scaleFactor pool.yDecimals pool.xDecimals

/-- No operation of the quote saturates. -/
structure V1Fits (pool : BitflowStableSwapV1Pool) (dx : Nat) : Prop where
  xFactor : scaleFactor pool.xDecimals pool.yDecimals ≤ u128Max
  yFactor : scaleFactor pool.yDecimals pool.xDecimals ≤ u128Max
  xReserve : pool.xBalance * scaleFactor pool.xDecimals pool.yDecimals ≤ u128Max
  yReserve : pool.yBalance * scaleFactor pool.yDecimals pool.xDecimals ≤ u128Max
  input : dx * scaleFactor pool.xDecimals pool.yDecimals ≤ u128Max
  fee : dx * pool.buyFeeBps ≤ u128Max
  handed : handedReserve pool dx ≤ u128Max
  solve : GetYFits (v1NetScaled pool dx) (handedReserve pool dx)
    (pool.yBalance * v1OutputUnit pool) pool.amp pool.threshold

/-- The curve is not too steep where the input leads. -/
def V1Reachable (pool : BitflowStableSwapV1Pool) (dx : Nat) : Prop :=
  (handedReserve pool dx + v1NetScaled pool dx + 2 * pool.amp) ^ 2 ≤
    (2 * pool.amp) ^ 2 * (4 * handedReserve pool dx * (pool.yBalance * v1OutputUnit pool))

/-- `dy` is what the curve through the handed reserves pays for `dx`, up to the threshold and a
few units below it, and up to a native unit and a few more above it. -/
def V1NearCurve (pool : BitflowStableSwapV1Pool) (dx dy : Nat) : Prop :=
  ∃ d, getD (handedReserve pool dx) (pool.yBalance * v1OutputUnit pool) pool.amp pool.threshold =
      .ok d ∧
    ∃ y : ℝ, 0 < y ∧
      Newton.OnCurve (2 * pool.amp : Nat) (handedReserve pool dx + v1NetScaled pool dx : Nat) y d ∧
      pool.yBalance - (y + pool.threshold + 1) / v1OutputUnit pool ≤ dy ∧
      (dy = 0 ∨ dy < pool.yBalance - (y - (4 : Nat)) / v1OutputUnit pool + 1)

section Curve

variable {pool : BitflowStableSwapV1Pool}

/-- A quote of an approved pool: the reserve less what the curve leaves of it. -/
theorem v1_quoteXForY_of_fits (happroved : pool.approval = true) (hx : 0 < pool.xBalance)
    (hy : 0 < pool.yBalance) {dx : Nat} (hdx : 0 < dx) (hfits : V1Fits pool dx) (newYS : Nat)
    (hnewYS : getY (v1NetScaled pool dx) (handedReserve pool dx)
      (pool.yBalance * v1OutputUnit pool) pool.amp pool.threshold = .ok newYS) :
    pool.quoteXForY dx = .ok (pool.yBalance - newYS / v1OutputUnit pool) := by
  have hzero : ¬ (dx = 0 ∨ pool.xBalance = 0 ∨ pool.yBalance = 0) := by omega
  have hbps : 0 < BPS := by decide
  -- the scaling of a missing side is no bother
  have hnothing : 0 * scaleFactor pool.yDecimals pool.xDecimals ≤ u128Max := by
    rw [Nat.zero_mul]
    exact Nat.zero_le _
  have hhanded := hfits.handed
  unfold handedReserve at hhanded hnewYS
  -- nothing saturates, so each operation is the one of the integers
  unfold BitflowStableSwapV1Pool.quoteXForY BitflowStableSwapV1Pool.getDy
  rw [happroved]
  simp only [Bool.not_true, Bool.false_eq_true, if_false, if_neg hzero,
    scaleUp_eq hfits.xFactor hfits.yFactor hfits.xReserve hfits.yReserve,
    scaleUp_eq hfits.xFactor hfits.yFactor hfits.input hnothing, ok_bind,
    saturatingMul_of_le hfits.fee, u128Div_ok hbps]
  have hpaid : ∀ handed, getY (v1NetScaled pool dx) handed (pool.yBalance * v1OutputUnit pool)
      pool.amp pool.threshold = .ok newYS →
      (do
        let newYScaled ← getY (v1NetScaled pool dx) handed (pool.yBalance * v1OutputUnit pool)
          pool.amp pool.threshold
        let kept ← scaleDown 0 newYScaled pool.xDecimals pool.yDecimals
        .ok (pool.yBalance - kept.2)) =
      (.ok (pool.yBalance - newYS / v1OutputUnit pool) : Except Fault Nat) := by
    intro handed h
    rw [h, ok_bind, scaleDown_eq hfits.xFactor hfits.yFactor, ok_bind]
    rfl
  -- the two variants differ in the reserve they hand over
  rcases hvariant : pool.variant with _ | _
  · rw [hvariant] at hhanded hnewYS
    have hsum : saturatingAdd (pool.xBalance * scaleFactor pool.xDecimals pool.yDecimals)
        (v1NetScaled pool dx) = _ := Nat.min_eq_left hhanded
    rw [← hsum] at hnewYS
    exact hpaid _ hnewYS
  · rw [hvariant] at hnewYS
    exact hpaid _ hnewYS

variable (pool) in
/-- One direction: what the quote pays is near what the curve it is given pays. -/
theorem v1_quoteXForY_near (happroved : pool.approval = true) (hamp : 1 ≤ pool.amp)
    (hx : 0 < pool.xBalance) (hy : 0 < pool.yBalance) (ht : 1 ≤ pool.threshold) {dx : Nat}
    (hdx : 0 < dx) (hfits : V1Fits pool dx) (hreach : V1Reachable pool dx) :
    ∃ dy, pool.quoteXForY dx = .ok dy ∧ V1NearCurve pool dx dy := by
  have hscaled : 0 < pool.xBalance * scaleFactor pool.xDecimals pool.yDecimals :=
    Nat.mul_pos hx (scaleFactor_pos _ _)
  have hhanded : 0 < handedReserve pool dx := by
    unfold handedReserve
    rcases pool.variant with _ | _
    · exact Nat.add_pos_left hscaled _
    · exact hscaled
  obtain ⟨newYS, hnewYS, hpays⟩ :=
    getY_pays hhanded hy (scaleFactor_pos _ _) hamp ht hfits.solve hreach
  exact ⟨_, v1_quoteXForY_of_fits happroved hx hy hdx hfits newYS hnewYS, hpays⟩

/--
**A V1 quote pays what its curve pays**, in both directions and for any decimals. The curve is
the one at the invariant `get_d` returns, which is that of the pool's reserves, or with the
double count that of the reserves after the input, and it is solved over the real numbers. The
quote is below the curve's payout by at most the threshold and a few units, and unless it is
zero, above it by less than a native unit and a few more (`V1NearCurve`). The pool is
approved, reserves, amplification and threshold are positive, nothing saturates (`V1Fits`),
and the curve is not too steep where the input leads (`V1Reachable`).
-/
theorem v1_quote_near_curve (happroved : pool.approval = true) (hamp : 1 ≤ pool.amp)
    (hx : 0 < pool.xBalance) (hy : 0 < pool.yBalance) (ht : 1 ≤ pool.threshold) :
    (∀ dx, 0 < dx → V1Fits pool dx → V1Reachable pool dx →
      ∃ dy, pool.quoteXForY dx = .ok dy ∧ V1NearCurve pool dx dy) ∧
    (∀ dy, 0 < dy → V1Fits (v1Mirrored pool) dy → V1Reachable (v1Mirrored pool) dy →
      ∃ dx, pool.quoteYForX dy = .ok dx ∧ V1NearCurve (v1Mirrored pool) dy dx) :=
  ⟨fun _ hdx hfits hreach => v1_quoteXForY_near pool happroved hamp hx hy ht hdx hfits hreach,
    fun _ hdy hfits hreach => v1_quoteXForY_near (v1Mirrored pool) happroved hamp hy hx ht hdy
      hfits hreach⟩

end Curve

/-- A STX/stSTX pool of the first kind. -/
def stStxV1Pool : BitflowStableSwapV1Pool where
  poolContract := deployed "stableswap-stx-ststx-v-1-2"
  lpToken := deployed "stx-ststx-lp-token-v-1-2"
  xToken := deployed "stx"
  yToken := deployed "ststx"
  xDecimals := 6
  yDecimals := 6
  xBalance := 1000000000000
  yBalance := 1171000000000
  amp := 100
  threshold := 2
  buyFeeBps := 5
  sellFeeBps := 5
  sig := .stxAnchored
  variant := .balBug
  approval := true
  lastTxId := none

/-- Five thousand STX, with the double count. -/
theorem v1_quotes_are_v2_quotes_stStx :
    stStxV1Pool.quoteXForY 5000000000 =
      (asV2 (deployed "stableswap-core") (withInput stStxV1Pool 5000000000)).quoteXForY
        5000000000 :=
  (v1_quotes_are_v2_quotes stStxV1Pool (deployed "stableswap-core") (by decide) (by decide)
    (by decide) (by decide) (by decide)).1 (by decide)

instance (pool : BitflowStableSwapV1Pool) (dx : Nat) : Decidable (V1Fits pool dx) :=
  decidable_of_iff
    ((scaleFactor pool.xDecimals pool.yDecimals ≤ u128Max ∧
        scaleFactor pool.yDecimals pool.xDecimals ≤ u128Max ∧
        pool.xBalance * scaleFactor pool.xDecimals pool.yDecimals ≤ u128Max ∧
        pool.yBalance * scaleFactor pool.yDecimals pool.xDecimals ≤ u128Max) ∧
      (dx * scaleFactor pool.xDecimals pool.yDecimals ≤ u128Max ∧
        dx * pool.buyFeeBps ≤ u128Max ∧ handedReserve pool dx ≤ u128Max) ∧
      GetYFits (v1NetScaled pool dx) (handedReserve pool dx)
        (pool.yBalance * v1OutputUnit pool) pool.amp pool.threshold)
    ⟨fun ⟨⟨h₁, h₂, h₃, h₄⟩, ⟨h₅, h₆, h₇⟩, h₈⟩ => ⟨h₁, h₂, h₃, h₄, h₅, h₆, h₇, h₈⟩,
      fun h => ⟨⟨h.xFactor, h.yFactor, h.xReserve, h.yReserve⟩, ⟨h.input, h.fee, h.handed⟩,
        h.solve⟩⟩

/-- Five thousand STX for stSTX, and back. -/
theorem v1_quote_near_curve_stStx :
    (∃ dy, stStxV1Pool.quoteXForY 5000000000 = .ok dy ∧ V1NearCurve stStxV1Pool 5000000000 dy) ∧
    ∃ dx, stStxV1Pool.quoteYForX 5000000000 = .ok dx ∧
      V1NearCurve (v1Mirrored stStxV1Pool) 5000000000 dx := by
  obtain ⟨hxForY, hyForX⟩ :=
    v1_quote_near_curve (show stStxV1Pool.approval = true from rfl) (by decide) (by decide)
      (by decide) (by decide)
  refine ⟨hxForY 5000000000 (by decide) (by decide +kernel) ?_,
    hyForX 5000000000 (by decide) (by decide +kernel) ?_⟩
  · unfold V1Reachable
    decide +kernel
  · unfold V1Reachable
    decide +kernel

example : stStxV1Pool.quoteXForY 5000000000 = .ok 5004907045 := by decide +kernel

end StacksDex.Results
