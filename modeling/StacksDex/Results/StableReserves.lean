import StacksDex.Bridge.CurveReserves
import StacksDex.Lib.Run
import StacksDex.Results.Isolation

/-!
# StacksDex — a stable quote and the reserve it pays from

Every event keeps the amplification of a V2 pool, and a positive midpoint too unless it
sets the numerator to zero. In a pool that any run of other events leads to, no quote of an
input up to its reserve pays the whole other reserve, as long as

* the input reserve is worth a unit at the midpoint, and
* the output reserve has at least twelve native units per unit of amplification.

On smaller reserves the floors of `get_y` can reach zero: `stable_quote_drains`.

## The argument

`Priced.step` and `Priced.exec` are the run: what the quotes need of a pool is kept by every
event that does not set the midpoint's numerator to zero. The quotes themselves are a matter of
where the loop of `get_y` may end (`Bridge/CurveReserves.lean`): a whole native unit, scaled,
lies left of the root of its equation, and the loop never lands left of such a point.
-/

namespace StacksDex.Results

open StacksDex.Lib StacksDex.Model StacksDex.Bridge

/-! ## Runs of events -/

/-- One event; a refused one changes nothing. -/
def stableStep (pool : BitflowStableSwapV2Pool) (event : StacksEvent) : BitflowStableSwapV2Pool :=
  (pool.apply event).getD pool

/-- The event sets the midpoint of the pool, with numerator zero. -/
def ZeroesMidpoint (pool : BitflowStableSwapV2Pool) (event : StacksEvent) : Prop :=
  event.action = "set-midpoint" ∧ event.dataPrincipal "pool-contract" = some pool.poolContract ∧
    event.dataUint "midpoint-numerator" = some 0 ∧
    ∃ den, event.dataUint "midpoint-denominator" = some den ∧ den ≠ 0

/-- What the curve needs of a pool besides its reserves. -/
structure Priced (pool : BitflowStableSwapV2Pool) : Prop where
  amp : 1 ≤ pool.amp
  midpointNum : 0 < pool.midpointNum
  midpointDen : 0 < pool.midpointDen

/-- What an applied event does: it writes the reserves, or the midpoint. -/
theorem apply_cases {pool next : BitflowStableSwapV2Pool} {event : StacksEvent}
    (h : pool.apply event = some next) :
    (∃ bx by', next =
      { pool with xBalance := bx, yBalance := by', lastTxId := some event.txId }) ∨
    (event.action = "set-midpoint" ∧
      event.dataPrincipal "pool-contract" = some pool.poolContract ∧
      ∃ num den, event.dataUint "midpoint-numerator" = some num ∧
        event.dataUint "midpoint-denominator" = some den ∧ den ≠ 0 ∧ next =
        { pool with midpointNum := num, midpointDen := den, lastTxId := some event.txId }) := by
  unfold BitflowStableSwapV2Pool.apply at h
  split at h
  -- `update-pool-balances` writes the two reserves and nothing else
  · obtain ⟨bx, -, h⟩ := Option.bind_eq_some_iff.mp h
    obtain ⟨by', -, h⟩ := Option.bind_eq_some_iff.mp h
    exact Or.inl ⟨bx, by', (Option.some.inj h).symm⟩
  -- `set-midpoint` for another pool, or with a zero denominator, is turned away
  · next haction =>
    obtain ⟨p, hp, h⟩ := Option.bind_eq_some_iff.mp h
    by_cases hforeign : p ≠ pool.poolContract
    · rw [if_pos hforeign] at h
      exact absurd h (Option.some_ne_none next).symm
    rw [if_neg hforeign] at h
    obtain ⟨num, hnum, h⟩ := Option.bind_eq_some_iff.mp h
    obtain ⟨den, hden, h⟩ := Option.bind_eq_some_iff.mp h
    by_cases hzero : den = 0
    · rw [if_pos hzero] at h
      exact absurd h (Option.some_ne_none next).symm
    rw [if_neg hzero] at h
    obtain rfl : p = pool.poolContract := not_not.mp hforeign
    exact Or.inr ⟨haction, hp, num, den, hnum, hden, hzero, (Option.some.inj h).symm⟩
  · exact absurd h (Option.some_ne_none next).symm

/-- **One event** keeps a pool priced. -/
theorem Priced.step {pool : BitflowStableSwapV2Pool} {event : StacksEvent} (h : Priced pool)
    (hevent : ¬ ZeroesMidpoint pool event) : Priced (stableStep pool event) := by
  unfold stableStep
  rcases happly : pool.apply event with _ | next
  · exact h
  rw [Option.getD_some]
  rcases apply_cases happly with
    ⟨bx, by', rfl⟩ | ⟨haction, hpool, num, den, hnum, hden, hpos, rfl⟩
  · exact ⟨h.amp, h.midpointNum, h.midpointDen⟩
  · refine ⟨h.amp, Nat.pos_of_ne_zero ?_, Nat.pos_of_ne_zero hpos⟩
    rintro rfl
    exact hevent ⟨haction, hpool, hnum, den, hden, hpos⟩

/-- **A run** keeps it priced. -/
theorem Priced.exec {pool : BitflowStableSwapV2Pool} {events : List StacksEvent}
    (h : Priced pool)
    (hevents : Run.Along stableStep (fun p event => ¬ ZeroesMidpoint p event) pool events) :
    Priced (Run.exec stableStep pool events) :=
  (Run.always_of_along (fun _ _ hp he => hp.step he) h hevents).last

/-! ## Quotes -/

/-- No operation of the quote saturates. -/
def XForYFits (pool : BitflowStableSwapV2Pool) (dx : Nat) : Prop :=
  QuoteFits dx pool.xBalance pool.yBalance pool.xDecimals pool.yDecimals pool.xProtocolFeeBps
    pool.xProviderFeeBps pool.midpointNum pool.midpointDen pool.amp pool.threshold

def YForXFits (pool : BitflowStableSwapV2Pool) (dy : Nat) : Prop :=
  QuoteFits dy pool.yBalance pool.xBalance pool.yDecimals pool.xDecimals pool.yProtocolFeeBps
    pool.yProviderFeeBps pool.midpointDen pool.midpointNum pool.amp pool.threshold

/-- Each reserve, scaled and at its direction's midpoint, is worth a unit. -/
def XWorthUnit (pool : BitflowStableSwapV2Pool) : Prop :=
  pool.midpointDen ≤
    pool.xBalance * scaleFactor pool.xDecimals pool.yDecimals * pool.midpointNum

def YWorthUnit (pool : BitflowStableSwapV2Pool) : Prop :=
  pool.midpointNum ≤
    pool.yBalance * scaleFactor pool.yDecimals pool.xDecimals * pool.midpointDen

/-- A sale of x to a priced pool whose y reserve is deep leaves some of it. -/
theorem Priced.quoteXForY_lt {pool : BitflowStableSwapV2Pool} (h : Priced pool)
    (hx : 0 < pool.xBalance) (hy : 0 < pool.yBalance) (hunit : XWorthUnit pool)
    (hdeep : 12 * pool.amp ≤ pool.yBalance) {dx : Nat} (hdx : dx ≤ pool.xBalance)
    (hfits : XForYFits pool dx) : ∃ dy, pool.quoteXForY dx = .ok dy ∧ dy < pool.yBalance := by
  unfold BitflowStableSwapV2Pool.quoteXForY
  rcases pool.poolStatus
  · exact ⟨0, rfl, hy⟩
  · exact quoteAmountOut_lt hdx hx hy h.midpointDen h.amp hunit hdeep hfits

/-- A sale of y likewise, with the sides exchanged. -/
theorem Priced.quoteYForX_lt {pool : BitflowStableSwapV2Pool} (h : Priced pool)
    (hx : 0 < pool.xBalance) (hy : 0 < pool.yBalance) (hunit : YWorthUnit pool)
    (hdeep : 12 * pool.amp ≤ pool.xBalance) {dy : Nat} (hdy : dy ≤ pool.yBalance)
    (hfits : YForXFits pool dy) : ∃ dx, pool.quoteYForX dy = .ok dx ∧ dx < pool.xBalance := by
  unfold BitflowStableSwapV2Pool.quoteYForX
  rcases pool.poolStatus
  · exact ⟨0, rfl, hx⟩
  · exact quoteAmountOut_lt hdy hy hx h.midpointNum h.amp hunit hdeep hfits

/--
**A stable quote never pays out a deep reserve.** After any run of events that leaves the
midpoint positive, a sale of up to the reserve of the token that comes in is answered with
less than the reserve of the other token, as long as that reserve has at least `12 * amp`
native units, the input side is worth a unit at the midpoint and no operation saturates. Below
such a depth the floor of the solver can reach zero, and then the whole reserve is paid out.
-/
theorem stable_quote_leaves_reserve {pool : BitflowStableSwapV2Pool} {events : List StacksEvent}
    (hpriced : Priced pool)
    (hevents : Run.Along stableStep (fun p event => ¬ ZeroesMidpoint p event) pool events)
    {after : BitflowStableSwapV2Pool} (hafter : Run.exec stableStep pool events = after)
    (hx : 0 < after.xBalance) (hy : 0 < after.yBalance) :
    (XWorthUnit after → 12 * after.amp ≤ after.yBalance → ∀ dx ≤ after.xBalance,
      XForYFits after dx → ∃ dy, after.quoteXForY dx = .ok dy ∧ dy < after.yBalance) ∧
    (YWorthUnit after → 12 * after.amp ≤ after.xBalance → ∀ dy ≤ after.yBalance,
      YForXFits after dy → ∃ dx, after.quoteYForX dy = .ok dx ∧ dx < after.xBalance) := by
  have hkept : Priced after := hafter ▸ hpriced.exec hevents
  constructor
  · intro hunit hdeep dx hdx hfits
    exact hkept.quoteXForY_lt hx hy hunit hdeep hdx hfits
  · intro hunit hdeep dy hdy hfits
    exact hkept.quoteYForX_lt hx hy hunit hdeep hdy hfits

/-- The STX/stSTX pair, with its midpoint. -/
def stStxPool : BitflowStableSwapV2Pool where
  poolContract := deployed "stableswap-pool-stx-ststx"
  coreContract := deployed "stableswap-core"
  xToken := deployed "stx"
  yToken := deployed "ststx"
  xDecimals := 6
  yDecimals := 6
  xBalance := 1140098015048
  yBalance := 1730142819600
  xProtocolFeeBps := 4
  xProviderFeeBps := 6
  yProtocolFeeBps := 4
  yProviderFeeBps := 6
  amp := 100
  threshold := 2
  midpointNum := 1000000
  midpointDen := 1172209
  poolStatus := true
  lastTxId := none

/-- The pool's contract reports new reserves. -/
def updateBalances (x y : BitVec 128) : StacksEvent where
  emitter := deployed "stableswap-pool-stx-ststx"
  txId := "0x01"
  eventIndex := 0
  action := "update-pool-balances"
  data := [("x-balance", .uint x), ("y-balance", .uint y)]

/-- Both whole reserves, quoted after the pool has become small. -/
theorem stable_quote_leaves_reserve_small :
    (∃ dy, ({ stStxPool with
        xBalance := 2000000, yBalance := 3000000, lastTxId := some "0x01" } :
          BitflowStableSwapV2Pool).quoteXForY 2000000 = .ok dy ∧ dy < 3000000) ∧
    ∃ dx, ({ stStxPool with
        xBalance := 2000000, yBalance := 3000000, lastTxId := some "0x01" } :
          BitflowStableSwapV2Pool).quoteYForX 3000000 = .ok dx ∧ dx < 2000000 := by
  have hpriced : Priced stStxPool := ⟨by decide, by decide, by decide⟩
  have hevents : Run.Along stableStep (fun p event => ¬ ZeroesMidpoint p event) stStxPool
      [updateBalances 2000000 3000000] := ⟨fun h => absurd h.1 (by decide), trivial⟩
  obtain ⟨hxForY, hyForX⟩ := stable_quote_leaves_reserve hpriced hevents rfl (by decide)
    (by decide)
  refine ⟨hxForY ?_ (by decide) 2000000 le_rfl ?_, hyForX ?_ (by decide) 3000000 le_rfl ?_⟩
  · unfold XWorthUnit
    decide +kernel
  · unfold XForYFits
    decide +kernel
  · unfold YWorthUnit
    decide +kernel
  · unfold YForXFits
    decide +kernel

/-- With no more than dust left, the whole of it is quoted for the other reserve. -/
theorem stable_quote_drains :
    ¬ ∀ (pool : BitflowStableSwapV2Pool) (events : List StacksEvent),
      0 < pool.midpointNum → 0 < pool.midpointDen → 1 ≤ pool.amp → 0 < pool.xBalance →
      0 < pool.yBalance → 0 < (Run.exec stableStep pool events).xBalance →
      0 < (Run.exec stableStep pool events).yBalance →
      (∀ dx ≤ (Run.exec stableStep pool events).xBalance,
        XForYFits (Run.exec stableStep pool events) dx →
        ∀ dy, (Run.exec stableStep pool events).quoteXForY dx = .ok dy →
          dy < (Run.exec stableStep pool events).yBalance) ∧
      (∀ dy ≤ (Run.exec stableStep pool events).yBalance,
        YForXFits (Run.exec stableStep pool events) dy →
        ∀ dx, (Run.exec stableStep pool events).quoteYForX dy = .ok dx →
          dx < (Run.exec stableStep pool events).xBalance) := by
  intro hall
  obtain ⟨hxForY, -⟩ := hall stStxPool [updateBalances 766 158] (by decide) (by decide)
    (by decide) (by decide) (by decide) (by decide) (by decide)
  have hfits : XForYFits (Run.exec stableStep stStxPool [updateBalances 766 158]) 766 := by
    unfold XForYFits
    decide +kernel
  have hquote : (Run.exec stableStep stStxPool [updateBalances 766 158]).quoteXForY 766 =
      .ok 158 := by decide +kernel
  exact absurd (hxForY 766 (by decide) hfits 158 hquote) (by decide)

end StacksDex.Results
