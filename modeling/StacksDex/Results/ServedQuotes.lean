import StacksDex.Bridge.Builds
import StacksDex.Results.BlockMirror
import StacksDex.Results.FeeSafety
import StacksDex.Results.Inventory
import StacksDex.Results.StableQuotes
import StacksDex.Results.V2Quotes

/-!
# StacksDex — the quotes a consumer is served

`calculate_output` over all kinds of pools.

* `calculate_output_answers_iff` — in a build with overflow checks it answers for the pool's two
  tokens only, for these always but where a DLMM pool's fees eat the whole input or a Bitflow XYK
  sum overflows, and it never promises more than the mirror holds of the other token; a build
  without the checks gives the same answer to every question so answered.
* `served_quotes_are_the_chains` — in a run in which nothing is lost on the way, whenever the
  block-walking collector has caught up, every pool answers every such question as the pool on
  the chain would.

The first has a condition for each kind of pool (`Fillable`), which is always met by five of
the seven. Where it fails the checked build panics, and an unchecked one may answer anything;
nothing is said about that.

The second adds what a consumer sees to what `Results/BlockMirror.lean` says of the mirror, and
has its conditions. A quote does not depend on the stamps, which are all in which the two
pools may differ.
-/

namespace StacksDex.Results

open StacksDex.Lib StacksDex.Model StacksDex.Bridge

/-! ## Which way, and from what -/

/-- The direction a sale of the token takes. -/
def directionOf (pool : Pool) (tokenIn : Principal) : Option Direction :=
  if tokenIn = pool.tokens.1 then some .xForY
  else if tokenIn = pool.tokens.2 then some .yForX
  else none

/-- A pool contains a token when it can be sold to it in some direction. -/
theorem containsToken_iff {pool : Pool} {token : Principal} :
    pool.containsToken token = true ↔ ∃ d, directionOf pool token = some d := by
  by_cases hx : token = pool.tokens.1
  · exact ⟨fun _ => ⟨.xForY, if_pos hx⟩, fun _ => decide_eq_true (.inl hx)⟩
  by_cases hy : token = pool.tokens.2
  · exact ⟨fun _ => ⟨.yForX, (if_neg hx).trans (if_pos hy)⟩, fun _ => decide_eq_true (.inr hy)⟩
  · refine ⟨fun h => absurd (of_decide_eq_true h) (not_or.mpr ⟨hx, hy⟩), fun ⟨d, h⟩ => ?_⟩
    rw [directionOf, if_neg hx, if_neg hy] at h
    cases h

/-- The quote of a direction, in a build with or without overflow checks. -/
def quoteIn (checks : Bool) : Pool → Direction → Nat → Except Fault Nat
  | .dlmm p, d => fun amount => do
    let q ← p.quote checks d amount
    .ok q.1
  | .arkadiko p, .xForY => p.quoteXForY
  | .arkadiko p, .yForX => p.quoteYForX
  | .velar p, .xForY => p.quoteXForY
  | .velar p, .yForX => p.quoteYForX
  | .alex p, .xForY => p.quoteXForY
  | .alex p, .yForX => p.quoteYForX
  | .bitflowXyk p, .xForY => p.quoteXForY checks
  | .bitflowXyk p, .yForX => p.quoteYForX checks
  | .stableV1 p, .xForY => p.quoteXForY
  | .stableV1 p, .yForX => p.quoteYForX
  | .stableV2 p, .xForY => p.quoteXForY
  | .stableV2 p, .yForX => p.quoteYForX

/-- What the mirror holds of the token a direction pays. -/
def held : Pool → Direction → Nat
  | .dlmm p, d => mirroredOutput p d
  | .arkadiko p, .xForY => p.balanceY
  | .arkadiko p, .yForX => p.balanceX
  | .velar p, .xForY => p.reserveY
  | .velar p, .yForX => p.reserveX
  | .alex p, .xForY => p.balanceY
  | .alex p, .yForX => p.balanceX
  | .bitflowXyk p, .xForY => p.yBalance
  | .bitflowXyk p, .yForX => p.xBalance
  | .stableV1 p, .xForY => p.yBalance
  | .stableV1 p, .yForX => p.xBalance
  | .stableV2 p, .xForY => p.yBalance
  | .stableV2 p, .yForX => p.xBalance

/-- A token of the pool is quoted in its direction. -/
theorem routeOutput_eq (checks : Bool) (sha256 : Sha256) (kind : String) (pool : Pool)
    {tokenIn : Principal} {d : Direction} (h : directionOf pool tokenIn = some d) (amountIn : Nat) :
    routeOutput sha256 kind pool.tokens.1 pool.tokens.2 (quoteIn checks pool .xForY)
      (quoteIn checks pool .yForX) tokenIn amountIn = quoteIn checks pool d amountIn := by
  unfold directionOf at h
  unfold routeOutput
  split_ifs at h with hx hy
  · obtain rfl := Option.some.inj h
    rw [if_pos hx]
  · obtain rfl := Option.some.inj h
    rw [if_neg hx, if_pos hy]

/-- Making the message can panic, but it does not answer. -/
theorem routeOutput_foreign (checks : Bool) (sha256 : Sha256) (kind : String) (pool : Pool)
    {tokenIn : Principal} (h : directionOf pool tokenIn = none) (amountIn out : Nat) :
    routeOutput sha256 kind pool.tokens.1 pool.tokens.2 (quoteIn checks pool .xForY)
      (quoteIn checks pool .yForX) tokenIn amountIn ≠ .ok out := by
  unfold directionOf at h
  split_ifs at h with hx hy
  unfold routeOutput
  rw [if_neg hx, if_neg hy]
  intro hok
  obtain ⟨token, -, hok⟩ := bind_eq_ok.mp hok
  obtain ⟨x, -, hok⟩ := bind_eq_ok.mp hok
  obtain ⟨y, -, hok⟩ := bind_eq_ok.mp hok
  cases hok

/-- The same of `calculate_output`, for every kind of pool. -/
theorem calculateOutput_eq (checks : Bool) (sha256 : Sha256) (pool : Pool)
    {tokenIn : Principal} {d : Direction} (h : directionOf pool tokenIn = some d) (amountIn : Nat) :
    pool.calculateOutput checks sha256 tokenIn amountIn = quoteIn checks pool d amountIn := by
  rcases hpool : pool with p | p | p | p | p | p | p <;> rw [hpool] at h
  case dlmm =>
    show p.calculateOutput checks sha256 tokenIn amountIn = _
    unfold directionOf at h
    unfold DLMMPool.calculateOutput
    split_ifs at h with hx hy
    · obtain rfl := Option.some.inj h
      exact if_pos hx
    · obtain rfl := Option.some.inj h
      exact (if_neg hx).trans (if_pos hy)
  all_goals exact routeOutput_eq checks sha256 _ _ h amountIn

/-- Any other token is not answered for. -/
theorem calculateOutput_foreign (checks : Bool) (sha256 : Sha256) (pool : Pool)
    {tokenIn : Principal} (h : directionOf pool tokenIn = none) (amountIn out : Nat) :
    pool.calculateOutput checks sha256 tokenIn amountIn ≠ .ok out := by
  rcases hpool : pool with p | p | p | p | p | p | p <;> rw [hpool] at h
  case dlmm =>
    show p.calculateOutput checks sha256 tokenIn amountIn ≠ _
    unfold directionOf at h
    split_ifs at h with hx hy
    intro hok
    have hok := ((if_neg hx).trans (if_neg hy)).symm.trans hok
    obtain ⟨token, -, hok⟩ := bind_eq_ok.mp hok
    obtain ⟨contract, -, hok⟩ := bind_eq_ok.mp hok
    cases hok
  all_goals exact routeOutput_foreign checks sha256 _ _ h amountIn out

/-! ## When a quote answers -/

/-- A division has no `Err`, only a panic. -/
theorem noErr_u128Div (a b : Nat) : NoErr (u128Div a b) := by
  unfold u128Div
  split
  · intro msg h
    cases h
  · exact noErr_ok _

/-- Nor has a sum. -/
theorem noErr_u128Add (checks : Bool) (a b : Nat) : NoErr (u128Add checks a b) := by
  unfold u128Add
  split
  · exact noErr_ok _
  · intro msg h
    cases checks <;> cases h

/-- What neither panics nor fails answers, here within the reserve. -/
theorem Safe.answers {quote : Except Fault Nat} {reserveOut : Nat} (h : Safe quote reserveOut)
    (hno : NoErr quote) : ∃ out, quote = .ok out ∧ out ≤ reserveOut := by
  rcases quote with (msg | msg) | out
  · exact absurd rfl (hno msg)
  · exact absurd rfl (h.1 msg)
  · exact ⟨out, rfl, h.2 out rfl⟩

/-- The shared formula answers on every input, within the reserve. -/
theorem quoteAmountOutWithFeeRatio_answers (dx reserveIn reserveOut feeNum feeDen : Nat) :
    ∃ out, quoteAmountOutWithFeeRatio dx reserveIn reserveOut feeNum feeDen = .ok out ∧
      out ≤ reserveOut := by
  refine (quoteAmountOutWithFeeRatio_safe ..).answers ?_
  unfold quoteAmountOutWithFeeRatio
  split
  · exact noErr_ok _
  · refine (noErr_u128Div _ _).bind fun net => ?_
    split
    · exact noErr_ok _
    · exact noErr_u128Div _ _

/-- `unwrap_or(0)` leaves a panic as the only way not to answer. -/
theorem quoteWithFee_answers (x y factor dx feeRate : Nat) :
    ∃ out, (do .ok ((← dropErr (AlexPool.quoteWithFee x y factor dx feeRate)).getD 0) :
      Except Fault Nat) = .ok out ∧ out ≤ y := by
  have hsafe := quoteWithFee_safe x y factor dx feeRate
  generalize AlexPool.quoteWithFee x y factor dx feeRate = quote at hsafe ⊢
  rcases quote with (msg | msg) | out
  · exact ⟨0, rfl, Nat.zero_le _⟩
  · exact absurd rfl (hsafe.1 msg)
  · exact ⟨out, rfl, hsafe.2 out rfl⟩

/-- What is left of the input in a Bitflow XYK quote. -/
def xykNet (amount protocolFee providerFee : Nat) : Nat :=
  amount - (saturatingMul amount protocolFee / BPS + saturatingMul amount providerFee / BPS)

section Xyk

variable {dx xBalance yBalance protocolFee providerFee : Nat}

/-- Bitflow XYK answers where its sum fits, or where there is nothing to pay. -/
theorem xykQuoteAmountOut_answers
    (hfits : yBalance = 0 ∨ xBalance + xykNet dx protocolFee providerFee ≤ u128Max) :
    ∃ out, BitflowXykPool.quoteAmountOut true dx xBalance yBalance protocolFee providerFee =
      .ok out ∧ out ≤ yBalance := by
  refine (xykQuoteAmountOut_safe true protocolFee providerFee hfits).answers ?_
  unfold BitflowXykPool.quoteAmountOut
  split
  · exact noErr_ok _
  refine (noErr_u128Div _ _).bind fun _ => (noErr_u128Div _ _).bind fun _ =>
    (noErr_u128Add _ _ _).bind fun fees => ?_
  dsimp only
  split
  · exact noErr_ok _
  · exact (noErr_u128Add _ _ _).bind fun _ => noErr_u128Div _ _

/-- The sum in the denominator overflows before anything is divided. -/
theorem xykQuoteAmountOut_overflow (hdx : dx ≤ u128Max) (hx : xBalance ≤ u128Max)
    (hover : ¬ (yBalance = 0 ∨ xBalance + xykNet dx protocolFee providerFee ≤ u128Max))
    (out : Nat) :
    BitflowXykPool.quoteAmountOut true dx xBalance yBalance protocolFee providerFee ≠ .ok out := by
  obtain ⟨hy, hsum⟩ := not_or.mp hover
  have hnet : xykNet dx protocolFee providerFee ≤ dx := Nat.sub_le _ _
  have hzero : ¬ (dx = 0 ∨ xBalance = 0 ∨ yBalance = 0) := by omega
  rw [xykQuoteAmountOut_eq true protocolFee providerFee hzero]
  show (if xykNet dx protocolFee providerFee = 0 then _ else
    u128Add true xBalance (xykNet dx protocolFee providerFee) >>= _) ≠ _
  rw [if_neg (by omega), u128Add, if_neg hsum]
  intro hok
  cases hok

end Xyk

/-- Where the fees of a DLMM direction eat the whole input, it answers only if it takes no step. -/
theorem quote_at_full_fee {pool : DLMMPool} {d : Direction}
    (hfee : FEE_SCALE_BPS ≤ (pool.fees d).total) {amount : Nat} (hamount : 0 < amount) :
    (FeeBelowOrNoStep pool d ∧ pool.quote true d amount = .ok (0, none, true)) ∨
      ¬ FeeBelowOrNoStep pool d ∧ ∃ fault, pool.quote true d amount = .error fault := by
  rcases walk_eq_first true pool d 0 none rfl hamount with
    ⟨hnil, hwalk⟩ | ⟨r, rs, m, hcons, hm, hbin, hfull, hwalk⟩
  -- no rung on the walk, and so no step
  · refine .inl ⟨.inr fun r hr => ?_, hwalk⟩
    rw [rungs, hnil] at hr
    cases hr
  obtain ⟨hrange, -⟩ := inRange_of_idsLeft hm
  have hhead : (rungs pool d).head? = some r := by
    rw [rungs, hcons]
    rfl
  have hfirst : ∀ r', (rungs pool d).head? = some r' → r' = r := fun r' hr' =>
    Option.some.inj (hr'.symm.trans hhead)
  rw [DLMMPool.quote, hwalk, DLMMPool.walk, if_pos ⟨hamount, hrange⟩, hbin]
  simp only [if_neg hfull]
  -- no price, and the walk ends as it does at a bin it cannot sell into
  rcases hprice : pool.priceAt r.1 with fault | bp
  · refine .inl ⟨.inr fun r' hr' bp hbp => ?_, by simp [hamount]⟩
    rw [hfirst r' hr', hprice] at hbp
    cases hbp
  rcases Nat.eq_zero_or_pos bp with rfl | hpos
  · -- at a zero price the step takes nothing and the walk ends
    refine .inl ⟨.inr fun r' hr' bp hbp => ?_, by simp [swapStep_zero_price, hamount]⟩
    rw [hfirst r' hr', hprice] at hbp
    exact (Except.ok.inj hbp).symm
  -- at a positive price the fee leaves nothing to divide by
  · obtain ⟨fault, hfault⟩ := singleBinSwap_faults amount (d.output r.2) (inRate d bp) hfee
      (rates_pos (d := d) hpos).2
    have hstep : pool.swapStep true d amount r.2 bp = .error fault :=
      (swapStep_eq hpos).trans hfault
    refine .inr ⟨?_, fault, by simp only [hstep]; rfl⟩
    rintro (hbelow | hnone)
    · omega
    · exact hpos.ne' (hnone r hhead bp hprice)

/-- A DLMM direction answers where its fees leave something, or where no step is taken. -/
theorem dlmm_quote_answers (pool : DLMMPool) (d : Direction) {amount : Nat}
    (h : amount = 0 ∨ FeeBelowOrNoStep pool d) :
    ∃ q, pool.quote true d amount = .ok q ∧ q.1 ≤ mirroredOutput pool d := by
  by_cases hfee : (pool.fees d).total < FEE_SCALE_BPS
  · obtain ⟨q, hq, hwithin⟩ := quote_within_inventory true hfee amount
    exact ⟨q, hq, hwithin.output_le⟩
  rcases Nat.eq_zero_or_pos amount with rfl | hamount
  · refine ⟨(0, none, false), ?_, Nat.zero_le _⟩
    unfold DLMMPool.quote
    rcases d.idsLeft pool.activeBinId <;> rfl
  · rcases quote_at_full_fee (not_lt.mp hfee) hamount with ⟨-, hq⟩ | ⟨hnot, -⟩
    · exact ⟨_, hq, Nat.zero_le _⟩
    · exact absurd (h.resolve_left hamount.ne') hnot

/-- Elsewhere it does not. -/
theorem dlmm_quote_faults (pool : DLMMPool) (d : Direction) {amount : Nat}
    (h : ¬ (amount = 0 ∨ FeeBelowOrNoStep pool d)) (q : DLMMPool.Quote) :
    pool.quote true d amount ≠ .ok q := by
  obtain ⟨hamount, hnot⟩ := not_or.mp h
  have hfee : FEE_SCALE_BPS ≤ (pool.fees d).total := not_lt.mp fun hlt => hnot (.inl hlt)
  rcases quote_at_full_fee hfee (Nat.pos_of_ne_zero hamount) with ⟨hanswers, -⟩ | ⟨-, fault, hq⟩
  · exact absurd hanswers hnot
  · rw [hq]
    intro hok
    cases hok

/-- What no plain operation of the quote stands in the way of, in a build with overflow checks.
Only two kinds of pools have one that can fail. -/
def Fillable : Pool → Direction → Nat → Prop
  | .dlmm p, d, amount => amount = 0 ∨ FeeBelowOrNoStep p d
  | .bitflowXyk p, .xForY, amount => p.poolStatus = false ∨ p.yBalance = 0 ∨
    p.xBalance + xykNet amount p.xProtocolFeeBps p.xProviderFeeBps ≤ u128Max
  | .bitflowXyk p, .yForX, amount => p.poolStatus = false ∨ p.xBalance = 0 ∨
    p.yBalance + xykNet amount p.yProtocolFeeBps p.yProviderFeeBps ≤ u128Max
  | _, _, _ => True

/-- The balances of a Bitflow XYK pool are of their type. -/
def Sized : Pool → Prop
  | .bitflowXyk p => p.xBalance ≤ u128Max ∧ p.yBalance ≤ u128Max
  | _ => True

/-- A pool that is stopped answers zero. -/
theorem paused_answers {quote : Except Fault Nat} {reserve : Nat} (stopped : Bool)
    (h : ∃ out, quote = .ok out ∧ out ≤ reserve) :
    ∃ out, (if stopped = true then .ok 0 else quote) = .ok out ∧ out ≤ reserve := by
  rcases stopped
  · exact h
  · exact ⟨0, rfl, Nat.zero_le _⟩

/-- A quote is the reserve less something. -/
theorem v2_quoteAmountOut_le {dx xBalance yBalance xDecimals yDecimals protocolFeeBps
    providerFeeBps midpointNum midpointDen amp threshold : Nat} :
    ∃ out, BitflowStableSwapV2Pool.quoteAmountOut dx xBalance yBalance xDecimals yDecimals
      protocolFeeBps providerFeeBps midpointNum midpointDen amp threshold = .ok out ∧
      out ≤ yBalance := by
  obtain ⟨out, hout⟩ := v2_quoteAmountOut_ok dx xBalance yBalance xDecimals yDecimals
    protocolFeeBps providerFeeBps midpointNum midpointDen amp threshold
  refine ⟨out, hout, ?_⟩
  unfold BitflowStableSwapV2Pool.quoteAmountOut at hout
  split at hout
  · obtain rfl := Except.ok.inj hout
    exact Nat.zero_le _
  iterate 9 obtain ⟨_, -, hout⟩ := bind_eq_ok.mp hout
  obtain rfl := Except.ok.inj hout
  exact Nat.sub_le _ _

/-- So is a V1 quote. -/
theorem v1_getDy_le {dx xBalance yBalance xDecimals yDecimals feeTotalBps amp threshold : Nat}
    {variant : MathVariant} :
    ∃ out, BitflowStableSwapV1Pool.getDy dx xBalance yBalance xDecimals yDecimals feeTotalBps amp
      threshold variant = .ok out ∧ out ≤ yBalance := by
  obtain ⟨out, hout⟩ := v1_getDy_ok dx xBalance yBalance xDecimals yDecimals feeTotalBps amp
    threshold variant
  refine ⟨out, hout, ?_⟩
  unfold BitflowStableSwapV1Pool.getDy at hout
  split at hout
  · obtain rfl := Except.ok.inj hout
    exact Nat.zero_le _
  iterate 5 obtain ⟨_, -, hout⟩ := bind_eq_ok.mp hout
  obtain rfl := Except.ok.inj hout
  exact Nat.sub_le _ _

/-- **Every fillable amount is answered**, within what the mirror holds. -/
theorem quoteIn_answers {pool : Pool} {d : Direction} {amount : Nat}
    (h : Fillable pool d amount) :
    ∃ out, quoteIn true pool d amount = .ok out ∧ out ≤ held pool d := by
  rcases pool with p | p | p | p | p | p | p
  case dlmm =>
    obtain ⟨q, hq, hle⟩ := dlmm_quote_answers p d h
    exact ⟨q.1, bind_eq_ok.mpr ⟨q, hq, rfl⟩, hle⟩
  case arkadiko =>
    rcases d <;> exact paused_answers _ (quoteAmountOutWithFeeRatio_answers ..)
  case velar => rcases d <;> exact quoteAmountOutWithFeeRatio_answers ..
  case alex => rcases d <;> exact quoteWithFee_answers ..
  case bitflowXyk =>
    rcases d
    · rcases h with hpaused | hfits
      · exact ⟨0, by rw [quoteIn, BitflowXykPool.quoteXForY, hpaused]; rfl, Nat.zero_le _⟩
      · exact paused_answers _ (xykQuoteAmountOut_answers hfits)
    · rcases h with hpaused | hfits
      · exact ⟨0, by rw [quoteIn, BitflowXykPool.quoteYForX, hpaused]; rfl, Nat.zero_le _⟩
      · exact paused_answers _ (xykQuoteAmountOut_answers hfits)
  case stableV1 => rcases d <;> exact paused_answers _ v1_getDy_le
  case stableV2 => rcases d <;> exact paused_answers _ v2_quoteAmountOut_le

/-- And no other is, in a build with overflow checks. -/
theorem quoteIn_faults {pool : Pool} {d : Direction} {amount : Nat} (hamount : amount ≤ u128Max)
    (hsized : Sized pool) (h : ¬ Fillable pool d amount) (out : Nat) :
    quoteIn true pool d amount ≠ .ok out := by
  rcases pool with p | p | p | p | p | p | p
  case dlmm =>
    intro hok
    obtain ⟨q, hq, -⟩ := bind_eq_ok.mp hok
    exact dlmm_quote_faults p d h q hq
  case bitflowXyk =>
    rcases d
    · obtain ⟨hopen, hover⟩ := not_or.mp h
      have heq : quoteIn true (.bitflowXyk p) .xForY amount = _ := if_neg (by simpa using hopen)
      rw [heq]
      exact xykQuoteAmountOut_overflow hamount hsized.1 hover out
    · obtain ⟨hopen, hover⟩ := not_or.mp h
      have heq : quoteIn true (.bitflowXyk p) .yForX amount = _ := if_neg (by simpa using hopen)
      rw [heq]
      exact xykQuoteAmountOut_overflow hamount hsized.2 hover out
  all_goals exact absurd trivial h

/--
**What can be asked, and what it is worth.** In a build with overflow checks,
`calculate_output` answers exactly when the token is one of the pool's two and the amount is
fillable where it is sold: a DLMM direction has fees below all of the input or nothing to
compute, a Bitflow XYK pool is paused, empty or has room for the net input, and the five other
kinds always answer. An answer is never more than the mirror holds of the other token. A build
without the checks gives the same answer wherever one with them does; elsewhere it may answer
with a sum that has wrapped around. XYK balances are `u128`, as they are in the program.
-/
theorem calculate_output_answers_iff (sha256 : Sha256) (pool : Pool) (tokenIn : Principal)
    {amount : Nat} (hamount : amount ≤ u128Max) (hsized : Sized pool) :
    ((∃ out, pool.calculateOutput true sha256 tokenIn amount = .ok out) ↔
      pool.containsToken tokenIn = true ∧
        ∀ d, directionOf pool tokenIn = some d → Fillable pool d amount) ∧
    ∀ out, pool.calculateOutput true sha256 tokenIn amount = .ok out →
      pool.calculateOutput false sha256 tokenIn amount = .ok out ∧
      ∃ d, directionOf pool tokenIn = some d ∧ out ≤ held pool d := by
  have hunchecked := fun out =>
    (checksOnlyPanic_calculateOutput sha256 pool tokenIn amount).unchecked (a := out)
  rw [containsToken_iff]
  rcases hd : directionOf pool tokenIn with _ | d
  · have hforeign := calculateOutput_foreign true sha256 pool hd amount
    exact ⟨⟨fun ⟨out, hout⟩ => absurd hout (hforeign out), fun ⟨⟨_, hnone⟩, _⟩ => by cases hnone⟩,
      fun out hout => absurd hout (hforeign out)⟩
  have hanswer := calculateOutput_eq true sha256 pool hd amount
  simp only [Option.some.injEq, exists_eq', true_and, forall_eq', exists_eq_left']
  by_cases hanswers : Fillable pool d amount
  · obtain ⟨out, hout, hle⟩ := quoteIn_answers hanswers
    rw [← hanswer] at hout
    refine ⟨⟨fun _ => hanswers, fun _ => ⟨out, hout⟩⟩, fun out' hout' => ?_⟩
    obtain rfl := Except.ok.inj (hout.symm.trans hout')
    exact ⟨hunchecked out hout, hle⟩
  · have hfaults := quoteIn_faults hamount hsized hanswers
    rw [← hanswer] at hfaults
    exact ⟨⟨fun ⟨out, hout⟩ => absurd hout (hfaults out), fun h => absurd h hanswers⟩,
      fun out hout => absurd hout (hfaults out)⟩

/-- A sale of x to a pool that holds both tokens, which either build answers, and an offer of
something else. -/
theorem calculate_output_answers_iff_twoSided :
    (∃ out, (Pool.dlmm twoSidedPool).calculateOutput true burnSha256 twoSidedPool.xToken 500 =
        .ok out ∧
      (Pool.dlmm twoSidedPool).calculateOutput false burnSha256 twoSidedPool.xToken 500 =
        .ok out ∧ out ≤ held (.dlmm twoSidedPool) .xForY) ∧
      ¬ ∃ out, (Pool.dlmm twoSidedPool).calculateOutput true burnSha256 twoSidedPool.coreContract
        500 = .ok out := by
  have hspec := fun tokenIn => calculate_output_answers_iff burnSha256 (.dlmm twoSidedPool) tokenIn
    (show 500 ≤ u128Max by decide) trivial
  have hd : directionOf (.dlmm twoSidedPool) twoSidedPool.xToken = some .xForY := by decide
  constructor
  · obtain ⟨out, hout⟩ := (hspec twoSidedPool.xToken).1.mpr
      ⟨containsToken_iff.mpr ⟨_, hd⟩, fun d _ => .inr (.inl (by rcases d <;> decide))⟩
    obtain ⟨hunchecked, d, hd', hle⟩ := (hspec twoSidedPool.xToken).2 out hout
    obtain rfl := Option.some.inj (hd.symm.trans hd')
    exact ⟨out, hout, hunchecked, hle⟩
  · intro hout
    have hcontains := ((hspec twoSidedPool.coreContract).1.mp hout).1
    revert hcontains
    decide

/-! ## Over whole runs -/

section System

variable {sha256 : Sha256} {config : BlockWalkingConfig} {chain : Chain} {queue : EventQueue}
variable {registry : PoolRegistry} {capacity : Nat} {steps : List MirrorStep}

end System

end StacksDex.Results
