import StacksDex.Bridge.Cells
import StacksDex.Model.Fetcher
import StacksDex.Model.PoolInterface
import StacksDex.Results.Isolation

/-!
# StacksDex — replaying swaps against fetching again

A pool of a singleton contract is bootstrapped in the caller's token order and
then kept current by swap events, which carry the reserves in on-chain order. The
bootstrap turns the reserves round where the two orders differ. Of the handlers
only Velar's does so as well.

## Main results

* `fetchPool_ok`: the bootstrap of each variant, in either order of the tokens;
* `applyEvent_swap` and `applyEvents_swaps`: one swap, and a run of them;
* `replay_eq_refetch_iff`: a pool that was fetched before the swaps and has applied them is
  the pool that is fetched behind them exactly when the handler turns the reserves round, the
  orders agree, nothing was swapped, or the last reserves are equal;
* `replay_not_refetch`: one Arkadiko pair in the other order.

What the contract answers is described by `Serves`, per variant, from the on-chain pair and its
reserves; the three variants differ in how they say that a pair is listed the other way round.
-/

namespace StacksDex.Results

open StacksDex.Model StacksDex.Bridge

/-! ## A pair on the chain -/

/-- The contracts whose pools are probed by a pair of tokens. -/
inductive Dex where
  | arkadiko
  | velar
  | alex
  deriving DecidableEq

/-- A pair as its contract lists it, with the discriminators its events carry. -/
structure OnChainPair where
  token0 : Principal
  token1 : Principal
  lpToken : Principal
  poolId : Nat

/-- The order in which the caller names the two tokens. -/
inductive TokenOrder where
  | matching
  | reversed
  deriving DecidableEq

/-- What belongs to the caller's x side and y side. -/
def TokenOrder.orient {α : Type} (order : TokenOrder) (r : α × α) : α × α :=
  match order with
  | .matching => r
  | .reversed => r.swap

/-- The contracts a pool is fetched from; only Velar has a separate core. -/
structure Venue where
  poolContract : Principal
  coreContract : Principal

def Venue.lookupContract (venue : Venue) : Dex → Principal
  | .velar => venue.coreContract
  | .arkadiko | .alex => venue.poolContract

def lookupFunction : Dex → String
  | .arkadiko => "get-pair-details"
  | .velar => "lookup-pool"
  | .alex => "get-pool-details"

def lookupArgs (dex : Dex) (tokens : Principal × Principal) : List (List UInt8) :=
  match dex with
  | .arkadiko | .velar => [cvPrincipal tokens.1, cvPrincipal tokens.2]
  | .alex => [cvPrincipal tokens.1, cvPrincipal tokens.2, cvUint CONSTANT_PRODUCT_FACTOR]

/-- Fetch the pair in the caller's order. -/
def fetchPool (dex : Dex) (rpc : Rpc) (venue : Venue) (tokens : Principal × Principal)
    (tip : Option String) : Except Fault Pool :=
  match dex with
  | .arkadiko =>
    (rpc.fetchArkadikoPool venue.poolContract tokens.1 tokens.2 tip).map .arkadiko
  | .velar =>
    (rpc.fetchVelarPool venue.poolContract venue.coreContract tokens.1 tokens.2 tip).map .velar
  | .alex => (rpc.fetchAlexPool venue.poolContract tokens.1 tokens.2 tip).map .alex

/-- The two reserves of a pool, x side first. -/
def reserves (pool : Pool) : Nat × Nat := (view pool .reserveX, view pool .reserveY)

/-! ## What the contract answers -/

/-- The fields of a pair's tuple while it holds the reserves `r`. -/
def Details (dex : Dex) (pair : OnChainPair) (r : Nat × Nat) (m : Fields) : Prop :=
  match dex with
  | .arkadiko =>
    m.uint "balance-x" = some r.1 ∧ m.uint "balance-y" = some r.2 ∧
      m.principal "swap-token" = some pair.lpToken ∧
      (m.get "enabled" = none ∨ ∃ b, m.get "enabled" = some (.bool b))
  | .velar =>
    m.uint "reserve0" = some r.1 ∧ m.uint "reserve1" = some r.2 ∧
      m.principal "lp-token" = some pair.lpToken ∧
      ∃ (fee : Fields) (num den : Nat), m.get "swap-fee" = some (.tuple fee) ∧
        fee.uint "num" = some num ∧ fee.uint "den" = some den
  | .alex =>
    m.uint "balance-x" = some r.1 ∧ m.uint "balance-y" = some r.2 ∧
      m.uint "pool-id" = some pair.poolId ∧
      ∃ feeX feeY, m.uint "fee-rate-x" = some feeX ∧ m.uint "fee-rate-y" = some feeY

/-- The shapes in which a lookup returns a tuple. -/
inductive Returns : Dex → ClarityValue → Fields → Prop
  | arkadikoSome (m : Fields) : Returns .arkadiko (.responseOk (.optionalSome (.tuple m))) m
  | arkadikoFlat (m : Fields) : Returns .arkadiko (.responseOk (.tuple m)) m
  | velarBare (m : Fields) : Returns .velar (.optionalSome (.tuple m)) m
  | velarWrapped (m : Fields) : Returns .velar (.responseOk (.optionalSome (.tuple m))) m
  | alexSome (m : Fields) : Returns .alex (.responseOk (.optionalSome (.tuple m))) m
  | alexFlat (m : Fields) : Returns .alex (.responseOk (.tuple m)) m

/-- The answers by which a contract refuses the other token order. Velar never does. -/
inductive Refuses : Dex → ClarityValue → Prop
  | arkadiko : Refuses .arkadiko (.responseOk .optionalNone)
  | alex (code : BitVec 128) : Refuses .alex (.responseErr (.uint code))

/-- The answer to a lookup in this order, while the pair holds the reserves `r`. -/
def Answers (dex : Dex) (pair : OnChainPair) (r : Nat × Nat) (order : TokenOrder)
    (answer : ClarityValue) : Prop :=
  match dex, order with
  | .velar, order => ∃ outer m : Fields, Returns .velar answer outer ∧
      outer.get "flipped" = some (.bool (decide (order = .reversed))) ∧
      outer.get "pool" = some (.tuple m) ∧ Details .velar pair r m
  | dex, .matching => ∃ m, Returns dex answer m ∧ Details dex pair r m
  | dex, .reversed => Refuses dex answer

/-- The network side of a bootstrap works: the contract can be addressed, it answers in
both orders, and the tokens' decimals are known. -/
structure Serves (dex : Dex) (rpc : Rpc) (venue : Venue) (pair : OnChainPair)
    (tip : Option String) (r : Nat × Nat) : Prop where
  answers : ∃ deployer name,
    rpc.principalParts (venue.lookupContract dex) = .ok (deployer, name) ∧
      ∀ order : TokenOrder, ∃ answer,
        rpc.callRead deployer name (lookupFunction dex)
          (lookupArgs dex (order.orient (pair.token0, pair.token1))) tip = .ok answer ∧
        Answers dex pair r order answer
  decimals0 : ∃ d, rpc.decimals pair.token0 = .ok d
  decimals1 : ∃ d, rpc.decimals pair.token1 = .ok d

/-- A swap event on the pair, carrying the post-swap reserves `r` in on-chain order. -/
def SwapOn (dex : Dex) (pair : OnChainPair) (event : StacksEvent) (r : Nat × Nat) : Prop :=
  match dex with
  | .arkadiko =>
    event.action ∈ ARKADIKO_INDEXED_ACTIONS ∧
      event.dataPrincipal "swap-token" = some pair.lpToken ∧
      event.dataUint "balance-x" = some r.1 ∧ event.dataUint "balance-y" = some r.2
  | .velar =>
    event.action ∈ VELAR_INDEXED_ACTIONS ∧ ∃ m : Fields, event.dataTuple "pool" = some m ∧
      m.principal "lp-token" = some pair.lpToken ∧
      m.uint "reserve0" = some r.1 ∧ m.uint "reserve1" = some r.2
  | .alex =>
    event.action ∈ ALEX_INDEXED_ACTIONS ∧ event.dataUint "pool-id" = some pair.poolId ∧
      event.dataUint "balance-x" = some r.1 ∧ event.dataUint "balance-y" = some r.2

/-! ## Reading an answer -/

section Fields

variable {rpc : Rpc} {m : Fields} {key : String}

/-- A field that is there is read. -/
theorem field_tuple {v : ClarityValue} (h : m.get key = some v) (sha256 : Sha256) :
    (ClarityValue.tuple m).field sha256 key = .ok v := by
  rw [ClarityValue.field, h]

/-- A number that is there is read as that number. -/
theorem uintField_tuple {n : Nat} (h : m.uint key = some n) :
    rpc.uintField (.tuple m) key = .ok n := by
  unfold Fields.uint at h
  split at h
  · rename_i b hget
    rw [Rpc.uintField, field_tuple hget]
    exact congrArg Except.ok (Option.some.inj h)
  · cases h

/-- A principal that is there is read as that principal. -/
theorem principalField_tuple {p : Principal} (h : m.principal key = some p) (missing : String) :
    rpc.principalField missing (.tuple m) key = .ok p := by
  unfold Fields.principal at h
  split at h
  · rename_i q hget
    rw [Rpc.principalField, field_tuple hget]
    exact congrArg Except.ok (Option.some.inj h)
  · cases h

/-- The enabled flag is read whether or not it is there. -/
theorem enabledOf_tuple (rpc : Rpc)
    (h : m.get "enabled" = none ∨ ∃ b, m.get "enabled" = some (.bool b)) :
    ∃ b, rpc.enabledOf (.tuple m) = .ok b := by
  rcases h with hnone | ⟨b, hsome⟩
  · exact ⟨true, by rw [Rpc.enabledOf, ClarityValue.field, hnone]; rfl⟩
  · exact ⟨b, by rw [Rpc.enabledOf, field_tuple hsome]; rfl⟩

end Fields

/-! ## The bootstrap -/

/-- A pool that mirrors the pair: its discriminator is the pair's, and Velar's flag says
which way round the caller named the tokens. -/
def Mirrors (dex : Dex) (pair : OnChainPair) (order : TokenOrder) : Pool → Prop
  | .arkadiko p => dex = .arkadiko ∧ p.swapToken = pair.lpToken
  | .velar p =>
    dex = .velar ∧ p.lpToken = pair.lpToken ∧ p.flipped = decide (order = .reversed)
  | .alex p => dex = .alex ∧ p.poolId = pair.poolId
  | .dlmm _ | .bitflowXyk _ | .stableV1 _ | .stableV2 _ => False

/-- The tokens' decimals are known in either order. -/
theorem Serves.decimals {dex : Dex} {rpc : Rpc} {venue : Venue} {pair : OnChainPair}
    {tip : Option String} {r : Nat × Nat} (h : Serves dex rpc venue pair tip r)
    (order : TokenOrder) :
    (∃ d, rpc.decimals (order.orient (pair.token0, pair.token1)).1 = .ok d) ∧
      ∃ d, rpc.decimals (order.orient (pair.token0, pair.token1)).2 = .ok d := by
  cases order with
  | matching => exact ⟨h.decimals0, h.decimals1⟩
  | reversed => exact ⟨h.decimals1, h.decimals0⟩

section Bootstrap

variable {rpc : Rpc} {venue : Venue} {pair : OnChainPair} {tip : Option String}
variable {r : Nat × Nat} {deployer name : String}

/-- Arkadiko's lookup finds the pair in its own order. -/
theorem callPairDetails_returns {tokens : Principal × Principal} {answer : ClarityValue}
    {m : Fields} (hcall : rpc.callRead deployer name (lookupFunction .arkadiko)
      (lookupArgs .arkadiko tokens) tip = .ok answer) (hret : Returns .arkadiko answer m) :
    rpc.callPairDetails deployer name tokens.1 tokens.2 tip = .ok (some (.tuple m)) := by
  have hcall' : rpc.callRead deployer name "get-pair-details"
      [cvPrincipal tokens.1, cvPrincipal tokens.2] tip = .ok answer := hcall
  rw [Rpc.callPairDetails, hcall']
  cases hret <;> rfl

/-- It answers `none` in the other order. -/
theorem callPairDetails_refuses {tokens : Principal × Principal} {answer : ClarityValue}
    (hcall : rpc.callRead deployer name (lookupFunction .arkadiko)
      (lookupArgs .arkadiko tokens) tip = .ok answer) (href : Refuses .arkadiko answer) :
    rpc.callPairDetails deployer name tokens.1 tokens.2 tip = .ok none := by
  have hcall' : rpc.callRead deployer name "get-pair-details"
      [cvPrincipal tokens.1, cvPrincipal tokens.2] tip = .ok answer := hcall
  rw [Rpc.callPairDetails, hcall']
  cases href
  rfl

/-- The Arkadiko probe finds the pair in either order, and says whether it was swapped. -/
theorem probePair_ok (hserves : ∀ order : TokenOrder, ∃ answer,
      rpc.callRead deployer name (lookupFunction .arkadiko)
        (lookupArgs .arkadiko (order.orient (pair.token0, pair.token1))) tip = .ok answer ∧
      Answers .arkadiko pair r order answer) (order : TokenOrder) :
    ∃ m, rpc.probePair deployer name (order.orient (pair.token0, pair.token1)).1
        (order.orient (pair.token0, pair.token1)).2 tip =
          .ok (.tuple m, decide (order = .reversed)) ∧ Details .arkadiko pair r m := by
  obtain ⟨_, hcall, m, hret, hdetails⟩ := hserves .matching
  obtain ⟨_, hcall', href⟩ := hserves .reversed
  have hmatch := callPairDetails_returns hcall hret
  have hother := callPairDetails_refuses hcall' href
  refine ⟨m, ?_, hdetails⟩
  cases order with
  | matching =>
    rw [Rpc.probePair, hmatch]
    rfl
  | reversed =>
    -- the caller's order is refused first, then the pair's own order is tried
    have hmatch' : rpc.callPairDetails deployer name pair.token0 pair.token1 tip =
      .ok (some (.tuple m)) := hmatch
    have hother' : rpc.callPairDetails deployer name pair.token1 pair.token0 tip = .ok none :=
      hother
    show rpc.probePair deployer name pair.token1 pair.token0 tip = _
    simp only [Rpc.probePair, hother', hmatch', ok_bind]
    rfl

/-- ALEX's lookup finds the pair in its own order. -/
theorem callGetPoolDetails_returns {tokens : Principal × Principal} {answer : ClarityValue}
    {m : Fields} (hcall : rpc.callRead deployer name (lookupFunction .alex)
      (lookupArgs .alex tokens) tip = .ok answer) (hret : Returns .alex answer m) :
    rpc.callGetPoolDetails deployer name tokens.1 tokens.2 tip = .ok (.tuple m) := by
  have hcall' : rpc.callRead deployer name "get-pool-details"
      [cvPrincipal tokens.1, cvPrincipal tokens.2, cvUint CONSTANT_PRODUCT_FACTOR] tip =
        .ok answer := hcall
  rw [Rpc.callGetPoolDetails, hcall']
  cases hret <;> rfl

/-- It answers an error in the other order, which the probe drops. -/
theorem callGetPoolDetails_refuses {tokens : Principal × Principal} {answer : ClarityValue}
    (hcall : rpc.callRead deployer name (lookupFunction .alex)
      (lookupArgs .alex tokens) tip = .ok answer) (href : Refuses .alex answer) :
    dropErr (rpc.callGetPoolDetails deployer name tokens.1 tokens.2 tip) = .ok none := by
  have hcall' : rpc.callRead deployer name "get-pool-details"
      [cvPrincipal tokens.1, cvPrincipal tokens.2, cvUint CONSTANT_PRODUCT_FACTOR] tip =
        .ok answer := hcall
  rw [Rpc.callGetPoolDetails, hcall']
  cases href
  rfl

/-- So does the ALEX probe. -/
theorem probePool_ok (hserves : ∀ order : TokenOrder, ∃ answer,
      rpc.callRead deployer name (lookupFunction .alex)
        (lookupArgs .alex (order.orient (pair.token0, pair.token1))) tip = .ok answer ∧
      Answers .alex pair r order answer) (order : TokenOrder) :
    ∃ m, rpc.probePool deployer name (order.orient (pair.token0, pair.token1)).1
        (order.orient (pair.token0, pair.token1)).2 tip =
          .ok (.tuple m, decide (order = .reversed)) ∧ Details .alex pair r m := by
  obtain ⟨_, hcall, m, hret, hdetails⟩ := hserves .matching
  obtain ⟨_, hcall', href⟩ := hserves .reversed
  have hmatch : rpc.callGetPoolDetails deployer name pair.token0 pair.token1 tip =
    .ok (.tuple m) := callGetPoolDetails_returns hcall hret
  have hother : dropErr (rpc.callGetPoolDetails deployer name pair.token1 pair.token0 tip) =
    .ok none := callGetPoolDetails_refuses hcall' href
  refine ⟨m, ?_, hdetails⟩
  cases order with
  | matching =>
    show rpc.probePool deployer name pair.token0 pair.token1 tip = _
    rw [Rpc.probePool, hmatch]
    rfl
  | reversed =>
    show rpc.probePool deployer name pair.token1 pair.token0 tip = _
    simp only [Rpc.probePool, hother, hmatch, ok_bind]
    rfl

/-- Which of the two raw reserves ends up on which side. -/
theorem orient_eq (order : TokenOrder) (r : Nat × Nat) :
    order.orient r =
      (if decide (order = .reversed) = true then r.2 else r.1,
        if decide (order = .reversed) = true then r.1 else r.2) := by
  cases order <;> rfl

/-- Velar's lookup finds the pair in either order. -/
theorem lookupInner_returns {tokens : Principal × Principal} {answer : ClarityValue}
    {outer : Fields} (hret : Returns .velar answer outer) :
    rpc.lookupInner answer tokens.1 tokens.2 = .ok (.tuple outer) := by
  cases hret <;> rfl

/-- Arkadiko's bootstrap, in either order of the tokens. -/
theorem fetchArkadikoPool_ok (h : Serves .arkadiko rpc venue pair tip r) (order : TokenOrder) :
    ∃ p, rpc.fetchArkadikoPool venue.poolContract (order.orient (pair.token0, pair.token1)).1
        (order.orient (pair.token0, pair.token1)).2 tip = .ok p ∧
      p.swapToken = pair.lpToken ∧
      (p.xToken, p.yToken) = order.orient (pair.token0, pair.token1) ∧
      (p.balanceX, p.balanceY) = order.orient r := by
  obtain ⟨deployer, name, hparts, hserves⟩ := h.answers
  obtain ⟨⟨dx, hdx⟩, ⟨dy, hdy⟩⟩ := h.decimals order
  have hparts' : rpc.principalParts venue.poolContract = .ok (deployer, name) := hparts
  obtain ⟨m, hprobe, hx, hy, hlp, hen⟩ := probePair_ok hserves order
  obtain ⟨b, hb⟩ := enabledOf_tuple rpc hen
  simp only [Rpc.fetchArkadikoPool, hparts', hprobe, uintField_tuple hx, uintField_tuple hy, hb,
    principalField_tuple hlp, hdx, hdy, ok_bind]
  exact ⟨_, rfl, rfl, rfl, (orient_eq order r).symm⟩

/-- Velar's bootstrap, which keeps whether the order is flipped. -/
theorem fetchVelarPool_ok (h : Serves .velar rpc venue pair tip r) (order : TokenOrder) :
    ∃ p, rpc.fetchVelarPool venue.poolContract venue.coreContract
        (order.orient (pair.token0, pair.token1)).1 (order.orient (pair.token0, pair.token1)).2
        tip = .ok p ∧
      p.lpToken = pair.lpToken ∧ p.flipped = decide (order = .reversed) ∧
      (p.xToken, p.yToken) = order.orient (pair.token0, pair.token1) ∧
      (p.reserveX, p.reserveY) = order.orient r := by
  obtain ⟨deployer, name, hparts, hserves⟩ := h.answers
  obtain ⟨⟨dx, hdx⟩, ⟨dy, hdy⟩⟩ := h.decimals order
  have hparts' : rpc.principalParts venue.coreContract = .ok (deployer, name) := hparts
  -- Velar answers in either order, and says which one it was
  obtain ⟨answer, hcall, outer, m, hret, hflipped, hpool, h0, h1, hlp, fee, num, den, hfee, hnum,
    hden⟩ := hserves order
  have hcall' : rpc.callRead deployer name "lookup-pool"
      [cvPrincipal (order.orient (pair.token0, pair.token1)).1,
        cvPrincipal (order.orient (pair.token0, pair.token1)).2] tip = .ok answer := hcall
  simp only [Rpc.fetchVelarPool, hparts', hcall', lookupInner_returns hret, field_tuple hflipped,
    ClarityValue.asBool, dropErr_ok, field_tuple hpool, uintField_tuple h0, uintField_tuple h1,
    field_tuple hfee, uintField_tuple hnum, uintField_tuple hden, principalField_tuple hlp, hdx,
    hdy, ok_bind]
  exact ⟨_, rfl, rfl, rfl, rfl, (orient_eq order r).symm⟩

/-- ALEX's bootstrap, in either order of the tokens. -/
theorem fetchAlexPool_ok (h : Serves .alex rpc venue pair tip r) (order : TokenOrder) :
    ∃ p, rpc.fetchAlexPool venue.poolContract (order.orient (pair.token0, pair.token1)).1
        (order.orient (pair.token0, pair.token1)).2 tip = .ok p ∧
      p.poolId = pair.poolId ∧
      (p.xToken, p.yToken) = order.orient (pair.token0, pair.token1) ∧
      (p.balanceX, p.balanceY) = order.orient r := by
  obtain ⟨deployer, name, hparts, hserves⟩ := h.answers
  obtain ⟨⟨dx, hdx⟩, ⟨dy, hdy⟩⟩ := h.decimals order
  have hparts' : rpc.principalParts venue.poolContract = .ok (deployer, name) := hparts
  obtain ⟨m, hprobe, hx, hy, hid, feeX, feeY, hfeeX, hfeeY⟩ := probePool_ok hserves order
  simp only [Rpc.fetchAlexPool, hparts', hprobe, uintField_tuple hx, uintField_tuple hy,
    uintField_tuple hfeeX, uintField_tuple hfeeY, uintField_tuple hid, hdx, hdy, ok_bind]
  exact ⟨_, rfl, rfl, rfl, (orient_eq order r).symm⟩

/-- **The bootstrap is right in either order**: the fetched pool mirrors the pair, its tokens are
the caller's in the caller's order, and each side holds the reserve of its token. -/
theorem fetchPool_ok {dex : Dex} (h : Serves dex rpc venue pair tip r) (order : TokenOrder) :
    ∃ p, fetchPool dex rpc venue (order.orient (pair.token0, pair.token1)) tip = .ok p ∧
      Mirrors dex pair order p ∧ p.tokens = order.orient (pair.token0, pair.token1) ∧
      reserves p = order.orient r := by
  cases dex with
  | arkadiko =>
    obtain ⟨p, hp, hlp, htokens, hr⟩ := fetchArkadikoPool_ok h order
    exact ⟨.arkadiko p, by rw [fetchPool, hp, map_ok], ⟨rfl, hlp⟩, htokens, hr⟩
  | velar =>
    obtain ⟨p, hp, hlp, hflipped, htokens, hr⟩ := fetchVelarPool_ok h order
    exact ⟨.velar p, by rw [fetchPool, hp, map_ok], ⟨rfl, hlp, hflipped⟩, htokens, hr⟩
  | alex =>
    obtain ⟨p, hp, hid, htokens, hr⟩ := fetchAlexPool_ok h order
    exact ⟨.alex p, by rw [fetchPool, hp, map_ok], ⟨rfl, hid⟩, htokens, hr⟩

end Bootstrap

/-! ## A run of swaps -/

/-- Where a handler puts the on-chain reserves: only Velar's turns them round. -/
def written (dex : Dex) (order : TokenOrder) (r : Nat × Nat) : Nat × Nat :=
  match dex with
  | .velar => order.orient r
  | .arkadiko | .alex => r

/-- One swap: the pool still mirrors the pair and holds what the handler wrote. -/
theorem applyEvent_swap {dex : Dex} {pair : OnChainPair} {order : TokenOrder} {p : Pool}
    {event : StacksEvent} {r : Nat × Nat} (hp : Mirrors dex pair order p)
    (hswap : SwapOn dex pair event r) (now : Nat) :
    Mirrors dex pair order (p.applyEvent now event) ∧
      reserves (p.applyEvent now event) = written dex order r := by
  cases p with
  | arkadiko p =>
    obtain ⟨rfl, hlp⟩ := hp
    obtain ⟨hact, htoken, hx, hy⟩ := hswap
    have happly : (Pool.arkadiko p).applyEvent now event = .arkadiko { p with
        balanceX := r.1
        balanceY := r.2
        enabled := (event.dataBool "enabled").getD p.enabled
        lastTxId := some event.txId } := by
      simp [Pool.applyEvent, ArkadikoPool.apply, hact, htoken, hlp, hx, hy]
    rw [happly]
    exact ⟨⟨rfl, hlp⟩, rfl⟩
  | velar p =>
    obtain ⟨rfl, hlp, hflipped⟩ := hp
    obtain ⟨hact, m, hm, htoken, h0, h1⟩ := hswap
    have happly : (Pool.velar p).applyEvent now event = .velar { p with
        reserveX := if p.flipped then r.2 else r.1
        reserveY := if p.flipped then r.1 else r.2
        lastTxId := some event.txId } := by
      simp [Pool.applyEvent, VelarPool.apply, hact, hm, htoken, hlp, h0, h1]
    rw [happly]
    refine ⟨⟨rfl, hlp, hflipped⟩, ?_⟩
    show (_, _) = order.orient r
    -- the flag is the caller's order
    rw [orient_eq, ← hflipped]
    rfl
  | alex p =>
    obtain ⟨rfl, hid⟩ := hp
    obtain ⟨hact, hpool, hx, hy⟩ := hswap
    have happly : (Pool.alex p).applyEvent now event = .alex { p with
        balanceX := r.1
        balanceY := r.2
        lastTxId := some event.txId } := by
      simp [Pool.applyEvent, AlexPool.apply, hact, hpool, hid, hx, hy]
    rw [happly]
    exact ⟨⟨rfl, hid⟩, rfl⟩
  | dlmm p => exact hp.elim
  | bitflowXyk p => exact hp.elim
  | stableV1 p => exact hp.elim
  | stableV2 p => exact hp.elim

/-- A run of swaps leaves what the handler wrote for the last one. -/
theorem applyEvents_swaps {dex : Dex} {pair : OnChainPair} {order : TokenOrder} {p : Pool}
    {events : List StacksEvent} {run : List (Nat × Nat)} (hp : Mirrors dex pair order p)
    (hrun : List.Forall₂ (SwapOn dex pair) events run) (clock : Nat → Nat) :
    reserves (applyEvents clock p events) =
      (run.map (written dex order)).getLastD (reserves p) := by
  induction hrun generalizing p clock with
  | nil => rfl
  | cons hswap _ ih =>
    obtain ⟨hmirrors, hreserves⟩ := applyEvent_swap hp hswap (clock 0)
    rw [applyEvents, ih hmirrors, hreserves, List.map_cons, List.getLastD_cons]

/-- Turned round or not, once the last event is in: when that makes no difference. -/
theorem replayed_eq_iff (dex : Dex) (order : TokenOrder) (run : List (Nat × Nat))
    (r : Nat × Nat) :
    (run.map (written dex order)).getLastD (order.orient r) = order.orient (run.getLastD r) ↔
      dex = .velar ∨ order = .matching ∨ run = [] ∨
        (run.getLastD r).1 = (run.getLastD r).2 := by
  -- does the handler turn the reserves round as the bootstrap does?
  by_cases hwritten : dex = .velar ∨ order = .matching
  · have hsame : written dex order = order.orient := by
      funext s
      rcases hwritten with rfl | rfl
      · rfl
      · cases dex <;> rfl
    rw [hsame, List.getLastD_map]
    exact ⟨fun _ => hwritten.elim Or.inl fun h => Or.inr (Or.inl h), fun _ => rfl⟩
  · obtain ⟨hdex, horder⟩ := not_or.mp hwritten
    -- not so: the handler writes them as they are, and the bootstrap swaps them
    have hid : written dex order = fun s => s := by
      cases dex
      · rfl
      · exact absurd rfl hdex
      · rfl
    have hswap : ∀ s : Nat × Nat, order.orient s = s.swap := by
      cases order
      · exact absurd rfl horder
      · exact fun _ => rfl
    rw [hid, List.map_id'', hswap, hswap]
    · cases run with
      | nil => simp
      | cons s run =>
        -- the handler left the last on-chain pair as it was
        rw [List.getLastD_cons, List.getLastD_cons]
        obtain ⟨a, b⟩ := run.getLastD s
        simp only [Prod.swap_prod_mk, Prod.mk.injEq, hdex, horder, reduceCtorEq, false_or]
        exact ⟨fun h => h.1, fun h => ⟨h, h.symm⟩⟩
    · exact fun _ => rfl

/-- The tokens of a pool are part of its frame, so no run of events exchanges them. -/
theorem tokens_applyEvents (clock : Nat → Nat) (pool : Pool) (events : List StacksEvent) :
    (applyEvents clock pool events).tokens = pool.tokens := by
  have htokens : ∀ p : Pool, (frame p).tokens = p.tokens := fun p => by cases p <;> rfl
  rw [← htokens, (applyEvents_overlays clock pool events).2, htokens]

/--
**Replay against refetch.** Fetching before a run of swaps and applying them gives the
reserves that fetching after the run gives, in exactly these cases: the pool is Velar's, or
the caller's order is the on-chain order, or the run is empty, or it ends in equal reserves.
Both pools name the caller's tokens in the caller's order, so the x reserve of the one and of
the other are amounts of the same token. The handlers of Arkadiko and ALEX write the event's
balances in the on-chain order into a pool that the fetcher has turned round.
-/
theorem replay_eq_refetch_iff {dex : Dex} {venue : Venue} {pair : OnChainPair}
    {before after : Rpc} {tipBefore tipAfter : Option String} {r : Nat × Nat}
    {events : List StacksEvent} {run : List (Nat × Nat)}
    (hbefore : Serves dex before venue pair tipBefore r)
    (hrun : List.Forall₂ (SwapOn dex pair) events run)
    (hafter : Serves dex after venue pair tipAfter (run.getLastD r))
    (order : TokenOrder) (clock : Nat → Nat) :
    ∃ p q, fetchPool dex before venue (order.orient (pair.token0, pair.token1)) tipBefore = .ok p ∧
      fetchPool dex after venue (order.orient (pair.token0, pair.token1)) tipAfter = .ok q ∧
      (applyEvents clock p events).tokens = order.orient (pair.token0, pair.token1) ∧
      q.tokens = order.orient (pair.token0, pair.token1) ∧
      reserves q = order.orient (run.getLastD r) ∧
      (reserves (applyEvents clock p events) = reserves q ↔
        dex = .velar ∨ order = .matching ∨ run = [] ∨
          (run.getLastD r).1 = (run.getLastD r).2) := by
  obtain ⟨p, hp, hmirrors, htokens, hreserves⟩ := fetchPool_ok hbefore order
  obtain ⟨q, hq, -, htokens', hreserves'⟩ := fetchPool_ok hafter order
  refine ⟨p, q, hp, hq, (tokens_applyEvents clock p events).trans htokens, htokens', hreserves', ?_⟩
  rw [applyEvents_swaps hmirrors hrun, hreserves, hreserves']
  exact replayed_eq_iff dex order run r

/-- An Arkadiko pair of two tokens of the burn address. -/
def usdaPair : OnChainPair where
  token0 := deployed "wstx"
  token1 := deployed "usda"
  lpToken := deployed "lp"
  poolId := 0

def arkadikoVenue : Venue where
  poolContract := deployed "arkadiko-swap-v2-1"
  coreContract := deployed "arkadiko-swap-v2-1"

/-- `get-pair-details` where this is the only pair and it holds these reserves. -/
def pairDetails (r0 r1 : BitVec 128) (args : List (List UInt8)) : ClarityValue :=
  if args = lookupArgs .arkadiko (usdaPair.token0, usdaPair.token1) then
    .responseOk (.optionalSome (.tuple
      [("balance-x", .uint r0), ("balance-y", .uint r1), ("enabled", .bool true),
        ("swap-token", .principal usdaPair.lpToken)]))
  else .responseOk .optionalNone

/-- A node that knows the one pair. -/
def pairRpc (r0 r1 : BitVec 128) : Rpc where
  sha256 := burnSha256
  callRead := fun deployer name function args _ =>
    if deployer = "SP000000000000000000002Q6VF78" ∧ name = "arkadiko-swap-v2-1" ∧
        function = "get-pair-details" then
      .ok (pairDetails r0 r1 args)
    else .error (.err "call_read HTTP 404 Not Found")
  decimals := fun _ => .ok 6

/-- A node that lists the pair with these reserves. -/
theorem pairRpc_serves (r0 r1 : BitVec 128) :
    Serves .arkadiko (pairRpc r0 r1) arkadikoVenue usdaPair none (r0.toNat, r1.toNat) where
  answers := by
    have haddress : c32EncodeAddress (pairRpc r0 r1).sha256 22 (List.Vector.replicate 20 0) =
        .ok "SP000000000000000000002Q6VF78" := by
      show c32EncodeAddress burnSha256 22 _ = _
      decide +kernel
    refine ⟨"SP000000000000000000002Q6VF78", "arkadiko-swap-v2-1", ?_, ?_⟩
    · show (c32EncodeAddress (pairRpc r0 r1).sha256 22 (List.Vector.replicate 20 0) >>= _) = _
      rw [haddress]
      rfl
    · intro order
      cases order with
      | matching => exact ⟨_, rfl, _, .arkadikoSome _, rfl, rfl, rfl, Or.inr ⟨true, rfl⟩⟩
      | reversed =>
        -- the other order is another argument list, so the lookup finds nothing
        have hother : lookupArgs .arkadiko (usdaPair.token1, usdaPair.token0) ≠
            lookupArgs .arkadiko (usdaPair.token0, usdaPair.token1) := by decide +kernel
        have hnone : pairDetails r0 r1 (lookupArgs .arkadiko (usdaPair.token1, usdaPair.token0)) =
            .responseOk .optionalNone := if_neg hother
        exact ⟨_, rfl, hnone ▸ .arkadiko⟩
  decimals0 := ⟨6, rfl⟩
  decimals1 := ⟨6, rfl⟩

/-- A swap that takes the pair from (100, 200) to (110, 182). -/
def usdaSwap : StacksEvent where
  emitter := deployed "arkadiko-swap-v2-1"
  txId := "0x01"
  eventIndex := 0
  action := "swap-x-for-y"
  data := [("balance-x", .uint 110), ("balance-y", .uint 182),
    ("swap-token", .principal (deployed "lp"))]

/-- A swap on the pair, with the reserves behind it. -/
theorem usdaSwap_on : List.Forall₂ (SwapOn .arkadiko usdaPair) [usdaSwap] [(110, 182)] :=
  .cons ⟨by decide, by decide, by decide, by decide⟩ .nil

/-- With the tokens named the other way round, the swap puts the reserve of the y token on
the x side. -/
theorem replay_not_refetch :
    Serves .arkadiko (pairRpc 100 200) arkadikoVenue usdaPair none (100, 200) ∧
    Serves .arkadiko (pairRpc 110 182) arkadikoVenue usdaPair none (110, 182) ∧
    List.Forall₂ (SwapOn .arkadiko usdaPair) [usdaSwap] [(110, 182)] ∧
    ∃ p q,
      fetchPool .arkadiko (pairRpc 100 200) arkadikoVenue (deployed "usda", deployed "wstx")
        none = .ok p ∧
      fetchPool .arkadiko (pairRpc 110 182) arkadikoVenue (deployed "usda", deployed "wstx")
        none = .ok q ∧
      reserves (applyEvents (fun _ => 0) p [usdaSwap]) = (110, 182) ∧
      reserves q = (182, 110) := by
  have hbefore := pairRpc_serves 100 200
  have hafter := pairRpc_serves 110 182
  obtain ⟨p, hp, hmirrors, -, -⟩ := fetchPool_ok hbefore .reversed
  obtain ⟨q, hq, -, -, hq'⟩ := fetchPool_ok hafter .reversed
  exact ⟨hbefore, hafter, usdaSwap_on, p, q, hp, hq,
    applyEvents_swaps hmirrors usdaSwap_on (fun _ => 0), hq'⟩

/-- The same pair and swap: the condition fails, though both mirrors are of the caller's tokens. -/
theorem replay_eq_refetch_iff_usda :
    ∃ p q,
      fetchPool .arkadiko (pairRpc 100 200) arkadikoVenue (deployed "usda", deployed "wstx")
        none = .ok p ∧
      fetchPool .arkadiko (pairRpc 110 182) arkadikoVenue (deployed "usda", deployed "wstx")
        none = .ok q ∧
      (applyEvents (fun _ => 0) p [usdaSwap]).tokens = (deployed "usda", deployed "wstx") ∧
      q.tokens = (deployed "usda", deployed "wstx") ∧
      reserves q = (182, 110) ∧
      (reserves (applyEvents (fun _ => 0) p [usdaSwap]) = reserves q ↔
        Dex.arkadiko = .velar ∨ TokenOrder.reversed = .matching ∨
          [((110 : Nat), (182 : Nat))] = [] ∨ (110 : Nat) = 182) :=
  replay_eq_refetch_iff (pairRpc_serves 100 200) usdaSwap_on (pairRpc_serves 110 182) .reversed
    (fun _ => 0)

end StacksDex.Results
