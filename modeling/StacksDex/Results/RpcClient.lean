import StacksDex.Lib.Retry
import StacksDex.Model.RpcClient
import StacksDex.Results.Codec
import StacksDex.Results.HexCodec
import StacksDex.Results.Replay

/-!
# StacksDex — reads over HTTP

A read waits and asks again while it is rate limited, and what decides is one answer
(`reads_decided`). Where the node evaluates a function on the arguments it is sent and returns
the value in the wire form, a read is that function: hex, codec and retries lose nothing in
either direction (`call_read_round_trip`).

## The layers

* the request loop, for any node and any answers (`requestLoop_decided`): which attempt decides
  is a matter of `Lib/Retry.lean`, and on the way to it every wait has to fit a `Duration`;
* what is carried: an argument is encoded, written as hex, read back and decoded, and so is the
  value that comes back (`decodeResult_wire`, `arguments_carried`);
* the bootstraps of the singleton contracts over such a node (`fetch_over_http`).

An answer that is malformed, or that panics the decoder, is an answer, too, and decides the
read like any other.
-/

namespace StacksDex.Results

open StacksDex.Lib StacksDex.Model StacksDex.Bridge

/-! ## The request loop -/

section Loop

variable {β α : Type} {config : RpcConfig} {unsent : String → String}
variable {finish : (status : Nat) → (reason text : String) → Except String β → Except Fault α}
variable {reply : Nat → RpcReply β}

/-- What a loop makes of the answer that decides. -/
def outcome (unsent : String → String)
    (finish : (status : Nat) → (reason text : String) → Except String β → Except Fault α) :
    RpcReply β → Except Fault α
  | .sendError e => .error (.err (unsent e))
  | .response status reason text body => finish status reason text body

/-- The wait after attempt `j`. -/
def waitAfter (config : RpcConfig) (j : Nat) : Nat := config.backoff * (j + 1)

/-- The attempts that are answered with a rate limit. -/
def limitedAt (reply : Nat → RpcReply β) (j : Nat) : Bool := (reply j).limited

/-- What a loop comes to, when attempt `k` decides and the waits start with attempt `i`. -/
def decided (config : RpcConfig) (unsent : String → String)
    (finish : (status : Nat) → (reason text : String) → Except String β → Except Fault α)
    (reply : Nat → RpcReply β) (i k : Nat) : Attempted α :=
  if config.backoff * k ≤ durationMax then
    ⟨(List.range' i (k - i)).map (waitAfter config), outcome unsent finish (reply k)⟩
  else
    -- the first wait that is too long panics instead
    ⟨(List.range' i (durationMax / config.backoff - i)).map (waitAfter config),
      .error (.panic "overflow when multiplying duration by scalar")⟩

/-- An answer that is not retried. -/
theorem requestLoop_stop {i : Nat} (h : (reply i).limited = true → config.maxRetries ≤ i) :
    requestLoop config unsent finish reply i = ⟨[], outcome unsent finish (reply i)⟩ := by
  rw [requestLoop]
  rcases hreply : reply i with e | ⟨status, reason, text, body⟩
  · rfl
  · rw [hreply] at h
    have hnot : ¬ (status = 429 ∧ i < config.maxRetries) := fun ⟨hstatus, hlt⟩ =>
      absurd (h (decide_eq_true hstatus)) (Nat.not_le.mpr hlt)
    dsimp only
    rw [if_neg hnot]
    rfl

/-- An answer that is retried. -/
theorem requestLoop_again {i : Nat} (hlimited : (reply i).limited = true)
    (hlt : i < config.maxRetries) :
    requestLoop config unsent finish reply i =
      if config.backoff * (i + 1) ≤ durationMax then
        ⟨waitAfter config i :: (requestLoop config unsent finish reply (i + 1)).waits,
          (requestLoop config unsent finish reply (i + 1)).result⟩
      else ⟨[], .error (.panic "overflow when multiplying duration by scalar")⟩ := by
  rw [requestLoop]
  rcases hreply : reply i with e | ⟨status, reason, text, body⟩
  · rw [hreply] at hlimited
    cases hlimited
  · rw [hreply] at hlimited
    have hstatus : status = 429 := of_decide_eq_true hlimited
    dsimp only
    rw [if_pos ⟨hstatus, hlt⟩, durationMul]
    by_cases hfits : config.backoff * (i + 1) ≤ durationMax
    · rw [if_pos hfits, if_pos hfits]
      rfl
    · rw [if_neg hfits, if_neg hfits]

/-- **The loop** from any attempt it gets to. -/
theorem requestLoop_decided {n i : Nat} (hn : i + n = config.maxRetries)
    (hfits : config.backoff * i ≤ durationMax) :
    requestLoop config unsent finish reply i =
      decided config unsent finish reply i (Retry.decisive (limitedAt reply) n i) := by
  -- on the retries left
  induction n generalizing i with
  | zero =>
    rw [requestLoop_stop fun _ => by omega, Retry.decisive, decided, if_pos hfits, Nat.sub_self]
    rfl
  | succ n ih =>
    rw [Retry.decisive]
    rcases hlimited : limitedAt reply i
    · have hstop : (reply i).limited = true → config.maxRetries ≤ i := fun h => by
        rw [show (reply i).limited = false from hlimited] at h
        cases h
      rw [requestLoop_stop hstop, if_neg Bool.false_ne_true, decided, if_pos hfits, Nat.sub_self]
      rfl
    rw [if_pos rfl, requestLoop_again hlimited (by omega)]
    obtain ⟨hnext, -⟩ := Retry.decisive_spec (limitedAt reply) n (i + 1)
    generalize hk : Retry.decisive (limitedAt reply) n (i + 1) = k at hnext
    by_cases hwait : config.backoff * (i + 1) ≤ durationMax
    · rw [if_pos hwait, ih (by omega) hwait, hk, decided, decided]
      by_cases hall : config.backoff * k ≤ durationMax
      · rw [if_pos hall, if_pos hall, show k - i = k - (i + 1) + 1 by omega, List.range'_succ]
        rfl
      · have hpos : 0 < config.backoff := by
          rcases Nat.eq_zero_or_pos config.backoff with hzero | hpos
          · rw [hzero, Nat.zero_mul] at hall
            exact absurd (Nat.zero_le _) hall
          · exact hpos
        have hreach : i + 1 ≤ durationMax / config.backoff := by
          rw [Nat.le_div_iff_mul_le hpos, Nat.mul_comm]
          exact hwait
        rw [if_neg hall, if_neg hall]
        generalize durationMax / config.backoff = q at hreach ⊢
        rw [show q - i = q - (i + 1) + 1 by omega, List.range'_succ]
        rfl
    · have hall : ¬ config.backoff * k ≤ durationMax := fun h =>
        hwait ((Nat.mul_le_mul_left _ hnext).trans h)
      have hpos : 0 < config.backoff := by
        rcases Nat.eq_zero_or_pos config.backoff with hzero | hpos
        · rw [hzero, Nat.zero_mul] at hwait
          exact absurd (Nat.zero_le _) hwait
        · exact hpos
      have hreach : durationMax / config.backoff ≤ i := by
        rw [← Nat.lt_succ_iff, Nat.div_lt_iff_lt_mul hpos, Nat.mul_comm]
        exact Nat.not_le.mp hwait
      rw [if_neg hwait, decided, if_neg hall, Nat.sub_eq_zero_of_le hreach]
      rfl

end Loop

/--
**One answer decides a read**: the first that is not a rate limit, or the one after the last
retry. `call_read` and `data_var` wait once, twice, … the backoff before the attempts that
follow, and then return what the client makes of the deciding answer: a value, an error, or a
panic of its own, such as that of `hex_decode` cutting a character in two. Where one of the
waits before it is too long for a `Duration`, they panic at the first such wait instead.
-/
theorem reads_decided (config : RpcConfig) (deployer contractName function var : String)
    (args : List (List UInt8)) (tip : Option String)
    (callNode : CallReadRequest → (attempt : Nat) → RpcReply CallReadEnvelope)
    (varNode : (url : String) → (attempt : Nat) → RpcReply DataVarEnvelope) :
    let request := callReadRequest config deployer contractName function args tip
    let url := dataVarUrl config deployer contractName var
    callRead config deployer contractName function args tip callNode =
        decided config (fun e => s!"call_read send error: {e}") (callReadFinish request.url)
          (callNode request) 0
          (Retry.decisive (limitedAt (callNode request)) config.maxRetries 0) ∧
      dataVar config deployer contractName var varNode =
        decided config (fun e => s!"data_var send error: {e}") (dataVarFinish url var)
          (varNode url) 0 (Retry.decisive (limitedAt (varNode url)) config.maxRetries 0) :=
  ⟨requestLoop_decided (Nat.zero_add _) (Nat.zero_le _),
    requestLoop_decided (Nat.zero_add _) (Nat.zero_le _)⟩

/-- With the default configuration no wait is too long. -/
theorem backoff_default (k : Nat) (h : k ≤ RpcConfig.default.maxRetries) :
    RpcConfig.default.backoff * k ≤ durationMax := by
  have hle : RpcConfig.default.backoff * k ≤ RpcConfig.default.backoff * 3 :=
    Nat.mul_le_mul_left _ h
  exact hle.trans (by decide)

/-! ## What is carried -/

/-- A value the wire form can carry. -/
def Carried (v : ClarityValue) : Prop := v.NamesAscending ∧ v.LengthsFit

/-- The text of a value in a request or a response. -/
def wire (v : ClarityValue) : String := "0x" ++ hex (cvEncode v)

/-- **What is sent is received.** -/
theorem decodeResult_wire {v : ClarityValue} (h : Carried v) : decodeResult (wire v) = .ok v := by
  have hstrip : stripHexMark (wire v) = hex (cvEncode v) := by
    unfold stripHexMark wire
    rw [String.toList_append]
    exact String.ofList_toList
  have hdecode : cvDecode (cvEncode v) 0 = .ok (v, (cvEncode v).length) := by
    refine cvDecode_eq_ok.mpr ⟨v, ⟨h.2, ?_, by omega⟩, (canon_of_ascending h.1).symm⟩
    simpa using sitsAt_frame (x := cvEncode v) [] []
  have hbytes : clientHexDecode (hex (cvEncode v)) = .ok (cvEncode v) := hexDecodeOr_hex _ _
  rw [decodeResult, hstrip, hbytes, ok_bind, hdecode]
  rfl

/-- The node evaluates `eval` on what the arguments carry: it may limit the rate of a request,
but not for longer than the client asks, and then answers with the value. -/
def Evaluates (config : RpcConfig)
    (node : CallReadRequest → (attempt : Nat) → RpcReply CallReadEnvelope)
    (eval : (url : String) → List ClarityValue → ClarityValue) : Prop :=
  ∀ request args, request.arguments.mapM decodeResult = .ok args →
    ∃ k ≤ config.maxRetries, (∀ j < k, (node request j).limited = true) ∧
      ∃ status reason text cause, status ≠ 429 ∧ isSuccess status = true ∧
        node request k = .response status reason text
          (.ok { okay := true, result := some (wire (eval request.url args)), cause })

section Call

variable {config : RpcConfig}
variable {node : CallReadRequest → (attempt : Nat) → RpcReply CallReadEnvelope}
variable {eval : (url : String) → List ClarityValue → ClarityValue}

/-- The arguments reach the node as they are. -/
theorem arguments_carried (deployer contractName function : String) (tip : Option String)
    {args : List ClarityValue} (h : ∀ v ∈ args, Carried v) :
    (callReadRequest config deployer contractName function (args.map cvEncode)
      tip).arguments.mapM decodeResult = .ok args := by
  show (((args.map cvEncode).map fun a => "0x" ++ hex a).mapM decodeResult) = _
  induction args with
  | nil => rfl
  | cons v args ih =>
    have hv : decodeResult ("0x" ++ hex (cvEncode v)) = .ok v :=
      decodeResult_wire (h v (List.mem_cons_self ..))
    rw [List.map_cons, List.map_cons, List.mapM_cons, hv,
      ih fun w hw => h w (List.mem_cons_of_mem _ hw)]
    rfl

/-- The value of the deciding attempt is the value of the read. -/
theorem callRead_value (hnode : Evaluates config node eval)
    (hwait : config.backoff * config.maxRetries ≤ durationMax)
    (deployer contractName function : String) (tip : Option String) {args : List (List UInt8)}
    {values : List ClarityValue}
    (hargs : (callReadRequest config deployer contractName function args
      tip).arguments.mapM decodeResult = .ok values)
    (hvalue : Carried (eval (callReadRequest config deployer contractName function args
      tip).url values)) :
    (callRead config deployer contractName function args tip node).result =
      .ok (eval (callReadRequest config deployer contractName function args tip).url values) := by
  obtain ⟨k, hk, hbefore, status, reason, text, cause, hlimited, hsuccess, hreply⟩ :=
    hnode _ values hargs
  generalize hrequest : callReadRequest config deployer contractName function args tip = request
    at hbefore hreply hvalue ⊢
  -- attempt `k` decides
  have hstop : (node request k).limited = false := by
    rw [hreply]
    exact decide_eq_false hlimited
  have hdecisive : Retry.decisive (limitedAt (node request)) config.maxRetries 0 = k :=
    Retry.decisive_unique (Nat.zero_le k) (by rwa [Nat.zero_add]) (fun j _ hj => hbefore j hj)
      fun _ => hstop
  have hfits : config.backoff * k ≤ durationMax := (Nat.mul_le_mul_left _ hk).trans hwait
  rw [callRead, hrequest, requestLoop_decided (Nat.zero_add _) (Nat.zero_le _), hdecisive, decided,
    if_pos hfits, hreply]
  dsimp only [outcome]
  rw [callReadFinish, if_neg (not_not.mpr hsuccess)]
  exact decodeResult_wire hvalue

/--
**A read is the function it calls.** Against a node that evaluates a function on the decoded
arguments and limits the rate no longer than the client retries, `call_read` returns the very
value of the function on the caller's very arguments. Both travel as hex of their wire
encoding and are decoded on the other side, so arguments and value have to be carried by it:
ascending tuple names and lengths that fit their fields. The waits fit a `Duration`.
-/
theorem call_read_round_trip (hnode : Evaluates config node eval)
    (hwait : config.backoff * config.maxRetries ≤ durationMax)
    (deployer contractName function : String) (tip : Option String) {args : List ClarityValue}
    (hargs : ∀ v ∈ args, Carried v)
    (hvalue : Carried (eval (callReadRequest config deployer contractName function
      (args.map cvEncode) tip).url args)) :
    (callRead config deployer contractName function (args.map cvEncode) tip node).result =
      .ok (eval (callReadRequest config deployer contractName function (args.map cvEncode)
        tip).url args) :=
  callRead_value hnode hwait deployer contractName function tip
    (arguments_carried deployer contractName function tip hargs) hvalue

end Call

/-- A node that limits the first request of each read. -/
def evalNode (eval : (url : String) → List ClarityValue → ClarityValue)
    (request : CallReadRequest) (attempt : Nat) : RpcReply CallReadEnvelope :=
  if attempt = 0 then .response 429 "Too Many Requests" "" (.error "rate limited")
  else
    match request.arguments.mapM decodeResult with
    | .ok args => .response 200 "OK" ""
        (.ok { okay := true, result := some (wire (eval request.url args)), cause := "None" })
    | .error _ => .response 400 "Bad Request" "" (.error "bad argument")

/-- A node that never limits and evaluates what it is asked. -/
theorem evalNode_evaluates (eval : (url : String) → List ClarityValue → ClarityValue) :
    Evaluates RpcConfig.default (evalNode eval) eval := by
  intro request args hargs
  refine ⟨1, by decide, ?_, 200, "OK", "", "None", by decide, by decide, ?_⟩
  · intro j hj
    obtain rfl : j = 0 := by omega
    rfl
  · rw [evalNode, if_neg Nat.one_ne_zero, hargs]

/-- A function that counts its arguments. -/
theorem call_read_round_trip_count :
    (callRead RpcConfig.default ANCHOR_SENDER "pool" "count"
        ([ClarityValue.bool true, .uint 7].map cvEncode) none
        (evalNode fun _ args => .uint args.length)).result = .ok (.uint 2) :=
  call_read_round_trip (evalNode_evaluates _) (by decide) ANCHOR_SENDER "pool" "count" none
    (by
      intro v hv
      rcases List.mem_pair.mp hv with rfl | rfl
      · exact ⟨trivial, trivial⟩
      · exact ⟨trivial, trivial⟩)
    ⟨trivial, trivial⟩

/-! ## Bootstraps -/

/-- What a lookup passes. -/
def lookupValues (dex : Dex) (tokens : Principal × Principal) : List ClarityValue :=
  match dex with
  | .arkadiko | .velar => [.principal tokens.1, .principal tokens.2]
  | .alex => [.principal tokens.1, .principal tokens.2,
      .uint (BitVec.ofNat 128 CONSTANT_PRODUCT_FACTOR)]

/-- The arguments of a lookup are encodings. -/
theorem lookupArgs_eq (dex : Dex) (tokens : Principal × Principal) :
    lookupArgs dex tokens = (lookupValues dex tokens).map cvEncode := by
  rcases dex with _ | _ | _
  · rfl
  · rfl
  · rfl

section Bootstrap

variable {config : RpcConfig} {sha256 : Sha256} {decimals : Principal → Except Fault Nat}
variable {node : CallReadRequest → (attempt : Nat) → RpcReply CallReadEnvelope}
variable {eval : (url : String) → List ClarityValue → ClarityValue}
variable {dex : Dex} {venue : Venue} {pair : OnChainPair} {tip : Option String} {r : Nat × Nat}

/-- The contract answers both lookups, and every argument and answer can be carried. -/
def Lists (config : RpcConfig) (sha256 : Sha256)
    (eval : (url : String) → List ClarityValue → ClarityValue) (dex : Dex) (venue : Venue)
    (pair : OnChainPair) (tip : Option String) (r : Nat × Nat) : Prop :=
  Carried (.principal pair.token0) ∧ Carried (.principal pair.token1) ∧
    ∃ address name version hash160, venue.lookupContract dex = .contract version hash160 name ∧
      c32EncodeAddress sha256 version hash160 = .ok address ∧
      ∀ order : TokenOrder,
        let tokens := order.orient (pair.token0, pair.token1)
        let url := (callReadRequest config address name (lookupFunction dex)
          (lookupArgs dex tokens) tip).url
        Carried (eval url (lookupValues dex tokens)) ∧
          Answers dex pair r order (eval url (lookupValues dex tokens))

/--
**The bootstraps over HTTP.** From a node whose contract lists the pair in one order,
Arkadiko, Velar and ALEX pools are fetched in either token order, with the tokens and the
reserves on the caller's sides. The lookup travels as hex inside a JSON body and its answer
comes back the same way, after any number of rate limits that the client's retries tolerate.
Both tokens' decimals can be read, and the waits fit a `Duration`.
-/
theorem fetch_over_http (hnode : Evaluates config node eval)
    (hwait : config.backoff * config.maxRetries ≤ durationMax)
    (hlists : Lists config sha256 eval dex venue pair tip r)
    (hdecimals : ∀ t ∈ [pair.token0, pair.token1], ∃ d, decimals t = .ok d) (order : TokenOrder) :
    ∃ p, fetchPool dex (config.toRpc sha256 node decimals) venue
        (order.orient (pair.token0, pair.token1)) tip = .ok p ∧
      Mirrors dex pair order p ∧ p.tokens = order.orient (pair.token0, pair.token1) ∧
      reserves p = order.orient r := by
  obtain ⟨h0, h1, address, name, version, hash160, hcontract, haddress, hanswers⟩ := hlists
  have hserves : Serves dex (config.toRpc sha256 node decimals) venue pair tip r := by
    refine ⟨⟨address, name, ?_, fun order => ?_⟩, hdecimals _ (List.mem_cons_self ..),
      hdecimals _ (List.mem_cons_of_mem _ (List.mem_cons_self ..))⟩
    · rw [hcontract, Rpc.principalParts]
      show c32EncodeAddress sha256 version hash160 >>= _ = _
      rw [haddress]
      rfl
    · obtain ⟨hcarried, hanswer⟩ := hanswers order
      rw [lookupArgs_eq] at hcarried hanswer ⊢
      refine ⟨_, callRead_value hnode hwait address name _ tip
        (arguments_carried address name _ tip ?_) hcarried, hanswer⟩
      -- two principals, and perhaps a number
      have hfirst : Carried (.principal (order.orient (pair.token0, pair.token1)).1) := by
        rcases order with _ | _
        · exact h0
        · exact h1
      have hsecond : Carried (.principal (order.orient (pair.token0, pair.token1)).2) := by
        rcases order with _ | _
        · exact h1
        · exact h0
      have hboth : ∀ v ∈ lookupValues .velar (order.orient (pair.token0, pair.token1)),
          Carried v := by
        intro v hv
        rcases List.mem_pair.mp hv with rfl | rfl
        · exact hfirst
        · exact hsecond
      rcases dex with _ | _ | _
      · exact hboth
      · exact hboth
      · intro v hv
        rcases List.mem_append.mp (show v ∈ lookupValues .velar _ ++ [_] from hv) with hv | hv
        · exact hboth v hv
        · rw [List.mem_singleton.mp hv]
          exact ⟨trivial, trivial⟩
  exact fetchPool_ok hserves order

end Bootstrap

/-- The one pair of the contract, whatever the URL. -/
def usdaDetails (_ : String) (args : List ClarityValue) : ClarityValue :=
  pairDetails 100 200 (args.map cvEncode)

/-- A contract with a short name survives the wire. -/
theorem carried_contract {version : UInt8} {hash160 : Hash160} {name : String}
    (h : (asBytes name).length ≤ 255) : Carried (.principal (.contract version hash160 name)) :=
  ⟨trivial, h⟩

/-- The pair is listed in one order of its tokens. -/
theorem usdaDetails_lists :
    Lists RpcConfig.default burnSha256 usdaDetails .arkadiko arkadikoVenue usdaPair none
      (100, 200) := by
  refine ⟨carried_contract (by decide), carried_contract (by decide),
    "SP000000000000000000002Q6VF78", "arkadiko-swap-v2-1", 22, List.Vector.replicate 20 0, rfl,
    by decide +kernel, ?_⟩
  intro order
  rcases order with _ | _
  -- asked in the order of the contract, the answer is the listing
  · have hcarried : Carried (.responseOk (.optionalSome (.tuple
        [("balance-x", .uint 100), ("balance-y", .uint 200), ("enabled", .bool true),
          ("swap-token", .principal usdaPair.lpToken)]))) := by
      refine ⟨⟨by decide, trivial, trivial, trivial, trivial, trivial⟩, ?_⟩
      simp only [ClarityValue.LengthsFit, fieldsFit, usdaPair, deployed]
      decide
    exact ⟨hcarried, _, .arkadikoSome _, rfl, rfl, rfl, Or.inr ⟨true, rfl⟩⟩
  · -- the other order is another argument list, so the lookup finds nothing
    have hother : lookupArgs .arkadiko (usdaPair.token1, usdaPair.token0) ≠
        lookupArgs .arkadiko (usdaPair.token0, usdaPair.token1) := by decide +kernel
    have hnone : ∀ url, usdaDetails url (lookupValues .arkadiko
        (TokenOrder.reversed.orient (usdaPair.token0, usdaPair.token1))) =
        .responseOk .optionalNone := by
      intro url
      rw [usdaDetails, pairDetails, ← lookupArgs_eq]
      exact if_neg hother
    dsimp only
    rw [hnone]
    exact ⟨⟨trivial, trivial⟩, .arkadiko⟩

/-- Asked for in the other order, the pair comes with its tokens and reserves turned round. -/
theorem fetch_over_http_usda :
    ∃ p, fetchPool .arkadiko
        (RpcConfig.default.toRpc burnSha256 (evalNode usdaDetails) fun _ => .ok 6) arkadikoVenue
        (deployed "usda", deployed "wstx") none = .ok p ∧
      Mirrors .arkadiko usdaPair .reversed p ∧
      p.tokens = (deployed "usda", deployed "wstx") ∧ reserves p = (200, 100) :=
  fetch_over_http (evalNode_evaluates _) (by decide) usdaDetails_lists
    (fun _ _ => ⟨6, rfl⟩) .reversed

end StacksDex.Results
