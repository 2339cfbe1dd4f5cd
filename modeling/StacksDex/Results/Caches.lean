import StacksDex.Model.Caches
import StacksDex.Results.Address
import StacksDex.Results.Readers

/-!
# StacksDex — what the caches answer

The decimals of a token are cached by its text, and two principals that have a text have
different ones: whatever the calls in progress do to each other, `decimals` answers what the
token's contract says (`decimals_cache_truthful`). The factors of a core are cached by the
`bin_step` alone: `get_or_fetch` answers what the core says in every run exactly when the cores
in use agree with each other (`factor_cache_truthful_iff`).

Both are instances of `Lib/Memo.lean`, in which a cache is truthful in every run exactly when
the key separates what is asked for. What is proved here is that the text does and the
`bin_step` alone does not.

A call without interruption is the source's function (`decimals_undisturbed`,
`factors_undisturbed`), so the steps of the run are the source's as well.
-/

namespace StacksDex.Results

open StacksDex.Lib StacksDex.Model

/-! ## Texts tell principals apart -/

/-- The text ends with the address, or has it before its first dot. -/
theorem display_parts (sha256 : Sha256) {p : Principal} {text : String}
    (h : p.display sha256 = .ok text) :
    ∃ addr, stacksAddrDecode sha256 addr = .ok p.address ∧
      match p with
      | .standard _ _ => text = addr ∧ splitOnce '.' text.toList = none
      | .contract _ _ name => splitOnce '.' text.toList = some (addr.toList, name.toList) := by
  have hversion : p.address.1.toNat < 32 := by
    by_contra hnot
    obtain ⟨msg, hpanic⟩ := display_panics sha256 (not_lt.mp hnot)
    rw [hpanic] at h
    cases h
  obtain ⟨addr, hencode, hdecode, hdot⟩ :=
    stacksAddrDecode_c32EncodeAddress sha256 hversion p.address.2
  rw [Principal.display, hencode, ok_bind] at h
  refine ⟨addr, hdecode, ?_⟩
  rcases p with ⟨version, hash160⟩ | ⟨version, hash160, name⟩
  · obtain rfl := Except.ok.inj h
    exact ⟨rfl, splitOnce_none hdot⟩
  · obtain rfl := Except.ok.inj h
    have hchars : (addr ++ "." ++ name).toList = addr.toList ++ '.' :: name.toList := by simp
    show splitOnce '.' (addr ++ "." ++ name).toList = _
    rw [hchars, splitOnce_append hdot]

/-- Whatever the names of contracts are. -/
theorem display_injective (sha256 : Sha256) {p q : Principal} {text : String}
    (hp : p.display sha256 = .ok text) (hq : q.display sha256 = .ok text) : p = q := by
  obtain ⟨addr, hdecode, hparts⟩ := display_parts sha256 hp
  obtain ⟨addr', hdecode', hparts'⟩ := display_parts sha256 hq
  rcases p with ⟨version, hash160⟩ | ⟨version, hash160, name⟩ <;>
    rcases q with ⟨version', hash160'⟩ | ⟨version', hash160', name'⟩
  · rw [← hparts.1, hparts'.1, hdecode'] at hdecode
    obtain ⟨rfl, rfl⟩ := Prod.mk.inj (Except.ok.inj hdecode)
    rfl
  · rw [hparts.2] at hparts'
    cases hparts'
  · rw [hparts'.2] at hparts
    cases hparts
  · dsimp only at hparts hparts'
    rw [hparts] at hparts'
    obtain ⟨haddr, hname⟩ := Prod.mk.inj (Option.some.inj hparts')
    obtain rfl := String.toList_inj.mp haddr
    obtain rfl := String.toList_inj.mp hname
    rw [hdecode] at hdecode'
    obtain ⟨rfl, rfl⟩ := Prod.mk.inj (Except.ok.inj hdecode')
    rfl

/-! ## Decimals -/

section Decimals

variable {ι : Type} [DecidableEq ι] {sha256 : Sha256} {chain : Principal → Option Nat}

/-- The calls that share a `StacksTokenInfo`, step by step. -/
def decimalsStep (sha256 : Sha256) : DecimalsCalls ι → DecimalsStep ι → DecimalsCalls ι :=
  Memo.through (Principal.display sha256) (DecimalsStep.decode sha256)

/-- A request fails or is answered with what the contract says, and so is what is inserted. -/
def HonestDecimals (chain : Principal → Option Nat) (s : DecimalsCalls ι) :
    DecimalsStep ι → Prop
  | .call _ _ => True
  | .answer i rpc => ∀ token, s.waiting i = some token →
    ∀ d, rpc.getDecimals token = .ok d → chain token = some d
  | .insert token d => chain token = some d

/-- `ok()` of a computation that returned. -/
theorem toOption_eq_some {α : Type} {x : Except Fault α} {a : α} :
    x.toOption = some a ↔ x = .ok a := by
  rcases x with fault | b <;> simp [Except.toOption]

omit [DecidableEq ι] in
/-- An honest step of the decimals cache is an honest step of the cache behind it, keyed by the
token's text. -/
theorem HonestDecimals.through {s : DecimalsCalls ι} {l : DecimalsStep ι}
    (h : HonestDecimals chain s l) :
    Memo.HonestThrough (Principal.display sha256) chain
      (fun token => ∃ text, token.display sha256 = .ok text) (DecimalsStep.decode sha256) s l := by
  intro l' hl'
  rcases l with ⟨i, token⟩ | ⟨i, rpc⟩ | ⟨token, d⟩
  -- only a token with a text gets as far as the cache
  case call =>
    rw [DecimalsStep.decode] at hl'
    split at hl'
    · rename_i text htext
      obtain rfl := Option.some.inj hl'
      exact ⟨text, htext⟩
    · cases hl'
  case answer =>
    obtain ⟨token, hwaiting, rfl⟩ := Option.map_eq_some_iff.mp hl'
    intro token' d hwaiting' hd
    rw [hwaiting] at hwaiting'
    obtain rfl := Option.some.inj hwaiting'
    exact h token hwaiting d (toOption_eq_some.mp hd)
  -- a token with the same text is the same token
  case insert =>
    rw [DecimalsStep.decode] at hl'
    split at hl'
    · rename_i text htext
      obtain rfl := Option.some.inj hl'
      rintro token' - htext'
      rw [display_injective sha256 htext' htext]
      exact h
    · cases hl'

/-- A call that nobody comes between answers, caches and fails as `decimals` does. -/
theorem decimals_undisturbed {s : DecimalsCalls ι} {i : ι} (hfree : s.waiting i = none)
    {rpc : Rpc} {token : Principal} {text : String} (htext : token.display rpc.sha256 = .ok text) :
    let s' := Run.exec (decimalsStep rpc.sha256) s [.call i token, .answer i rpc]
    s'.waiting = s.waiting ∧
      match rpc.tokenDecimals s.cache token with
      | .ok d => s'.answers = (token, d) :: s.answers ∧ s'.cache (.ok text) = some d
      | .error _ => s'.answers = s.answers ∧ s'.cache = s.cache := by
  have hrestore : Function.update (Function.update s.waiting i (some token)) i none =
      s.waiting := by rw [Function.update_idem, ← hfree, Function.update_eq_self]
  rw [Rpc.tokenDecimals, htext, ok_bind]
  rcases hcached : s.cache (.ok text) with _ | d
  · rcases hd : rpc.getDecimals token with fault | d <;>
      simp [decimalsStep, Memo.through, DecimalsStep.decode, Memo.step, htext, hfree, hcached,
        hd, Except.toOption, hrestore]
  · simp [decimalsStep, Memo.through, DecimalsStep.decode, Memo.step, htext, hfree, hcached]

/--
**`decimals` tells the truth.** Whatever calls are in progress at once, in whatever order
their lookups and answers fall, and whichever of their requests fail, every answer is what the
token's contract says, as long as the node and the callers of `insert` say that too. The key
is the token's text, and two tokens that have a text have different ones, so no call can be
answered with what another token's call has stored.
-/
theorem decimals_cache_truthful {steps : List (DecimalsStep ι)}
    (hrun : Run.Along (decimalsStep sha256) (HonestDecimals chain) Memo.start steps) :
    Run.Always (decimalsStep sha256)
      (fun s => ∀ token d, (token, d) ∈ s.answers → chain token = some d) Memo.start steps := by
  have hkeys : Memo.Separates (Principal.display sha256) chain
      fun token => ∃ text, token.display sha256 = .ok text := by
    rintro token token' ⟨text, htext⟩ - hkey
    rw [display_injective sha256 htext (hkey ▸ htext)]
  exact Memo.truthful_through hkeys (hrun.mono fun s l h => h.through)

end Decimals

/-- Two contracts of one deployer. -/
def sbtcToken : Principal := .contract 20 (.replicate 20 11) "sbtc-token"
def usdaToken : Principal := .contract 20 (.replicate 20 11) "usda-token"

/-- A node that says eight decimals of the one token and six of any other. -/
def decimalsNode : Rpc where
  sha256 := burnSha256
  callRead := fun _ name _ _ _ =>
    .ok (.responseOk (.uint (if name = "sbtc-token" then 8 else 6)))
  decimals := fun _ => .error (.err "no table")

/-- Two callers ask for the one token and one for the other before any is answered, and a fourth
finds the first one's answer cached. -/
def sbtcCalls : List (DecimalsStep (Fin 4)) :=
  [.call 0 sbtcToken, .call 1 sbtcToken, .call 2 usdaToken, .answer 1 decimalsNode,
    .call 3 sbtcToken, .answer 2 decimalsNode, .answer 0 decimalsNode]

/-- Their contracts say eight and six, and no other token is there. -/
def sbtcChain : Principal → Option Nat := fun token =>
  if token = sbtcToken then some 8 else if token = usdaToken then some 6 else none

/-- Four answers, three of them cached or about to be, and none mixes up the two tokens. -/
theorem decimals_cache_truthful_sbtc :
    Run.Always (decimalsStep burnSha256)
      (fun s => ∀ token d, (token, d) ∈ s.answers → sbtcChain token = some d)
      Memo.start sbtcCalls ∧
    (Run.exec (decimalsStep burnSha256) Memo.start sbtcCalls).answers =
      [(sbtcToken, 8), (usdaToken, 6), (sbtcToken, 8), (sbtcToken, 8)] := by
  have hsbtc : ∀ token d, some sbtcToken = some token →
      decimalsNode.getDecimals token = .ok d → sbtcChain token = some d := by
    intro token d htoken hd
    obtain rfl := Option.some.inj htoken
    have height : decimalsNode.getDecimals sbtcToken = .ok 8 := by decide
    obtain rfl := Except.ok.inj (height.symm.trans hd)
    exact if_pos rfl
  have husda : ∀ token d, some usdaToken = some token →
      decimalsNode.getDecimals token = .ok d → sbtcChain token = some d := by
    intro token d htoken hd
    obtain rfl := Option.some.inj htoken
    have hsix : decimalsNode.getDecimals usdaToken = .ok 6 := by decide
    obtain rfl := Except.ok.inj (hsix.symm.trans hd)
    decide
  refine ⟨decimals_cache_truthful ⟨trivial, trivial, trivial, fun token h d => ?_, trivial,
    fun token h d => ?_, fun token h d => ?_, trivial⟩, by decide⟩
  · exact hsbtc token d h
  · exact husda token d h
  · exact hsbtc token d h

/-! ## Factors -/

section Factors

variable {ι : Type} [DecidableEq ι] {chain : Principal → Nat → Option (List (BitVec 128))}
  {cores : Principal → Prop}

/-- The calls that share `GLOBAL`, step by step. -/
def factorStep : FactorCalls ι → FactorStep ι → FactorCalls ι :=
  Memo.through Prod.snd FactorStep.decode

/-- The list a core has for a `bin_step`. -/
def factorsOf (chain : Principal → Nat → Option (List (BitVec 128))) (q : Principal × Nat) :
    Option (List Nat) :=
  (chain q.1 q.2).map (List.map BitVec.toNat)

/-- Calls are about the cores in use. A request fails or is answered with the core's list, and
what is inserted is the list of every core. -/
def HonestFactors (chain : Principal → Nat → Option (List (BitVec 128))) (cores : Principal → Prop)
    (s : FactorCalls ι) : FactorStep ι → Prop
  | .call _ core binStep => cores core ∧ binStep ≤ u32Max
  | .answer i rpc => ∀ q, s.waiting i = some q →
    ∀ factors, rpc.fetchFactors q.1 q.2 = .ok factors → factorsOf chain q = some factors
  | .insert binStep factors => ∀ core, cores core → binStep ≤ u32Max →
    factorsOf chain (core, binStep) = some factors

/-- What `get_or_fetch` is asked. -/
def Asked (cores : Principal → Prop) (q : Principal × Nat) : Prop :=
  cores q.1 ∧ q.2 ≤ u32Max

omit [DecidableEq ι] in
/-- The same for the factors, keyed by the bin step. -/
theorem honestFactors_iff {s : FactorCalls ι} {l : FactorStep ι} :
    HonestFactors chain cores s l ↔
      Memo.HonestThrough Prod.snd (factorsOf chain) (Asked cores) FactorStep.decode s l := by
  rcases l with ⟨i, core, binStep⟩ | ⟨i, rpc⟩ | ⟨binStep, factors⟩
  case call => simp [HonestFactors, Memo.HonestThrough, FactorStep.decode, Memo.Honest, Asked]
  case answer =>
    rcases hq : s.waiting i with _ | q
    · simp [HonestFactors, Memo.HonestThrough, FactorStep.decode, hq]
    · simp only [HonestFactors, Memo.HonestThrough, FactorStep.decode, Memo.Honest, hq,
        Option.map_some, Option.some.injEq, forall_eq', toOption_eq_some]
      exact ⟨fun h q' b hq' => hq' ▸ h b, fun h b => h q b rfl⟩
  case insert =>
    simp only [HonestFactors, Memo.HonestThrough, FactorStep.decode, Memo.Honest, Asked,
      Option.some.injEq, forall_eq']
    constructor
    · rintro h ⟨core, _⟩ ⟨hcore, hfit⟩ rfl
      exact h core hcore hfit
    · exact fun h core hcore hfit => h (core, binStep) ⟨hcore, hfit⟩ rfl

/-- A list of unsigned integers is read as their values. -/
theorem mapM_asUint (sha256 : Sha256) (factors : List (BitVec 128)) :
    (factors.map ClarityValue.uint).mapM (fun item => item.asUint sha256) =
      .ok (factors.map BitVec.toNat) := by
  induction factors with
  | nil => rfl
  | cons factor rest ih =>
    rw [List.map_cons, List.mapM_cons, ih]
    rfl

/-- A node that has one list for everybody. -/
def tableNode (factors : List (BitVec 128)) : Rpc where
  sha256 := burnSha256
  callRead := fun _ _ _ _ _ => .ok (.responseOk (.optionalSome (.list (factors.map .uint))))
  decimals := fun _ => .error (.err "no table")

/-- A node that answers a list makes `get_or_fetch` return it. -/
theorem fetchFactors_tableNode (factors : List (BitVec 128)) {version : UInt8}
    (hversion : version.toNat < 32) (hash160 : Hash160) (name : String) (binStep : Nat) :
    (tableNode factors).fetchFactors (.contract version hash160 name) binStep =
      .ok (factors.map BitVec.toNat) := by
  obtain ⟨addr, hencode, -⟩ := stacksAddrDecode_c32EncodeAddress burnSha256 hversion hash160
  have haddr : c32EncodeAddress (tableNode factors).sha256 version hash160 = .ok addr := hencode
  have hread : ∀ args, (tableNode factors).callRead addr name "get-bin-factors-by-step" args none =
      .ok (.responseOk (.optionalSome (.list (factors.map .uint)))) := fun _ => rfl
  simp only [Rpc.fetchFactors, Rpc.getOrFetch, haddr, ok_bind, hread, ClarityValue.unwrapOk]
  exact mapM_asUint ..

/-- A call that nobody comes between answers, caches and fails as `get_or_fetch` does. -/
theorem factors_undisturbed {s : FactorCalls ι} {i : ι} (hfree : s.waiting i = none) (rpc : Rpc)
    (core : Principal) (binStep : Nat) :
    let s' := Run.exec factorStep s [.call i core binStep, .answer i rpc]
    s'.waiting = s.waiting ∧
      match rpc.getOrFetch s.cache core binStep with
      | .ok factors => s'.answers = ((core, binStep), factors) :: s.answers ∧
          s'.cache binStep = some factors
      | .error _ => s'.answers = s.answers ∧ s'.cache = s.cache := by
  have hrestore : Function.update (Function.update s.waiting i (some (core, binStep))) i none =
      s.waiting := by rw [Function.update_idem, ← hfree, Function.update_eq_self]
  rcases hcached : s.cache binStep with _ | factors
  · have hfetch : rpc.getOrFetch s.cache core binStep = rpc.fetchFactors core binStep := by
      simp only [Rpc.fetchFactors, Rpc.getOrFetch, hcached]
    rw [hfetch]
    rcases hfactors : rpc.fetchFactors core binStep with fault | factors <;>
      simp [factorStep, Memo.through, FactorStep.decode, Memo.step, hfree, hcached, hfactors,
        Except.toOption, hrestore]
  · simp [factorStep, Memo.through, FactorStep.decode, Memo.step, hfree, hcached, Rpc.getOrFetch]

/--
**One cache for all cores.** `get_or_fetch` answers what the core says in every run, with
truthful answers and inserts, exactly when the cores in use have the same list for every
`bin_step`. The key is the `bin_step` alone: two cores that differ at one of them give a run
in which the second is answered with the list of the first. The cores are contracts with an
address, so that they can be asked at all.
-/
theorem factor_cache_truthful_iff (i : ι)
    (hcores : ∀ core, cores core → ∃ (version : UInt8) (hash160 : Hash160) (name : String),
      version.toNat < 32 ∧ core = .contract version hash160 name) :
    (∀ steps : List (FactorStep ι),
      Run.Along factorStep (HonestFactors chain cores) Memo.start steps →
        Run.Always factorStep (fun s => ∀ core binStep factors,
          ((core, binStep), factors) ∈ s.answers →
            factorsOf chain (core, binStep) = some factors) Memo.start steps) ↔
      ∀ core core' binStep, cores core → cores core' → binStep ≤ u32Max →
        chain core binStep = chain core' binStep := by
  -- every core in use can be asked, and its answer can arrive
  have hask : ∀ (s : FactorCalls ι) (q : Principal × Nat), Asked cores q →
      ∃ l, FactorStep.decode s l = some (.ask i q) := fun s q _ => ⟨.call i q.1 q.2, rfl⟩
  have hland : ∀ (s : FactorCalls ι) (q : Principal × Nat) (b : List Nat),
      s.waiting i = some q → Asked cores q → factorsOf chain q = some b →
        ∃ l, FactorStep.decode s l = some (.land i (some b)) := by
    rintro s ⟨core, binStep⟩ b hwaiting ⟨hcore, -⟩ hb
    obtain ⟨factors, -, rfl⟩ := Option.map_eq_some_iff.mp hb
    obtain ⟨version, hash160, name, hversion, rfl⟩ := hcores core hcore
    refine ⟨.answer i (tableNode factors), ?_⟩
    simp only [FactorStep.decode, hwaiting, Option.map_some,
      fetchFactors_tableNode factors hversion]
    rfl
  -- the general cache theorem, with the `bin_step` as the key
  have hiff : _ ↔ Memo.Separates Prod.snd (factorsOf chain) (Asked cores) :=
    Memo.truthful_iff i hask hland
  refine Iff.trans ?_ (hiff.trans ?_)
  · refine forall_congr' fun steps => imp_congr ?_ ?_
    · exact ⟨fun h => h.mono fun _ _ => honestFactors_iff.mp,
        fun h => h.mono fun _ _ => honestFactors_iff.mpr⟩
    · exact ⟨fun h => h.mono fun s hs (q : Principal × Nat) b => hs q.1 q.2 b,
        fun h => h.mono fun s hs core binStep b => hs (core, binStep) b⟩
  -- one list for a `bin_step` is what the key asks for
  · constructor
    · intro h core core' binStep hcore hcore' hfit
      exact Option.map_injective (List.map_injective_iff.mpr fun _ _ => BitVec.eq_of_toNat_eq)
        (h (core, binStep) (core', binStep) ⟨hcore, hfit⟩ ⟨hcore', hfit⟩ rfl)
    · rintro h ⟨core, binStep⟩ ⟨core', _⟩ ⟨hcore, hfit⟩ ⟨hcore', -⟩ rfl
      rw [factorsOf, factorsOf, h core core' binStep hcore hcore' hfit]

end Factors

/-- Two cores of one deployer. -/
def coreAt (n : Fin 2) : Principal :=
  .contract 20 (.replicate 20 12) (if n = 0 then "dlmm-core-v-1-1" else "dlmm-core-v-1-2")

/-- The second has another list, for one `bin_step`. -/
def twoLists (core : Principal) (binStep : Nat) : Option (List (BitVec 128)) :=
  some (if core = coreAt 1 ∧ binStep = 25 then [2] else [1])

/-- With both in use some answer is wrong. -/
theorem factor_cache_truthful_iff_twoCores :
    ¬ ∀ steps : List (FactorStep (Fin 1)),
      Run.Along factorStep (HonestFactors twoLists fun core => ∃ n, core = coreAt n)
          Memo.start steps →
        Run.Always factorStep (fun s => ∀ core binStep factors,
          ((core, binStep), factors) ∈ s.answers →
            factorsOf twoLists (core, binStep) = some factors) Memo.start steps := by
  intro h
  have hcores : ∀ core, (∃ n, core = coreAt n) → ∃ (version : UInt8) (hash160 : Hash160)
      (name : String), version.toNat < 32 ∧ core = .contract version hash160 name := by
    rintro core ⟨n, rfl⟩
    exact ⟨20, _, _, by decide, rfl⟩
  have hsame := (factor_cache_truthful_iff 0 hcores).mp h (coreAt 0) (coreAt 1) 25 ⟨0, rfl⟩
    ⟨1, rfl⟩ (by decide)
  revert hsame
  decide

end StacksDex.Results
