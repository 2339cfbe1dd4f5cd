import StacksDex.Bridge.DlmmWalk
import StacksDex.Results.BulkReads
import StacksDex.Results.Quotes

/-!
# StacksDex — which bins a quote depends on

* A mirror of a window around the active bin quotes a lower bound of the full pool's
  quote, and the same quote as long as it does not report the window exhausted.
* An empty bin is as good as a missing one. Events store an emptied bin as `(0, 0)`,
  a bootstrap leaves it out; the two quote alike.

## Main results

* `window_quotes_lower_bound`, for every radius: the rungs of the window are the first of the
  pool's (`rungsFrom_windowed_prefix`), and a climb along a part of the rungs pays no more.
* `empty_bins_invisible`: dropping the empty bins changes no quote, and a fresh bootstrap that
  shows what a mirror shows is that mirror without them.

`Alike` is the relation behind the second: two pools that show the same balances under every
id and agree on prices, fees and the active bin.
-/

namespace StacksDex.Results

open StacksDex.Lib StacksDex.Model StacksDex.Bridge

/-- The pool with only the bins that pass a test. -/
def keepBins (pool : DLMMPool) (test : Int → BinState → Bool) : DLMMPool :=
  { pool with bins := pool.bins.filter test }

/-- Keeping some of the bins keeps their rungs. -/
theorem rungAt_keepBins (pool : DLMMPool) (test : Int → BinState → Bool) (binId : Int) :
    rungAt (keepBins pool test) binId = (rungAt pool binId).filter fun r => test r.1 r.2 := by
  have hbin : (keepBins pool test).bins[binId]? = pool.bins[binId]?.filter (test binId) :=
    Std.ExtTreeMap.getElem?_filter'
  rw [rungAt, rungAt, hbin]
  rcases pool.bins[binId]? with _ | b
  · rfl
  by_cases hempty : b.x = 0 ∧ b.y = 0
  · -- an empty bin is no rung, whether it passes or not
    rcases htest : test binId b with _ | _
    · simp [Option.filter, htest, hempty]
    · simp [Option.filter, htest, hempty]
  · rcases htest : test binId b with _ | _
    · simp [Option.filter, htest, hempty]
    · simp [Option.filter, htest, hempty]

/-! ## Windows -/

/-- The pool as a mirror of the bins within `radius` of the active one has it. -/
def windowed (pool : DLMMPool) (radius : Int) : DLMMPool :=
  keepBins pool fun binId _ => decide (|binId - pool.activeBinId| ≤ radius)

/-- Seen from `origin`, an id on the walk's way. -/
def Ahead (d : Direction) (origin binId : Int) : Prop :=
  match d with
  | .xForY => binId ≤ origin
  | .yForX => origin ≤ binId

/-- A walk moves away from where it started. -/
theorem ahead_next {d : Direction} {origin binId : Int} (h : Ahead d origin binId) :
    Ahead d origin (d.next binId) ∧ |binId - origin| ≤ |d.next binId - origin| := by
  cases d
  · have hle : binId ≤ origin := h
    refine ⟨show binId - 1 ≤ origin by omega, ?_⟩
    show |binId - origin| ≤ |binId - 1 - origin|
    rw [abs_of_nonpos (by omega), abs_of_nonpos (by omega)]
    omega
  · have hle : origin ≤ binId := h
    refine ⟨show origin ≤ binId + 1 by omega, ?_⟩
    show |binId - origin| ≤ |binId + 1 - origin|
    rw [abs_of_nonneg (by omega), abs_of_nonneg (by omega)]
    omega

/-- Once out of the window, a walk meets no bin of it again. -/
theorem rungsFrom_windowed_eq_nil {pool : DLMMPool} {d : Direction} {radius : Int} {n : Nat}
    {binId : Int} (hahead : Ahead d pool.activeBinId binId)
    (hout : ¬ |binId - pool.activeBinId| ≤ radius) :
    rungsFrom (windowed pool radius) d n binId = [] := by
  induction n generalizing binId with
  | zero => rfl
  | succ n ih =>
    obtain ⟨hnext, hfurther⟩ := ahead_next hahead
    rw [rungsFrom_succ, ih hnext (by omega), windowed, rungAt_keepBins]
    rcases hrung : rungAt pool binId with _ | r
    · rfl
    · simp [Option.filter, (rungAt_eq_some hrung).1, hout]

/-- **The window comes first.** The rungs of the window are those of the pool, up to where the
window ends. -/
theorem rungsFrom_windowed_prefix {pool : DLMMPool} {d : Direction} (radius : Int) (n : Nat)
    {binId : Int} (hahead : Ahead d pool.activeBinId binId) :
    rungsFrom (windowed pool radius) d n binId <+: rungsFrom pool d n binId := by
  induction n generalizing binId with
  | zero => exact List.prefix_rfl
  | succ n ih =>
    by_cases hin : |binId - pool.activeBinId| ≤ radius
    · -- in the window, the two pools have the same bin
      have hsame : rungAt (windowed pool radius) binId = rungAt pool binId := by
        rw [windowed, rungAt_keepBins]
        rcases hrung : rungAt pool binId with _ | r
        · rfl
        · simp [Option.filter, (rungAt_eq_some hrung).1, hin]
      rw [rungsFrom_succ, rungsFrom_succ, hsame]
      exact (List.prefix_append_right_inj _).mpr (ih (ahead_next hahead).1)
    · rw [rungsFrom_windowed_eq_nil hahead hin]
      exact List.nil_prefix

/-- In one direction of the swap: the window pays no more, and the same unless exhausted. -/
theorem windowed_quote_le (checks : Bool) {pool : DLMMPool} {d : Direction}
    (hfee : (pool.fees d).total < FEE_SCALE_BPS) (radius : Int) (amount : Nat) :
    ∃ q w, pool.quote checks d amount = .ok q ∧
      (windowed pool radius).quote checks d amount = .ok w ∧ w.1 ≤ q.1 ∧
      (w.2.2 = false → w = q) := by
  have hahead : Ahead d pool.activeBinId pool.activeBinId := by
    cases d
    · exact le_refl pool.activeBinId
    · exact le_refl pool.activeBinId
  obtain ⟨more, hmore⟩ : rungs (windowed pool radius) d <+: rungs pool d :=
    rungsFrom_windowed_prefix radius _ hahead
  have hfeeWindowed : ((windowed pool radius).fees d).total < FEE_SCALE_BPS := hfee
  refine ⟨_, _, quote_eq_climb hfee amount, quote_eq_climb hfeeWindowed amount, ?_, ?_⟩
  · -- the bins behind the window only add
    rw [← hmore]
    have hpaid := Ladder.climb_append_paid_le (drawAt pool d) (rungs (windowed pool radius) d)
      more amount
    exact min_le_min_right _ (Nat.add_le_add_left hpaid 0)
  · intro hnot
    -- not exhausted: the walk ends in the window, with nothing left for the bins behind it
    have hspent : (Ladder.climb (drawAt pool d) (rungs (windowed pool radius) d) amount).left = 0 :=
      Nat.eq_zero_of_not_pos (of_decide_eq_false hnot)
    rw [← hmore, Ladder.climb_append_of_spent _ (drawAt_zero pool d) hspent]
    rfl

/--
**A window quotes a lower bound**, and the full pool's very quote as long as it is not
exhausted, at every radius, in both directions and in every build. The walk of the window is a
prefix of the full walk: what lies behind it is only reached with input left over, and then
only adds to the output. The fees are below all of the input.
-/
theorem window_quotes_lower_bound (checks : Bool) (pool : DLMMPool) (radius : Int) :
    ((pool.fees .xForY).total < FEE_SCALE_BPS → ∀ amount,
      ∃ q w, pool.quoteXForY checks amount = .ok q ∧
        (windowed pool radius).quoteXForY checks amount = .ok w ∧ w.1 ≤ q.1 ∧
        (w.2.2 = false → w = q)) ∧
    ((pool.fees .yForX).total < FEE_SCALE_BPS → ∀ amount,
      ∃ q w, pool.quoteYForX checks amount = .ok q ∧
        (windowed pool radius).quoteYForX checks amount = .ok w ∧ w.1 ≤ q.1 ∧
        (w.2.2 = false → w = q)) :=
  ⟨fun hfee => windowed_quote_le checks hfee radius,
    fun hfee => windowed_quote_le checks hfee radius⟩

/-- The one-sided pool and its active bin alone, both ways. -/
theorem window_quotes_lower_bound_oneSided :
    (∃ q w, oneSidedPool.quoteXForY false 500 = .ok q ∧
      (windowed oneSidedPool 0).quoteXForY false 500 = .ok w ∧ w.1 ≤ q.1 ∧
      (w.2.2 = false → w = q)) ∧
    (∃ q w, oneSidedPool.quoteYForX false 500 = .ok q ∧
      (windowed oneSidedPool 0).quoteYForX false 500 = .ok w ∧ w.1 ≤ q.1 ∧
      (w.2.2 = false → w = q)) :=
  ⟨(window_quotes_lower_bound false oneSidedPool 0).1 (by decide) 500,
    (window_quotes_lower_bound false oneSidedPool 0).2 (by decide) 500⟩

/-! ## Empty bins -/

/-- The pool without its empty bins. -/
def dropEmpty (pool : DLMMPool) : DLMMPool :=
  keepBins pool fun _ b => decide (b.x > 0 ∨ b.y > 0)

/-- No quote tells the two pools apart: the prices and the fees are the same, and so is what
the bins show, a missing one being an empty one. -/
structure Alike (p q : DLMMPool) : Prop where
  active : p.activeBinId = q.activeBinId
  initialPrice : p.initialPrice = q.initialPrice
  factors : p.factors = q.factors
  fees : ∀ d, p.fees d = q.fees d
  shown : ∀ binId, valueAt p.bins binId = valueAt q.bins binId

/-- A rung is a bin that shows something. -/
theorem rungAt_eq_of_shown (pool : DLMMPool) (binId : Int) :
    rungAt pool binId =
      if valueAt pool.bins binId = (0, 0) then none
      else some (binId, ⟨(valueAt pool.bins binId).1, (valueAt pool.bins binId).2⟩) := by
  rw [rungAt, valueAt]
  rcases pool.bins[binId]? with _ | b
  · rfl
  · simp only [Prod.mk.injEq]

/-- Pools that are alike quote alike. -/
theorem Alike.quote_eq (checks : Bool) {p q : DLMMPool} (h : Alike p q) {d : Direction}
    (hfee : (p.fees d).total < FEE_SCALE_BPS) (amount : Nat) :
    p.quote checks d amount = q.quote checks d amount := by
  have hrungs : rungs p d = rungs q d := by
    rw [rungs, rungs, h.active]
    refine List.filterMap_congr fun binId _ => ?_
    rw [rungAt_eq_of_shown, rungAt_eq_of_shown, h.shown]
  have hdraw : drawAt p d = drawAt q d := by
    funext r left
    have hprice : p.priceAt r.1 = q.priceAt r.1 := by
      rw [DLMMPool.priceAt, DLMMPool.priceAt, h.initialPrice, h.factors]
    have hstep : p.swapStep true d left r.2 = q.swapStep true d left r.2 := by
      funext bp
      cases d
      · exact congrArg (singleBinSwapXForY true left r.2.y bp) (h.fees .xForY)
      · exact congrArg (singleBinSwapYForX true left r.2.x bp) (h.fees .yForX)
    rw [drawAt, drawAt, hprice, hstep]
  have hfee' : (q.fees d).total < FEE_SCALE_BPS := (h.fees d) ▸ hfee
  rw [quote_eq_climb hfee, quote_eq_climb hfee', hrungs, hdraw]

/-- A pool shows the same with and without its empty bins. -/
theorem alike_dropEmpty (pool : DLMMPool) : Alike pool (dropEmpty pool) := by
  refine ⟨rfl, rfl, rfl, fun d => ?_, fun binId => ?_⟩
  · cases d
    · rfl
    · rfl
  · have hbin : (dropEmpty pool).bins[binId]? =
        pool.bins[binId]?.filter fun b => decide (b.x > 0 ∨ b.y > 0) :=
      Std.ExtTreeMap.getElem?_filter'
    rw [valueAt, valueAt, hbin]
    rcases pool.bins[binId]? with _ | b
    · rfl
    -- what is dropped showed `(0, 0)` before
    by_cases hkeep : b.x > 0 ∨ b.y > 0
    · simp [Option.filter, hkeep]
    · simp only [Option.filter, hkeep, decide_false, Bool.false_eq_true, if_false, Prod.mk.injEq]
      omega

/-- What a bootstrap mirrors, when it shows what the mirror does, is the mirror without its
empty bins. -/
theorem fetched_bins_eq {rpc : Rpc} {env : FetchEnv} {poolContract coreContract : Principal}
    {mode : BootstrapMode} {tip : Option String} {fresh mirror : DLMMPool}
    (h : rpc.fetchDlmmPool env poolContract coreContract mode tip = .ok fresh)
    (hshown : ∀ binId, valueAt mirror.bins binId = valueAt fresh.bins binId) :
    fresh.bins = (dropEmpty mirror).bins := by
  obtain ⟨deployer, name, _, _, _, _, activeBinId, -, -, -, -, -, -, hbins⟩ :=
    fetchDlmmPool_reads h
  have hholds : HoldsSomething fresh.bins := holdsSomething_fetchBins hbins
  refine Std.ExtTreeMap.ext_getElem? fun binId => ?_
  have hbin : (dropEmpty mirror).bins[binId]? =
      mirror.bins[binId]?.filter fun b => decide (b.x > 0 ∨ b.y > 0) :=
    Std.ExtTreeMap.getElem?_filter'
  have hsame := hshown binId
  rw [valueAt, valueAt] at hsame
  rw [hbin]
  -- a bin of the one map that holds something is a bin of the other
  rcases hfresh : fresh.bins[binId]? with _ | ⟨x, y⟩
  · rcases hmirror : mirror.bins[binId]? with _ | b
    · rfl
    · rw [hfresh, hmirror] at hsame
      obtain ⟨hx, hy⟩ := Prod.mk.inj hsame
      simp [Option.filter, hx, hy]
  · have hpos : x > 0 ∨ y > 0 := hholds binId _ hfresh
    rcases hmirror : mirror.bins[binId]? with _ | b
    · rw [hfresh, hmirror] at hsame
      obtain ⟨rfl, rfl⟩ := Prod.mk.inj hsame
      omega
    · rw [hfresh, hmirror] at hsame
      obtain ⟨rfl, rfl⟩ := Prod.mk.inj hsame
      simp [Option.filter, hpos]

/--
**Empty bins are invisible.** A pool quotes, in both directions and in every build, as it does
without its empty bins. These are all that tells a mirror that events have built from a fresh
bootstrap that shows the same: the bootstrap drops them and the handlers write them. So the
two quote the same, output, last bin and exhaustion alike, wherever the fees are below all of
the input.
-/
theorem empty_bins_invisible (checks : Bool) (pool : DLMMPool) :
    ((pool.fees .xForY).total < FEE_SCALE_BPS → ∀ amount,
      ∃ q, pool.quoteXForY checks amount = .ok q ∧
        (dropEmpty pool).quoteXForY checks amount = .ok q) ∧
    ((pool.fees .yForX).total < FEE_SCALE_BPS → ∀ amount,
      ∃ q, pool.quoteYForX checks amount = .ok q ∧
        (dropEmpty pool).quoteYForX checks amount = .ok q) ∧
    ∀ (clock : Nat → Nat) (events : List StacksEvent) (rpc : Rpc) (env : FetchEnv)
      (poolContract coreContract : Principal) (mode : BootstrapMode) (tip : Option String)
      (fresh : DLMMPool), rpc.fetchDlmmPool env poolContract coreContract mode tip = .ok fresh →
      Alike (pool.applyEvents clock events) fresh →
      fresh.bins = (dropEmpty (pool.applyEvents clock events)).bins ∧
      (((pool.applyEvents clock events).fees .xForY).total < FEE_SCALE_BPS → ∀ amount, ∃ q,
        (pool.applyEvents clock events).quoteXForY checks amount = .ok q ∧
          fresh.quoteXForY checks amount = .ok q) ∧
      (((pool.applyEvents clock events).fees .yForX).total < FEE_SCALE_BPS → ∀ amount, ∃ q,
        (pool.applyEvents clock events).quoteYForX checks amount = .ok q ∧
          fresh.quoteYForX checks amount = .ok q) := by
  have hboth : ∀ {p q : DLMMPool} {d : Direction}, Alike p q →
      (p.fees d).total < FEE_SCALE_BPS → ∀ amount,
      ∃ r, p.quote checks d amount = .ok r ∧ q.quote checks d amount = .ok r := by
    intro p q d hpq hfee amount
    have hquote : p.quote checks d amount = _ := quote_eq_climb hfee amount
    exact ⟨_, hquote, (hpq.quote_eq checks hfee amount).symm.trans hquote⟩
  refine ⟨hboth (alike_dropEmpty pool), hboth (alike_dropEmpty pool), ?_⟩
  intro clock events rpc env poolContract coreContract mode tip fresh hfetch halike
  exact ⟨fetched_bins_eq hfetch halike.shown, hboth halike, hboth halike⟩

/-- The bin next to the active one runs empty. -/
def emptied : StacksEvent where
  emitter := deployed "pool"
  txId := "0x01"
  eventIndex := 0
  action := "update-bin-balances"
  data := [("bin-id", .uint 501), ("x-balance", .uint 0), ("y-balance", .uint 0)]

/-- An event empties a bin, and it is stored as two zeros. -/
theorem applyEvents_emptied (pool : DLMMPool) :
    pool.applyEvents (fun _ => 0) [emptied] =
      { pool with
        bins := pool.bins.insert 1 ⟨0, 0⟩
        lastTxId := some "0x01"
        lastEventAt := some 0 } := rfl

/-- The one-sided pool, which has no empty bins, and a bootstrap that found no bins at all,
with an emptied one added by an event. -/
theorem empty_bins_invisible_emptied :
    (∃ q, oneSidedPool.quoteXForY false 500 = .ok q ∧
      (dropEmpty oneSidedPool).quoteXForY false 500 = .ok q) ∧
    (∃ q, oneSidedPool.quoteYForX false 500 = .ok q ∧
      (dropEmpty oneSidedPool).quoteYForX false 500 = .ok q) ∧
    ∃ fresh, (nodeWithout fun _ => true).fetchDlmmPool releaseEnv (deployed "pool")
        (deployed "core") (.window 1) none = .ok fresh ∧
      fresh.bins = (dropEmpty (fresh.applyEvents (fun _ => 0) [emptied])).bins ∧
      (∃ q, (fresh.applyEvents (fun _ => 0) [emptied]).quoteXForY false 500 = .ok q ∧
        fresh.quoteXForY false 500 = .ok q) ∧
      ∃ q, (fresh.applyEvents (fun _ => 0) [emptied]).quoteYForX false 500 = .ok q ∧
        fresh.quoteYForX false 500 = .ok q := by
  refine ⟨(empty_bins_invisible false oneSidedPool).1 (by decide) 500,
    (empty_bins_invisible false oneSidedPool).2.1 (by decide) 500, ?_⟩
  obtain ⟨fresh, hfetch, hbins, hfees⟩ := nodeWithout_fetches (fun _ => true) (.window 1) rfl
  -- the event writes an empty bin where none was, so nothing shows
  have halike : Alike (fresh.applyEvents (fun _ => 0) [emptied]) fresh := by
    rw [applyEvents_emptied]
    refine ⟨rfl, rfl, rfl, fun d => ?_, fun binId => ?_⟩
    · cases d
      · rfl
      · rfl
    · -- the event's bin shows nothing, as it did before
      show valueAt (fresh.bins.insert 1 ⟨0, 0⟩) binId = valueAt fresh.bins binId
      have hnone : fresh.bins = ∅ := hbins
      rw [hnone, valueAt_empty, valueAt, Std.ExtTreeMap.getElem?_insert,
        Std.ExtTreeMap.getElem?_empty]
      split
      · rename_i b hb
        split at hb
        · obtain rfl := Option.some.inj hb
          rfl
        · cases hb
      · rfl
  -- the node charges no fees
  have hfree : ∀ d, ((fresh.applyEvents (fun _ => 0) [emptied]).fees d).total < FEE_SCALE_BPS := by
    intro d
    rw [halike.fees, hfees]
    decide
  obtain ⟨hsame, hx, hy⟩ :=
    (empty_bins_invisible false fresh).2.2 _ _ _ _ _ _ _ _ fresh hfetch halike
  exact ⟨fresh, hfetch, hsame, hx (hfree .xForY) 500, hy (hfree .yForX) 500⟩

end StacksDex.Results
