import Mathlib.Algebra.BigOperators.Group.List.Basic
import Mathlib.Algebra.GroupWithZero.Nat
import Mathlib.Algebra.Order.Group.Nat

/-!
# Lib — greedy walks along a ladder

A ladder is a list of rungs, each of which turns input into output. A walk offers
its remaining input to the rungs in order: `draw r left` says what rung `r` uses
of `left`, what it pays, and whether that drained it. The walk goes on to the
next rung after a drained one and stops at a rung that draws nothing or is not
drained by what it was offered.

* `climb` — the walk: what was paid in total, the last rung that paid, and the
  input left over;
* `offers` — the (rung, input) pairs the walk makes an offer for;
* `climb_value_le` — if no rung pays more than its input is worth at a common
  rate, neither does the walk;
* `climb_paid_mono` — if every rung answers a larger offer with at least as much,
  so does the walk;
* `climb_append_paid_le`, `climb_append_of_spent` — rungs added at the far end pay
  on top, and do nothing to a walk that has no input left for them;
* `sum_used_add_left`, `climb_paid_eq_sum`, `climb_paid_le_sum` — what is drawn and
  what is left over is what was offered, and no rung is paid out twice;
* `climb_exact` — if every rung offered to has a capacity and pays its whole
  inventory once that is filled, the walk has input left over exactly when it
  filled every rung up to the first one without capacity, and then it has paid
  exactly their inventories.
-/

namespace StacksDex.Lib.Ladder

/-- What one rung does with the input offered to it. -/
structure Draw where
  used : Nat
  paid : Nat
  drained : Bool
  deriving DecidableEq, Repr

/-- The outcome of a walk. -/
structure Climb (α : Type*) where
  paid : Nat
  last : Option α
  left : Nat

variable {α : Type*} (draw : α → Nat → Option Draw)

/-- Offer the input to the rungs in order. -/
def climb : List α → Nat → Climb α
  | [], left => ⟨0, none, left⟩
  | r :: rs, left =>
    match draw r left with
    | none => ⟨0, none, left⟩
    | some d =>
      if d.drained then
        let rest := climb rs (left - d.used)
        ⟨d.paid + rest.paid, rest.last.or (some r), rest.left⟩
      else ⟨d.paid, some r, left - d.used⟩

/-- The offers a walk makes: each rung it reaches, with the input left by then. -/
def offers : List α → Nat → List (α × Nat)
  | [], _ => []
  | r :: rs, left =>
    (r, left) ::
      match draw r left with
      | some d => if d.drained then offers rs (left - d.used) else []
      | none => []

/-- Offers are made to rungs of the ladder only. -/
theorem mem_of_mem_offers {rs : List α} {left : Nat} {o : α × Nat}
    (ho : o ∈ offers draw rs left) : o.1 ∈ rs := by
  induction rs generalizing left with
  | nil => cases ho
  | cons r rs ih =>
    -- the offer to `r` itself, or one further up
    rcases List.mem_cons.mp ho with rfl | hrest
    · exact List.mem_cons_self ..
    · refine List.mem_cons_of_mem _ ?_
      cases hdraw : draw r left with
      | none => simp [hdraw] at hrest
      | some d =>
        by_cases hd : d.drained = true
        · simp only [hdraw, hd, if_true] at hrest
          exact ih hrest
        · simp [hdraw, hd] at hrest

/-- A rung that draws nothing ends the walk, with all of its input left over: the rungs behind
it are not asked. -/
theorem climb_cons_none {r : α} {rs : List α} {left : Nat} (h : draw r left = none) :
    climb draw (r :: rs) left = ⟨0, none, left⟩ := by
  rw [climb, h]

/-- A drained rung sends what is left on. The last rung that paid is found further up, if any
rung there pays, and is this one otherwise. -/
theorem climb_cons_drained {r : α} {rs : List α} {left : Nat} {d : Draw}
    (h : draw r left = some d) (hd : d.drained = true) :
    climb draw (r :: rs) left =
      ⟨d.paid + (climb draw rs (left - d.used)).paid,
        (climb draw rs (left - d.used)).last.or (some r),
        (climb draw rs (left - d.used)).left⟩ := by
  rw [climb, h]
  simp [hd]

/-- A rung that is not drained ends the walk, whatever it leaves of the input. -/
theorem climb_cons_short {r : α} {rs : List α} {left : Nat} {d : Draw}
    (h : draw r left = some d) (hd : d.drained = false) :
    climb draw (r :: rs) left = ⟨d.paid, some r, left - d.used⟩ := by
  rw [climb, h]
  simp [hd]

/-- A walk whose first offer no rung answers comes back with its input. -/
theorem climb_of_forall_none {left : Nat} (h : ∀ r, draw r left = none) (rs : List α) :
    climb draw rs left = ⟨0, none, left⟩ := by
  cases rs with
  | nil => rfl
  | cons r rs => exact climb_cons_none draw (h r)

/-! ## Accounts -/

/-- What a walk draws, rung by rung. -/
def draws (rs : List α) (left : Nat) : List Draw :=
  (offers draw rs left).filterMap fun o => draw o.1 o.2

/-- The same three cases for the list of draws: the walk ends without one, -/
theorem draws_cons_none {r : α} {rs : List α} {left : Nat} (h : draw r left = none) :
    draws draw (r :: rs) left = [] := by
  simp [draws, offers, h]

/-- goes on behind one, -/
theorem draws_cons_drained {r : α} {rs : List α} {left : Nat} {d : Draw}
    (h : draw r left = some d) (hd : d.drained = true) :
    draws draw (r :: rs) left = d :: draws draw rs (left - d.used) := by
  simp [draws, offers, h, hd]

/-- or ends with one. -/
theorem draws_cons_short {r : α} {rs : List α} {left : Nat} {d : Draw}
    (h : draw r left = some d) (hd : d.drained = false) :
    draws draw (r :: rs) left = [d] := by
  simp [draws, offers, h, hd]

/-- **No input is lost.** If no rung uses more than it is offered, what all of them use and
what is left over is the offer. -/
theorem sum_used_add_left {rs : List α}
    (hused : ∀ r ∈ rs, ∀ left d, draw r left = some d → d.used ≤ left) (left : Nat) :
    ((draws draw rs left).map Draw.used).sum + (climb draw rs left).left = left := by
  induction rs generalizing left with
  | nil => exact Nat.zero_add left
  | cons r rs ih =>
    have ih' := ih fun r' hr' => hused r' (List.mem_cons_of_mem _ hr')
    rcases hdraw : draw r left with _ | d
    · rw [draws_cons_none draw hdraw, climb_cons_none draw hdraw]
      exact Nat.zero_add left
    have hle : d.used ≤ left := hused r (List.mem_cons_self ..) left d hdraw
    rcases hd : d.drained with _ | _
    · rw [draws_cons_short draw hdraw hd, climb_cons_short draw hdraw hd]
      exact Nat.add_sub_cancel' hle
    · -- the rest of the walk accounts for what `r` leaves
      have hrest := ih' (left - d.used)
      rw [draws_cons_drained draw hdraw hd, climb_cons_drained draw hdraw hd, List.map_cons,
        List.sum_cons]
      dsimp only
      omega

/-- What is paid in total is what is drawn rung by rung. -/
theorem climb_paid_eq_sum (rs : List α) (left : Nat) :
    (climb draw rs left).paid = ((draws draw rs left).map Draw.paid).sum := by
  induction rs generalizing left with
  | nil => rfl
  | cons r rs ih =>
    rcases hdraw : draw r left with _ | d
    · rw [draws_cons_none draw hdraw, climb_cons_none draw hdraw]
      rfl
    rcases hd : d.drained with _ | _
    · rw [draws_cons_short draw hdraw hd, climb_cons_short draw hdraw hd]
      exact (Nat.add_zero _).symm
    · rw [draws_cons_drained draw hdraw hd, climb_cons_drained draw hdraw hd, List.map_cons,
        List.sum_cons, ih]

/-- **Every rung is paid out once at most.** Where no draw exceeds the inventory of its rung,
the whole walk does not exceed the sum of the inventories. -/
theorem climb_paid_le_sum {inv : α → Nat} {rs : List α}
    (hpaid : ∀ r ∈ rs, ∀ left d, draw r left = some d → d.paid ≤ inv r) (left : Nat) :
    (climb draw rs left).paid ≤ (rs.map inv).sum := by
  induction rs generalizing left with
  | nil => exact Nat.zero_le _
  | cons r rs ih =>
    have ih' := ih fun r' hr' => hpaid r' (List.mem_cons_of_mem _ hr')
    rw [List.map_cons, List.sum_cons]
    rcases hdraw : draw r left with _ | d
    · rw [climb_cons_none draw hdraw]
      exact Nat.zero_le _
    have hle : d.paid ≤ inv r := hpaid r (List.mem_cons_self ..) left d hdraw
    rcases hd : d.drained with _ | _
    · rw [climb_cons_short draw hdraw hd]
      exact hle.trans (Nat.le_add_right _ _)
    · rw [climb_cons_drained draw hdraw hd]
      exact Nat.add_le_add hle (ih' _)

/-- The last rung that paid is one of the rungs. -/
theorem mem_of_climb_last {rs : List α} {left : Nat} {r : α}
    (h : (climb draw rs left).last = some r) : r ∈ rs := by
  induction rs generalizing left with
  | nil => cases h
  | cons first rs ih =>
    rcases hdraw : draw first left with _ | d
    · rw [climb_cons_none draw hdraw] at h
      cases h
    rcases hd : d.drained with _ | _
    · rw [climb_cons_short draw hdraw hd] at h
      obtain rfl := Option.some.inj h
      exact List.mem_cons_self ..
    · rw [climb_cons_drained draw hdraw hd, Option.or_eq_some_iff] at h
      rcases h with hrest | ⟨-, hfirst⟩
      · exact List.mem_cons_of_mem _ (ih hrest)
      · obtain rfl := Option.some.inj hfirst
        exact List.mem_cons_self ..

/-! ## More rungs -/

/-- Rungs at the far end can only add to what is paid: the walk along the nearer ones is the
same, and goes on where it would have run out of rungs. -/
theorem climb_append_paid_le (rs more : List α) (left : Nat) :
    (climb draw rs left).paid ≤ (climb draw (rs ++ more) left).paid := by
  induction rs generalizing left with
  | nil => exact Nat.zero_le _
  | cons r rs ih =>
    rw [List.cons_append]
    rcases hdraw : draw r left with _ | d
    · rw [climb_cons_none draw hdraw, climb_cons_none draw hdraw]
    rcases hd : d.drained with _ | _
    · rw [climb_cons_short draw hdraw hd, climb_cons_short draw hdraw hd]
    · rw [climb_cons_drained draw hdraw hd, climb_cons_drained draw hdraw hd]
      exact Nat.add_le_add_left (ih _) _

/-- A walk that ends with nothing left over never meets the rungs at the far end. -/
theorem climb_append_of_spent (hspent : ∀ r, draw r 0 = none) {rs : List α} {left : Nat}
    (h : (climb draw rs left).left = 0) (more : List α) :
    climb draw (rs ++ more) left = climb draw rs left := by
  induction rs generalizing left with
  | nil =>
    obtain rfl : left = 0 := h
    exact climb_of_forall_none draw hspent more
  | cons r rs ih =>
    rw [List.cons_append]
    rcases hdraw : draw r left with _ | d
    · rw [climb_cons_none draw hdraw, climb_cons_none draw hdraw]
    rcases hd : d.drained with _ | _
    · rw [climb_cons_short draw hdraw hd, climb_cons_short draw hdraw hd]
    · -- the rest of the walk is the one that ends with nothing left over
      rw [climb_cons_drained draw hdraw hd] at h
      rw [climb_cons_drained draw hdraw hd, climb_cons_drained draw hdraw hd, ih h]

/-! ## Value -/

/-- **No walk beats its rungs.** If every rung values what it pays (at `c` a unit) no higher
than what it uses (at `e` a unit), so does the whole walk. Input that is left over keeps its
value, which is what makes the induction go through. -/
theorem climb_value_le {c e : Nat} {rs : List α}
    (hrung : ∀ r ∈ rs, ∀ left d, draw r left = some d →
      d.used ≤ left ∧ d.paid * c ≤ d.used * e) (left : Nat) :
    (climb draw rs left).paid * c + (climb draw rs left).left * e ≤ left * e := by
  induction rs generalizing left with
  | nil => simp [climb]
  | cons r rs ih =>
    have ih' := ih fun r' hr' => hrung r' (List.mem_cons_of_mem _ hr')
    cases hdraw : draw r left with
    | none => simp [climb_cons_none draw hdraw]
    | some d =>
      obtain ⟨hused, hvalue⟩ := hrung r (List.mem_cons_self ..) left d hdraw
      -- the input splits into what `r` uses and what goes on
      have hsplit : left * e = d.used * e + (left - d.used) * e := by
        rw [← Nat.add_mul, Nat.add_sub_cancel' hused]
      cases hd : d.drained with
      | false =>
        rw [climb_cons_short draw hdraw hd]
        dsimp only
        omega
      | true =>
        -- the rest of the walk starts from what `r` leaves
        have hrest := ih' (left - d.used)
        rw [climb_cons_drained draw hdraw hd]
        dsimp only
        rw [Nat.add_mul]
        omega

/-- What is paid is worth at most what was offered. -/
theorem climb_paid_le {c e : Nat} {rs : List α}
    (hrung : ∀ r ∈ rs, ∀ left d, draw r left = some d →
      d.used ≤ left ∧ d.paid * c ≤ d.used * e) (left : Nat) :
    (climb draw rs left).paid * c ≤ left * e :=
  le_trans (Nat.le_add_right _ _) (climb_value_le draw hrung left)

/-! ## Larger offers -/

/-- A rung that does at least as much for a larger offer: it pays no less, leaves no less to
go on, and is drained by it if it was by the smaller one. -/
structure MonoAt (r : α) : Prop where
  none_of_none : ∀ {a b}, a ≤ b → draw r b = none → draw r a = none
  some_of_some : ∀ {a b} {da db : Draw}, a ≤ b → draw r a = some da → draw r b = some db →
    da.paid ≤ db.paid ∧ a - da.used ≤ b - db.used ∧ (da.drained = true → db.drained = true)

/-- **A larger offer is never paid less.** The two walks stay side by side until the smaller
one ends; whatever the larger one pays after that is on top. -/
theorem climb_paid_mono {rs : List α} (hmono : ∀ r ∈ rs, MonoAt draw r) {a b : Nat}
    (hab : a ≤ b) : (climb draw rs a).paid ≤ (climb draw rs b).paid := by
  induction rs generalizing a b with
  | nil => exact Nat.zero_le _
  | cons r rs ih =>
    have hr := hmono r (List.mem_cons_self ..)
    have ih' := @ih fun r' hr' => hmono r' (List.mem_cons_of_mem _ hr')
    cases ha : draw r a with
    | none =>
      -- the smaller walk ends here with nothing
      rw [climb_cons_none draw ha]
      exact Nat.zero_le _
    | some da =>
      cases hb : draw r b with
      | none =>
        have hnone := hr.none_of_none hab hb
        rw [hnone] at ha
        cases ha
      | some db =>
        obtain ⟨hpaid, hleft, hdrained⟩ := hr.some_of_some hab ha hb
        cases hda : da.drained with
        | false =>
          rw [climb_cons_short draw ha hda]
          -- the smaller walk ends here, the larger one may go on
          cases hdb : db.drained with
          | false =>
            rw [climb_cons_short draw hb hdb]
            exact hpaid
          | true =>
            rw [climb_cons_drained draw hb hdb]
            exact hpaid.trans (Nat.le_add_right _ _)
        | true =>
          rw [climb_cons_drained draw ha hda, climb_cons_drained draw hb (hdrained hda)]
          exact Nat.add_le_add hpaid (ih' hleft)

/-! ## Exact rungs -/

variable (cap inv : α → Nat)

/-- The offer `left` to rung `r` is answered exactly: nothing is drawn by an
empty offer or from a rung without capacity; otherwise the rung uses what fits,
and once its capacity is filled it pays its inventory and is drained. -/
structure ExactAt (r : α) (left : Nat) : Prop where
  none_of_zero : left = 0 ∨ cap r = 0 → draw r left = none
  some_of_pos : 0 < left → 0 < cap r →
    ∃ d, draw r left = some d ∧ d.used = min left (cap r) ∧
      (cap r ≤ left → d.paid = inv r ∧ d.drained = true)

/-- The rungs up to the first one without capacity. -/
def front (rs : List α) : List α :=
  rs.takeWhile fun r => decide (cap r ≠ 0)

/-- A rung with capacity is in front, -/
theorem front_cons_of_pos {r : α} {rs : List α} (h : 0 < cap r) :
    front cap (r :: rs) = r :: front cap rs := by
  simp [front, Nat.pos_iff_ne_zero.mp h]

/-- one without ends the front. -/
theorem front_cons_of_zero {r : α} {rs : List α} (h : cap r = 0) :
    front cap (r :: rs) = [] := by
  simp [front, h]

/-- The rungs from the first one without capacity on. -/
def behind (rs : List α) : List α :=
  rs.dropWhile fun r => decide (cap r ≠ 0)

/-- Front and back are the whole ladder. -/
theorem front_append_behind (rs : List α) : front cap rs ++ behind cap rs = rs :=
  List.takeWhile_append_dropWhile

/-- Only where the capacity is zero matters to the split. -/
theorem front_congr {cap' : α → Nat} {rs : List α} (h : ∀ r ∈ rs, cap r = 0 ↔ cap' r = 0) :
    front cap rs = front cap' rs := by
  induction rs with
  | nil => rfl
  | cons r rs ih =>
    have hr : cap r = 0 ↔ cap' r = 0 := h r (List.mem_cons_self ..)
    rcases Nat.eq_zero_or_pos (cap r) with hzero | hpos
    · rw [front_cons_of_zero cap hzero, front_cons_of_zero cap' (hr.mp hzero)]
    -- both splits take `r` in front
    · have hpos' : 0 < cap' r := Nat.pos_of_ne_zero fun h' => by
        have := hr.mpr h'
        omega
      rw [front_cons_of_pos cap hpos, front_cons_of_pos cap' hpos',
        ih fun r' hr' => h r' (List.mem_cons_of_mem _ hr')]

/-- **Left-over input, exactly.** When every offer the walk makes is answered exactly, input is
left over iff it exceeds the capacity in front of the first rung without any, and then the walk
has paid exactly the inventory in front. In particular what lies behind such a rung is not paid
out, however much input is left. -/
theorem climb_exact {rs : List α} {left : Nat}
    (hexact : ∀ o ∈ offers draw rs left, ExactAt draw cap inv o.1 o.2) :
    (0 < (climb draw rs left).left ↔ ((front cap rs).map cap).sum < left) ∧
    (0 < (climb draw rs left).left →
      (climb draw rs left).paid = ((front cap rs).map inv).sum) := by
  induction rs generalizing left with
  | nil => simp [climb, front]
  | cons r rs ih =>
    have hr : ExactAt draw cap inv r left := hexact (r, left) (List.mem_cons_self ..)
    rcases Nat.eq_zero_or_pos left with rfl | hleft
    · -- an empty offer stops the walk with nothing left over
      simp [climb_cons_none draw (hr.none_of_zero (Or.inl rfl))]
    rcases Nat.eq_zero_or_pos (cap r) with hcap | hcap
    · -- a rung without capacity stops the walk
      rw [climb_cons_none draw (hr.none_of_zero (Or.inr hcap)), front_cons_of_zero cap hcap]
      simp
    obtain ⟨d, hdraw, hused, hfull⟩ := hr.some_of_pos hleft hcap
    rw [front_cons_of_pos cap hcap, List.map_cons, List.sum_cons, List.map_cons, List.sum_cons]
    cases hd : d.drained with
    | false =>
      -- not drained: the offer was smaller than the capacity and is used up
      have hlt : left < cap r := by
        by_contra hge
        have := (hfull (not_lt.mp hge)).2
        simp [hd] at this
      rw [climb_cons_short draw hdraw hd]
      dsimp only
      refine ⟨by omega, fun h => by omega⟩
    | true =>
      -- drained: the offers further up are offers of this walk, too
      have htail : ∀ o ∈ offers draw rs (left - d.used), ExactAt draw cap inv o.1 o.2 := by
        intro o ho
        refine hexact o (List.mem_cons_of_mem _ ?_)
        simp [hdraw, hd, ho]
      obtain ⟨hiff, hpaid⟩ := ih htail
      rw [climb_cons_drained draw hdraw hd]
      dsimp only
      refine ⟨by omega, ?_⟩
      intro h
      -- input is left behind `r`, so it filled `r` first
      have hle : cap r ≤ left := by
        have := hiff.mp h
        omega
      rw [hpaid h, (hfull hle).1]

end StacksDex.Lib.Ladder
