import PortfolioHub.Position

namespace PortfolioHub

/-- What `_compute_totals` returns. -/
structure Totals where
  mvUsd : Python.Float
  pnlUsd : Python.Float
  pnlPct : Python.Float
  pnlIsPositive : Bool
  intradayPnlUsd : Python.Float
  intradayPnlPct : Python.Float
  intradayPnlIsPositive : Bool
  hasIntraday : Bool
deriving DecidableEq, Repr

/-- `sum(xs)`. -/
def sum (xs : List Python.Float) : Python.Float := xs.foldl (· + ·) 0

/-- `x / y * 100.0`. -/
def percent (x y : Python.Float) : Except Python.Error Python.Float := do
  let ratio ← Python.Float.div x y
  return ratio * 100

/-- `x / y * 100.0 if c else 0.0`. -/
def percentIf (c : Bool) (x y : Python.Float) : Except Python.Error Python.Float :=
  if c then percent x y else .ok 0

def computeTotals (positions : List Position) : Except Python.Error Totals := do
  let available := positions.filter fun p => !p.fxUnavailable
  let totalMvUsd := sum (available.map (·.marketValueUsd))
  let totalPnlUsd := sum (available.map (·.unrealizedPnlUsd))
  let pnlPct ← percentIf (totalMvUsd - totalPnlUsd ≠ 0) totalPnlUsd (totalMvUsd - totalPnlUsd)
  let intraday ← available.mapM (·.intradayPnlUsd)
  let intradayPnlUsd := sum intraday
  let intradayBasisUsd := totalMvUsd - intradayPnlUsd
  let intradayPnlPct ← percentIf (0 < intradayBasisUsd) intradayPnlUsd intradayBasisUsd
  let hasIntraday ← positions.anyM fun p => do
    let change ← p.intradayChangePct
    return change.isSome
  return {
    mvUsd := totalMvUsd
    pnlUsd := totalPnlUsd
    pnlPct := pnlPct
    pnlIsPositive := 0 ≤ totalPnlUsd
    intradayPnlUsd := intradayPnlUsd
    intradayPnlPct := intradayPnlPct
    intradayPnlIsPositive := 0 ≤ intradayPnlUsd
    hasIntraday := hasIntraday }

/-- A number with its sign class. -/
structure Signed where
  positive : Bool
  text : String
deriving DecidableEq, Repr

/-- A number with a plus sign where it is not negative. -/
def signed (positive : Bool) (text : String) : Signed :=
  ⟨positive, if positive then "+" ++ text else text⟩

/-- The figures of the hero: `total_figures` and `today_figure`. -/
structure Hero where
  totalMvUsd : String
  totalPnlUsd : Signed
  totalPnlPct : Signed
  today : Option (Signed × Signed)
deriving DecidableEq, Repr

def hero (totals : Totals) : Hero where
  totalMvUsd := "$" ++ totals.mvUsd.fixed true 0
  totalPnlUsd := ⟨totals.pnlIsPositive,
    if totals.pnlIsPositive then "+$" ++ totals.pnlUsd.fixed true 0
    else "-$" ++ (-totals.pnlUsd).fixed true 0⟩
  totalPnlPct := signed totals.pnlIsPositive (totals.pnlPct.fixed false 2 ++ "%")
  today :=
    if totals.hasIntraday then
      some (signed totals.intradayPnlIsPositive ("$" ++ totals.intradayPnlUsd.fixed true 0),
        signed totals.intradayPnlIsPositive (totals.intradayPnlPct.fixed false 2 ++ "%"))
    else none

theorem percent_of_ne_zero {x y : Python.Float} (h : y ≠ 0) :
    percent x y = .ok (Python.Float.quot x y * 100) := by
  rw [percent, Python.Float.div_of_ne_zero h]
  rfl

/-- Under a guard that excludes a zero divisor the percentage is defined. -/
theorem percentIf_defined {c : Bool} {x y : Python.Float} (h : c = true → y ≠ 0) :
    ∃ v, percentIf c x y = .ok v := by
  cases c with
  | true => exact ⟨_, percent_of_ne_zero (h rfl)⟩
  | false => exact ⟨0, rfl⟩

theorem anyM_defined {α : Type} {f : α → Except Python.Error Bool} {as : List α}
    (h : ∀ a ∈ as, ∃ b, f a = .ok b) : ∃ b, as.anyM f = .ok b := by
  induction as with
  | nil => exact ⟨false, rfl⟩
  | cons a as ih =>
    obtain ⟨b, hb⟩ := h a (by simp)
    rw [List.anyM, hb]
    cases b with
    | true => exact ⟨true, rfl⟩
    | false => exact ih fun a ha => h a (List.mem_cons_of_mem _ ha)

theorem computeTotals_defined (positions : List Position) :
    ∃ totals, computeTotals positions = .ok totals := by
  unfold computeTotals
  dsimp only
  refine Python.bind_defined (percentIf_defined of_decide_eq_true) fun pnlPct _ => ?_
  refine Python.bind_defined (Python.mapM_defined_iff.mpr fun p _ => p.intradayPnlUsd_defined)
    fun intraday _ => ?_
  refine Python.bind_defined (percentIf_defined fun hpos =>
    Python.Float.ne_zero_of_pos (of_decide_eq_true hpos)) fun pct _ => ?_
  refine Python.bind_defined (anyM_defined fun p _ => ?_) fun hasIntraday _ => ⟨_, rfl⟩
  exact Python.bind_defined p.intradayChangePct_defined fun change _ => ⟨_, rfl⟩

/-- What `_compute_totals` divides by what. -/
theorem computeTotals_parts {positions : List Position} {totals : Totals}
    (h : computeTotals positions = .ok totals) :
    totals.mvUsd = sum ((positions.filter fun p => !p.fxUnavailable).map (·.marketValueUsd)) ∧
      totals.pnlUsd = sum ((positions.filter fun p => !p.fxUnavailable).map (·.unrealizedPnlUsd)) ∧
      percentIf (totals.mvUsd - totals.pnlUsd ≠ 0) totals.pnlUsd (totals.mvUsd - totals.pnlUsd) =
        .ok totals.pnlPct ∧
      (∃ intraday, (positions.filter fun p => !p.fxUnavailable).mapM (·.intradayPnlUsd) =
        .ok intraday ∧ totals.intradayPnlUsd = sum intraday) ∧
      percentIf (0 < totals.mvUsd - totals.intradayPnlUsd) totals.intradayPnlUsd
        (totals.mvUsd - totals.intradayPnlUsd) = .ok totals.intradayPnlPct := by
  obtain ⟨pnlPct, hpct, h⟩ := Python.bind_eq_ok.mp h
  obtain ⟨intraday, hintraday, h⟩ := Python.bind_eq_ok.mp h
  obtain ⟨intradayPct, hintradayPct, h⟩ := Python.bind_eq_ok.mp h
  obtain ⟨hasIntraday, -, h⟩ := Python.bind_eq_ok.mp h
  obtain rfl := Python.pure_eq_ok.mp h
  exact ⟨rfl, rfl, hpct, ⟨intraday, hintraday, rfl⟩, hintradayPct⟩

theorem sum_eq_finite {xs : List Python.Float} (h : ∀ x ∈ xs, x.isFinite = true) :
    sum xs = .finite (xs.map (·.value)).sum := by
  have hfold : ∀ (xs : List Python.Float) (q : ℚ), (∀ x ∈ xs, x.isFinite = true) →
      xs.foldl (· + ·) (.finite q) = .finite (q + (xs.map (·.value)).sum) := by
    intro xs
    induction xs with
    | nil => exact fun q _ => congrArg Python.Float.finite (add_zero q).symm
    | cons x xs ih =>
      intro q hxs
      obtain ⟨hx, hrest⟩ := List.forall_mem_cons.mp hxs
      have hadd : Python.Float.finite q + x = .finite (q + x.value) := by
        conv_lhs => rw [Python.Float.eq_finite_value hx]
        rfl
      rw [List.foldl_cons, hadd, ih _ hrest, List.map_cons, List.sum_cons, add_assoc]
  have hzero : (0 : Python.Float) = .finite ((0 : ℕ) : ℚ) := rfl
  rw [sum, hzero, hfold xs _ h]
  simp

theorem sum_perm {xs ys : List Python.Float} (h : xs.Perm ys) : sum xs = sum ys := h.foldl_eq 0

/-- Where each test comes out, the first that succeeds is as good as any. -/
theorem anyM_eq_any {α : Type} {f : α → Except Python.Error Bool} {as : List α}
    (h : ∀ a ∈ as, ∃ b, f a = .ok b) : as.anyM f = .ok (as.any fun a => f a = .ok true) := by
  induction as with
  | nil => rfl
  | cons a as ih =>
    obtain ⟨⟨b, hb⟩, hrest⟩ := List.forall_mem_cons.mp h
    rw [List.anyM, hb, List.any_cons, hb]
    cases b with
    | true => simp only [decide_true, Bool.true_or]; rfl
    | false =>
      have hno : decide ((Except.ok false : Except Python.Error Bool) = .ok true) = false := by decide
      rw [hno, Bool.false_or]
      exact ih hrest

/-- The totals do not depend on the order of the rows. -/
theorem computeTotals_perm {ps qs : List Position} (h : ps.Perm qs) :
    computeTotals ps = computeTotals qs := by
  have havailable := h.filter fun p => !p.fxUnavailable
  have hmv := sum_perm (havailable.map (·.marketValueUsd))
  have hpnl := sum_perm (havailable.map (·.unrealizedPnlUsd))
  have hchange : ∀ p : Position, ∃ b, (do
      let change ← p.intradayChangePct
      return change.isSome : Except Python.Error Bool) = .ok b := fun p =>
    Python.bind_defined p.intradayChangePct_defined fun change _ => ⟨_, rfl⟩
  have hany : ps.anyM (fun p => do
      let change ← p.intradayChangePct
      return change.isSome) = (qs.anyM fun p => do
        let change ← p.intradayChangePct
        return change.isSome : Except Python.Error Bool) := by
    rw [anyM_eq_any fun p _ => hchange p, anyM_eq_any fun p _ => hchange p, h.any_eq]
  obtain ⟨xs, hxs⟩ := Python.mapM_defined_iff.mpr
    fun p (_ : p ∈ ps.filter fun p => !p.fxUnavailable) => p.intradayPnlUsd_defined
  obtain ⟨ys, hys⟩ := Python.mapM_defined_iff.mpr
    fun p (_ : p ∈ qs.filter fun p => !p.fxUnavailable) => p.intradayPnlUsd_defined
  have hday := sum_perm (Python.mapM_perm havailable hxs hys)
  have hbind : ∀ (zs : List Python.Float) (next : List Python.Float → Except Python.Error Totals),
      (Except.ok zs >>= next) = next zs := fun _ _ => rfl
  unfold computeTotals
  dsimp only
  rw [hmv, hpnl, hany, hxs, hys]
  simp only [hbind, hday]

end PortfolioHub
