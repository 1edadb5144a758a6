import PortfolioHub.FirstWrite
import PortfolioHub.FxWrites

namespace PortfolioHub

/-- The row the table takes of a fill that comes alone. -/
def recordOf (broker : String) (fx : FxView) (fill : Fill) : Option FillRow :=
  match buildFillRow broker fx fill with
  | .ok (some row) => if row.storable then some row.stored else none
  | _ => none

/-- The service has no rate for the currency of the fill: it has not seen one, does not
support the currency, or is not there. -/
def Fill.Rateless (fx : FxView) (fill : Fill) : Prop :=
  Python.orElse fill.currency "USD" ≠ "USD" ∧
    ∀ service ∈ fx.service, service.NoRate fx.now (Python.orElse fill.currency "USD")

/-- A stock fill with a known side and listing exchange. -/
def Fill.KnownStock (fill : Fill) : Prop := fill.secType = "STK" ∧ fill.Convertible

/-- The columns that must not be NULL have a number. -/
def Fill.HasNumbers (fill : Fill) : Prop := fill.shares.isNan = false ∧ fill.price.isNan = false

/-- What one failing fill must not touch: the job returns, a fill is recorded as if it were
alone unless an earlier one has its execution, and a fill without a rate is recorded
without one. -/
structure FillsIsolated (fx : FxView) (table : FillsTable) (fills : List Fill) : Prop where
  returns : ∃ count, (reconcileFills (.adapter .ibkr) (.ok fills) fx table).2 = .ok count
  alone : ∀ before fill after, fills = before ++ fill :: after →
    fill.key ∈ (reconcileFills (.adapter .ibkr) (.ok [fill]) fx table).1.keys →
      fill.key ∈ (reconcileFills (.adapter .ibkr) (.ok fills) fx table).1.keys ∧
        ((∀ other ∈ before, other.execId ≠ fill.execId) →
          (reconcileFills (.adapter .ibkr) (.ok fills) fx table).1.get? fill.key =
            (reconcileFills (.adapter .ibkr) (.ok [fill]) fx table).1.get? fill.key)
  rateless : ∀ before fill after, fills = before ++ fill :: after → fill.KnownStock →
    fill.Rateless fx → ∃ row,
      (reconcileFills (.adapter .ibkr) (.ok fills) fx table).1.get? fill.key = some row ∧
        (fill.key ∉ table.keys → fill.HasNumbers →
          (∀ other ∈ before, other.execId ≠ fill.execId) →
            row.fxRateAtFill = none ∧ row.feesUsd = none)

variable {fx : FxView} {table : FillsTable} {fills : List Fill}

/-- The loop returns unless a conversion raises. -/
theorem reconcileLoop_returns_iff {broker : String} {newCount : ℕ} :
    (∃ count, (reconcileLoop broker fx fills table newCount).2 = .ok count) ↔
      ∀ fill ∈ fills, ¬ RateLookupRaises fx fill := by
  induction fills generalizing table newCount with
  | nil => simp [reconcileLoop]
  | cons fill fills ih =>
    have hraises := buildFillRow_error_iff broker fx fill
    rw [List.forall_mem_cons, ← hraises]
    unfold reconcileLoop
    split
    next e he => exact iff_of_false (by simp) fun h => h.1 ⟨e, he⟩
    next hdrop => simp [ih, hdrop]
    next row hrow => simp [ih, hrow]

/-- A key that is there keeps its row, and a new one gets the row of the first fill that has
one for it. -/
theorem get?_reconcileLoop {newCount : ℕ} (hclean : ∀ fill ∈ fills, ¬ RateLookupRaises fx fill)
    (key : String × String) :
    (reconcileLoop "IBKR" fx fills table newCount).1.get? key =
      (table.get? key).or (fills.findSome? fun fill =>
        if fill.key = key then recordOf "IBKR" fx fill else none) := by
  induction fills generalizing table newCount with
  | nil => simp [reconcileLoop]
  | cons fill fills ih =>
    obtain ⟨hfill, hrest⟩ := List.forall_mem_cons.mp hclean
    unfold reconcileLoop
    rw [List.findSome?_cons]
    split
    next e he => exact absurd ((buildFillRow_error_iff "IBKR" fx fill).mp ⟨e, he⟩) hfill
    next hdrop =>
      rw [ih hrest]
      simp [recordOf, hdrop]
    next row hrow =>
      have hkey : row.key = fill.key := buildFillRow_key hrow
      rw [ih hrest, get?_insertFill, hkey, Option.or_assoc]
      by_cases hk : fill.key = key
      · by_cases hs : row.storable = true
        · simp [recordOf, hrow, hk, hs]
        · simp [recordOf, hrow, hs]
      · simp [hk]

theorem get?_reconcileFills (hclean : ∀ fill ∈ fills, ¬ RateLookupRaises fx fill)
    (key : String × String) :
    (reconcileFills (.adapter .ibkr) (.ok fills) fx table).1.get? key =
      (table.get? key).or (fills.findSome? fun fill =>
        if fill.key = key then recordOf "IBKR" fx fill else none) :=
  get?_reconcileLoop hclean key

theorem fill_key_inj {fill other : Fill} : other.key = fill.key ↔ other.execId = fill.execId := by
  simp [Fill.key]

/-- Fills of other executions do not matter for a key. -/
theorem findSome?_of_first {before after : List Fill} {fill : Fill}
    (hfirst : ∀ other ∈ before, other.execId ≠ fill.execId) :
    ((before ++ fill :: after).findSome? fun other =>
        if other.key = fill.key then recordOf "IBKR" fx other else none) =
      (recordOf "IBKR" fx fill).or (after.findSome? fun other =>
        if other.key = fill.key then recordOf "IBKR" fx other else none) := by
  have hnone : (before.findSome? fun other =>
      if other.key = fill.key then recordOf "IBKR" fx other else none) = none := by
    rw [List.findSome?_eq_none_iff]
    intro other hother
    exact if_neg fun hkey => hfirst other hother (fill_key_inj.mp hkey)
  rw [List.findSome?_append, hnone, Option.none_or, List.findSome?_cons, if_pos rfl]
  cases recordOf "IBKR" fx fill <;> rfl

/-- A fill whose conversion does not raise leaves a row just when it is convertible and the
columns that must not be NULL have a number. -/
theorem recordOf_isSome_iff {fill : Fill} (hclean : ¬ RateLookupRaises fx fill) :
    (recordOf "IBKR" fx fill).isSome = true ↔ fill.Convertible ∧ fill.HasNumbers := by
  have hnumbers : ∀ row, buildFillRow "IBKR" fx fill = .ok (some row) →
      (row.storable = true ↔ fill.HasNumbers) := by
    intro row hrow
    unfold buildFillRow at hrow
    split at hrow
    next => cases hrow
    next =>
      split at hrow
      next => cases hrow
      next =>
        obtain ⟨rate, -, hrow⟩ := Python.bind_eq_ok.mp hrow
        obtain rfl := Option.some.inj (Python.pure_eq_ok.mp hrow)
        simp [FillRow.storable, Fill.HasNumbers]
  unfold recordOf
  rcases buildFillRow_of_clean hclean with ⟨hnot, hbuild⟩ | ⟨row, hconvertible, hbuild, -, -⟩
  · simp [hbuild, hnot]
  · rw [hbuild]
    dsimp only
    have hiff := hnumbers row hbuild
    split
    next hs => simp [hconvertible, hiff.mp hs]
    next hs =>
      have hnot : ¬ fill.HasNumbers := fun h => hs (hiff.mpr h)
      simp [hnot]

/-- Without a rate the fill records none, and no fees in dollars. -/
theorem recordOf_rateless {fill : Fill} {row : FillRow} (hrateless : fill.Rateless fx)
    (h : recordOf "IBKR" fx fill = some row) : row.fxRateAtFill = none ∧ row.feesUsd = none := by
  unfold recordOf at h
  split at h
  next found hfound =>
    split at h
    next =>
      obtain rfl := Option.some.inj h
      obtain ⟨rate, hrate, hfees⟩ := Converts.stored_fees hfound
      have hnone : rate = none := by
        unfold fillRate at hrate
        rw [if_neg hrateless.1] at hrate
        split at hrate
        next => exact (Except.ok.inj hrate).symm
        next service hservice =>
          obtain ⟨found, hget, hmap⟩ := Python.bind_eq_ok.mp hrate
          cases found with
          | none => exact (Python.pure_eq_ok.mp hmap).symm
          | some quote => exact absurd hget (hrateless.2 service hservice quote)
      subst hnone
      obtain ⟨-, hrest⟩ := Prod.mk.inj hfees
      obtain ⟨husd, hfx⟩ := Prod.mk.inj hrest
      exact ⟨hfx, husd.trans (by simp [hrateless.1, nullIfNan])⟩
    next => cases h
  next => cases h

/-- When one failing fill leaves the others alone: no conversion raises, that is, no fill with
a known side and exchange has a currency the attached FX service does not support; and the
numbers of each stock fill without a rate are there, unless its execution is recorded
otherwise. -/
theorem fills_isolated_iff (fx : FxView) (table : FillsTable) (fills : List Fill) :
    FillsIsolated fx table fills ↔
      (∀ fill ∈ fills, ¬ RateLookupRaises fx fill) ∧
        ∀ fill ∈ fills, fill.KnownStock → fill.Rateless fx → fill.key ∈ table.keys ∨
          ∃ other ∈ fills, other.execId = fill.execId ∧ other.Convertible ∧ other.HasNumbers := by
  constructor
  · intro h
    have hclean : ∀ fill ∈ fills, ¬ RateLookupRaises fx fill :=
      reconcileLoop_returns_iff.mp h.returns
    refine ⟨hclean, fun fill hfill hstock hrateless => ?_⟩
    obtain ⟨before, after, rfl⟩ := List.append_of_mem hfill
    obtain ⟨row, hrow, -⟩ := h.rateless before fill after rfl hstock hrateless
    rw [get?_reconcileFills hclean] at hrow
    cases hold : table.get? fill.key with
    | some old => exact Or.inl (OrderedDict.mem_keys_iff.mpr ⟨old, hold⟩)
    | none =>
      rw [hold, Option.none_or] at hrow
      obtain ⟨other, hother, hfound⟩ := List.exists_of_findSome?_eq_some hrow
      split at hfound
      next hkey =>
        have hsome : (recordOf "IBKR" fx other).isSome = true := by rw [hfound]; rfl
        obtain ⟨hconvertible, hnumbers⟩ := (recordOf_isSome_iff (hclean other hother)).mp hsome
        exact Or.inr ⟨other, hother, fill_key_inj.mp hkey, hconvertible, hnumbers⟩
      next => cases hfound
  · rintro ⟨hclean, hnumbers⟩
    refine ⟨reconcileLoop_returns_iff.mpr hclean, ?_, ?_⟩
    · intro before fill after heq halone
      have hfill : fill ∈ fills := by simp [heq]
      have hself : ∀ other ∈ [fill], ¬ RateLookupRaises fx other := by
        simpa using hclean fill hfill
      rw [OrderedDict.mem_keys_iff] at halone ⊢
      rw [get?_reconcileFills hself] at halone ⊢
      rw [get?_reconcileFills hclean]
      have hsingle : ([fill].findSome? fun other =>
          if other.key = fill.key then recordOf "IBKR" fx other else none) =
            recordOf "IBKR" fx fill := by
        rw [List.findSome?_cons, if_pos rfl]
        cases recordOf "IBKR" fx fill <;> rfl
      rw [hsingle] at halone ⊢
      obtain ⟨row, hrow⟩ := halone
      constructor
      · cases hold : table.get? fill.key with
        | some old => exact ⟨old, rfl⟩
        | none =>
          rw [hold, Option.none_or] at hrow
          rw [Option.none_or]
          refine Option.isSome_iff_exists.mp (List.findSome?_isSome_iff.mpr ⟨fill, hfill, ?_⟩)
          simp [hrow]
      · intro hfirst
        rw [heq, findSome?_of_first hfirst]
        cases hold : table.get? fill.key with
        | some old => rfl
        | none =>
          rw [hold, Option.none_or] at hrow
          rw [hrow]
          rfl
    · intro before fill after heq hstock hrateless
      have hfill : fill ∈ fills := by simp [heq]
      rw [get?_reconcileFills hclean]
      cases hold : table.get? fill.key with
      | some old =>
        have hkey : fill.key ∈ table.keys := OrderedDict.mem_keys_iff.mpr ⟨old, hold⟩
        exact ⟨old, rfl, fun hfresh _ _ => absurd hkey hfresh⟩
      | none =>
        have hfresh : fill.key ∉ table.keys := OrderedDict.get?_eq_none_iff.mp hold
        obtain ⟨other, hother, hexec, hrecorded⟩ :=
          (hnumbers fill hfill hstock hrateless).resolve_left hfresh
        have hsome := (recordOf_isSome_iff (hclean other hother)).mpr hrecorded
        have hfound : (fills.findSome? fun other =>
            if other.key = fill.key then recordOf "IBKR" fx other else none).isSome = true := by
          refine List.findSome?_isSome_iff.mpr ⟨other, hother, ?_⟩
          rw [if_pos (fill_key_inj.mpr hexec), hsome]
        obtain ⟨row, hrow⟩ := Option.isSome_iff_exists.mp hfound
        refine ⟨row, by rw [Option.none_or, hrow], fun _ hown hfirst => ?_⟩
        obtain ⟨record, hrecord⟩ := Option.isSome_iff_exists.mp
          ((recordOf_isSome_iff (hclean fill hfill)).mpr ⟨hstock.2, hown⟩)
        rw [heq, findSome?_of_first hfirst, hrecord, Option.some_or] at hrow
        obtain rfl := Option.some.inj hrow
        exact recordOf_rateless hrateless hrecord

/-- A rupee share on an exchange that is listed. -/
def sampleRupeeFill : Fill :=
  { sampleFill with execId := "0000e0d5.6576a53f.02.01", currency := "INR" }

/-- Behind a fill in rupees a dollar fill is lost. -/
theorem unsupported_currency_ends_the_job :
    ¬ ∀ (fx : FxView) (table : FillsTable) (fills : List Fill), FillsIsolated fx table fills := by
  intro hall
  have hiso := hall sampleView .empty [sampleRupeeFill, sampleFill]
  have halone : sampleFill.key ∈
      (reconcileFills (.adapter .ibkr) (.ok [sampleFill]) sampleView .empty).1.keys := by
    decide +kernel
  have hlost : sampleFill.key ∉ (reconcileFills (.adapter .ibkr)
      (.ok [sampleRupeeFill, sampleFill]) sampleView .empty).1.keys := by
    decide +kernel
  exact hlost (hiso.alone [sampleRupeeFill] sampleFill [] rfl halone).1

end PortfolioHub
