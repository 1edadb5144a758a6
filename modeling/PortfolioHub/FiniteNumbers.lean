import PortfolioHub.PolledFetch
import PortfolioHub.TigerQuotes

namespace PortfolioHub

/-- The first of the fields that reads as a number reads as a finite one. -/
def FirstFinite (cells : List Cell) : Prop :=
  ∀ x, cells.findSome? Cell.float? = some x → x.isFinite = true

theorem firstFinite_iff {cells : List Cell} :
    FirstFinite cells ↔ (firstFloat cells).isFinite = true := by
  unfold FirstFinite firstFloat
  cases cells.findSome? Cell.float? with
  | none => simp; rfl
  | some x => simp

theorem Cell.finite_iff {c : Cell} : c.Finite ↔ c.safeFloat.isFinite = true := by
  unfold Cell.Finite Cell.safeFloat
  cases c.float? with
  | none => simp; rfl
  | some x => simp

/-- A field that reads as nan or an infinity, taken for a missing one. -/
def Cell.cleaned (c : Cell) : Cell :=
  if (c.float?.all (·.isFinite)) then c else .missing

theorem Cell.float?_cleaned (c : Cell) : c.cleaned.float? = c.float?.filter (·.isFinite) := by
  unfold Cell.cleaned
  cases hc : c.float? with
  | none => simp [hc]
  | some x =>
    cases hx : x.isFinite with
    | true => simp [hc, hx, Option.filter]
    | false => simp [hx, Cell.float?, Option.filter]

theorem firstFloat_cleaned {cells : List Cell} (h : FirstFinite cells) :
    firstFloat (cells.map Cell.cleaned) = firstFloat cells := by
  unfold firstFloat
  congr 1
  induction cells with
  | nil => rfl
  | cons c cells ih =>
    unfold FirstFinite at h
    rw [List.findSome?_cons] at h
    rw [List.map_cons, List.findSome?_cons, List.findSome?_cons, Cell.float?_cleaned]
    cases hc : c.float? with
    | none =>
      rw [hc] at h
      exact ih h
    | some x =>
      rw [hc] at h
      simp [Option.filter, h x rfl]

theorem Cell.Finite.safeFloat_cleaned {c : Cell} (h : c.Finite) :
    c.cleaned.safeFloat = c.safeFloat := by
  have hone : FirstFinite [c] := by
    rw [firstFinite_iff, ← Cell.safeFloat_eq_firstFloat]
    exact h.safeFloat
  have hclean := firstFloat_cleaned hone
  rwa [List.map_singleton, ← Cell.safeFloat_eq_firstFloat, ← Cell.safeFloat_eq_firstFloat] at hclean

/-- A cleaned quantity that is not zero is the quantity itself. -/
theorem Cell.safeFloat_of_cleaned_ne_zero {c : Cell} (h : c.cleaned.safeFloat ≠ 0) :
    c.cleaned.safeFloat = c.safeFloat := by
  refine Cell.Finite.safeFloat_cleaned fun x hx => ?_
  by_contra hfinite
  have hnone : c.cleaned.float? = none := by
    rw [Cell.float?_cleaned, hx]
    simp [Option.filter, hfinite]
  exact h (by simp [Cell.safeFloat, hnone])

def TigerQuote.cleaned (q : TigerQuote) : TigerQuote :=
  { q with
    latestPrice := q.latestPrice.cleaned
    close := q.close.cleaned
    preClose := q.preClose.cleaned
    adjPreClose := q.adjPreClose.cleaned }

def TigerRow.cleaned (row : TigerRow) : TigerRow :=
  { row with
    quantity := row.quantity.cleaned
    marketPrice := row.marketPrice.cleaned
    marketValue := row.marketValue.cleaned
    averageCost := row.averageCost.cleaned
    averageCostByAverage := row.averageCostByAverage.cleaned
    averageCostOfCarry := row.averageCostOfCarry.cleaned
    unrealizedPnl := row.unrealizedPnl.cleaned }

def TigerCurrencyAsset.cleaned (asset : TigerCurrencyAsset) : TigerCurrencyAsset :=
  { asset with cashBalance := asset.cashBalance.cleaned }

def FutuRow.cleaned (row : FutuRow) : FutuRow :=
  { row with
    qty := row.qty.cleaned
    nominalPrice := row.nominalPrice.cleaned
    lastPrice := row.lastPrice.cleaned
    marketVal := row.marketVal.cleaned
    marketValue := row.marketValue.cleaned
    averageCost := row.averageCost.cleaned
    costPrice := row.costPrice.cleaned
    dilutedCost := row.dilutedCost.cleaned
    unrealizedPl := row.unrealizedPl.cleaned
    plVal := row.plVal.cleaned }

def FutuAccountRow.cleaned (row : FutuAccountRow) : FutuAccountRow :=
  { row with
    cash := row.cash.cleaned
    usCash := row.usCash.cleaned }

theorem attr_cleaned {α : Type*} {object : Option α} {clean : α → α} {field : α → Cell}
    (h : ∀ a, field (clean a) = (field a).cleaned) :
    attr (object.map clean) field = (attr object field).cleaned := by
  cases object with
  | none => rfl
  | some a => exact h a

structure StockFigures.Finite (figures : StockFigures) : Prop where
  quantity : figures.quantity.isFinite = true
  avgCost : figures.avgCost.isFinite = true
  lastPrice : figures.lastPrice.isFinite = true
  mvNative : figures.mvNative.isFinite = true
  pnlNative : figures.pnlNative.isFinite = true
  previousClose : figures.previousClose.isFinite = true

/-- Each number the adapter takes of the row and its quote, in the order it tries them, is
finite. The market value is taken where there is no price, the result where there is no price
or no cost. -/
structure TigerRow.TakesFinite (row : TigerRow) (quote : Option TigerQuote) : Prop where
  quantity : row.quantity.Finite
  avgCost : FirstFinite [row.averageCost, row.averageCostByAverage, row.averageCostOfCarry]
  quoted : FirstFinite [attr quote (·.latestPrice), attr quote (·.close)]
  mark : firstFloat [attr quote (·.latestPrice), attr quote (·.close)] = 0 →
    row.marketPrice.Finite
  marketValue : firstFloat [attr quote (·.latestPrice), attr quote (·.close)] = 0 →
    row.marketPrice.safeFloat = 0 → row.marketValue.Finite
  pnl : (firstFloat [attr quote (·.latestPrice), attr quote (·.close)] = 0 ∧
    row.marketPrice.safeFloat = 0) ∨
      firstFloat [row.averageCost, row.averageCostByAverage, row.averageCostOfCarry] = 0 →
        row.unrealizedPnl.Finite
  previousClose : FirstFinite [attr quote (·.preClose), attr quote (·.adjPreClose)]

structure FutuRow.TakesFinite (row : FutuRow) : Prop where
  qty : row.qty.Finite
  quoted : FirstFinite [row.nominalPrice, row.lastPrice]
  valued : FirstFinite [row.marketVal, row.marketValue]
  avgCost : FirstFinite [row.averageCost, row.costPrice, row.dilutedCost]
  reported : FirstFinite [row.unrealizedPl, row.plVal]

theorem TigerRow.lastPrice_eq_zero_iff {row : TigerRow} {quote : Option TigerQuote} :
    row.lastPrice quote = 0 ↔
      firstFloat [attr quote (·.latestPrice), attr quote (·.close)] = 0 ∧
        row.marketPrice.safeFloat = 0 := by
  unfold TigerRow.lastPrice
  dsimp only
  split
  next hquoted => simp [hquoted]
  next hquoted => simp [not_not.mp hquoted]

theorem zero_isFinite : (0 : Python.Float).isFinite = true := rfl

theorem TigerRow.figures_finite_iff {row : TigerRow} {quote : Option TigerQuote} :
    (row.figures quote).Finite ↔ row.TakesFinite quote := by
  constructor
  · intro h
    have hprice := h.lastPrice
    have hmv := h.mvNative
    have hpnl := h.pnlNative
    dsimp only [TigerRow.figures] at hprice hmv hpnl
    refine ⟨Cell.finite_iff.mpr h.quantity, firstFinite_iff.mpr h.avgCost, ?_, fun hquoted => ?_,
      fun hquoted hmark => ?_, fun hnone => ?_, firstFinite_iff.mpr h.previousClose⟩
    · rw [firstFinite_iff]
      by_cases hquoted : firstFloat [attr quote (·.latestPrice), attr quote (·.close)] = 0
      · rw [hquoted, zero_isFinite]
      · simpa [TigerRow.lastPrice, hquoted] using hprice
    · rw [Cell.finite_iff]
      simpa [TigerRow.lastPrice, hquoted] using hprice
    · rw [Cell.finite_iff]
      have hzero := TigerRow.lastPrice_eq_zero_iff.mpr ⟨hquoted, hmark⟩
      simpa [hzero] using hmv
    · rw [Cell.finite_iff]
      rw [← TigerRow.lastPrice_eq_zero_iff] at hnone
      have hguard : ¬ (row.lastPrice quote ≠ 0 ∧ row.avgCost ≠ 0) := by
        rintro ⟨hne, hcost⟩
        exact hnone.elim hne hcost
      rwa [if_neg hguard] at hpnl
  · intro h
    have hquantity := Cell.finite_iff.mp h.quantity
    have hcost : row.avgCost.isFinite = true := firstFinite_iff.mp h.avgCost
    have hquoted := firstFinite_iff.mp h.quoted
    have hprice : (row.lastPrice quote).isFinite = true := by
      unfold TigerRow.lastPrice
      dsimp only
      split
      next => exact hquoted
      next hzero => exact (h.mark (not_not.mp hzero)).safeFloat
    refine ⟨hquantity, hcost, hprice, ?_, ?_, firstFinite_iff.mp h.previousClose⟩
    · dsimp only [TigerRow.figures]
      split
      next => exact Python.Float.isFinite_mul hquantity hprice
      next hzero =>
        obtain ⟨hnone, hmark⟩ := TigerRow.lastPrice_eq_zero_iff.mp (not_not.mp hzero)
        exact (h.marketValue hnone hmark).safeFloat
    · dsimp only [TigerRow.figures]
      split
      next => exact Python.Float.isFinite_mul (Python.Float.isFinite_sub hprice hcost) hquantity
      next hguard =>
        refine (h.pnl ?_).safeFloat
        rw [← TigerRow.lastPrice_eq_zero_iff]
        by_cases hzero : row.lastPrice quote = 0
        · exact Or.inl hzero
        · exact Or.inr (not_not.mp fun hcost => hguard ⟨hzero, hcost⟩)

theorem FutuRow.figures_finite_iff {row : FutuRow} : row.figures.Finite ↔ row.TakesFinite := by
  constructor
  · intro h
    have hprice : row.price.isFinite = true := h.lastPrice
    have hmv : row.mvNative.isFinite = true := h.mvNative
    have hpnl : (if row.reported = 0 ∧ row.avgCost ≠ 0 ∧ row.price ≠ 0 then
        (row.price - row.avgCost) * row.qty.safeFloat else row.reported).isFinite = true :=
      h.pnlNative
    refine ⟨Cell.finite_iff.mpr h.quantity, firstFinite_iff.mpr ?_, firstFinite_iff.mpr ?_,
      firstFinite_iff.mpr h.avgCost, firstFinite_iff.mpr ?_⟩
    · by_cases hquoted : row.quoted = 0
      · exact (congrArg Python.Float.isFinite hquoted).trans zero_isFinite
      · rwa [FutuRow.price, if_neg hquoted] at hprice
    · by_cases hvalued : row.valued = 0
      · exact (congrArg Python.Float.isFinite hvalued).trans zero_isFinite
      · rwa [FutuRow.mvNative, if_neg (not_and_of_not_left _ hvalued)] at hmv
    · by_cases hreported : row.reported = 0
      · exact (congrArg Python.Float.isFinite hreported).trans zero_isFinite
      · rwa [if_neg (not_and_of_not_left _ hreported)] at hpnl
  · intro h
    have hquantity := Cell.finite_iff.mp h.qty
    have hquoted : row.quoted.isFinite = true := firstFinite_iff.mp h.quoted
    have hvalued : row.valued.isFinite = true := firstFinite_iff.mp h.valued
    have hcost : row.avgCost.isFinite = true := firstFinite_iff.mp h.avgCost
    have hreported : row.reported.isFinite = true := firstFinite_iff.mp h.reported
    have hnative : row.mvNative.isFinite = true :=
      Python.Float.isFinite_ite (Python.Float.isFinite_mul hquantity hquoted) hvalued
    have hprice : row.price.isFinite = true :=
      Python.Float.isFinite_ite (Python.Float.isFinite_quot hnative hquantity) hquoted
    have hpnl := Python.Float.isFinite_mul (Python.Float.isFinite_sub hprice hcost) hquantity
    exact ⟨hquantity, hcost, hprice, hnative, Python.Float.isFinite_ite hpnl hreported,
      zero_isFinite⟩

/-- Where only finite numbers are taken, the fields that read as nan or an infinity might as
well be missing. -/
theorem TigerRow.figures_cleaned {row : TigerRow} {quote : Option TigerQuote}
    (h : row.TakesFinite quote) :
    row.cleaned.figures (quote.map TigerQuote.cleaned) = row.figures quote := by
  have hquantity : row.cleaned.quantity.safeFloat = row.quantity.safeFloat :=
    h.quantity.safeFloat_cleaned
  have hcost : row.cleaned.avgCost = row.avgCost := firstFloat_cleaned h.avgCost
  have hfields : ∀ field : TigerQuote → Cell, (∀ q, field (TigerQuote.cleaned q) =
      (field q).cleaned) → attr (quote.map TigerQuote.cleaned) field = (attr quote field).cleaned :=
    fun field hfield => attr_cleaned hfield
  have hquoted : firstFloat [attr (quote.map TigerQuote.cleaned) (·.latestPrice),
      attr (quote.map TigerQuote.cleaned) (·.close)] =
        firstFloat [attr quote (·.latestPrice), attr quote (·.close)] := by
    rw [hfields (·.latestPrice) fun _ => rfl, hfields (·.close) fun _ => rfl]
    exact firstFloat_cleaned h.quoted
  have hclose : firstFloat [attr (quote.map TigerQuote.cleaned) (·.preClose),
      attr (quote.map TigerQuote.cleaned) (·.adjPreClose)] =
        firstFloat [attr quote (·.preClose), attr quote (·.adjPreClose)] := by
    rw [hfields (·.preClose) fun _ => rfl, hfields (·.adjPreClose) fun _ => rfl]
    exact firstFloat_cleaned h.previousClose
  have hprice : row.cleaned.lastPrice (quote.map TigerQuote.cleaned) = row.lastPrice quote := by
    unfold TigerRow.lastPrice
    rw [hquoted]
    dsimp only
    split
    next => rfl
    next hzero => exact (h.mark (not_not.mp hzero)).safeFloat_cleaned
  unfold TigerRow.figures
  rw [hquantity, hcost, hprice, hclose]
  congr 1
  · split
    next => rfl
    next hzero =>
      obtain ⟨hnone, hmark⟩ := TigerRow.lastPrice_eq_zero_iff.mp (not_not.mp hzero)
      exact (h.marketValue hnone hmark).safeFloat_cleaned
  · split
    next => rfl
    next hguard =>
      refine (h.pnl ?_).safeFloat_cleaned
      rw [← TigerRow.lastPrice_eq_zero_iff]
      by_cases hzero : row.lastPrice quote = 0
      · exact Or.inl hzero
      · exact Or.inr (not_not.mp fun hcost => hguard ⟨hzero, hcost⟩)

theorem FutuRow.figures_cleaned {row : FutuRow} (h : row.TakesFinite) :
    row.cleaned.figures = row.figures := by
  have hquantity : row.cleaned.qty.safeFloat = row.qty.safeFloat := h.qty.safeFloat_cleaned
  have hquoted : row.cleaned.quoted = row.quoted := firstFloat_cleaned h.quoted
  have hvalued : row.cleaned.valued = row.valued := firstFloat_cleaned h.valued
  have hcost : row.cleaned.avgCost = row.avgCost := firstFloat_cleaned h.avgCost
  have hreported : row.cleaned.reported = row.reported := firstFloat_cleaned h.reported
  have hnative : row.cleaned.mvNative = row.mvNative := by
    unfold FutuRow.mvNative
    rw [hquantity, hquoted, hvalued]
  have hprice : row.cleaned.price = row.price := by
    unfold FutuRow.price
    rw [hquantity, hquoted, hnative]
  unfold FutuRow.figures
  rw [hquantity, hcost, hnative, hprice, hreported]

/-- The position with other figures, converted at the same view. -/
def Position.withFigures (p : Position) (fx : FxView) (figures : StockFigures) : Position :=
  let conv := convertToUsd fx p.currency figures.mvNative figures.pnlNative
  { p with
    quantity := figures.quantity
    avgCost := figures.avgCost
    lastPrice := figures.lastPrice
    marketValueNative := figures.mvNative
    marketValueUsd := conv.mvUsd
    unrealizedPnlNative := figures.pnlNative
    unrealizedPnlUsd := conv.pnlUsd
    fxIsStale := conv.fxIsStale
    fxIsFallback := conv.fxIsFallback
    fxUnavailable := conv.fxUnavailable
    previousClose := figures.previousClose }

/-- Of its numbers, a row's quantity decides whether there is a position, and only the
figures show in it. -/
theorem tigerPositionFromRow_figures {fx : FxView} {markets : List String} {accountId : String}
    {row base : TigerRow} {quotes baseQuotes : OrderedDict String TigerQuote}
    (hcontract : row.contract = base.contract) (haccount : row.account = base.account)
    (hquantity : row.quantity.safeFloat = base.quantity.safeFloat) :
    tigerPositionFromRow fx markets accountId row quotes =
      (tigerPositionFromRow fx markets accountId base baseQuotes).map
        (·.map (·.withFigures fx (row.figures (quotes.get? row.symbol)))) := by
  unfold tigerPositionFromRow TigerRow.symbol
  rw [hcontract]
  cases base.contract with
  | none => rfl
  | some contract =>
    dsimp only
    rw [haccount, hquantity]
    split
    next => rfl
    next =>
      split
      next => rfl
      next =>
        split
        next => rfl
        next =>
          cases tigerNormaliseContractSymbol (contract.symbol.textOr "")
              (Python.upper (contract.market.textOr "")) (contract.primaryExchange.textOr "") with
          | error e => rfl
          | ok symbols =>
            refine congrArg (fun p => Except.ok (some p)) ?_
            simp only [Position.withFigures, TigerRow.figures, hquantity]
            rfl

theorem futuPositionFromRow_figures {fx : FxView} {accountId : String} {row base : FutuRow}
    (hcode : row.code = base.code) (hmarket : row.positionMarket = base.positionMarket)
    (hcurrency : row.currency = base.currency) (hname : row.stockName = base.stockName)
    (hquantity : row.qty.safeFloat = base.qty.safeFloat) :
    futuPositionFromRow fx accountId row =
      (futuPositionFromRow fx accountId base).map (·.withFigures fx row.figures) := by
  unfold futuPositionFromRow
  dsimp only
  rw [hcode, hmarket, hcurrency, hname, hquantity]
  split
  next => rfl
  next =>
    split
    next => rfl
    next =>
      refine congrArg some ?_
      simp only [Position.withFigures, FutuRow.figures, FutuRow.price, FutuRow.mvNative, hquantity]
      rfl

structure Position.NumbersFinite (p : Position) : Prop where
  quantity : p.quantity.isFinite = true
  avgCost : p.avgCost.isFinite = true
  lastPrice : p.lastPrice.isFinite = true
  marketValueNative : p.marketValueNative.isFinite = true
  marketValueUsd : p.marketValueUsd.isFinite = true
  unrealizedPnlNative : p.unrealizedPnlNative.isFinite = true
  unrealizedPnlUsd : p.unrealizedPnlUsd.isFinite = true
  previousClose : p.previousClose.isFinite = true

/-- The rate a conversion from the currency finds, if it finds one, is finite. -/
def FxView.RateFinite (fx : FxView) (currency : String) : Prop :=
  ∀ service ∈ fx.service, ∀ rate, service.getRateSync fx.now currency = .ok (some rate) →
    rate.rate.isFinite = true

theorem convertToUsd_isFinite_iff (fx : FxView) (currency : String) {mvNative pnlNative : Python.Float}
    (hmv : mvNative.isFinite = true) (hpnl : pnlNative.isFinite = true) :
    ((convertToUsd fx currency mvNative pnlNative).mvUsd.isFinite = true ↔
      fx.RateFinite currency) ∧
    ((convertToUsd fx currency mvNative pnlNative).pnlUsd.isFinite = true ↔
      fx.RateFinite currency) := by
  unfold convertToUsd FxView.RateFinite
  split
  next husd =>
    have hrate : ∀ service ∈ fx.service, ∀ rate,
        service.getRateSync fx.now currency = .ok (some rate) → rate.rate.isFinite = true := by
      intro service _ rate h
      rw [FxService.getRateSync, if_pos husd] at h
      obtain rfl := Option.some.inj (Except.ok.inj h)
      rfl
    exact ⟨iff_of_true hmv hrate, iff_of_true hpnl hrate⟩
  next =>
    cases hservice : fx.service with
    | none => exact ⟨iff_of_true rfl (by simp), iff_of_true rfl (by simp)⟩
    | some service =>
      simp only [Option.mem_def, Option.some.injEq, forall_eq']
      cases service.getRateSync fx.now currency with
      | error e => exact ⟨iff_of_true rfl (by simp), iff_of_true rfl (by simp)⟩
      | ok found =>
        cases found with
        | none => exact ⟨iff_of_true rfl (by simp), iff_of_true rfl (by simp)⟩
        | some rate =>
          simp only [Except.ok.injEq, Option.some.injEq, forall_eq']
          rw [Python.Float.isFinite_mul_iff, Python.Float.isFinite_mul_iff]
          exact ⟨and_iff_right hmv, and_iff_right hpnl⟩

/-- The numbers of a stock row are finite where its figures and the rate are. -/
theorem Position.Carries.numbersFinite_iff {p : Position} {fx : FxView} {currency : String}
    {figures : StockFigures} (h : p.Carries fx currency figures) :
    p.NumbersFinite ↔ figures.Finite ∧ fx.RateFinite currency := by
  constructor
  · intro hp
    have hfigures : figures.Finite := ⟨h.quantity ▸ hp.quantity, h.avgCost ▸ hp.avgCost,
      h.lastPrice ▸ hp.lastPrice, h.mvNative ▸ hp.marketValueNative,
      h.pnlNative ▸ hp.unrealizedPnlNative, h.previousClose ▸ hp.previousClose⟩
    refine ⟨hfigures, ?_⟩
    exact (convertToUsd_isFinite_iff fx currency hfigures.mvNative hfigures.pnlNative).1.mp
      (h.mvUsd ▸ hp.marketValueUsd)
  · rintro ⟨hfigures, hrate⟩
    obtain ⟨hmv, hpnl⟩ :=
      convertToUsd_isFinite_iff fx currency hfigures.mvNative hfigures.pnlNative
    exact ⟨h.quantity ▸ hfigures.quantity, h.avgCost ▸ hfigures.avgCost,
      h.lastPrice ▸ hfigures.lastPrice, h.mvNative ▸ hfigures.mvNative, h.mvUsd ▸ hmv.mpr hrate,
      h.pnlNative ▸ hfigures.pnlNative, h.pnlUsd ▸ hpnl.mpr hrate,
      h.previousClose ▸ hfigures.previousClose⟩

theorem cashRow_numbersFinite_iff {broker accountId currency : String} {amount : Python.Float}
    {fx : FxView} :
    (cashRow broker accountId currency amount fx).NumbersFinite ↔
      amount.isFinite = true ∧ fx.RateFinite currency := by
  constructor
  · intro h
    have hamount : amount.isFinite = true := h.quantity
    exact ⟨hamount,
      (convertToUsd_isFinite_iff fx currency hamount zero_isFinite).1.mp h.marketValueUsd⟩
  · rintro ⟨hamount, hrate⟩
    exact ⟨hamount, rfl, rfl, hamount,
      (convertToUsd_isFinite_iff fx currency hamount zero_isFinite).1.mpr hrate, rfl, rfl, rfl⟩

/-- Sums by currency are finite only where every amount added is. -/
theorem finite_of_foldl_addAmount {α : Type} {currency : α → String} {amount : α → Python.Float}
    {as : List α} {amounts : OrderedDict String Python.Float}
    (h : ∀ k v, (as.foldl (fun amounts a => addAmount amounts (currency a) (amount a)) amounts).get? k
      = some v → v.isFinite = true) :
    (∀ k v, amounts.get? k = some v → v.isFinite = true) ∧
      ∀ a ∈ as, (amount a).isFinite = true := by
  induction as generalizing amounts with
  | nil => exact ⟨h, by simp⟩
  | cons a as ih =>
    obtain ⟨hadded, hrest⟩ := ih h
    have hsum := hadded (currency a) _ (OrderedDict.get?_insert_self ..)
    obtain ⟨hold, hamount⟩ := Python.Float.isFinite_add_iff.mp hsum
    refine ⟨fun k v hv => ?_, List.forall_mem_cons.mpr ⟨hamount, hrest⟩⟩
    by_cases hk : k = currency a
    · rw [hk] at hv
      rwa [hv] at hold
    · exact hadded k v ((OrderedDict.get?_insert_of_ne amounts _ hk).trans hv)

theorem tigerCashAmounts_isFinite_iff {assets : List TigerCurrencyAsset} :
    (∀ k v, (tigerCashAmounts assets).get? k = some v → v.isFinite = true) ↔
      ∀ asset ∈ assets, asset.cashBalance.Finite := by
  constructor
  · intro h asset hasset
    exact Cell.finite_iff.mpr ((finite_of_foldl_addAmount h).2 asset hasset)
  · intro h
    exact foldl_addAmount_isFinite (fun asset hasset => (h asset hasset).safeFloat)
      fun k v hv => by simp at hv

theorem tigerCashAmounts_cleaned {assets : List TigerCurrencyAsset}
    (h : ∀ asset ∈ assets, asset.cashBalance.Finite) :
    tigerCashAmounts (assets.map TigerCurrencyAsset.cleaned) = tigerCashAmounts assets := by
  unfold tigerCashAmounts
  rw [List.foldl_map]
  refine List.foldl_ext _ _ _ fun amounts asset hasset => ?_
  exact congrArg (addAmount amounts _) (h asset hasset).safeFloat_cleaned

theorem mem_tigerCashPositions_iff {fx : FxView} {accountId : String}
    {assets : List TigerCurrencyAsset} {p : Position} :
    p ∈ tigerCashPositions fx accountId assets ↔
      ∃ currency amount, (tigerCashAmounts assets).get? currency = some amount ∧ amount ≠ 0 ∧
        p = cashRow "Tiger" accountId currency amount fx := by
  have hsorted : ∀ e, e ∈ sortedAmounts (tigerCashAmounts assets) ↔
      (tigerCashAmounts assets).get? e.1 = some e.2 := fun e =>
    (List.perm_insertionSort _ _).mem_iff.trans OrderedDict.get?_eq_some_iff.symm
  constructor
  · intro hp
    obtain ⟨e, he, rfl⟩ := List.mem_map.mp hp
    obtain ⟨he, hne⟩ := List.mem_filter.mp he
    exact ⟨e.1, e.2, (hsorted e).mp he, of_decide_eq_true hne, rfl⟩
  · rintro ⟨currency, amount, hget, hne, rfl⟩
    exact List.mem_map.mpr ⟨(currency, amount),
      List.mem_filter.mpr ⟨(hsorted _).mpr hget, decide_eq_true hne⟩, rfl⟩

/-- The code a Futu row is mapped under. -/
def FutuRow.codeText (row : FutuRow) : String := Python.strip (row.code.strOr "")

def FutuRow.currencyText (row : FutuRow) : String := Python.upper (row.currency.strOr "USD")

/-- The row's code, quantity and market are ones the adapter maps. -/
def FutuRow.Mapped (row : FutuRow) : Prop :=
  row.codeText ≠ "" ∧ row.qty.safeFloat ≠ 0 ∧
    ∃ normalised, futuNormaliseCode row.codeText (row.positionMarket.strOr "") = .ok normalised

theorem futu_mapped_iff {fx : FxView} {accountId : String} {row : FutuRow} :
    (∃ p, futuPositionFromRow fx accountId row = some p) ↔ row.Mapped := by
  unfold FutuRow.Mapped FutuRow.codeText futuPositionFromRow
  dsimp only
  split
  next hskip =>
    simp only [reduceCtorEq, exists_false, false_iff]
    rintro ⟨hcode, hquantity, -⟩
    exact hskip.elim hcode hquantity
  next hskip =>
    obtain ⟨hcode, hquantity⟩ := not_or.mp hskip
    cases futuNormaliseCode (Python.strip (row.code.strOr "")) (row.positionMarket.strOr "") with
    | error e => simp
    | ok normalised => simp [hcode, hquantity]

theorem futuPositionFromRow_key {fx : FxView} {accountId : String} {row : FutuRow} {p : Position}
    (h : futuPositionFromRow fx accountId row = some p) :
    (p.broker, p.accountId, p.nativeKey) = ("Futu", accountId, row.codeText) := by
  unfold futuPositionFromRow at h
  dsimp only at h
  split at h
  next => simp at h
  next =>
    split at h
    next => simp at h
    next =>
      obtain rfl := Option.some.inj h
      rfl

/-- The row is the last of its account and code that maps, in a list that splits there. -/
def LastOfKey (row : String × FutuRow) (after : List (String × FutuRow)) : Prop :=
  ∀ later ∈ after, later.2.Mapped → ¬ (later.1 = row.1 ∧ later.2.codeText = row.2.codeText)

theorem mem_futuStockPositions_iff {fx : FxView} {rows : List (String × FutuRow)} {p : Position} :
    p ∈ futuStockPositions fx rows ↔ ∃ before row after, rows = before ++ row :: after ∧
      LastOfKey row after ∧ futuPositionFromRow fx row.1 row.2 = some p := by
  unfold futuStockPositions
  rw [OrderedDict.mem_values_ofList_filterMap_iff]
  constructor
  · rintro ⟨before, row, after, rfl, hrow, hlast⟩
    refine ⟨before, row, after, rfl, fun later hlater hmapped hsame => ?_, hrow⟩
    obtain ⟨q, hq⟩ := futu_mapped_iff.mpr hmapped
    refine hlast later hlater q hq ?_
    rw [futuPositionFromRow_key hq, futuPositionFromRow_key hrow, hsame.1, hsame.2]
  · rintro ⟨before, row, after, rfl, hlast, hrow⟩
    refine ⟨before, row, after, rfl, hrow, fun later hlater q hq hsame => ?_⟩
    rw [futuPositionFromRow_key hq, futuPositionFromRow_key hrow] at hsame
    obtain ⟨-, hrest⟩ := Prod.mk.inj hsame
    obtain ⟨haccount, hcode⟩ := Prod.mk.inj hrest
    exact hlast later hlater (futu_mapped_iff.mp ⟨q, hq⟩) ⟨haccount, hcode⟩

/-- The position of a stock row, if it is not skipped. -/
def tigerEmitted (fx : FxView) (settings : TigerSettings) (quotes : OrderedDict String TigerQuote)
    (row : String × TigerRow) : Option Position :=
  match tigerPositionFromRow fx settings.markets row.1 row.2 quotes with
  | .ok position => position
  | .error _ => none

theorem tigerEmitted_eq_some_iff {fx : FxView} {settings : TigerSettings}
    {quotes : OrderedDict String TigerQuote} {row : String × TigerRow} {p : Position} :
    tigerEmitted fx settings quotes row = some p ↔
      tigerPositionFromRow fx settings.markets row.1 row.2 quotes = .ok (some p) := by
  unfold tigerEmitted
  cases tigerPositionFromRow fx settings.markets row.1 row.2 quotes with
  | error e => simp
  | ok position => simp

theorem TigerRow.cleaned_mapped {markets : List String} {accountId : String} {row : TigerRow}
    (h : row.cleaned.Mapped markets accountId) : row.Mapped markets accountId := by
  obtain ⟨hcontract, hmarket, hquantity, haccount, hnorm⟩ := h
  have hsame := Cell.safeFloat_of_cleaned_ne_zero hquantity
  exact ⟨hcontract, hmarket, fun hzero => hquantity (hsame.trans hzero), haccount, hnorm⟩

theorem FutuRow.cleaned_mapped {row : FutuRow} (h : row.cleaned.Mapped) : row.Mapped := by
  obtain ⟨hcode, hquantity, hnorm⟩ := h
  have hsame := Cell.safeFloat_of_cleaned_ne_zero hquantity
  exact ⟨hcode, fun hzero => hquantity (hsame.trans hzero), hnorm⟩

/-- A row of which the adapter takes finite numbers only maps as it does cleaned. -/
theorem tigerPositionFromRow_cleaned {fx : FxView} {markets : List String} {accountId : String}
    {row : TigerRow} {quotes : OrderedDict String TigerQuote}
    (h : row.TakesFinite (quotes.get? row.symbol)) :
    tigerPositionFromRow fx markets accountId row.cleaned (quotes.mapValues TigerQuote.cleaned) =
      tigerPositionFromRow fx markets accountId row quotes := by
  have hfigures : row.cleaned.figures ((quotes.mapValues TigerQuote.cleaned).get?
      row.cleaned.symbol) = row.figures (quotes.get? row.symbol) := by
    rw [OrderedDict.get?_mapValues]
    exact row.figures_cleaned h
  have hself : tigerPositionFromRow fx markets accountId row quotes =
      (tigerPositionFromRow fx markets accountId row quotes).map
        (·.map (·.withFigures fx (row.figures (quotes.get? row.symbol)))) :=
    tigerPositionFromRow_figures rfl rfl rfl
  have hcleaned : tigerPositionFromRow fx markets accountId row.cleaned
      (quotes.mapValues TigerQuote.cleaned) =
        (tigerPositionFromRow fx markets accountId row quotes).map
          (·.map (·.withFigures fx (row.cleaned.figures
            ((quotes.mapValues TigerQuote.cleaned).get? row.cleaned.symbol)))) :=
    tigerPositionFromRow_figures rfl rfl h.quantity.safeFloat_cleaned
  rw [hcleaned, hfigures]
  exact hself.symm

theorem futuPositionFromRow_cleaned {fx : FxView} {accountId : String} {row : FutuRow}
    (h : row.TakesFinite) :
    futuPositionFromRow fx accountId row.cleaned = futuPositionFromRow fx accountId row := by
  have hself : futuPositionFromRow fx accountId row =
      (futuPositionFromRow fx accountId row).map (·.withFigures fx row.figures) :=
    futuPositionFromRow_figures rfl rfl rfl rfl rfl
  have hcleaned : futuPositionFromRow fx accountId row.cleaned =
      (futuPositionFromRow fx accountId row).map (·.withFigures fx row.cleaned.figures) :=
    futuPositionFromRow_figures rfl rfl rfl rfl h.qty.safeFloat_cleaned
  rw [hcleaned, row.figures_cleaned h]
  exact hself.symm

end PortfolioHub
