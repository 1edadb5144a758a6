import PortfolioHub.HashPayload
import PortfolioHub.HoldingsRow

namespace PortfolioHub

/-- Two rows agree in what a row shows of the fields that the hash leaves out. -/
structure SameUnhashed (p q : Position) : Prop where
  assetClass : p.assetClass = q.assetClass
  nameEn : p.nameEn = q.nameEn
  nativeSymbol : p.nativeSymbol = q.nativeSymbol
  fxIsFallback : p.fxIsFallback = q.fxIsFallback
  exchange : p.assetClass = .stk → p.exchange = q.exchange
  price : p.assetClass = .stk → 0 < p.lastPrice →
    (1 < p.priceMagnifier.value ↔ 1 < q.priceMagnifier.value) ∧
      p.lastPriceIsPreviousClose = q.lastPriceIsPreviousClose ∧
      p.intradayChangePct.map changeText = q.intradayChangePct.map changeText
  usdHidden : p.UsdHidden ↔ q.UsdHidden
  fxIsStale : ¬ p.UsdHidden → p.fxIsStale = q.fxIsStale

theorem SameHashed.currency {p q : Position} (h : SameHashed p q) (hname : p.nameEn = q.nameEn) :
    p.currency = q.currency := by
  have hlabel := congrArg String.toList h.label
  rw [hname] at hlabel
  simp only [String.toList_append] at hlabel
  exact String.toList_injective (List.append_cancel_left hlabel)

theorem assetClass_ne_cash {p : Position} : p.assetClass ≠ .cash ↔ p.assetClass = .stk := by
  cases p.assetClass <;> simp

theorem lastCell_of_price {p : Position} (hstk : p.assetClass = .stk) (hpos : 0 < p.lastPrice) :
    lastCell p = (p.intradayChangePct.map changeText).map fun change => some {
      price := p.lastPrice.fixed true 2
      pence := if 1 < p.priceMagnifier.value then some p.currency else none
      isStale := p.lastPriceIsStale
      change := change
      previousCloseTag := p.lastPriceIsPreviousClose
      brokerMarkTag := p.lastPriceIsBrokerMark
      delayedTag := p.lastPriceIsDelayed } := by
  rw [lastCell, if_pos ⟨assetClass_ne_cash.mpr hstk, hpos⟩]
  cases p.intradayChangePct <;> rfl

theorem lastCell_without_price {p : Position} (h : ¬ (p.assetClass = .stk ∧ 0 < p.lastPrice)) :
    lastCell p = .ok none := by
  rw [lastCell, if_neg]
  rwa [assetClass_ne_cash]

section
variable {p q : Position} (hh : SameHashed p q) (hu : SameUnhashed p q)
include hh hu

theorem flagChip_congr : flagChip p = flagChip q := by
  unfold flagChip
  rw [← hu.assetClass, ← hh.currency hu.nameEn]
  split
  next => rfl
  next hstk => rw [← hu.exchange (assetClass_ne_cash.mp hstk)]

theorem lastCell_congr : lastCell p = lastCell q := by
  by_cases hcell : p.assetClass = .stk ∧ 0 < p.lastPrice
  · have hcell' : q.assetClass = .stk ∧ 0 < q.lastPrice := by
      rwa [← hu.assetClass, ← hh.lastPrice]
    obtain ⟨hpence, hprevious, hchange⟩ := hu.price hcell.1 hcell.2
    rw [lastCell_of_price hcell.1 hcell.2, lastCell_of_price hcell'.1 hcell'.2, hchange,
      hh.lastPrice, hh.currency hu.nameEn, hh.lastPriceIsStale, hprevious,
      hh.lastPriceIsBrokerMark, hh.lastPriceIsDelayed]
    simp only [hpence]
  · have hcell' : ¬ (q.assetClass = .stk ∧ 0 < q.lastPrice) := by
      rwa [← hu.assetClass, ← hh.lastPrice]
    rw [lastCell_without_price hcell, lastCell_without_price hcell']

theorem pnlCell_congr : pnlCell p = pnlCell q := by
  unfold pnlCell
  rw [hh.marketValueUsd, hh.unrealizedPnlUsd, hu.assetClass]
  simp only [hu.usdHidden]

/-- A row with a dollar value shows it exactly when the FX rate is available. -/
theorem fxUnavailable_congr (hvalue : p.marketValueUsd ≠ 0) :
    p.fxUnavailable = q.fxUnavailable := by
  have hvalue' : q.marketValueUsd ≠ 0 := hh.marketValueUsd ▸ hvalue
  have hhidden := hu.usdHidden
  simp only [Position.UsdHidden, hvalue, hvalue', false_and, or_false] at hhidden
  exact Bool.eq_iff_iff.mpr hhidden

theorem weightCell_congr (totalMvUsd : Python.Float) :
    weightCell totalMvUsd p = weightCell totalMvUsd q := by
  unfold weightCell
  by_cases hpos : 0 < p.marketValueUsd
  · rw [← fxUnavailable_congr hh hu (Python.Float.ne_zero_of_pos hpos), hh.marketValueUsd]
  · have hpos' : ¬ 0 < q.marketValueUsd := hh.marketValueUsd ▸ hpos
    rw [if_neg fun h => hpos h.2.1, if_neg fun h => hpos' h.2.1]

theorem rowView_congr {ctx ctx' : RowContext} (haccount : ctx.activeAccount = ctx'.activeAccount)
    (hmarket : ctx.marketByIb = fun _ => none) (hmarket' : ctx'.marketByIb = fun _ => none)
    (hid : p.accountId = q.accountId) (flag : Option FlagChip) (last : Option LastCell)
    (pnl : Option PnlCell) (weight : Option String) :
    rowView ctx p flag last pnl weight = rowView ctx' q flag last pnl weight := by
  have hvalue : (if p.UsdHidden then none else some (p.marketValueUsd.fixed true 0, p.fxIsStale)) =
      if q.UsdHidden then none else some (q.marketValueUsd.fixed true 0, q.fxIsStale) := by
    by_cases hhidden : p.UsdHidden
    · rw [if_pos hhidden, if_pos (hu.usdHidden.mp hhidden)]
    · rw [if_neg hhidden, if_neg (hu.usdHidden.not.mp hhidden), hh.marketValueUsd,
        hu.fxIsStale hhidden]
  simp only [rowView, lunchNote, haccount, hmarket, hmarket', hid, hvalue, hu.assetClass,
    hu.nameEn, hu.nativeSymbol, hu.fxIsFallback, hh.lastPriceIsStale, hh.quantity,
    hh.marketValueNative, hh.currency hu.nameEn]

end

theorem view_of_holdingsRow {ctx : RowContext} {p : Position} {row : HoldingsRow}
    (h : holdingsRow ctx p = .ok row) :
    ∃ flag last pnl weight, flagChip p = .ok flag ∧ lastCell p = .ok last ∧ pnlCell p = .ok pnl ∧
      weightCell ctx.totals.mvUsd p = .ok weight ∧ row.view = rowView ctx p flag last pnl weight := by
  obtain ⟨country, -, h⟩ := Python.bind_eq_ok.mp h
  obtain ⟨flag, hflag, h⟩ := Python.bind_eq_ok.mp h
  obtain ⟨last, hlast, h⟩ := Python.bind_eq_ok.mp h
  obtain ⟨pnl, hpnl, h⟩ := Python.bind_eq_ok.mp h
  obtain ⟨weight, hweight, h⟩ := Python.bind_eq_ok.mp h
  obtain rfl := Python.pure_eq_ok.mp h
  exact ⟨flag, last, pnl, weight, hflag, hlast, hpnl, hweight, rfl⟩

/-- Rows that agree in the hashed fields and in what is shown of the others look alike. -/
theorem view_congr {p q : Position} (hh : SameHashed p q) (hu : SameUnhashed p q)
    (hid : p.accountId = q.accountId) {account : String} {totals totals' : Totals}
    (hmv : totals.mvUsd = totals'.mvUsd) {row row' : HoldingsRow}
    (hrow : holdingsRow ⟨account, totals, fun _ => none⟩ p = .ok row)
    (hrow' : holdingsRow ⟨account, totals', fun _ => none⟩ q = .ok row') : row.view = row'.view := by
  obtain ⟨flag, last, pnl, weight, hflag, hlast, hpnl, hweight, hview⟩ := view_of_holdingsRow hrow
  obtain ⟨flag', last', pnl', weight', hflag', hlast', hpnl', hweight', hview'⟩ :=
    view_of_holdingsRow hrow'
  rw [flagChip_congr hh hu, hflag'] at hflag
  rw [lastCell_congr hh hu, hlast'] at hlast
  rw [pnlCell_congr hh hu, hpnl'] at hpnl
  dsimp only at hweight hweight'
  rw [weightCell_congr hh hu, hmv, hweight'] at hweight
  obtain rfl := Except.ok.inj hflag
  obtain rfl := Except.ok.inj hlast
  obtain rfl := Except.ok.inj hpnl
  obtain rfl := Except.ok.inj hweight
  rw [hview, hview']
  exact rowView_congr hh hu rfl rfl rfl hid _ _ _ _

/-- The label of the flag chip is the venue of a stock. -/
theorem flagChip_label {p : Position} {chip : Option FlagChip} (hstk : p.assetClass = .stk)
    (h : flagChip p = .ok chip) : (chip.map (·.label)).getD "" = p.exchange := by
  rw [flagChip, if_neg (assetClass_ne_cash.mpr hstk)] at h
  split at h
  next =>
    obtain ⟨flag, -, h⟩ := Python.bind_eq_ok.mp h
    obtain rfl := Python.pure_eq_ok.mp h
    rfl
  next hvenue =>
    obtain rfl := Except.ok.inj h
    exact (not_not.mp hvenue).symm

theorem price_of_lastCell {p q : Position} {cell : Option LastCell} (hstk : p.assetClass = .stk)
    (hstk' : q.assetClass = .stk) (hpos : 0 < p.lastPrice) (hpos' : 0 < q.lastPrice)
    (h : lastCell p = .ok cell) (h' : lastCell q = .ok cell) :
    (1 < p.priceMagnifier.value ↔ 1 < q.priceMagnifier.value) ∧
      p.lastPriceIsPreviousClose = q.lastPriceIsPreviousClose ∧
      p.intradayChangePct.map changeText = q.intradayChangePct.map changeText := by
  obtain ⟨change, hchange⟩ := p.intradayChangePct_defined
  obtain ⟨change', hchange'⟩ := q.intradayChangePct_defined
  rw [lastCell_of_price hstk hpos, hchange] at h
  rw [lastCell_of_price hstk' hpos', hchange'] at h'
  rw [hchange, hchange']
  obtain rfl := Except.ok.inj h
  obtain ⟨-, hpence, -, htext, hprevious, -, -⟩ :=
    LastCell.mk.inj (Option.some.inj (Except.ok.inj h'))
  refine ⟨?_, hprevious.symm, congrArg Except.ok htext.symm⟩
  by_cases hm : 1 < p.priceMagnifier.value
  · by_cases hm' : 1 < q.priceMagnifier.value
    · exact iff_of_true hm hm'
    · simp [hm, hm'] at hpence
  · by_cases hm' : 1 < q.priceMagnifier.value
    · simp [hm, hm'] at hpence
    · exact iff_of_false hm hm'

/-- Rows that agree in the hashed fields look alike only if they agree in what is shown of
the others. -/
theorem unhashed_of_view {p q : Position} (hh : SameHashed p q) {ctx ctx' : RowContext}
    {row row' : HoldingsRow} (hrow : holdingsRow ctx p = .ok row)
    (hrow' : holdingsRow ctx' q = .ok row') (heq : row.view = row'.view) : SameUnhashed p q := by
  obtain ⟨flag, last, pnl, weight, hflag, hlast, -, -, hview⟩ := view_of_holdingsRow hrow
  obtain ⟨flag', last', pnl', weight', hflag', hlast', -, -, hview'⟩ := view_of_holdingsRow hrow'
  rw [hview, hview'] at heq
  obtain ⟨hcash, -, hf, hname, hsymbol, hfallback, -, -, -, hl, -, hvalue, -, -⟩ :=
    RowView.mk.inj heq
  rw [← hf] at hflag'
  rw [← hl] at hlast'
  have hclass : p.assetClass = q.assetClass := by
    revert hcash
    cases p.assetClass <;> cases q.assetClass <;> simp
  have hhidden : p.UsdHidden ↔ q.UsdHidden := by
    by_cases hp : p.UsdHidden
    · by_cases hq : q.UsdHidden
      · exact iff_of_true hp hq
      · simp [hp, hq] at hvalue
    · by_cases hq : q.UsdHidden
      · simp [hp, hq] at hvalue
      · exact iff_of_false hp hq
  exact {
    assetClass := hclass
    nameEn := hname
    nativeSymbol := hsymbol
    fxIsFallback := hfallback
    exchange := fun hstk =>
      (flagChip_label hstk hflag).symm.trans (flagChip_label (hclass ▸ hstk) hflag')
    price := fun hstk hpos => price_of_lastCell hstk (hclass ▸ hstk) hpos (hh.lastPrice ▸ hpos)
      hlast hlast'
    usdHidden := hhidden
    fxIsStale := fun hshown => by
      rw [if_neg hshown, if_neg (hhidden.not.mp hshown)] at hvalue
      exact congrArg Prod.snd (Option.some.inj hvalue) }

end PortfolioHub
