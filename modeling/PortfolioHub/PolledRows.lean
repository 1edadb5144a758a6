import PortfolioHub.AdapterCalls
import PortfolioHub.RowCoherence

namespace PortfolioHub

/-- If the field reads as a number, it is a finite one. -/
def Cell.Finite (c : Cell) : Prop := ∀ x, c.float? = some x → x.isFinite = true

theorem Cell.Finite.safeFloat {c : Cell} (h : c.Finite) : c.safeFloat.isFinite = true := by
  unfold Cell.safeFloat
  cases hx : c.float? with
  | none => rfl
  | some x => exact h x hx

theorem Cell.finite_missing : Cell.Finite .missing := by
  intro x hx
  cases hx

theorem firstFloat_isFinite {cells : List Cell} (h : ∀ c ∈ cells, c.Finite) :
    (firstFloat cells).isFinite = true := by
  unfold firstFloat
  cases hx : cells.findSome? Cell.float? with
  | none => rfl
  | some x =>
    obtain ⟨c, hc, hcx⟩ := List.exists_of_findSome?_eq_some hx
    exact h c hc x hcx

theorem attr_finite {α : Type*} {object : Option α} {field : α → Cell}
    (h : ∀ a ∈ object, (field a).Finite) : (attr object field).Finite := by
  cases object with
  | none => exact Cell.finite_missing
  | some a => exact h a rfl

/-- The fields the adapter reads numbers from. -/
def LongbridgeStockRow.numbers (row : LongbridgeStockRow) : List Cell :=
  [row.quantity, row.costPrice]

def LongbridgeCashInfo.numbers (cash : LongbridgeCashInfo) : List Cell :=
  [cash.availableCash, cash.frozenCash, cash.settlingCash]

def TigerRow.numbers (row : TigerRow) : List Cell :=
  [row.quantity, row.marketPrice, row.marketValue, row.averageCost, row.averageCostByAverage,
    row.averageCostOfCarry, row.unrealizedPnl]

def FutuRow.numbers (row : FutuRow) : List Cell :=
  [row.qty, row.nominalPrice, row.lastPrice, row.marketVal, row.marketValue, row.averageCost,
    row.costPrice, row.dilutedCost, row.unrealizedPl, row.plVal]

/-- A stock row whose figures are finite is valued. -/
theorem Position.Carries.valued {fx : FxView} (hfx : fx.PositiveRates) {currency : String}
    {figures : StockFigures} {p : Position} (h : p.Carries fx currency figures)
    (hquantity : figures.quantity.isFinite = true) (hcost : figures.avgCost.isFinite = true)
    (hnative : figures.mvNative.isFinite = true) (hpnl : figures.pnlNative.isFinite = true) :
    p.Valued := by
  have hclass : p.assetClass ≠ .cash := by simp [h.assetClass]
  have hconverted : p.Converted := by
    refine converted_of_convertToUsd hfx (h.mvNative ▸ hnative) (h.pnlNative ▸ hpnl) ?_ ?_ ?_
    · rw [h.code, h.mvNative, h.pnlNative]
      exact h.mvUsd
    · rw [h.code, h.mvNative, h.pnlNative]
      exact h.pnlUsd
    · rw [h.code, h.mvNative, h.pnlNative]
      exact h.fxUnavailable
  exact ⟨hconverted, fun hcash => absurd hcash hclass,
    by simp [Position.OnePriceFlag, h.notPreviousClose, h.notBrokerMark, h.notDelayed],
    h.quantity ▸ hquantity, h.avgCost ▸ hcost, h.mvNative ▸ hnative, h.pnlNative ▸ hpnl⟩

theorem longbridgePositionFromStockRow_valued {fx : FxView} (hfx : fx.PositiveRates) {accountId : String}
    {row : LongbridgeStockRow} (hrow : ∀ c ∈ row.numbers, c.Finite) {quote : Option LongbridgeQuote}
    (hquote : ∀ q ∈ quote, q.lastDone.Finite) {static : Option LongbridgeStatic} {p : Position}
    (h : longbridgePositionFromStockRow fx accountId row quote static = .ok (some p)) :
    p.Valued := by
  have hquantity := (hrow row.quantity (by simp [LongbridgeStockRow.numbers])).safeFloat
  have hcost := (hrow row.costPrice (by simp [LongbridgeStockRow.numbers])).safeFloat
  have hlast := (attr_finite hquote).safeFloat
  have hpnl := Python.Float.isFinite_mul (Python.Float.isFinite_sub hlast hcost) hquantity
  exact (longbridgePositionFromStockRow_carries h).valued hfx hquantity hcost
    (Python.Float.isFinite_mul hquantity hlast) (Python.Float.isFinite_ite hpnl rfl)

theorem tigerPositionFromRow_valued {fx : FxView} (hfx : fx.PositiveRates) {markets : List String}
    {accountId : String} {row : TigerRow} (hrow : ∀ c ∈ row.numbers, c.Finite)
    {quotes : OrderedDict String TigerQuote}
    (hquotes : ∀ symbol q, quotes.get? symbol = some q → q.latestPrice.Finite ∧ q.close.Finite)
    {p : Position} (h : tigerPositionFromRow fx markets accountId row quotes = .ok (some p)) :
    p.Valued := by
  have hcell : ∀ c ∈ row.numbers, c.safeFloat.isFinite = true := fun c hc => (hrow c hc).safeFloat
  have hquantity := hcell row.quantity (by simp [TigerRow.numbers])
  have hcost : row.avgCost.isFinite = true := by
    refine firstFloat_isFinite fun c hc => hrow c ?_
    simp only [TigerRow.numbers, List.mem_cons] at hc ⊢
    tauto
  have hprice : (row.lastPrice (quotes.get? row.symbol)).isFinite = true := by
    refine Python.Float.isFinite_ite (firstFloat_isFinite fun c hc => ?_)
      (hcell row.marketPrice (by simp [TigerRow.numbers]))
    rcases List.mem_pair.mp hc with rfl | rfl
    · exact attr_finite fun q hq => (hquotes row.symbol q hq).1
    · exact attr_finite fun q hq => (hquotes row.symbol q hq).2
  refine (tigerPositionFromRow_carries h).valued hfx hquantity hcost
    (Python.Float.isFinite_ite ?_ ?_) (Python.Float.isFinite_ite ?_ ?_)
  · exact Python.Float.isFinite_mul hquantity hprice
  · exact hcell row.marketValue (by simp [TigerRow.numbers])
  · exact Python.Float.isFinite_mul (Python.Float.isFinite_sub hprice hcost) hquantity
  · exact hcell row.unrealizedPnl (by simp [TigerRow.numbers])

theorem futuPositionFromRow_valued {fx : FxView} (hfx : fx.PositiveRates) {accountId : String} {row : FutuRow}
    (hrow : ∀ c ∈ row.numbers, c.Finite) {p : Position}
    (h : futuPositionFromRow fx accountId row = some p) : p.Valued := by
  have hfirst : ∀ cells : List Cell, (∀ c ∈ cells, c ∈ row.numbers) →
      (firstFloat cells).isFinite = true :=
    fun cells hcells => firstFloat_isFinite fun c hc => hrow c (hcells c hc)
  have hquantity := (hrow row.qty (by simp [FutuRow.numbers])).safeFloat
  have hquoted : row.quoted.isFinite = true := hfirst _ (by simp [FutuRow.numbers])
  have hvalued : row.valued.isFinite = true := hfirst _ (by simp [FutuRow.numbers])
  have hcost : row.avgCost.isFinite = true := hfirst _ (by simp [FutuRow.numbers])
  have hreported : row.reported.isFinite = true := hfirst _ (by simp [FutuRow.numbers])
  have hnative : row.mvNative.isFinite = true :=
    Python.Float.isFinite_ite (Python.Float.isFinite_mul hquantity hquoted) hvalued
  have hprice : row.price.isFinite = true :=
    Python.Float.isFinite_ite (Python.Float.isFinite_quot hnative hquantity) hquoted
  have hpnl := Python.Float.isFinite_mul (Python.Float.isFinite_sub hprice hcost) hquantity
  exact (futuPositionFromRow_carries h).valued hfx hquantity hcost hnative
    (Python.Float.isFinite_ite hpnl hreported)

end PortfolioHub
