import PortfolioHub.TigerRows

namespace PortfolioHub

/-- `_FUTU_EXCHANGE_TO_IB`. -/
def futuExchangeToIb : List (String × String) := [
  ("HK", "SEHK"), ("US", "NYSE"), ("SG", "SGX"), ("SH", "SSE"), ("SZ", "SZSE"),
  ("JP", "TSEJ"), ("AU", "ASX"), ("CA", "TSX")]

/-- `_FUTU_SUFFIX`. -/
def futuSuffix : List (String × String) := [
  ("HK", "HK"), ("US", "US"), ("SG", "SG"), ("SH", "SH"), ("SZ", "SZ"), ("JP", "JP"),
  ("AU", "AU"), ("CA", "CA")]

structure FutuRow where
  code : Cell
  qty : Cell
  positionMarket : Cell
  currency : Cell
  stockName : Cell
  nominalPrice : Cell
  lastPrice : Cell
  marketVal : Cell
  marketValue : Cell
  averageCost : Cell
  costPrice : Cell
  dilutedCost : Cell
  unrealizedPl : Cell
  plVal : Cell
deriving DecidableEq, Repr

/-- Native symbol, canonical symbol and exchange of a Futu code. -/
def futuNormaliseCode (code marketHint : String) : Except Python.Error (String × String × String) :=
  let parts := (Python.splitDot code).getD (marketHint, code)
  let rawSymbol := parts.2
  let named := Python.upper (Python.orElse parts.1 marketHint)
  let market := if named = "CN" then
      (if rawSymbol.toList.head? = some '6' then "SH" else "SZ")
    else named
  match futuExchangeToIb.lookup market, futuSuffix.lookup market with
  | some exchange, some suffix =>
    let nativeSymbol := Python.orElse
      (if market = "HK" then Python.lstripZeros rawSymbol else rawSymbol) "0"
    .ok (nativeSymbol, nativeSymbol ++ "." ++ suffix, exchange)
  | _, _ => .error (.valueError ("unknown Futu market " ++ Python.repr market))

/-- A row with an unknown market is skipped. -/
def futuPositionFromRow (fx : FxView) (accountId : String) (row : FutuRow) : Option Position :=
  let code := Python.strip (row.code.strOr "")
  let quantity := row.qty.safeFloat
  if code = "" ∨ quantity = 0 then none
  else match futuNormaliseCode code (row.positionMarket.strOr "") with
    | .error _ => none
    | .ok (nativeSymbol, canonical, exchange) =>
      let currency := Python.upper (row.currency.strOr "USD")
      let quoted := firstFloat [row.nominalPrice, row.lastPrice]
      let valued := firstFloat [row.marketVal, row.marketValue]
      let mvNative := if valued = 0 ∧ quoted ≠ 0 then quantity * quoted else valued
      let lastPrice := if quoted = 0 then Python.Float.quot mvNative quantity else quoted
      let avgCost := firstFloat [row.averageCost, row.costPrice, row.dilutedCost]
      let reported := firstFloat [row.unrealizedPl, row.plVal]
      let pnlNative := if reported = 0 ∧ avgCost ≠ 0 ∧ lastPrice ≠ 0 then
          (lastPrice - avgCost) * quantity
        else reported
      let conv := convertToUsd fx currency mvNative pnlNative
      some
        { broker := "Futu"
          accountId := accountId
          nativeKey := code
          canonicalSymbol := canonical
          nativeSymbol := nativeSymbol
          exchange := exchange
          currency := currency
          nameEn := row.stockName.strOr code
          assetClass := .stk
          quantity := quantity
          avgCost := avgCost
          lastPrice := lastPrice
          marketValueNative := mvNative
          marketValueUsd := conv.mvUsd
          unrealizedPnlNative := pnlNative
          unrealizedPnlUsd := conv.pnlUsd
          fxIsStale := conv.fxIsStale
          fxIsFallback := conv.fxIsFallback
          fxUnavailable := conv.fxUnavailable }

theorem futuPositionFromRow_stockOf {fx : FxView} {accountId : String} {row : FutuRow}
    {p : Position} (h : futuPositionFromRow fx accountId row = some p) :
    p.StockOf "Futu" (futuNormaliseCode (Python.strip (row.code.strOr ""))
      (row.positionMarket.strOr "")) := by
  unfold futuPositionFromRow at h
  dsimp only at h
  split at h
  next => simp at h
  next =>
    split at h
    next => simp at h
    next nativeSymbol canonical exchange hnorm =>
      obtain rfl := Option.some.inj h
      exact ⟨rfl, rfl, hnorm⟩

def FutuRow.quoted (row : FutuRow) : Python.Float := firstFloat [row.nominalPrice, row.lastPrice]

def FutuRow.valued (row : FutuRow) : Python.Float := firstFloat [row.marketVal, row.marketValue]

def FutuRow.avgCost (row : FutuRow) : Python.Float :=
  firstFloat [row.averageCost, row.costPrice, row.dilutedCost]

def FutuRow.reported (row : FutuRow) : Python.Float := firstFloat [row.unrealizedPl, row.plVal]

def FutuRow.mvNative (row : FutuRow) : Python.Float :=
  if row.valued = 0 ∧ row.quoted ≠ 0 then row.qty.safeFloat * row.quoted else row.valued

/-- The row's price, or the price its market value comes to. -/
def FutuRow.price (row : FutuRow) : Python.Float :=
  if row.quoted = 0 then Python.Float.quot row.mvNative row.qty.safeFloat else row.quoted

def FutuRow.figures (row : FutuRow) : StockFigures where
  quantity := row.qty.safeFloat
  avgCost := row.avgCost
  lastPrice := row.price
  mvNative := row.mvNative
  pnlNative := if row.reported = 0 ∧ row.avgCost ≠ 0 ∧ row.price ≠ 0 then
      (row.price - row.avgCost) * row.qty.safeFloat
    else row.reported
  previousClose := 0

theorem futuPositionFromRow_carries {fx : FxView} {accountId : String} {row : FutuRow}
    {p : Position} (h : futuPositionFromRow fx accountId row = some p) :
    p.Carries fx (Python.upper (row.currency.strOr "USD")) row.figures := by
  unfold futuPositionFromRow at h
  dsimp only at h
  split at h
  next => simp at h
  next =>
    split at h
    next => simp at h
    next =>
      obtain rfl := Option.some.inj h
      exact ⟨rfl, rfl, rfl, rfl, rfl, rfl, rfl, rfl, rfl, rfl, rfl, rfl, rfl, rfl⟩

structure FutuAccountRow where
  currency : Cell
  cash : Cell
  usCash : Cell
deriving DecidableEq, Repr

def futuCashPositionFromAccountRow (fx : FxView) (accountId : String) (row : FutuAccountRow) :
    Option Position :=
  let quantity := firstFloat [row.cash, row.usCash]
  if quantity = 0 then none
  else some (cashRow "Futu" accountId (Python.upper (row.currency.strOr "USD")) quantity fx)

theorem futuCashPositionFromAccountRow_eq {fx : FxView} {accountId : String} {row : FutuAccountRow}
    {p : Position} (h : futuCashPositionFromAccountRow fx accountId row = some p) :
    p = cashRow "Futu" accountId (Python.upper (row.currency.strOr "USD"))
      (firstFloat [row.cash, row.usCash]) fx := by
  unfold futuCashPositionFromAccountRow at h
  dsimp only at h
  split at h
  next => simp at h
  next =>
    exact (Option.some.inj h).symm

theorem futuNormaliseCode_known {code marketHint nativeSymbol canonical exchange : String}
    (h : futuNormaliseCode code marketHint = .ok (nativeSymbol, canonical, exchange)) :
    KnownExchange exchange := by
  unfold futuNormaliseCode at h
  dsimp only at h
  split at h
  next e suffix he _ =>
    obtain ⟨-, -, rfl⟩ := by simpa using h
    have hall : ∀ e ∈ futuExchangeToIb, KnownExchange e.2 := by decide
    exact hall _ (OrderedDict.mem_of_lookup he)
  next => simp at h

end PortfolioHub
