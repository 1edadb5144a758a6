import PortfolioHub.IbkrRows
import PortfolioHub.VendorCells

namespace PortfolioHub

/-- `_SUFFIX_TO_EXCHANGE`. -/
def suffixToExchange : List (String × String) := [
  ("HK", "SEHK"), ("US", "NASDAQ"), ("SG", "SGX"), ("SH", "SSE"), ("SZ", "SZSE"),
  ("JP", "TSEJ"), ("AU", "ASX"), ("UK", "LSE")]

structure LongbridgeStockRow where
  symbol : Cell
  quantity : Cell
  currency : Cell
  symbolName : Cell
  costPrice : Cell
deriving DecidableEq, Repr

structure LongbridgeQuote where
  lastDone : Cell
  prevClose : Cell
deriving DecidableEq, Repr

structure LongbridgeStatic where
  exchange : Cell
  currency : Cell
  nameEn : Cell
deriving DecidableEq, Repr

/-- Native symbol, canonical symbol and exchange of a Longbridge symbol. The hint is
taken as it is; only a missing one is replaced from the table of suffixes. -/
def longbridgeNormaliseSymbol (symbol exchangeHint : String) :
    Except Python.Error (String × String × String) :=
  match Python.rsplitDot (Python.strip symbol) with
  | none => .error (.runtimeError ("unknown Longbridge symbol format: " ++ Python.repr symbol))
  | some (rawSymbol, rawSuffix) =>
    let suffix := Python.upper rawSuffix
    let nativeSymbol := Python.orElse
      (if suffix = "HK" then Python.lstripZeros rawSymbol else rawSymbol) "0"
    let canonical := nativeSymbol ++ "." ++ suffix
    let exchange := Python.upper (Python.strip exchangeHint)
    if exchange ≠ "" then .ok (nativeSymbol, canonical, exchange)
    else match suffixToExchange.lookup suffix with
      | some exchange => .ok (nativeSymbol, canonical, exchange)
      | none =>
        .error (.runtimeError ("unknown Longbridge symbol suffix: " ++ Python.repr suffix))

/-- A stock row of a vendor, with the symbols the vendor's normaliser gave. -/
structure Position.StockOf (p : Position) (broker : String)
    (symbols : Except Python.Error (String × String × String)) : Prop where
  broker : p.broker = broker
  assetClass : p.assetClass = .stk
  symbols : symbols = .ok (p.nativeSymbol, p.canonicalSymbol, p.exchange)

/-- The numbers of a stock row before they are converted. -/
structure StockFigures where
  quantity : Python.Float
  avgCost : Python.Float
  lastPrice : Python.Float
  mvNative : Python.Float
  pnlNative : Python.Float
  previousClose : Python.Float

/-- A stock row with these figures and their conversion, whose price carries no flag. -/
structure Position.Carries (p : Position) (fx : FxView) (currency : String)
    (figures : StockFigures) : Prop where
  assetClass : p.assetClass = .stk
  code : p.currency = currency
  quantity : p.quantity = figures.quantity
  avgCost : p.avgCost = figures.avgCost
  lastPrice : p.lastPrice = figures.lastPrice
  mvNative : p.marketValueNative = figures.mvNative
  pnlNative : p.unrealizedPnlNative = figures.pnlNative
  mvUsd : p.marketValueUsd = (convertToUsd fx currency figures.mvNative figures.pnlNative).mvUsd
  pnlUsd : p.unrealizedPnlUsd =
    (convertToUsd fx currency figures.mvNative figures.pnlNative).pnlUsd
  fxUnavailable : p.fxUnavailable =
    (convertToUsd fx currency figures.mvNative figures.pnlNative).fxUnavailable
  previousClose : p.previousClose = figures.previousClose
  notPreviousClose : p.lastPriceIsPreviousClose = false
  notBrokerMark : p.lastPriceIsBrokerMark = false
  notDelayed : p.lastPriceIsDelayed = false

/-- A missing attribute of an object that may be missing itself. -/
def attr {α : Type*} (object : Option α) (field : α → Cell) : Cell :=
  (object.map field).getD .missing

def longbridgePositionFromStockRow (fx : FxView) (accountId : String) (row : LongbridgeStockRow)
    (quote : Option LongbridgeQuote) (static : Option LongbridgeStatic) :
    Except Python.Error (Option Position) :=
  let nativeKey := Python.strip (row.symbol.strOr "")
  let quantity := row.quantity.safeFloat
  if nativeKey = "" ∨ quantity = 0 then .ok none
  else do
    let (nativeSymbol, canonical, exchange) ← longbridgeNormaliseSymbol nativeKey
      ((attr static (·.exchange)).textOr "")
    let currency := Python.upper
      ((attr static (·.currency)).textOr (row.currency.textOr "USD"))
    let avgCost := row.costPrice.safeFloat
    let lastPrice := (attr quote (·.lastDone)).safeFloat
    let mvNative := quantity * lastPrice
    let pnlNative := if lastPrice ≠ 0 then (lastPrice - avgCost) * quantity else 0
    let conv := convertToUsd fx currency mvNative pnlNative
    return some
      { broker := "Longbridge"
        accountId := accountId
        nativeKey := nativeKey
        canonicalSymbol := canonical
        nativeSymbol := nativeSymbol
        exchange := exchange
        currency := currency
        nameEn := (attr static (·.nameEn)).textOr (row.symbolName.textOr nativeKey)
        assetClass := .stk
        quantity := quantity
        avgCost := avgCost
        lastPrice := lastPrice
        marketValueNative := mvNative
        marketValueUsd := conv.mvUsd
        unrealizedPnlNative := pnlNative
        unrealizedPnlUsd := conv.pnlUsd
        fxIsStale := conv.fxIsStale
        fxIsFallback := conv.fxIsFallback
        fxUnavailable := conv.fxUnavailable
        previousClose := (attr quote (·.prevClose)).safeFloat }

theorem longbridgePositionFromStockRow_stockOf {fx : FxView} {accountId : String}
    {row : LongbridgeStockRow} {quote : Option LongbridgeQuote} {static : Option LongbridgeStatic}
    {p : Position}
    (h : longbridgePositionFromStockRow fx accountId row quote static = .ok (some p)) :
    p.StockOf "Longbridge" (longbridgeNormaliseSymbol (Python.strip (row.symbol.strOr ""))
      ((attr static (·.exchange)).textOr "")) := by
  unfold longbridgePositionFromStockRow at h
  dsimp only at h
  split at h
  next => simp at h
  next =>
    obtain ⟨⟨nativeSymbol, canonical, exchange⟩, hnorm, h⟩ := Python.bind_eq_ok.mp h
    obtain rfl := Option.some.inj (Python.pure_eq_ok.mp h)
    exact ⟨rfl, rfl, hnorm⟩

def LongbridgeStockRow.figures (row : LongbridgeStockRow) (quote : Option LongbridgeQuote) :
    StockFigures where
  quantity := row.quantity.safeFloat
  avgCost := row.costPrice.safeFloat
  lastPrice := (attr quote (·.lastDone)).safeFloat
  mvNative := row.quantity.safeFloat * (attr quote (·.lastDone)).safeFloat
  pnlNative := if (attr quote (·.lastDone)).safeFloat ≠ 0 then
      ((attr quote (·.lastDone)).safeFloat - row.costPrice.safeFloat) * row.quantity.safeFloat
    else 0
  previousClose := (attr quote (·.prevClose)).safeFloat

theorem longbridgePositionFromStockRow_carries {fx : FxView} {accountId : String}
    {row : LongbridgeStockRow} {quote : Option LongbridgeQuote} {static : Option LongbridgeStatic}
    {p : Position}
    (h : longbridgePositionFromStockRow fx accountId row quote static = .ok (some p)) :
    p.Carries fx (Python.upper ((attr static (·.currency)).textOr (row.currency.textOr "USD")))
      (row.figures quote) := by
  unfold longbridgePositionFromStockRow at h
  dsimp only at h
  split at h
  next => simp at h
  next =>
    obtain ⟨symbols, -, h⟩ := Python.bind_eq_ok.mp h
    obtain rfl := Option.some.inj (Python.pure_eq_ok.mp h)
    exact ⟨rfl, rfl, rfl, rfl, rfl, rfl, rfl, rfl, rfl, rfl, rfl, rfl, rfl, rfl⟩

structure LongbridgeCashInfo where
  currency : Cell
  availableCash : Cell
  frozenCash : Cell
  settlingCash : Cell
deriving DecidableEq, Repr

def LongbridgeCashInfo.code (cash : LongbridgeCashInfo) : String :=
  Python.upper (cash.currency.textOr "")

def LongbridgeCashInfo.amount (cash : LongbridgeCashInfo) : Python.Float :=
  cash.availableCash.safeFloat + cash.frozenCash.safeFloat + cash.settlingCash.safeFloat

/-- `amounts[currency] = amounts.get(currency, 0.0) + amount`. -/
def addAmount (amounts : OrderedDict String Python.Float) (currency : String)
    (amount : Python.Float) : OrderedDict String Python.Float :=
  amounts.insert currency ((amounts.get? currency).getD 0 + amount)

/-- `sorted(amounts.items())`. -/
def sortedAmounts (amounts : OrderedDict String Python.Float) : List (String × Python.Float) :=
  amounts.entries.insertionSort fun a b => a.1 ≤ b.1

def longbridgeCashPositions (fx : FxView) (accountId : String) (cashInfos : List LongbridgeCashInfo) :
    List Position :=
  let amounts := (cashInfos.filter fun cash => cash.code ≠ "" ∧ cash.amount ≠ 0).foldl
    (fun amounts cash => addAmount amounts cash.code cash.amount) .empty
  (sortedAmounts amounts).map fun e => cashRow "Longbridge" accountId e.1 e.2 fx

end PortfolioHub
