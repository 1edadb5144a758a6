import PortfolioHub.LongbridgeRows

namespace PortfolioHub

/-- `_MARKET_TO_EXCHANGE`. -/
def marketToExchange : List (String × String) :=
  [("US", "NYSE"), ("HK", "SEHK"), ("SG", "SGX"), ("AU", "ASX")]

structure TigerContract where
  symbol : Cell
  market : Cell
  primaryExchange : Cell
  currency : Cell
  identifier : Cell
  name : Cell
deriving DecidableEq, Repr

structure TigerRow where
  contract : Option TigerContract
  account : Cell
  quantity : Cell
  marketPrice : Cell
  marketValue : Cell
  averageCost : Cell
  averageCostByAverage : Cell
  averageCostOfCarry : Cell
  unrealizedPnl : Cell
deriving DecidableEq, Repr

/-- A record of the quote batch. -/
structure TigerQuote where
  symbol : Cell
  latestPrice : Cell
  close : Cell
  preClose : Cell
  adjPreClose : Cell
deriving DecidableEq, Repr

def tigerPrimaryExchange (rawSymbol market exchangeHint : String) : Except Python.Error String :=
  let exchange := Python.upper (Python.strip exchangeHint)
  if KnownExchange exchange then .ok exchange
  else if market = "CN" then .ok (if rawSymbol.toList.head? = some '6' then "SSE" else "SZSE")
  else match marketToExchange.lookup market with
    | some exchange => .ok exchange
    | none => .error (.runtimeError ("unknown Tiger market " ++ Python.repr market))

/-- Native symbol, canonical symbol and exchange of a Tiger contract. -/
def tigerNormaliseContractSymbol (symbol market exchangeHint : String) :
    Except Python.Error (String × String × String) :=
  let rawSymbol := Python.strip symbol
  if rawSymbol = "" then .error (.runtimeError "position contract missing symbol")
  else do
    let exchange ← tigerPrimaryExchange rawSymbol market exchangeHint
    let nativeSymbol := Python.orElse
      (if ibExchangeToSuffix.lookup exchange = some "HK" then Python.lstripZeros rawSymbol
        else rawSymbol) "0"
    let canonical ← canonicalSymbol nativeSymbol exchange
    return (nativeSymbol, canonical, exchange)

def tigerPositionFromRow (fx : FxView) (markets : List String) (accountId : String)
    (row : TigerRow) (quoteBySymbol : OrderedDict String TigerQuote) :
    Except Python.Error (Option Position) :=
  match row.contract with
  | none => .error (.runtimeError "position missing contract")
  | some contract =>
    let symbol := contract.symbol.textOr ""
    let market := Python.upper (contract.market.textOr "")
    let quantity := row.quantity.safeFloat
    let rowAccount := row.account.textOr ""
    if markets ≠ [] ∧ market ≠ "" ∧ market ∉ markets then .ok none
    else if quantity = 0 then .ok none
    else if rowAccount ≠ "" ∧ rowAccount ≠ accountId then
      .error (.runtimeError ("position row account " ++ Python.repr rowAccount ++
        " does not match queried account " ++ Python.repr accountId))
    else do
      let (nativeSymbol, canonical, exchange) ← tigerNormaliseContractSymbol symbol market
        (contract.primaryExchange.textOr "")
      let currency := Python.upper (contract.currency.textOr "USD")
      let quote := quoteBySymbol.get? symbol
      let quoteLast := firstFloat [attr quote (·.latestPrice), attr quote (·.close)]
      let lastPrice := if quoteLast ≠ 0 then quoteLast else row.marketPrice.safeFloat
      let avgCost := firstFloat
        [row.averageCost, row.averageCostByAverage, row.averageCostOfCarry]
      let mvNative := if lastPrice ≠ 0 then quantity * lastPrice else row.marketValue.safeFloat
      let pnlNative := if lastPrice ≠ 0 ∧ avgCost ≠ 0 then (lastPrice - avgCost) * quantity
        else row.unrealizedPnl.safeFloat
      let conv := convertToUsd fx currency mvNative pnlNative
      return some
        { broker := "Tiger"
          accountId := accountId
          nativeKey := Python.orElse (contract.identifier.textOr "") (market ++ ":" ++ symbol)
          canonicalSymbol := canonical
          nativeSymbol := nativeSymbol
          exchange := exchange
          currency := currency
          nameEn := contract.name.textOr symbol
          assetClass := .stk
          quantity := quantity
          avgCost := avgCost
          lastPrice := lastPrice
          marketValueNative := mvNative
          marketValueUsd := conv.mvUsd
          unrealizedPnlNative := pnlNative
          unrealizedPnlUsd := conv.pnlUsd
          fxIsStale := conv.fxIsStale
          fxIsFallback := conv.fxIsFallback
          fxUnavailable := conv.fxUnavailable
          previousClose := firstFloat [attr quote (·.preClose), attr quote (·.adjPreClose)] }

theorem tigerPositionFromRow_stockOf {fx : FxView} {markets : List String} {accountId : String}
    {row : TigerRow} {quotes : OrderedDict String TigerQuote} {p : Position}
    (h : tigerPositionFromRow fx markets accountId row quotes = .ok (some p)) :
    ∃ contract, row.contract = some contract ∧
      p.StockOf "Tiger" (tigerNormaliseContractSymbol (contract.symbol.textOr "")
        (Python.upper (contract.market.textOr "")) (contract.primaryExchange.textOr "")) := by
  unfold tigerPositionFromRow at h
  dsimp only at h
  split at h
  next => simp at h
  next contract hcontract =>
    split at h
    next => simp at h
    next =>
      split at h
      next => simp at h
      next =>
        split at h
        next => simp at h
        next =>
          obtain ⟨⟨nativeSymbol, canonical, exchange⟩, hnorm, h⟩ := Python.bind_eq_ok.mp h
          obtain rfl := Option.some.inj (Python.pure_eq_ok.mp h)
          exact ⟨contract, hcontract, rfl, rfl, hnorm⟩

def TigerRow.symbol (row : TigerRow) : String := (attr row.contract (·.symbol)).textOr ""

def TigerRow.currency (row : TigerRow) : String :=
  Python.upper ((attr row.contract (·.currency)).textOr "USD")

/-- The price a row is valued at: the quote's, and the row's mark where it has none. -/
def TigerRow.lastPrice (row : TigerRow) (quote : Option TigerQuote) : Python.Float :=
  let quoteLast := firstFloat [attr quote (·.latestPrice), attr quote (·.close)]
  if quoteLast ≠ 0 then quoteLast else row.marketPrice.safeFloat

def TigerRow.avgCost (row : TigerRow) : Python.Float :=
  firstFloat [row.averageCost, row.averageCostByAverage, row.averageCostOfCarry]

/-- The figures of a row valued with the quote under its symbol. -/
def TigerRow.figures (row : TigerRow) (quote : Option TigerQuote) : StockFigures where
  quantity := row.quantity.safeFloat
  avgCost := row.avgCost
  lastPrice := row.lastPrice quote
  mvNative := if row.lastPrice quote ≠ 0 then row.quantity.safeFloat * row.lastPrice quote
    else row.marketValue.safeFloat
  pnlNative := if row.lastPrice quote ≠ 0 ∧ row.avgCost ≠ 0 then
      (row.lastPrice quote - row.avgCost) * row.quantity.safeFloat
    else row.unrealizedPnl.safeFloat
  previousClose := firstFloat [attr quote (·.preClose), attr quote (·.adjPreClose)]

theorem tigerPositionFromRow_carries {fx : FxView} {markets : List String} {accountId : String}
    {row : TigerRow} {quotes : OrderedDict String TigerQuote} {p : Position}
    (h : tigerPositionFromRow fx markets accountId row quotes = .ok (some p)) :
    p.Carries fx row.currency (row.figures (quotes.get? row.symbol)) := by
  unfold tigerPositionFromRow at h
  unfold TigerRow.symbol TigerRow.currency
  dsimp only at h
  split at h
  next => simp at h
  next contract hcontract =>
    rw [hcontract]
    split at h
    next => simp at h
    next =>
      split at h
      next => simp at h
      next =>
        split at h
        next => simp at h
        next =>
          obtain ⟨normalised, -, h⟩ := Python.bind_eq_ok.mp h
          obtain rfl := Option.some.inj (Python.pure_eq_ok.mp h)
          exact ⟨rfl, rfl, rfl, rfl, rfl, rfl, rfl, rfl, rfl, rfl, rfl, rfl, rfl, rfl⟩

/-- A currency's entry in the assets of an account, under its key. -/
structure TigerCurrencyAsset where
  key : String
  currency : Cell
  cashBalance : Cell
deriving DecidableEq, Repr

/-- `prime_cash_amounts` and `global_cash_amounts`, on the entries they read. -/
def tigerCashAmounts (assets : List TigerCurrencyAsset) : OrderedDict String Python.Float :=
  assets.foldl (fun amounts asset =>
    addAmount amounts (Python.upper (asset.currency.textOr asset.key))
      asset.cashBalance.safeFloat) .empty

/-- `_cash_positions_from_snapshots`, for the snapshot of one account. -/
def tigerCashPositions (fx : FxView) (accountId : String) (assets : List TigerCurrencyAsset) :
    List Position :=
  ((sortedAmounts (tigerCashAmounts assets)).filter (·.2 ≠ 0)).map fun e =>
    cashRow "Tiger" accountId e.1 e.2 fx

theorem tigerPrimaryExchange_known {rawSymbol market exchangeHint exchange : String}
    (h : tigerPrimaryExchange rawSymbol market exchangeHint = .ok exchange) :
    KnownExchange exchange := by
  unfold tigerPrimaryExchange at h
  dsimp only at h
  split at h
  next hknown =>
    obtain rfl := Except.ok.inj h
    exact hknown
  next =>
    split at h
    next =>
      obtain rfl := Except.ok.inj h
      split
      · decide
      · decide
    next =>
      split at h
      next e he =>
        obtain rfl := Except.ok.inj h
        have hall : ∀ e ∈ marketToExchange, KnownExchange e.2 := by decide
        exact hall _ (OrderedDict.mem_of_lookup he)
      next => simp at h

theorem tigerNormaliseContractSymbol_known {symbol market exchangeHint nativeSymbol canonical
    exchange : String}
    (h : tigerNormaliseContractSymbol symbol market exchangeHint =
      .ok (nativeSymbol, canonical, exchange)) : KnownExchange exchange := by
  unfold tigerNormaliseContractSymbol at h
  dsimp only at h
  split at h
  next => simp at h
  next =>
    obtain ⟨found, hex, h⟩ := Python.bind_eq_ok.mp h
    obtain ⟨symbol, -, h⟩ := Python.bind_eq_ok.mp h
    obtain ⟨-, -, rfl⟩ := by simpa using Python.pure_eq_ok.mp h
    exact tigerPrimaryExchange_known hex

end PortfolioHub
