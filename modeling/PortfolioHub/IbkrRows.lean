import PortfolioHub.FloatText
import PortfolioHub.FxRates
import PortfolioHub.IbkrContracts
import PortfolioHub.IbkrValuation

namespace PortfolioHub

/-- A line of IB's positions reply. -/
structure IbPosition where
  account : String
  contract : Contract
  position : Python.Float
  avgCost : Python.Float
deriving DecidableEq, Repr

/-- A contract's entries in `last_prices` and `last_price_delayed`. -/
structure Quote where
  last : Python.Float
  delayed : Bool
deriving DecidableEq, Repr

def Quote.missing : Quote := ⟨0, false⟩

def Quote.ofTicker (ticker : Ticker) : Quote := ⟨coerceLast ticker, tickerIsDelayed ticker⟩

/-- The price a stock row is seeded with and where it comes from. -/
structure SeedPrice where
  price : Python.Float
  isBrokerMark : Bool
  isPreviousClose : Bool
  isDelayed : Bool
deriving DecidableEq, Repr

/-- The quote, else the broker's mark, else the previous close. -/
def seedPrice (quote : Quote) (previousClose : Python.Float) (item : Option PortfolioItem)
    (m : PriceMagnifier) (quantity : Python.Float) : SeedPrice :=
  if quote.last ≤ 0 then
    match item.bind fun item => portfolioDisplayPrice item m quantity with
    | some mark => ⟨mark, true, false, false⟩
    | none =>
      if 0 < previousClose then ⟨previousClose, false, true, false⟩
      else ⟨quote.last, false, false, quote.delayed⟩
  else ⟨quote.last, false, false, quote.delayed⟩

/-- `_build_position` behind the lookup of the name. -/
def buildPosition (fx : FxView) (ibPos : IbPosition) (name : ResolvedName) (quote : Quote)
    (previousClose : Python.Float) (item : Option PortfolioItem) : Position :=
  let m := name.priceMagnifier
  let quantity := ibPos.position
  let avgCost := (item.bind fun item => portfolioAverageCost item m).getD ibPos.avgCost
  let seed := seedPrice quote previousClose item m quantity
  let brokerValue := if quote.last ≤ 0 then item.bind portfolioMarketValue else none
  let brokerPnl := if quote.last ≤ 0 then item.bind portfolioUnrealizedPnl else none
  let mvNative := brokerValue.getD (m.divide (quantity * seed.price))
  let pnlNative := brokerPnl.getD (m.divide ((seed.price - avgCost) * quantity))
  let conv := convertToUsd fx ibPos.contract.currency mvNative pnlNative
  { broker := "IBKR"
    accountId := ibPos.account
    nativeKey := toString ibPos.contract.conId
    canonicalSymbol := name.canonical
    nativeSymbol := ibPos.contract.symbol
    exchange := name.primaryExchange
    currency := ibPos.contract.currency
    nameEn := name.nameEn
    assetClass := .stk
    quantity := quantity
    avgCost := avgCost
    lastPrice := seed.price
    marketValueNative := mvNative
    marketValueUsd := conv.mvUsd
    unrealizedPnlNative := pnlNative
    unrealizedPnlUsd := conv.pnlUsd
    fxIsStale := conv.fxIsStale
    fxIsFallback := conv.fxIsFallback
    fxUnavailable := conv.fxUnavailable
    lastPriceIsPreviousClose := seed.isPreviousClose
    lastPriceIsBrokerMark := seed.isBrokerMark
    lastPriceIsDelayed := seed.isDelayed
    priceMagnifier := m
    previousClose := previousClose }

/-- A balance as a row: the instrument is the currency. Every adapter builds it alike. -/
def cashRow (broker accountId currency : String) (amount : Python.Float) (fx : FxView) :
    Position :=
  let conv := convertToUsd fx currency amount 0
  { broker := broker
    accountId := accountId
    nativeKey := currency
    canonicalSymbol := currency
    nativeSymbol := currency
    exchange := ""
    currency := currency
    nameEn := currencyName currency
    assetClass := .cash
    quantity := amount
    avgCost := 1
    lastPrice := 1
    marketValueNative := amount
    marketValueUsd := conv.mvUsd
    unrealizedPnlNative := 0
    unrealizedPnlUsd := 0
    fxIsStale := conv.fxIsStale
    fxIsFallback := conv.fxIsFallback
    fxUnavailable := conv.fxUnavailable }

def buildCashPosition (fx : FxView) (ibPos : IbPosition) : Position :=
  cashRow "IBKR" ibPos.account ibPos.contract.currency ibPos.position fx

structure AccountCashValue where
  accountId : String
  currency : String
  amount : Python.Float
deriving DecidableEq, Repr

def buildAccountCashPosition (fx : FxView) (cash : AccountCashValue) : Position :=
  cashRow "IBKR" cash.accountId cash.currency cash.amount fx

/-- A row of IB's account summary. -/
structure SummaryRow where
  account : String
  tag : String
  value : String
  currency : String
deriving DecidableEq, Repr

/-- The accounts in the order they become known. -/
def summaryAccounts (managed : List String) (rows : List SummaryRow) : List String :=
  rows.foldl (fun accounts row =>
    if row.account ≠ "" ∧ row.account ∉ accounts then accounts ++ [row.account] else accounts)
    managed

def accountCashValues (managed : List String) (summary : Except Python.Error (List SummaryRow)) :
    List AccountCashValue :=
  match summary with
  | .error _ => []
  | .ok rows =>
    let byAccount := OrderedDict.ofList
      ((rows.filter fun row => row.tag = "TotalCashValue" ∧ row.account ≠ "").map fun row =>
        (row.account, (⟨row.account, Python.orElse row.currency "USD",
          Python.safeFloat row.value⟩ : AccountCashValue)))
    (summaryAccounts managed rows).filterMap byAccount.get?

/-- What IB and the caches answer while one `get_positions` runs. -/
structure IbReplies where
  positions : Except Python.Error (List IbPosition)
  portfolio : List PortfolioItem
  listingCache : ℤ → Option String
  nameCache : String → Option NameEntry
  details : ℤ → Except Python.Error (Option ContractDetails)
  tickers : Except Python.Error (ℤ → Ticker)
  previousCloses : ℤ → Option Python.Float
  managedAccounts : List String
  summary : Except Python.Error (List SummaryRow)

/-- The last item of a contract wins; items without a contract id are passed over. -/
def portfolioItemsByConid (items : List PortfolioItem) : OrderedDict ℤ PortfolioItem :=
  OrderedDict.ofList ((items.filter (·.conId ≠ 0)).map fun item => (item.conId, item))

/-- The listing exchange known for a contract id: the cached one, else the first found. -/
def IbReplies.listingExchange (r : IbReplies) (contracts : List Contract) (conId : ℤ) : String :=
  ((r.listingCache conId).or (contracts.findSome? fun contract =>
    if contract.conId = conId then listingExchangeForContract (r.details conId) contract
    else none)).getD ""

/-- Quotes are requested for the contracts whose listing exchange is not gated. -/
def IbReplies.quotes (r : IbReplies) (contracts : List Contract) :
    Except Python.Error (ℤ → Quote) :=
  let quoted := (contracts.map (·.conId)).filter fun conId =>
    ¬ isPermissionGated (r.listingExchange contracts conId)
  if quoted = [] then .ok fun _ => .missing
  else r.tickers.map fun ticker conId =>
    if conId ∈ quoted then .ofTicker (ticker conId) else .missing

def IbReplies.buildStockRows (fx : FxView) (r : IbReplies) (quotes : ℤ → Quote) :
    List IbPosition → Except Python.Error (List Position)
  | [] => .ok []
  | ibPos :: rest => do
    let conId := ibPos.contract.conId
    let name ← resolveName (r.nameCache (toString conId)) (r.details conId) ibPos.contract
    let rows ← r.buildStockRows fx quotes rest
    return (name.map fun name =>
      buildPosition fx ibPos name (quotes conId) ((r.previousCloses conId).getD 0)
        ((portfolioItemsByConid r.portfolio).get? conId)).toList ++ rows

/-- Cash of the account summary for the accounts without a cash row. -/
def IbReplies.missingAccountCashPositions (fx : FxView) (r : IbReplies)
    (positions : List Position) : List Position :=
  ((accountCashValues r.managedAccounts r.summary).filter fun cash =>
    ¬ (∃ p ∈ positions, p.assetClass = .cash ∧ p.accountId = cash.accountId) ∧ cash.amount ≠ 0).map
    (buildAccountCashPosition fx)

/-- `get_positions` on a connected adapter. -/
def IbReplies.getPositions (fx : FxView) (r : IbReplies) : Except Python.Error (List Position) := do
  let ibPositions ← r.positions
  let stk := ibPositions.filter (·.contract.secType = "STK")
  let cash := ibPositions.filter (·.contract.secType = "CASH")
  if stk = [] ∧ cash = [] then return r.missingAccountCashPositions fx []
  else
    let quotes ← r.quotes (stk.map (·.contract))
    let rows ← r.buildStockRows fx quotes stk
    let out := rows ++ cash.map (buildCashPosition fx)
    return out ++ r.missingAccountCashPositions fx out

/-- Where a row of `get_positions` comes from: a stock of the positions reply whose
name resolves, a balance of the reply, or a balance of the account summary. -/
inductive IbReplies.Source (fx : FxView) (r : IbReplies) : Position → Prop
  | stock {ibPositions : List IbPosition} {ibPos : IbPosition} {name : ResolvedName} {quotes : ℤ → Quote} :
      r.positions = .ok ibPositions → ibPos ∈ ibPositions → ibPos.contract.secType = "STK" →
      resolveName (r.nameCache (toString ibPos.contract.conId)) (r.details ibPos.contract.conId)
        ibPos.contract = .ok (some name) →
      r.quotes ((ibPositions.filter (·.contract.secType = "STK")).map (·.contract)) = .ok quotes →
      r.Source fx (buildPosition fx ibPos name (quotes ibPos.contract.conId)
        ((r.previousCloses ibPos.contract.conId).getD 0)
        ((portfolioItemsByConid r.portfolio).get? ibPos.contract.conId))
  | cash {ibPositions : List IbPosition} {ibPos : IbPosition} :
      r.positions = .ok ibPositions → ibPos ∈ ibPositions → ibPos.contract.secType = "CASH" →
      r.Source fx (buildCashPosition fx ibPos)
  | accountCash {cash : AccountCashValue} : cash ∈ accountCashValues r.managedAccounts r.summary →
      r.Source fx (buildAccountCashPosition fx cash)

/-- The source of a row, without the quotes and the balances. -/
def IbReplies.Origin (fx : FxView) (r : IbReplies) (p : Position) : Prop :=
  (∃ ibPositions ibPos name quote, r.positions = .ok ibPositions ∧ ibPos ∈ ibPositions ∧
    ibPos.contract.secType = "STK" ∧ resolveName (r.nameCache (toString ibPos.contract.conId)) (r.details ibPos.contract.conId)
      ibPos.contract = .ok (some name) ∧
    p = buildPosition fx ibPos name quote ((r.previousCloses ibPos.contract.conId).getD 0)
      ((portfolioItemsByConid r.portfolio).get? ibPos.contract.conId)) ∨
  (∃ ibPos, p = buildCashPosition fx ibPos) ∨ ∃ cash, p = buildAccountCashPosition fx cash

theorem IbReplies.Source.origin {fx : FxView} {r : IbReplies} {p : Position} (h : r.Source fx p) :
    r.Origin fx p := by
  cases h with
  | stock hpos hmem hstk hname _ => exact Or.inl ⟨_, _, _, _, hpos, hmem, hstk, hname, rfl⟩
  | cash _ _ _ => exact Or.inr (Or.inl ⟨_, rfl⟩)
  | accountCash _ => exact Or.inr (Or.inr ⟨_, rfl⟩)

theorem mem_buildStockRows {fx : FxView} {r : IbReplies} {quotes : ℤ → Quote}
    {ibPositions : List IbPosition} {rows : List Position} {p : Position}
    (h : r.buildStockRows fx quotes ibPositions = .ok rows) (hp : p ∈ rows) :
    ∃ ibPos ∈ ibPositions, ∃ name,
      resolveName (r.nameCache (toString ibPos.contract.conId)) (r.details ibPos.contract.conId)
        ibPos.contract = .ok (some name) ∧
      p = buildPosition fx ibPos name (quotes ibPos.contract.conId)
        ((r.previousCloses ibPos.contract.conId).getD 0)
        ((portfolioItemsByConid r.portfolio).get? ibPos.contract.conId) := by
  induction ibPositions generalizing rows with
  | nil =>
    obtain rfl := Except.ok.inj h
    simp at hp
  | cons ibPos rest ih =>
    obtain ⟨name, hname, h⟩ := Python.bind_eq_ok.mp h
    obtain ⟨tail, hrest, h⟩ := Python.bind_eq_ok.mp h
    obtain rfl := Python.pure_eq_ok.mp h
    rcases List.mem_append.mp hp with hhead | htail
    · cases name with
      | none => simp at hhead
      | some name =>
        refine ⟨ibPos, by simp, name, hname, ?_⟩
        simpa using hhead
    · obtain ⟨other, hmem, found⟩ := ih hrest htail
      exact ⟨other, List.mem_cons_of_mem _ hmem, found⟩

theorem mem_missingAccountCashPositions {fx : FxView} {r : IbReplies} {positions : List Position}
    {p : Position} (hp : p ∈ r.missingAccountCashPositions fx positions) :
    ∃ cash ∈ accountCashValues r.managedAccounts r.summary, p = buildAccountCashPosition fx cash := by
  obtain ⟨cash, hcash, rfl⟩ := List.mem_map.mp hp
  exact ⟨cash, List.mem_of_mem_filter hcash, rfl⟩

theorem getPositions_source {fx : FxView} {r : IbReplies} {rows : List Position} {p : Position}
    (h : r.getPositions fx = .ok rows) (hp : p ∈ rows) : r.Source fx p := by
  obtain ⟨ibPositions, hpos, h⟩ := Python.bind_eq_ok.mp h
  dsimp only at h
  split at h
  next =>
    obtain rfl := Python.pure_eq_ok.mp h
    obtain ⟨cash, hcash, rfl⟩ := mem_missingAccountCashPositions hp
    exact .accountCash hcash
  next =>
    obtain ⟨quotes, hquotes, h⟩ := Python.bind_eq_ok.mp h
    obtain ⟨stockRows, hstock, h⟩ := Python.bind_eq_ok.mp h
    obtain rfl := Python.pure_eq_ok.mp h
    rcases List.mem_append.mp hp with hout | hmissing
    · rcases List.mem_append.mp hout with hs | hc
      · obtain ⟨ibPos, hmem, name, hname, rfl⟩ := mem_buildStockRows hstock hs
        obtain ⟨hmem, hstk⟩ := List.mem_filter.mp hmem
        exact .stock hpos hmem (by simpa using hstk) hname hquotes
      · obtain ⟨ibPos, hmem, rfl⟩ := List.mem_map.mp hc
        obtain ⟨hmem, hcash⟩ := List.mem_filter.mp hmem
        exact .cash hpos hmem (by simpa using hcash)
    · obtain ⟨cash, hcash, rfl⟩ := mem_missingAccountCashPositions hmissing
      exact .accountCash hcash

theorem mem_getPositions {fx : FxView} {r : IbReplies} {rows : List Position} {p : Position}
    (h : r.getPositions fx = .ok rows) (hp : p ∈ rows) : r.Origin fx p :=
  (getPositions_source h hp).origin

theorem getPositions_broker {fx : FxView} {r : IbReplies} {rows : List Position} {p : Position}
    (h : r.getPositions fx = .ok rows) (hp : p ∈ rows) : p.broker = "IBKR" := by
  rcases mem_getPositions h hp with ⟨_, _, _, _, -, -, -, -, rfl⟩ | ⟨_, rfl⟩ | ⟨_, rfl⟩ <;> rfl

end PortfolioHub
