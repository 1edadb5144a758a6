import PortfolioHub.LongbridgeRows

namespace PortfolioHub

/-- A channel of the stock positions; `labels` are the attributes `_channel_name` tries. -/
structure LongbridgeChannel where
  labels : List Cell
  positions : List LongbridgeStockRow

structure LongbridgeBalance where
  currency : Cell
  netAssets : Cell
  totalCash : Cell
  buyPower : Cell
  cashInfos : List LongbridgeCashInfo

/-- What the vendor answers while one request runs; a closed context reads like empty
answers. Quotes and static infos come under the symbols they carry. -/
structure LongbridgeReplies where
  stockPositions : Except Python.Error (List LongbridgeChannel)
  quote : List String → Except Python.Error (List (String × LongbridgeQuote))
  staticInfo : List String → Except Python.Error (List (String × LongbridgeStatic))
  accountBalance : Except Python.Error (List LongbridgeBalance)

/-- The constructor's cleaned settings. -/
structure LongbridgeSettings where
  accountId : String
  positionChannel : String
  baseCurrency : String

def LongbridgeChannel.name (channel : LongbridgeChannel) : String :=
  ((channel.labels.map (Cell.textOr "")).find? (· ≠ "")).getD ""

def longbridgeNormaliseChannel (value : String) : String := Python.upper (Python.strip value)

def formatChannelNames (channels : List LongbridgeChannel) : String :=
  Python.orElse (", ".intercalate (channels.map fun c => Python.orElse c.name "<unknown>")) "<none>"

/-- `_stock_position_rows`: the rows of the one channel in use that hold something. -/
def LongbridgeReplies.stockPositionRows (settings : LongbridgeSettings) (r : LongbridgeReplies) :
    Except Python.Error (List LongbridgeStockRow) := do
  let channels ← r.stockPositions
  let key := longbridgeNormaliseChannel settings.positionChannel
  let matching := if key = "" then channels
    else channels.filter fun c => longbridgeNormaliseChannel c.name = key
  if channels = [] then return []
  else if key ≠ "" ∧ matching.length ≠ 1 then
    .error (.runtimeError ("Longbridge position channel " ++ Python.repr settings.positionChannel ++
      " matched " ++ toString matching.length ++ " channels; available channels: " ++
      formatChannelNames channels))
  else if 1 < matching.length then
    .error (.runtimeError ("Longbridge returned multiple stock position channels; set " ++
      "LONGBRIDGE_POSITION_CHANNEL to one of: " ++ formatChannelNames matching))
  else return (matching.flatMap (·.positions)).filter fun row => row.quantity.safeFloat ≠ 0

/-- `_validate_symbol_for_lookup` lets the symbol pass. -/
def longbridgeSymbolValid (symbol : String) : Bool :=
  match Python.rsplitDot (Python.strip symbol) with
  | none => false
  | some (rawSymbol, suffix) =>
    Python.strip rawSymbol ≠ "" && Python.strip suffix ≠ "" &&
      (suffixToExchange.lookup (Python.upper suffix)).isSome

/-- `_rows_by_symbol`. -/
def rowsBySymbol {α : Type} (rows : List (String × α)) : OrderedDict String α :=
  OrderedDict.ofList (rows.map fun row => (Python.strip row.1, row.2))

/-- One lookup of `_quotes_by_symbol_individually`: an Exception marks the symbol as failed. -/
def LongbridgeReplies.quoteOne (r : LongbridgeReplies)
    (found : OrderedDict String LongbridgeQuote × List String) (symbol : String) :
    Except Python.Error (OrderedDict String LongbridgeQuote × List String) :=
  match r.quote [symbol] with
  | .ok quotes => .ok (found.1.update (rowsBySymbol quotes).entries, found.2)
  | .error e => if e.isException then .ok (found.1, found.2 ++ [symbol]) else .error e

/-- `_quotes_by_symbol`: the quotes and the symbols without one. When every single
lookup fails too, the batch's exception is raised. -/
def LongbridgeReplies.quotesBySymbol (r : LongbridgeReplies) (symbols : List String) :
    Except Python.Error (OrderedDict String LongbridgeQuote × List String) :=
  if symbols = [] then .ok (.empty, [])
  else match r.quote symbols with
    | .ok quotes => .ok (rowsBySymbol quotes, [])
    | .error batch =>
      if batch.isException then do
        let found ← symbols.foldlM r.quoteOne (.empty, [])
        if ∀ symbol ∈ symbols, symbol ∈ found.2 then .error batch else return found
      else .error batch

def LongbridgeReplies.staticOne (r : LongbridgeReplies)
    (found : OrderedDict String LongbridgeStatic) (symbol : String) :
    Except Python.Error (OrderedDict String LongbridgeStatic) :=
  match r.staticInfo [symbol] with
  | .ok infos => .ok (found.update (rowsBySymbol infos).entries)
  | .error e => if e.isException then .ok found else .error e

/-- `_static_by_symbol`: a failed lookup leaves the row to its fallbacks. -/
def LongbridgeReplies.staticBySymbol (r : LongbridgeReplies) (symbols : List String) :
    Except Python.Error (OrderedDict String LongbridgeStatic) :=
  if symbols = [] then .ok .empty
  else match r.staticInfo symbols with
    | .ok infos => .ok (rowsBySymbol infos)
    | .error e => if e.isException then symbols.foldlM r.staticOne .empty else .error e

/-- The stock rows: a symbol without a quote and a row that does not map are skipped. -/
def longbridgeStockPositions (fx : FxView) (accountId : String) (stocks : List LongbridgeStockRow)
    (quotes : OrderedDict String LongbridgeQuote × List String)
    (statics : OrderedDict String LongbridgeStatic) : List Position :=
  stocks.filterMap fun row =>
    let symbol := Python.strip row.symbol.str
    if symbol ∈ quotes.2 then none
    else match longbridgePositionFromStockRow fx accountId row (quotes.1.get? symbol)
        (statics.get? symbol) with
      | .ok position => position
      | .error _ => none

/-- `_fetch_positions`. -/
def LongbridgeReplies.fetchPositions (fx : FxView) (settings : LongbridgeSettings)
    (r : LongbridgeReplies) : Except Python.Error (List Position) := do
  let rows ← r.stockPositionRows settings
  let stocks := rows.filter fun row => longbridgeSymbolValid (Python.strip row.symbol.str)
  let symbols := stocks.map fun row => Python.strip row.symbol.str
  let quotes ← r.quotesBySymbol symbols
  let statics ← r.staticBySymbol symbols
  let balances ← r.accountBalance
  return longbridgeStockPositions fx settings.accountId stocks quotes statics ++
    longbridgeCashPositions fx settings.accountId (balances.flatMap (·.cashInfos))

/-- `_base_balance`: the balance in the base currency, else the first. -/
def longbridgeBaseBalance (settings : LongbridgeSettings) (balances : List LongbridgeBalance) :
    Option LongbridgeBalance :=
  (balances.find? fun b => Python.upper (b.currency.textOr "") = settings.baseCurrency).or
    balances.head?

/-- `_to_usd` of the polling adapters. -/
def toUsd (fx : FxView) (amount : Python.Float) (currency : String) : Python.Float :=
  (convertToUsd fx currency amount 0).mvUsd

def longbridgeSummary (fx : FxView) (settings : LongbridgeSettings) (balance : LongbridgeBalance) :
    AccountSummary :=
  let currency := Python.upper (balance.currency.textOr settings.baseCurrency)
  let nlvNative := balance.netAssets.safeFloat
  let cashNative := balance.totalCash.safeFloat
  let gross := nlvNative - cashNative
  { broker := "Longbridge"
    accountId := settings.accountId
    baseCurrency := currency
    netLiquidationUsd := toUsd fx nlvNative currency
    cashUsd := toUsd fx cashNative currency
    buyingPowerUsd := toUsd fx balance.buyPower.safeFloat currency
    netLiquidationNative := nlvNative
    grossPositionValueUsd := toUsd fx (if 0 < gross then gross else 0) currency }

/-- `get_account_summary` on a connected adapter. -/
def LongbridgeReplies.accountSummary (fx : FxView) (settings : LongbridgeSettings)
    (r : LongbridgeReplies) : Except Python.Error (List AccountSummary) := do
  let balances ← r.accountBalance
  return ((longbridgeBaseBalance settings balances).map (longbridgeSummary fx settings)).toList

/-- The summary of a Longbridge account raises what its balance query does. -/
theorem raised_longbridge_accountSummary (fx : FxView) (settings : LongbridgeSettings)
    (r : LongbridgeReplies) :
    Python.raised (r.accountSummary fx settings) = Python.raised r.accountBalance :=
  Python.raised_bind_pure ..

end PortfolioHub
