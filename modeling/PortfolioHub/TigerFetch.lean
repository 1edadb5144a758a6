import PortfolioHub.LongbridgeFetch
import PortfolioHub.TigerRows

namespace PortfolioHub

/-- A managed account; the type decides which assets query is made for it. -/
structure TigerAccountRef where
  accountId : String
  accountType : String
deriving DecidableEq, Repr

/-- The security segment of a prime account's assets. -/
structure TigerSegment where
  currency : Cell
  netLiquidation : Cell
  cashBalance : Cell
  buyingPower : Cell
  cashAvailableForTrade : Cell
  grossPositionValue : Cell
  currencyAssets : List TigerCurrencyAsset

/-- The summary and the market values of a global account's assets. -/
structure TigerGlobalAssets where
  currency : Cell
  netLiquidation : Cell
  cash : Cell
  buyingPower : Cell
  grossPositionValue : Cell
  marketValues : List TigerCurrencyAsset

/-- What the vendor answers while one request runs; a closed client reads like empty
answers. -/
structure TigerReplies where
  positions : String → Except Python.Error (List TigerRow)
  stockBriefs : List String → Except Python.Error (List TigerQuote)
  primeAssets : String → Except Python.Error (Option TigerSegment)
  globalAssets : String → Except Python.Error (Option TigerGlobalAssets)

structure TigerSettings where
  baseCurrency : String
  markets : List String

structure TigerAssetSnapshot where
  account : TigerAccountRef
  currency : String
  netLiquidationNative : Python.Float
  cashNative : Python.Float
  buyingPowerNative : Python.Float
  grossPositionValueNative : Python.Float
  cashAssets : List TigerCurrencyAsset

def primeAssetSnapshot (settings : TigerSettings) (account : TigerAccountRef)
    (segment : TigerSegment) : TigerAssetSnapshot where
  account := account
  currency := Python.upper (segment.currency.textOr settings.baseCurrency)
  netLiquidationNative := segment.netLiquidation.safeFloat
  cashNative := segment.cashBalance.safeFloat
  buyingPowerNative := firstFloat [segment.buyingPower, segment.cashAvailableForTrade]
  grossPositionValueNative := segment.grossPositionValue.safeFloat
  cashAssets := segment.currencyAssets

def globalAssetSnapshot (settings : TigerSettings) (account : TigerAccountRef)
    (assets : TigerGlobalAssets) : TigerAssetSnapshot where
  account := account
  currency := Python.upper (assets.currency.textOr settings.baseCurrency)
  netLiquidationNative := assets.netLiquidation.safeFloat
  cashNative := assets.cash.safeFloat
  buyingPowerNative := assets.buyingPower.safeFloat
  grossPositionValueNative := assets.grossPositionValue.safeFloat
  cashAssets := assets.marketValues

/-- `_asset_snapshot_for_account`. -/
def TigerReplies.assetSnapshot (settings : TigerSettings) (r : TigerReplies)
    (account : TigerAccountRef) : Except Python.Error (Option TigerAssetSnapshot) :=
  if account.accountType = "GLOBAL" then
    (r.globalAssets account.accountId).map (·.map (globalAssetSnapshot settings account))
  else (r.primeAssets account.accountId).map (·.map (primeAssetSnapshot settings account))

/-- `_fetch_asset_snapshots`; the accounts have ids of their own. -/
def TigerReplies.assetSnapshots (settings : TigerSettings) (r : TigerReplies)
    (accounts : List TigerAccountRef) : Except Python.Error (List TigerAssetSnapshot) := do
  let snapshots ← accounts.mapM (r.assetSnapshot settings)
  return snapshots.filterMap id

/-- One batch of `_quotes_by_symbol`: its Exception leaves the rows to their marks. -/
def TigerReplies.quoteBatch (r : TigerReplies) (found : OrderedDict String TigerQuote)
    (batch : List String) : Except Python.Error (OrderedDict String TigerQuote) :=
  match r.stockBriefs batch with
  | .error e => if e.isException then .ok found else .error e
  | .ok records => .ok (found.update ((records.map fun record =>
      (Python.strip (record.symbol.strOr ""), record)).filter (·.1 ≠ "")))

/-- `_quotes_by_symbol`, in batches of `_QUOTE_BATCH_SIZE`. -/
def TigerReplies.quotesBySymbol (r : TigerReplies) (symbols : List String) :
    Except Python.Error (OrderedDict String TigerQuote) :=
  ((OrderedDict.ofList (symbols.map fun symbol => (symbol, ()))).keys.toChunks 50).foldlM
    r.quoteBatch .empty

/-- `_position_rows_for_account`. -/
def TigerReplies.positionRows (r : TigerReplies) (account : TigerAccountRef) :
    Except Python.Error (List (String × TigerRow)) := do
  let rows ← r.positions account.accountId
  return (rows.filter fun row => row.quantity.safeFloat ≠ 0).map fun row => (account.accountId, row)

/-- The stock rows; one that does not map is skipped. -/
def tigerStockPositions (fx : FxView) (settings : TigerSettings) (rows : List (String × TigerRow))
    (quotes : OrderedDict String TigerQuote) : List Position :=
  rows.filterMap fun row =>
    match tigerPositionFromRow fx settings.markets row.1 row.2 quotes with
    | .ok position => position
    | .error _ => none

/-- `_fetch_positions`. When queries that run together fail, one of their exceptions is
raised; here it is the first. -/
def TigerReplies.fetchPositions (fx : FxView) (settings : TigerSettings) (r : TigerReplies)
    (accounts : List TigerAccountRef) : Except Python.Error (List Position) := do
  let accountRows ← accounts.mapM r.positionRows
  let rows := accountRows.flatten
  let symbols := (rows.map fun row => (attr row.2.contract (·.symbol)).textOr "").filter (· ≠ "")
  let quotes ← r.quotesBySymbol symbols
  let snapshots ← r.assetSnapshots settings accounts
  return tigerStockPositions fx settings rows quotes ++
    snapshots.flatMap fun s => tigerCashPositions fx s.account.accountId s.cashAssets

/-- `_summary_from_snapshot`. -/
def tigerSummary (fx : FxView) (s : TigerAssetSnapshot) : AccountSummary where
  broker := "Tiger"
  accountId := s.account.accountId
  baseCurrency := s.currency
  netLiquidationUsd := toUsd fx s.netLiquidationNative s.currency
  cashUsd := toUsd fx s.cashNative s.currency
  buyingPowerUsd := toUsd fx s.buyingPowerNative s.currency
  netLiquidationNative := s.netLiquidationNative
  grossPositionValueUsd := toUsd fx s.grossPositionValueNative s.currency

/-- `get_account_summary` on a connected adapter. -/
def TigerReplies.accountSummary (fx : FxView) (settings : TigerSettings) (r : TigerReplies)
    (accounts : List TigerAccountRef) : Except Python.Error (List AccountSummary) := do
  let snapshots ← r.assetSnapshots settings accounts
  return snapshots.map (tigerSummary fx)

/-- What an account's assets query raises. -/
def TigerReplies.assetsRaise (r : TigerReplies) (account : TigerAccountRef) :
    Option Python.Error :=
  if account.accountType = "GLOBAL" then Python.raised (r.globalAssets account.accountId)
  else Python.raised (r.primeAssets account.accountId)

theorem raised_assetSnapshot (settings : TigerSettings) (r : TigerReplies)
    (account : TigerAccountRef) :
    Python.raised (r.assetSnapshot settings account) = r.assetsRaise account := by
  unfold TigerReplies.assetSnapshot TigerReplies.assetsRaise
  split
  next => exact Python.raised_map ..
  next => exact Python.raised_map ..

/-- The summary of the Tiger accounts raises what the first failing assets query does. -/
theorem raised_tiger_accountSummary (fx : FxView) (settings : TigerSettings) (r : TigerReplies)
    (accounts : List TigerAccountRef) :
    Python.raised (r.accountSummary fx settings accounts) =
      accounts.findSome? r.assetsRaise := by
  have hmap := Python.raised_mapM (r.assetSnapshot settings) accounts
  simp only [raised_assetSnapshot] at hmap
  rw [← hmap]
  unfold TigerReplies.accountSummary TigerReplies.assetSnapshots
  rw [Python.raised_bind_pure, Python.raised_bind_pure]

end PortfolioHub
