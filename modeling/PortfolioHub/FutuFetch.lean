import PortfolioHub.LongbridgeFetch
import PortfolioHub.FutuRows

namespace PortfolioHub

/-- A row of the account info reply. -/
structure FutuInfoRow extends FutuAccountRow where
  totalAssets : Cell
  netAssets : Cell
  power : Cell
  maxPower : Cell
  marketVal : Cell
  securitiesAssets : Cell

/-- A usable account with the markets of its contexts. -/
structure FutuAccount where
  accountId : String
  markets : List String

/-- What the vendor answers while one request runs; `none` is a return code other than
`RET_OK`. -/
structure FutuReplies where
  positionList : String → String → Except Python.Error (Option (List FutuRow))
  accinfo : String → Except Python.Error (Option (List FutuInfoRow))

/-- `int(account_id)` in the arguments of a query. -/
def futuAccId (accountId : String) : Except Python.Error ℤ :=
  match Python.parseInt accountId with
  | some n => .ok n
  | none =>
    .error (.valueError ("invalid literal for int() with base 10: " ++ Python.repr accountId))

/-- `_position_rows_for_context`, for an account and the market of the context. -/
def FutuReplies.positionRows (r : FutuReplies) (context : String × String) :
    Except Python.Error (Option (List (String × FutuRow))) := do
  let _ ← futuAccId context.1
  let reply ← r.positionList context.1 context.2
  return reply.map fun rows => rows.map fun row => (context.1, row)

/-- `_account_info_row_for_context`, on the account's first context. -/
def FutuReplies.accountInfoRow (r : FutuReplies) (account : FutuAccount) :
    Except Python.Error (Option (String × FutuInfoRow)) := do
  let _ ← futuAccId account.accountId
  let reply ← r.accinfo account.accountId
  return (reply.bind List.head?).map fun row => (account.accountId, row)

/-- The accounts that have a context, with their info rows. -/
def FutuReplies.accountInfoRows (r : FutuReplies) (accounts : List FutuAccount) :
    Except Python.Error (List (String × FutuInfoRow)) := do
  let rows ← (accounts.filter (·.markets ≠ [])).mapM r.accountInfoRow
  return rows.filterMap id

/-- The stock rows by broker, account and native key: the last row of a key wins. -/
def futuStockPositions (fx : FxView) (rows : List (String × FutuRow)) : List Position :=
  (OrderedDict.ofList ((rows.filterMap fun row => futuPositionFromRow fx row.1 row.2).map fun p =>
    ((p.broker, p.accountId, p.nativeKey), p))).values

/-- `get_positions` on a connected adapter: one failed position query spoils it. -/
def FutuReplies.getPositions (fx : FxView) (r : FutuReplies) (accounts : List FutuAccount) :
    Except Python.Error (List Position) := do
  let replies ← (accounts.flatMap fun a => a.markets.map fun m => (a.accountId, m)).mapM
    r.positionRows
  let failures := replies.filter (· = none)
  if failures ≠ [] then
    .error (.runtimeError ("Futu position_list_query failed for " ++ toString failures.length ++
      " account/market context(s)"))
  else
    let infoRows ← r.accountInfoRows accounts
    return futuStockPositions fx (replies.filterMap id).flatten ++
      infoRows.filterMap fun row => futuCashPositionFromAccountRow fx row.1 row.2.toFutuAccountRow

/-- `_summary_from_row`. -/
def futuSummary (fx : FxView) (accountId : String) (row : FutuInfoRow) : AccountSummary :=
  let currency := Python.upper (row.currency.strOr "USD")
  let nlvNative := firstFloat [row.totalAssets, row.netAssets]
  { broker := "Futu"
    accountId := accountId
    baseCurrency := currency
    netLiquidationUsd := toUsd fx nlvNative currency
    cashUsd := toUsd fx (firstFloat [row.cash, row.usCash]) currency
    buyingPowerUsd := toUsd fx (firstFloat [row.power, row.maxPower]) currency
    netLiquidationNative := nlvNative
    grossPositionValueUsd := toUsd fx (firstFloat [row.marketVal, row.securitiesAssets]) currency }

/-- `get_account_summary` on a connected adapter. -/
def FutuReplies.accountSummary (fx : FxView) (r : FutuReplies) (accounts : List FutuAccount) :
    Except Python.Error (List AccountSummary) := do
  let rows ← r.accountInfoRows accounts
  return rows.map fun row => futuSummary fx row.1 row.2

/-- What an account's info query raises: an id that is no number, or the vendor. -/
def FutuReplies.infoRaises (r : FutuReplies) (account : FutuAccount) : Option Python.Error :=
  if account.markets = [] then none
  else (Python.raised (futuAccId account.accountId)).or
    (Python.raised (r.accinfo account.accountId))

theorem raised_accountInfoRow {account : FutuAccount} (r : FutuReplies)
    (hmarkets : account.markets ≠ []) :
    Python.raised (r.accountInfoRow account) = r.infoRaises account := by
  unfold FutuReplies.accountInfoRow FutuReplies.infoRaises
  rw [if_neg hmarkets, Python.raised_bind]
  cases futuAccId account.accountId with
  | error e => rfl
  | ok n => exact Python.raised_bind_pure ..

/-- The summary of the Futu accounts raises what the first failing info query does. -/
theorem raised_futu_accountSummary (fx : FxView) (r : FutuReplies) (accounts : List FutuAccount) :
    Python.raised (r.accountSummary fx accounts) = accounts.findSome? r.infoRaises := by
  have hrows : Python.raised ((accounts.filter (·.markets ≠ [])).mapM r.accountInfoRow) =
      accounts.findSome? r.infoRaises := by
    rw [Python.raised_mapM]
    induction accounts with
    | nil => rfl
    | cons account accounts ih =>
      by_cases hmarkets : account.markets = []
      · simpa [hmarkets, FutuReplies.infoRaises] using ih
      · have hrow := raised_accountInfoRow r hmarkets
        simp only [ne_eq, hmarkets, not_false_eq_true, decide_true, List.filter_cons_of_pos,
          List.findSome?_cons, hrow]
        rw [← ih]
  unfold FutuReplies.accountSummary FutuReplies.accountInfoRows
  rw [Python.raised_bind_pure, Python.raised_bind_pure, hrows]

end PortfolioHub
