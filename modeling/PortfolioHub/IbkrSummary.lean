import PortfolioHub.IbkrRows

namespace PortfolioHub

/-- What the IB session answers to one account summary: the linked accounts and the
rows, or whatever the query raises. -/
structure SummaryReply where
  managedAccounts : List String
  rows : Except Python.Error (List SummaryRow)
deriving Repr

/-- The adapter's `_to_usd`: no rate reads as zero dollars. -/
def ibkrToUsd (fx : FxView) (amount : Python.Float) (currency : String) : Python.Float :=
  if currency = "USD" then amount
  else match fx.service with
    | none => 0
    | some service =>
      match service.getRateSync fx.now currency with
      | .ok (some rate) => amount * rate.rate
      | _ => 0

/-- The rows the adapter goes on with; a query that raises leaves none. -/
def SummaryReply.received (reply : SummaryReply) : List SummaryRow :=
  match reply.rows with
  | .error _ => []
  | .ok rows => rows

/-- `by_acc_tag`: the last row of an account and a tag wins. -/
def byAccountTag (rows : List SummaryRow) : OrderedDict (String × String) (String × String) :=
  OrderedDict.ofList (rows.map fun row =>
    ((row.account, row.tag), (row.value, Python.orElse row.currency "USD")))

/-- `sorted(set(accounts))`. -/
def SummaryReply.accounts (reply : SummaryReply) : List String :=
  (summaryAccounts reply.managedAccounts reply.received).dedup.insertionSort (· ≤ ·)

/-- Value and currency of a tag; a missing one reads as no dollars. -/
def SummaryReply.tag (reply : SummaryReply) (account tag : String) : String × String :=
  ((byAccountTag reply.received).get? (account, tag)).getD ("0", "USD")

def SummaryReply.tagUsd (fx : FxView) (reply : SummaryReply) (account tag : String) :
    Python.Float :=
  let reported := reply.tag account tag
  ibkrToUsd fx (Python.safeFloat reported.1) reported.2

def SummaryReply.accountSummary (fx : FxView) (reply : SummaryReply) (account : String) :
    AccountSummary where
  broker := "IBKR"
  accountId := account
  baseCurrency := (reply.tag account "NetLiquidation").2
  netLiquidationUsd := reply.tagUsd fx account "NetLiquidation"
  cashUsd := reply.tagUsd fx account "TotalCashValue"
  buyingPowerUsd := reply.tagUsd fx account "BuyingPower"
  netLiquidationNative := Python.safeFloat (reply.tag account "NetLiquidation").1
  grossPositionValueUsd := reply.tagUsd fx account "GrossPositionValue"

/-- `get_account_summary`; `none` is the adapter without a session. -/
def ibkrAccountSummaries (fx : FxView) (session : Option SummaryReply) : List AccountSummary :=
  match session with
  | none => []
  | some reply => reply.accounts.map (reply.accountSummary fx)

end PortfolioHub
