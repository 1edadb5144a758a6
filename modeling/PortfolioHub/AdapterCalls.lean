import PortfolioHub.Deployment
import PortfolioHub.IbkrSummary
import PortfolioHub.TigerFetch
import PortfolioHub.FutuFetch

namespace PortfolioHub

/-- What an IBKR session answers to a positions request and to a summary query. -/
structure IbkrSession where
  replies : IbReplies
  summary : SummaryReply

/-- An adapter in a state of its connection, with the answers of its vendor to one
`get_positions` and to one `get_account_summary`. -/
inductive Adapter where
  | ibkr (state : ConnectionState) (session : Option IbkrSession)
  | futu (state : ConnectionState) (accounts : List FutuAccount) (positions summary : FutuReplies)
  | longbridge (state : ConnectionState) (settings : LongbridgeSettings)
      (positions summary : LongbridgeReplies)
  | tiger (state : ConnectionState) (settings : TigerSettings) (accounts : List TigerAccountRef)
      (positions summary : TigerReplies)

namespace Adapter

def name : Adapter → BrokerName
  | .ibkr .. => .ibkr
  | .futu .. => .futu
  | .longbridge .. => .longbridge
  | .tiger .. => .tiger

def connectionState : Adapter → ConnectionState
  | .ibkr state _ => state
  | .futu state _ _ _ => state
  | .longbridge state _ _ _ => state
  | .tiger state _ _ _ _ => state

/-- The polling adapters ask their state, IBKR whether it holds a session. -/
def getPositions (fx : FxView) : Adapter → Except Python.Error (List Position)
  | .ibkr _ none => .ok []
  | .ibkr _ (some session) => session.replies.getPositions fx
  | .futu state accounts r _ => if state ≠ .connected then .ok [] else r.getPositions fx accounts
  | .longbridge state settings r _ =>
    if state ≠ .connected then .ok [] else r.fetchPositions fx settings
  | .tiger state settings accounts r _ =>
    if state ≠ .connected then .ok [] else r.fetchPositions fx settings accounts

def getAccountSummary (fx : FxView) : Adapter → Except Python.Error (List AccountSummary)
  | .ibkr _ session => .ok (ibkrAccountSummaries fx (session.map (·.summary)))
  | .futu state accounts _ r => if state ≠ .connected then .ok [] else r.accountSummary fx accounts
  | .longbridge state settings _ r =>
    if state ≠ .connected then .ok [] else r.accountSummary fx settings
  | .tiger state settings accounts _ r =>
    if state ≠ .connected then .ok [] else r.accountSummary fx settings accounts

/-- What the vendor raises under a summary: IBKR's query is guarded, the others are not. -/
def summaryRaises : Adapter → Option Python.Error
  | .ibkr _ _ => none
  | .futu state accounts _ r => if state ≠ .connected then none else accounts.findSome? r.infoRaises
  | .longbridge state _ _ r => if state ≠ .connected then none else Python.raised r.accountBalance
  | .tiger state _ accounts _ r =>
    if state ≠ .connected then none else accounts.findSome? r.assetsRaise

theorem raised_getAccountSummary (fx : FxView) (a : Adapter) :
    Python.raised (a.getAccountSummary fx) = a.summaryRaises := by
  cases a with
  | ibkr state session => rfl
  | futu state accounts positions summary =>
    dsimp only [getAccountSummary, summaryRaises]
    split
    next => rfl
    next => exact raised_futu_accountSummary ..
  | longbridge state settings positions summary =>
    dsimp only [getAccountSummary, summaryRaises]
    split
    next => rfl
    next => exact raised_longbridge_accountSummary ..
  | tiger state settings accounts positions summary =>
    dsimp only [getAccountSummary, summaryRaises]
    split
    next => rfl
    next => exact raised_tiger_accountSummary ..

end Adapter

/-- The adapters of a running app, each under its name. -/
structure Adapters where
  get : BrokerName → Adapter
  name_get : ∀ name, (get name).name = name

/-- `gather` with `return_exceptions` and the loop over its results: an Exception is
passed over; a child's cancellation is taken for rows, which raises. -/
def gatherRows {α : Type} : List (Except Python.Error (List α)) → Except Python.Error (List α)
  | [] => .ok []
  | .ok rows :: results => do
    let rest ← gatherRows results
    return rows ++ rest
  | .error e :: results =>
    if e.isException then gatherRows results
    else .error (.typeError "'CancelledError' object is not iterable")

/-- `CompositeBroker.get_connection_state` over the children's states. -/
def compositeState (states : List ConnectionState) : ConnectionState :=
  if states = [] then .disconnected
  else if ∀ state ∈ states, state = .connected then .connected
  else if ∃ state ∈ states, state = .connected ∨ state = .reconnecting then .reconnecting
  else .disconnected

namespace Broker

/-- The adapters behind the broker object. -/
def children : Broker → List BrokerName
  | .adapter name => [name]
  | .composite names => names

def connectionState (adapters : Adapters) : Broker → ConnectionState
  | .adapter name => (adapters.get name).connectionState
  | .composite names => compositeState (names.map fun name => (adapters.get name).connectionState)

def getPositions (fx : FxView) (adapters : Adapters) : Broker → Except Python.Error (List Position)
  | .adapter name => (adapters.get name).getPositions fx
  | .composite names => gatherRows (names.map fun name => (adapters.get name).getPositions fx)

def getAccountSummary (fx : FxView) (adapters : Adapters) :
    Broker → Except Python.Error (List AccountSummary)
  | .adapter name => (adapters.get name).getAccountSummary fx
  | .composite names => gatherRows (names.map fun name => (adapters.get name).getAccountSummary fx)

end Broker

/-- Where children raise nothing but Exceptions, the rows gathered are those of the
children that answered. -/
theorem gatherRows_map {α : Type} {f : BrokerName → Except Python.Error (List α)}
    (hexc : ∀ name e, Python.raised (f name) = some e → e.isException = true)
    (names : List BrokerName) :
    ∃ rows, gatherRows (names.map f) = .ok rows ∧
      ∀ a, a ∈ rows ↔ ∃ name ∈ names, ∃ found, f name = .ok found ∧ a ∈ found := by
  induction names with
  | nil => exact ⟨[], rfl, by simp⟩
  | cons name names ih =>
    obtain ⟨rest, hrest, hmem⟩ := ih
    rw [List.map_cons]
    cases hf : f name with
    | ok found =>
      refine ⟨found ++ rest, by rw [gatherRows, hrest]; rfl, fun a => ?_⟩
      rw [List.mem_append, hmem]
      simp [hf]
    | error e =>
      have he : e.isException = true := hexc name e (by rw [hf]; rfl)
      refine ⟨rest, by rw [gatherRows, if_pos he, hrest], fun a => ?_⟩
      rw [hmem]
      simp [hf]

end PortfolioHub
