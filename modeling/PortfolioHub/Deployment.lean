import PortfolioHub.Python

namespace PortfolioHub

/-- `_ALL_KNOWN_BROKERS`. -/
inductive BrokerName where
  | ibkr
  | futu
  | tiger
  | longbridge
deriving DecidableEq, Repr

def BrokerName.text : BrokerName → String
  | .ibkr => "IBKR"
  | .futu => "Futu"
  | .tiger => "Tiger"
  | .longbridge => "Longbridge"

/-- `by_lower.get(token.strip().lower())`. -/
def BrokerName.ofToken (token : String) : Option BrokerName :=
  [BrokerName.ibkr, .futu, .tiger, .longbridge].find? fun b =>
    Python.lower b.text = Python.lower (Python.strip token)

/-- `_enabled_brokers()` on the value of `BROKERS_ENABLED`. -/
def enabledBrokers (raw : Option String) : List BrokerName :=
  match (Python.splitComma (raw.getD "ibkr")).filterMap BrokerName.ofToken with
  | [] => [.ibkr]
  | names => names

/-- The broker object of the app: one adapter, or a `CompositeBroker` over several. -/
inductive Broker where
  | adapter (name : BrokerName)
  | composite (adapters : List BrokerName)
deriving DecidableEq, Repr

/-- The children in the order the app builds them. -/
def enabledAdapters (enabled : List BrokerName) : List BrokerName :=
  [BrokerName.ibkr, .futu, .longbridge, .tiger].filter (· ∈ enabled)

def buildProductionBroker (enabled : List BrokerName) : Except Python.Error Broker :=
  match enabledAdapters enabled with
  | [] => .error (.runtimeError "No enabled broker adapters configured")
  | [name] => .ok (.adapter name)
  | names => .ok (.composite names)

theorem enabledBrokers_ne_nil (raw : Option String) : enabledBrokers raw ≠ [] := by
  unfold enabledBrokers
  split
  next => simp
  next hne => exact hne

/-- The environment always enables an adapter, so building the broker does not fail. -/
theorem buildProductionBroker_defined (raw : Option String) :
    ∃ broker, buildProductionBroker (enabledBrokers raw) = .ok broker := by
  obtain ⟨name, hname⟩ := List.exists_mem_of_ne_nil _ (enabledBrokers_ne_nil raw)
  have hmem : name ∈ enabledAdapters (enabledBrokers raw) := by
    unfold enabledAdapters
    cases name <;> simp [hname]
  unfold buildProductionBroker
  split
  next hnil => simp [hnil] at hmem
  next => exact ⟨_, rfl⟩
  next => exact ⟨_, rfl⟩

end PortfolioHub
