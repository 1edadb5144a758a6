import PortfolioHub.Symbols

namespace PortfolioHub

/-- `_IB_EXCHANGE_TO_MIC`. -/
def ibExchangeToMic : List (String × String) := [
  ("SEHK", "XHKG"), ("SEHKNTL", "XHKG"), ("SEHKSZSE", "XHKG"), ("TSEJ", "XTKS"), ("TSE", "XTKS"),
  ("OSE", "XTKS"), ("KRX", "XKRX"), ("KSE", "XKRX"), ("KOSDAQ", "XKRX"), ("TWSE", "XTAI"),
  ("TPEX", "XTAI"), ("SSE", "XSHG"), ("SZSE", "XSHG"), ("SGX", "XSES"), ("ASX", "XASX"),
  ("LSE", "XLON"), ("IOB", "XLON"), ("IBIS", "XETR"), ("FWB", "XETR"), ("SBF", "XPAR"),
  ("AEB", "XAMS"), ("BM", "XMAD"), ("BVME", "XMIL"), ("SFB", "XSTO"), ("EBS", "XSWX"),
  ("SIX", "XSWX"), ("TSX", "XTSE"), ("NYSE", "XNYS"), ("NASDAQ", "XNYS"), ("ARCA", "XNYS"),
  ("AMEX", "XNYS"), ("BATS", "XNYS")]

/-- `_IB_EXCHANGE_TO_REGION_COLOR`. -/
def ibExchangeToRegionColor : List (String × String) := [
  ("SEHK", "#ef4444"), ("SEHKNTL", "#ef4444"), ("SEHKSZSE", "#ef4444"), ("TWSE", "#10b981"),
  ("TPEX", "#10b981"), ("SSE", "#a855f7"), ("SZSE", "#a855f7"), ("TSEJ", "#f59e0b"),
  ("TSE", "#f59e0b"), ("OSE", "#f59e0b"), ("KRX", "#fb7185"), ("KSE", "#fb7185"),
  ("KOSDAQ", "#fb7185"), ("SGX", "#22d3ee"), ("ASX", "#84cc16"), ("LSE", "#94a3b8"),
  ("IOB", "#94a3b8"), ("IBIS", "#a78bfa"), ("FWB", "#a78bfa"), ("SBF", "#a78bfa"),
  ("AEB", "#a78bfa"), ("BM", "#a78bfa"), ("BVME", "#a78bfa"), ("SFB", "#a78bfa"),
  ("EBS", "#a78bfa"), ("SIX", "#a78bfa"), ("NYSE", "#3b82f6"), ("NASDAQ", "#3b82f6"),
  ("ARCA", "#3b82f6"), ("AMEX", "#3b82f6"), ("BATS", "#3b82f6"), ("TSX", "#fb923c")]

def regionColorForExchange (ibExchange : String) : String :=
  if ibExchange = "" then "transparent"
  else (ibExchangeToRegionColor.lookup ibExchange).getD "transparent"

inductive MarketState where
  | «open»
  | extended
  | lunch
  | closed
  | holiday
deriving DecidableEq, Repr

/-- `STATE_LABEL`. -/
def stateLabel : MarketState → String
  | .«open» => "Open"
  | .extended => "Pre/post"
  | .lunch => "Lunch"
  | .closed => "Closed"
  | .holiday => "Holiday"

structure MarketStatus where
  exchange : String
  state : MarketState
  nextTransitionLocal : String
  nextTransitionIso : String
  nextTransitionLabel : String
deriving DecidableEq, Repr

/-- What the exchange calendars say, at the moment of a request, of a mapped venue. -/
structure MarketHours where
  calendarStatus : String → MarketStatus

def MarketHours.status (hours : MarketHours) (ibExchange : String) : Option MarketStatus :=
  (ibExchangeToMic.lookup ibExchange).map fun _ => hours.calendarStatus ibExchange

/-- The flag of a market card; an unknown venue has none. -/
def marketFlag (ibExchange : String) : Except Python.Error String :=
  match flagForExchange ibExchange with
  | .error (.valueError _) => .ok ""
  | result => result

/-- The venues of the stock rows, each once, in the order of the rows. -/
def heldExchanges (positions : List Position) : List String :=
  positions.foldl (fun seen p =>
    if p.assetClass = .stk ∧ p.exchange ≠ "" ∧ p.exchange ∉ seen then seen ++ [p.exchange]
    else seen) []

/-- A venue of the page: its code, its status and its flag. -/
structure HeldMarket where
  ibExchange : String
  status : MarketStatus
  flag : String
deriving DecidableEq, Repr

/-- `_markets_from_positions`; its two dictionaries are read off the list. -/
def marketsFromPositions (positions : List Position) (hours : MarketHours) :
    Except Python.Error (List HeldMarket) :=
  let mapped := (heldExchanges positions).filterMap fun ibExchange =>
    (hours.status ibExchange).map fun status => (ibExchange, status)
  mapped.mapM fun entry => do
    let flag ← marketFlag entry.1
    return ⟨entry.1, entry.2, flag⟩

def marketByIb (markets : List HeldMarket) (ibExchange : String) : Option MarketStatus :=
  (markets.find? fun m => m.ibExchange = ibExchange).map (·.status)

theorem marketFlag_defined (ibExchange : String) : ∃ flag, marketFlag ibExchange = .ok flag := by
  unfold marketFlag flagForExchange
  cases h : ibExchangeToSuffix.lookup ibExchange with
  | none => exact ⟨"", rfl⟩
  | some suffix =>
    obtain ⟨flag, hflag⟩ := suffix_has_flag h
    exact ⟨flag, by simp [hflag]⟩

theorem marketsFromPositions_defined (positions : List Position) (hours : MarketHours) :
    ∃ markets, marketsFromPositions positions hours = .ok markets := by
  apply Python.mapM_defined_iff.mpr
  intro entry _
  obtain ⟨flag, hflag⟩ := marketFlag_defined entry.1
  exact ⟨_, by rw [hflag]; rfl⟩

end PortfolioHub
