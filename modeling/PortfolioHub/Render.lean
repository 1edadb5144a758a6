import PortfolioHub.Deployment
import PortfolioHub.HoldingsRow

namespace PortfolioHub

/-- The three filter dimensions. -/
structure Filters where
  account : String
  asset : String
  broker : String
deriving DecidableEq, Repr

def Filters.all : Filters := ⟨"All", "All", "All"⟩

/-- One dimension of `_apply_filters`; an empty value filters nothing. -/
def filterBy (active : String) (field : Position → String) (positions : List Position) :
    List Position :=
  if active ≠ "" ∧ active ≠ "All" then positions.filter fun p => field p = active else positions

def applyFilters (positions : List Position) (f : Filters) : List Position :=
  filterBy f.broker (·.broker)
    (filterBy f.asset (·.assetClass.text) (filterBy f.account (·.accountId) positions))

/-- An SSE push: the rows and the hero fragment. -/
structure StreamPayload where
  rows : List HoldingsRow
  hero : Hero
deriving DecidableEq, Repr

def renderStreamPayload (positions : List Position) (f : Filters) :
    Except Python.Error StreamPayload := do
  let positions := applyFilters positions f
  let totals ← computeTotals positions
  let rows ← positions.mapM (holdingsRow ⟨Python.orElse f.account "All", totals, fun _ => none⟩)
  return ⟨rows, hero totals⟩

/-- The query parameters of the index page. -/
structure IndexQuery where
  account : Option String
  asset : Option String
  broker : Option String
deriving DecidableEq, Repr

/-- What the index route has at hand when it renders: the positions of the store (or of
the broker), the account summaries, the enabled brokers and the market hours. -/
structure IndexInput where
  positions : List Position
  accountSummaries : List AccountSummary
  enabledBrokers : List BrokerName
  hours : MarketHours

/-- The filters of the query; unknown values resolve to All. -/
def IndexInput.filters (input : IndexInput) (query : IndexQuery) : Filters :=
  let knownAccounts := input.accountSummaries.map (·.accountId) ++ input.positions.map (·.accountId)
  let active (known : List String) (value : Option String) : String :=
    match value with
    | some v => if v ∈ known then v else "All"
    | none => "All"
  { account := if query.account = some "" then "All" else active knownAccounts query.account
    asset := active ["STK", "CASH"] query.asset
    broker := active (input.enabledBrokers.map (·.text)) query.broker }

/-- `sorted(..., key=market_value_native, reverse=True)`: stable, the largest value first. -/
def sortByValue (positions : List Position) : List Position :=
  positions.insertionSort fun p q => ¬ p.marketValueNative < q.marketValueNative

/-- The line under the chips: the active account's figures. -/
def accountLine (summaries : List AccountSummary) (account : String) : Option (String × String × String × String) :=
  if account = "All" then none
  else (summaries.find? fun s => s.accountId = account).map fun s =>
    (s.accountId, s.netLiquidationUsd.fixed true 0, s.cashUsd.fixed true 0,
      s.buyingPowerUsd.fixed true 0)

/-- The parts of the index page that show positions, summaries and markets. -/
structure IndexPage where
  hero : Hero
  markets : List HeldMarket
  accountLine : Option (String × String × String × String)
  rows : List HoldingsRow
deriving DecidableEq, Repr

def renderIndex (input : IndexInput) (query : IndexQuery) : Except Python.Error IndexPage := do
  let f := input.filters query
  let shown := sortByValue (applyFilters input.positions f)
  let totals ← computeTotals shown
  let markets ← marketsFromPositions shown input.hours
  let rows ← shown.mapM (holdingsRow ⟨f.account, totals, marketByIb markets⟩)
  return ⟨hero totals, markets, accountLine input.accountSummaries f.account, rows⟩

/-- The rows that the page shows. -/
def IndexInput.shown (input : IndexInput) (query : IndexQuery) : List Position :=
  applyFilters input.positions (input.filters query)

theorem mem_filterBy {active : String} {field : Position → String} {positions : List Position}
    {p : Position} (h : p ∈ filterBy active field positions) : p ∈ positions := by
  unfold filterBy at h
  split at h
  next => exact List.mem_of_mem_filter h
  next => exact h

theorem mem_applyFilters {positions : List Position} {f : Filters} {p : Position}
    (h : p ∈ applyFilters positions f) : p ∈ positions :=
  mem_filterBy (mem_filterBy (mem_filterBy h))

theorem applyFilters_all (positions : List Position) : applyFilters positions .all = positions := by
  simp [applyFilters, filterBy, Filters.all]

theorem renderStreamPayload_parts {positions : List Position} {f : Filters}
    {payload : StreamPayload} (h : renderStreamPayload positions f = .ok payload) :
    ∃ totals, computeTotals (applyFilters positions f) = .ok totals ∧
      List.Forall₂ (fun p row =>
        holdingsRow ⟨Python.orElse f.account "All", totals, fun _ => none⟩ p = .ok row)
        (applyFilters positions f) payload.rows ∧ payload.hero = hero totals := by
  obtain ⟨totals, htotals, h⟩ := Python.bind_eq_ok.mp h
  obtain ⟨rows, hrows, h⟩ := Python.bind_eq_ok.mp h
  obtain rfl := Python.pure_eq_ok.mp h
  exact ⟨totals, htotals, Python.mapM_eq_ok.mp hrows, rfl⟩

theorem renderIndex_parts {input : IndexInput} {query : IndexQuery} {page : IndexPage}
    (h : renderIndex input query = .ok page) :
    ∃ totals markets, computeTotals (sortByValue (input.shown query)) = .ok totals ∧
      marketsFromPositions (sortByValue (input.shown query)) input.hours = .ok markets ∧
      (sortByValue (input.shown query)).mapM
          (holdingsRow ⟨(input.filters query).account, totals, marketByIb markets⟩) =
        .ok page.rows ∧ page.hero = hero totals := by
  obtain ⟨totals, htotals, h⟩ := Python.bind_eq_ok.mp h
  obtain ⟨markets, hmarkets, h⟩ := Python.bind_eq_ok.mp h
  obtain ⟨rows, hrows, h⟩ := Python.bind_eq_ok.mp h
  obtain rfl := Python.pure_eq_ok.mp h
  exact ⟨totals, markets, htotals, hmarkets, hrows, rfl⟩

theorem renderStreamPayload_defined_iff (positions : List Position) (f : Filters) :
    (∃ payload, renderStreamPayload positions f = .ok payload) ↔
      ∀ p ∈ applyFilters positions f, p.Renderable := by
  unfold renderStreamPayload
  dsimp only
  constructor
  · rintro ⟨payload, h⟩ p hp
    obtain ⟨totals, -, hrows, -⟩ := renderStreamPayload_parts h
    have hdefined := Python.mapM_defined_iff.mp ⟨payload.rows, Python.mapM_eq_ok.mpr hrows⟩
    exact (holdingsRow_defined_iff _ p).mp (hdefined p hp)
  · intro h
    refine Python.bind_defined (computeTotals_defined _) fun totals _ => ?_
    refine Python.bind_defined (Python.mapM_defined_iff.mpr fun p hp => ?_) fun _ _ => ⟨_, rfl⟩
    exact (holdingsRow_defined_iff _ p).mpr (h p hp)

theorem renderIndex_defined {input : IndexInput} (query : IndexQuery)
    (h : ∀ p ∈ input.positions, p.Renderable) : ∃ page, renderIndex input query = .ok page := by
  refine Python.bind_defined (computeTotals_defined _) fun totals _ => ?_
  refine Python.bind_defined (marketsFromPositions_defined _ _) fun markets _ => ?_
  refine Python.bind_defined (Python.mapM_defined_iff.mpr fun p hp => ?_) fun _ _ => ⟨_, rfl⟩
  have hshown := (List.perm_insertionSort _ _).mem_iff.mp hp
  exact (holdingsRow_defined_iff _ p).mpr (h p (mem_applyFilters hshown))

end PortfolioHub
