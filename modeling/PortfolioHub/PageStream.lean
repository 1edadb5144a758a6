import PortfolioHub.DisplayCoverage
import PortfolioHub.IndexRoute
import PortfolioHub.StreamEvents

namespace PortfolioHub

/-- `value or "All"`. -/
def orAll : Option String → String
  | some value => Python.orElse value "All"
  | none => "All"

/-- The filters of `GET /stream/holdings`. -/
def IndexQuery.streamFilters (query : IndexQuery) : Filters :=
  ⟨orAll query.account, orAll query.asset, orAll query.broker⟩

/-- `filtered_render`. -/
def filteredRender (query : IndexQuery) (positions : List Position) :
    Except Python.Error StreamPayload :=
  renderStreamPayload positions query.streamFilters

/-- The generator of `GET /stream/holdings`; `html` writes a payload out. -/
def streamHoldings (html : StreamPayload → String) (query : IndexQuery) : StreamConfig where
  renderRows := fun positions => (filteredRender query positions).map html
  minInterval := 1 / 2

def IndexInput.knownAccounts (input : IndexInput) : List String :=
  input.accountSummaries.map (·.accountId) ++ input.positions.map (·.accountId)

/-- A value that filters nothing, or one that the page knows. -/
def Resolves (known : List String) (value : Option String) : Prop :=
  ∀ v, value = some v → v = "" ∨ v = "All" ∨ v ∈ known

/-- The filters leave the stream the rows of the page. -/
def IndexInput.StreamsAll (input : IndexInput) (query : IndexQuery) : Prop :=
  input.shown query = [] ∨
    Resolves input.knownAccounts query.account ∧ Resolves ["STK", "CASH"] query.asset ∧
      (Resolves (input.enabledBrokers.map (·.text)) query.broker ∨
        ∀ p ∈ input.shown query, query.broker = some p.broker)

/-- The row's venue is in its midday pause. -/
def MarketHours.AtLunch (hours : MarketHours) (p : Position) : Prop :=
  p.assetClass = .stk ∧ (hours.status p.exchange).map (·.state) = some .lunch

/-- The client is sent the rendered snapshot when it connects. -/
theorem connect_snapshot (html : StreamPayload → String) (query : IndexQuery) (s : StreamState)
    (client : ℕ) {payload : StreamPayload}
    (h : filteredRender query s.live.getAll = .ok payload) :
    (s.connect (streamHoldings html query) client).clients.get? client =
      some ⟨s.live.hashes, 0, .yielded (.snapshot (html payload)) s.live.hashes⟩ := by
  have hrender : (streamHoldings html query).renderRows s.live.getAll = .ok (html payload) := by
    simp only [streamHoldings, h]
    rfl
  simp only [StreamState.connect, hrender, OrderedDict.get?_insert_self]

theorem filterBy_all (field : Position → String) (positions : List Position) :
    filterBy "All" field positions = positions := by simp [filterBy]

theorem filterBy_nil (active : String) (field : Position → String) :
    filterBy active field [] = [] := by simp [filterBy]

theorem filterBy_of_ne {active : String} (hempty : active ≠ "") (hall : active ≠ "All")
    (field : Position → String) (positions : List Position) :
    filterBy active field positions = positions.filter fun p => field p = active :=
  if_pos ⟨hempty, hall⟩

/-- How the page reads one parameter. -/
def known (values : List String) : Option String → String
  | some v => if v ∈ values then v else "All"
  | none => "All"

theorem known_eq_orAll {values : List String} {value : Option String} (hempty : "" ∉ values)
    (h : Resolves values value) : known values value = orAll value := by
  cases value with
  | none => rfl
  | some v =>
    by_cases hv : v = ""
    · simp [known, orAll, Python.orElse, hv, hempty]
    · rcases h v rfl with hnone | rfl | hmem
      · exact absurd hnone hv
      · simp [known, orAll, Python.orElse]
      · simp [known, orAll, Python.orElse, hv, hmem]

/-- A value that the page does not know filters the stream. -/
theorem known_of_not_resolves {values : List String} {value : Option String}
    (h : ¬ Resolves values value) :
    known values value = "All" ∧
      ∃ v, value = some v ∧ orAll value = v ∧ v ≠ "" ∧ v ≠ "All" ∧ v ∉ values := by
  simp only [Resolves, not_forall, not_or] at h
  obtain ⟨v, rfl, hempty, hall, hmem⟩ := h
  exact ⟨if_neg hmem, v, rfl, if_neg hempty, hempty, hall, hmem⟩

theorem orElse_orAll (value : Option String) :
    Python.orElse (orAll value) "All" = orAll value := by
  cases value with
  | none => rfl
  | some v => by_cases hv : v = "" <;> simp [orAll, Python.orElse, hv]

section
variable (input : IndexInput) (query : IndexQuery)

theorem filters_account : (input.filters query).account =
    if query.account = some "" then "All" else known input.knownAccounts query.account := by
  obtain ⟨account, asset, broker⟩ := query
  cases account <;> rfl

theorem filters_asset : (input.filters query).asset = known ["STK", "CASH"] query.asset := by
  obtain ⟨account, asset, broker⟩ := query
  cases asset <;> rfl

theorem filters_broker : (input.filters query).broker =
    known (input.enabledBrokers.map (·.text)) query.broker := by
  obtain ⟨account, asset, broker⟩ := query
  cases broker <;> rfl

end

section
variable {input : IndexInput} {query : IndexQuery}

theorem account_eq_orAll (h : Resolves input.knownAccounts query.account) :
    (input.filters query).account = orAll query.account := by
  rw [filters_account]
  by_cases hempty : query.account = some ""
  · rw [if_pos hempty, hempty]
    rfl
  · rw [if_neg hempty]
    cases haccount : query.account with
    | none => rfl
    | some v =>
      have hv : v ≠ "" := fun hv => hempty (by rw [haccount, hv])
      rcases h v haccount with hnone | rfl | hmem
      · exact absurd hnone hv
      · simp [known, orAll, Python.orElse]
      · simp [known, orAll, Python.orElse, hv, hmem]

theorem asset_eq_orAll (h : Resolves ["STK", "CASH"] query.asset) :
    (input.filters query).asset = orAll query.asset := by
  rw [filters_asset]
  exact known_eq_orAll (by decide) h

theorem broker_eq_orAll (h : Resolves (input.enabledBrokers.map (·.text)) query.broker) :
    (input.filters query).broker = orAll query.broker := by
  rw [filters_broker]
  refine known_eq_orAll (fun hmem => ?_) h
  obtain ⟨name, -, hname⟩ := List.mem_map.mp hmem
  cases name <;> simp [BrokerName.text] at hname

/-- An account that the page does not know leaves the stream without rows. -/
theorem streamed_of_unknown_account (h : ¬ Resolves input.knownAccounts query.account) :
    applyFilters input.positions query.streamFilters = [] := by
  obtain ⟨-, v, -, hv, hempty, hall, hmem⟩ := known_of_not_resolves h
  have hnone : filterBy (orAll query.account) (·.accountId) input.positions = [] := by
    rw [hv, filterBy_of_ne hempty hall, List.filter_eq_nil_iff]
    intro p hp heq
    rw [decide_eq_true_eq] at heq
    exact hmem (List.mem_append_right _ (heq ▸ List.mem_map_of_mem hp))
  simp only [applyFilters, IndexQuery.streamFilters, hnone, filterBy_nil]

/-- Nor does an asset class that no row has. -/
theorem streamed_of_unknown_asset (h : ¬ Resolves ["STK", "CASH"] query.asset) :
    applyFilters input.positions query.streamFilters = [] := by
  obtain ⟨-, v, -, hv, hempty, hall, hmem⟩ := known_of_not_resolves h
  have hnone : ∀ positions, filterBy (orAll query.asset) (·.assetClass.text) positions = [] := by
    intro positions
    rw [hv, filterBy_of_ne hempty hall, List.filter_eq_nil_iff]
    intro p _ heq
    rw [decide_eq_true_eq] at heq
    have htext : p.assetClass.text ∈ ["STK", "CASH"] := by cases p.assetClass <;> decide
    exact hmem (heq ▸ htext)
  simp only [applyFilters, IndexQuery.streamFilters, hnone, filterBy_nil]

/-- A broker that is not enabled filters the rows of the page. -/
theorem streamed_of_unknown_broker (haccount : Resolves input.knownAccounts query.account)
    (hasset : Resolves ["STK", "CASH"] query.asset)
    (h : ¬ Resolves (input.enabledBrokers.map (·.text)) query.broker) :
    applyFilters input.positions query.streamFilters =
      (input.shown query).filter fun p => query.broker = some p.broker := by
  obtain ⟨hpage, v, hquery, hv, hempty, hall, -⟩ := known_of_not_resolves h
  have hstream : ∀ positions, filterBy (orAll query.broker) (·.broker) positions =
      positions.filter fun p => query.broker = some p.broker := by
    intro positions
    rw [hv, filterBy_of_ne hempty hall, hquery]
    exact List.filter_congr fun p _ => by simp [eq_comm]
  rw [IndexInput.shown, applyFilters, applyFilters, filters_broker, hpage, filterBy_all,
    account_eq_orAll haccount, asset_eq_orAll hasset]
  exact hstream _

theorem streamed_of_resolves (haccount : Resolves input.knownAccounts query.account)
    (hasset : Resolves ["STK", "CASH"] query.asset)
    (hbroker : Resolves (input.enabledBrokers.map (·.text)) query.broker) :
    applyFilters input.positions query.streamFilters = input.shown query := by
  rw [IndexInput.shown, applyFilters, applyFilters, account_eq_orAll haccount,
    asset_eq_orAll hasset, broker_eq_orAll hbroker]
  rfl

/-- The stream never shows a row that the page does not. -/
theorem streamed_sublist :
    (applyFilters input.positions query.streamFilters).Sublist (input.shown query) := by
  by_cases haccount : Resolves input.knownAccounts query.account
  · by_cases hasset : Resolves ["STK", "CASH"] query.asset
    · by_cases hbroker : Resolves (input.enabledBrokers.map (·.text)) query.broker
      · rw [streamed_of_resolves haccount hasset hbroker]
      · rw [streamed_of_unknown_broker haccount hasset hbroker]
        exact List.filter_sublist
    · rw [streamed_of_unknown_asset hasset]
      exact List.nil_sublist _
  · rw [streamed_of_unknown_account haccount]
    exact List.nil_sublist _

/-- When the stream has all the rows of the page. -/
theorem streamed_eq_iff :
    applyFilters input.positions query.streamFilters = input.shown query ↔
      input.StreamsAll query := by
  constructor
  · intro heq
    by_cases haccount : Resolves input.knownAccounts query.account
    · by_cases hasset : Resolves ["STK", "CASH"] query.asset
      · refine Or.inr ⟨haccount, hasset, ?_⟩
        by_cases hbroker : Resolves (input.enabledBrokers.map (·.text)) query.broker
        · exact Or.inl hbroker
        · rw [streamed_of_unknown_broker haccount hasset hbroker] at heq
          exact Or.inr fun p hp => of_decide_eq_true (List.filter_eq_self.mp heq p hp)
      · exact Or.inl (heq.symm.trans (streamed_of_unknown_asset hasset))
    · exact Or.inl (heq.symm.trans (streamed_of_unknown_account haccount))
  · rintro (hnone | ⟨haccount, hasset, hbroker⟩)
    · rw [hnone]
      exact List.eq_nil_of_sublist_nil (hnone ▸ streamed_sublist)
    · by_cases hknown : Resolves (input.enabledBrokers.map (·.text)) query.broker
      · exact streamed_of_resolves haccount hasset hknown
      · rw [streamed_of_unknown_broker haccount hasset hknown]
        exact List.filter_eq_self.mpr fun p hp =>
          decide_eq_true (hbroker.resolve_left hknown p hp)

end

theorem mem_heldExchanges {positions : List Position} {p : Position} (hp : p ∈ positions)
    (hstk : p.assetClass = .stk) (hvenue : p.exchange ≠ "") :
    p.exchange ∈ heldExchanges positions := by
  have hrun : ∀ (rest : List Position) (seen : List String),
      (p ∈ rest ∨ p.exchange ∈ seen) →
        p.exchange ∈ rest.foldl (fun seen p =>
          if p.assetClass = .stk ∧ p.exchange ≠ "" ∧ p.exchange ∉ seen then seen ++ [p.exchange]
          else seen) seen := by
    intro rest
    induction rest with
    | nil =>
      rintro seen (hnone | hseen)
      · simp at hnone
      · exact hseen
    | cons q rest ih =>
      intro seen h
      rw [List.foldl_cons]
      refine ih _ ?_
      split
      next =>
        rcases h with h | h
        · rcases List.mem_cons.mp h with rfl | h
          · exact Or.inr (by simp)
          · exact Or.inl h
        · exact Or.inr (List.mem_append_left _ h)
      next hskip =>
        rcases h with h | h
        · rcases List.mem_cons.mp h with rfl | h
          · refine Or.inr ?_
            by_contra hnew
            exact hskip ⟨hstk, hvenue, hnew⟩
          · exact Or.inl h
        · exact Or.inr h
  exact hrun positions [] (Or.inl hp)

theorem heldMarket_status {positions : List Position} {hours : MarketHours}
    {markets : List HeldMarket} (h : marketsFromPositions positions hours = .ok markets)
    {m : HeldMarket} (hm : m ∈ markets) : hours.status m.ibExchange = some m.status := by
  obtain ⟨entry, hentry, hrow⟩ := (Python.mem_mapM_iff h).mp hm
  obtain ⟨flag, -, hrow⟩ := Python.bind_eq_ok.mp hrow
  obtain rfl := Python.pure_eq_ok.mp hrow
  obtain ⟨code, -, hcode⟩ := List.mem_filterMap.mp hentry
  obtain ⟨status, hstatus, rfl⟩ := Option.map_eq_some_iff.mp hcode
  exact hstatus

theorem exists_heldMarket {positions : List Position} {hours : MarketHours}
    {markets : List HeldMarket} (h : marketsFromPositions positions hours = .ok markets)
    {code : String} (hcode : code ∈ heldExchanges positions) {status : MarketStatus}
    (hstatus : hours.status code = some status) : ∃ m ∈ markets, m.ibExchange = code := by
  have hentry : (code, status) ∈ (heldExchanges positions).filterMap fun ibExchange =>
      (hours.status ibExchange).map fun status => (ibExchange, status) :=
    List.mem_filterMap.mpr ⟨code, hcode, by rw [hstatus]; rfl⟩
  obtain ⟨flag, hflag⟩ := marketFlag_defined code
  refine ⟨⟨code, status, flag⟩, (Python.mem_mapM_iff h).mpr ⟨_, hentry, ?_⟩, rfl⟩
  rw [hflag]
  rfl

theorem status_empty (hours : MarketHours) : hours.status "" = none := by
  have hlookup : ibExchangeToMic.lookup "" = none := by decide
  rw [MarketHours.status, hlookup]
  rfl

/-- The page finds the calendar's status of a stock's venue. -/
theorem marketByIb_of_held {positions : List Position} {hours : MarketHours}
    {markets : List HeldMarket} (h : marketsFromPositions positions hours = .ok markets)
    {p : Position} (hp : p ∈ positions) (hstk : p.assetClass = .stk) :
    marketByIb markets p.exchange = hours.status p.exchange := by
  unfold marketByIb
  cases hfind : markets.find? fun m => m.ibExchange = p.exchange with
  | some m =>
    have hcode : m.ibExchange = p.exchange := by simpa using List.find?_some hfind
    rw [← hcode, heldMarket_status h (List.mem_of_find?_eq_some hfind)]
    rfl
  | none =>
    cases hstatus : hours.status p.exchange with
    | none => rfl
    | some status =>
      have hvenue : p.exchange ≠ "" := by
        intro hempty
        rw [hempty, status_empty] at hstatus
        cases hstatus
      obtain ⟨m, hm, hcode⟩ := exists_heldMarket h (mem_heldExchanges hp hstk hvenue) hstatus
      exact absurd (decide_eq_true hcode) (List.find?_eq_none.mp hfind m hm)

/-- On the page a stock at lunch carries the note, and no other row does. -/
theorem lunchNote_isSome_iff {positions : List Position} {hours : MarketHours}
    {markets : List HeldMarket} (h : marketsFromPositions positions hours = .ok markets)
    {p : Position} (hp : p ∈ positions) (account : String) (totals : Totals) :
    (lunchNote ⟨account, totals, marketByIb markets⟩ p).isSome ↔ hours.AtLunch p := by
  unfold lunchNote MarketHours.AtLunch
  dsimp only
  by_cases hstk : p.assetClass = .stk
  · rw [marketByIb_of_held h hp hstk]
    cases hours.status p.exchange with
    | none => simp
    | some market => by_cases hlunch : market.state = .lunch <;> simp [hstk, hlunch]
  · cases marketByIb markets p.exchange <;> simp [hstk]

/-- A row reads of its context the account, the total value and its own venue's note. -/
theorem holdingsRow_congr {ctx ctx' : RowContext} {p : Position}
    (haccount : ctx.activeAccount = ctx'.activeAccount)
    (hmv : ctx.totals.mvUsd = ctx'.totals.mvUsd) (hnote : lunchNote ctx p = lunchNote ctx' p) :
    holdingsRow ctx p = holdingsRow ctx' p := by
  have hview : rowView ctx p = rowView ctx' p := by
    funext flag last pnl weight
    simp only [rowView, haccount, hnote]
  unfold holdingsRow
  rw [hmv, hview]

theorem sortByValue_perm (positions : List Position) : (sortByValue positions).Perm positions :=
  List.perm_insertionSort _ _

/-- What the page and the snapshot have in common. -/
def SameDisplay (page : IndexPage) (payload : StreamPayload) : Prop :=
  page.rows.Perm payload.rows ∧ page.hero = payload.hero

/-- With the rows of the page and no row at lunch the snapshot is that page. -/
theorem sameDisplay_of_streamsAll {input : IndexInput} {query : IndexQuery} {page : IndexPage}
    (h : renderIndex input query = .ok page) (hall : input.StreamsAll query)
    (hlunch : ∀ p ∈ input.shown query, ¬ input.hours.AtLunch p) {payload : StreamPayload}
    (hpayload : filteredRender query input.positions = .ok payload) :
    SameDisplay page payload := by
  obtain ⟨totals, markets, htotals, hmarkets, hrows, hhero⟩ := renderIndex_parts h
  obtain ⟨totals', htotals', hrows', hhero'⟩ := renderStreamPayload_parts hpayload
  have hsort := sortByValue_perm (input.shown query)
  rw [streamed_eq_iff.mpr hall] at htotals' hrows'
  rw [computeTotals_perm hsort, htotals'] at htotals
  obtain rfl := Except.ok.inj htotals
  refine ⟨?_, hhero.trans hhero'.symm⟩
  have hsame : ∀ p ∈ sortByValue (input.shown query),
      holdingsRow ⟨(input.filters query).account, totals', marketByIb markets⟩ p =
        holdingsRow ⟨Python.orElse query.streamFilters.account "All", totals', fun _ => none⟩ p := by
    intro p hp
    have hshown := hsort.mem_iff.mp hp
    have hne : input.shown query ≠ [] := List.ne_nil_of_mem hshown
    refine holdingsRow_congr ?_ rfl ?_
    · obtain ⟨haccount, -⟩ := hall.resolve_left hne
      exact (account_eq_orAll haccount).trans (orElse_orAll query.account).symm
    · have hnone : ¬ (lunchNote ⟨(input.filters query).account, totals', marketByIb markets⟩ p).isSome :=
        fun hsome => hlunch p hshown ((lunchNote_isSome_iff hmarkets hp _ _).mp hsome)
      rw [Bool.not_eq_true, Option.isSome_eq_false_iff, Option.isNone_iff_eq_none] at hnone
      exact hnone
  rw [Python.mapM_congr hsame] at hrows
  exact Python.mapM_perm hsort hrows (Python.mapM_eq_ok.mpr hrows')

/-- A snapshot that is the page has all its rows, and none of them is at lunch. -/
theorem streamsAll_of_sameDisplay {input : IndexInput} {query : IndexQuery} {page : IndexPage}
    (h : renderIndex input query = .ok page) {payload : StreamPayload}
    (hpayload : filteredRender query input.positions = .ok payload)
    (hsame : SameDisplay page payload) :
    input.StreamsAll query ∧ ∀ p ∈ input.shown query, ¬ input.hours.AtLunch p := by
  obtain ⟨totals, markets, -, hmarkets, hrows, -⟩ := renderIndex_parts h
  obtain ⟨totals', -, hrows', -⟩ := renderStreamPayload_parts hpayload
  have hsort := sortByValue_perm (input.shown query)
  constructor
  · have hlength : (applyFilters input.positions query.streamFilters).length =
        (input.shown query).length := by
      rw [hrows'.length_eq, ← hsort.length_eq, (Python.mapM_eq_ok.mp hrows).length_eq]
      exact hsame.1.length_eq.symm
    exact streamed_eq_iff.mp (streamed_sublist.eq_of_length hlength)
  · intro p hp hlunch
    have hshown := hsort.mem_iff.mpr hp
    obtain ⟨row, hrow⟩ := Python.mapM_defined_iff.mp ⟨_, hrows⟩ p hshown
    have hmem : row ∈ payload.rows := hsame.1.subset ((Python.mem_mapM_iff hrows).mpr ⟨p, hshown, hrow⟩)
    obtain ⟨q, -, hrow'⟩ := (Python.mem_mapM_iff (Python.mapM_eq_ok.mpr hrows')).mp hmem
    obtain ⟨flag, last, pnl, weight, -, -, -, -, hview⟩ := view_of_holdingsRow hrow
    obtain ⟨flag', last', pnl', weight', -, -, -, -, hview'⟩ := view_of_holdingsRow hrow'
    have hnote := congrArg RowView.lunchNote (hview.symm.trans hview')
    have hsome := (lunchNote_isSome_iff hmarkets hshown (input.filters query).account totals).mpr hlunch
    rw [show lunchNote _ p = none from hnote] at hsome
    cases hsome

/-- The route renders the rows of a store that has some. -/
theorem renderIndex_of_index {fx : FxView} {adapters : Adapters} {broker : Broker}
    {live : LivePositions} {enabled : List BrokerName} {hours : MarketHours} {query : IndexQuery}
    {summaries : List AccountSummary} {page : IndexPage} (hlive : live.getAll ≠ [])
    (hsummaries : tolerate (broker.getAccountSummary fx adapters) = .ok summaries)
    (h : index fx adapters broker live enabled hours query = .ok page) :
    renderIndex ⟨live.getAll, summaries, enabled, hours⟩ query = .ok page := by
  obtain ⟨positions, hpositions, h⟩ := Python.bind_eq_ok.mp h
  obtain ⟨summaries', hsummaries', h⟩ := Python.bind_eq_ok.mp h
  rw [indexPositions, if_neg fun hcond => hlive hcond.1] at hpositions
  obtain rfl := Except.ok.inj hpositions
  obtain rfl := Except.ok.inj (hsummaries.symm.trans hsummaries')
  exact h

/-- The snapshot renders whenever the page does. -/
theorem filteredRender_defined {input : IndexInput} {query : IndexQuery} {page : IndexPage}
    (h : renderIndex input query = .ok page) :
    ∃ payload, filteredRender query input.positions = .ok payload := by
  obtain ⟨totals, markets, -, -, hrows, -⟩ := renderIndex_parts h
  refine (renderStreamPayload_defined_iff _ _).mpr fun p hp => ?_
  have hshown := (sortByValue_perm _).mem_iff.mpr (streamed_sublist.subset hp)
  exact (holdingsRow_defined_iff _ p).mp (Python.mapM_defined_iff.mp ⟨_, hrows⟩ p hshown)

theorem sampleAdapters_summaries :
    tolerate ((Broker.composite [.futu, .longbridge]).getAccountSummary sampleView
      (sampleAdapters failingReplies)) = .ok [] := by decide +kernel

end PortfolioHub
