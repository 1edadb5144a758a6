import PortfolioHub.FeedRows
import PortfolioHub.IbkrCoherence
import PortfolioHub.PolledFetch
import PortfolioHub.PollRefresh

namespace PortfolioHub

theorem quotes_isFinite {r : IbReplies} (hr : r.Finite) {contracts : List Contract}
    {quotes : ℤ → Quote} (h : r.quotes contracts = .ok quotes) (conId : ℤ) :
    (quotes conId).last.isFinite = true := by
  unfold IbReplies.quotes at h
  dsimp only at h
  split at h
  next =>
    obtain rfl := Except.ok.inj h
    rfl
  next =>
    cases hticker : r.tickers with
    | error e => simp [hticker, Except.map] at h
    | ok ticker =>
      rw [hticker] at h
      obtain rfl := Except.ok.inj h
      dsimp only
      split
      next => exact coerceLast_isFinite (hr.tickers ticker hticker conId)
      next => rfl

theorem portfolioItemsByConid_mem {items : List PortfolioItem} {conId : ℤ} {item : PortfolioItem}
    (h : (portfolioItemsByConid items).get? conId = some item) : item ∈ items := by
  rw [portfolioItemsByConid, OrderedDict.get?_ofList] at h
  obtain ⟨found, hfound, he⟩ := List.mem_map.mp (List.mem_reverse.mp (OrderedDict.mem_of_lookup h))
  obtain ⟨-, rfl⟩ := Prod.mk.inj he
  exact List.mem_of_mem_filter hfound

/-- The rows of a positions reply are valued, and what can be subscribed is a stock. -/
theorem getPositions_valued {fx : FxView} (hfx : fx.PositiveRates) {r : IbReplies} (hr : r.Finite)
    {rows : List Position} (h : r.getPositions fx = .ok rows) :
    ∀ p ∈ rows, p.Valued ∧ (Python.parseInt p.nativeKey ≠ none → p.assetClass = .stk) := by
  intro p hp
  cases getPositions_source h hp with
  | stock hpositions hmem _ _ hquotes =>
    refine ⟨buildPosition_valued hfx (hr.positions _ hpositions _ hmem) _
      (quotes_isFinite hr hquotes _) ?_ ?_, fun _ => rfl⟩
    · exact getD_isFinite (fun close hclose => hr.closes _ close hclose) rfl
    · exact fun item hitem => hr.portfolio item (portfolioItemsByConid_mem hitem)
  | cash hpositions hmem hsec =>
    have hcurrency := hr.currencies _ hpositions _ hmem hsec
    exact ⟨cashRow_valued hfx _ _ _ (hr.positions _ hpositions _ hmem).position,
      fun hkey => absurd hcurrency hkey⟩
  | accountCash hmem =>
    exact ⟨cashRow_valued hfx _ _ _ (hr.cash _ hmem), fun hkey => absurd (hr.cashCurrencies _ hmem) hkey⟩

/-- The numbers of the event are finite, its rates positive, and a refresh of another
adapter shows what a poll of it has fetched. -/
def FeedEvent.FiniteNumbers : FeedEvent → Prop
  | .startStreaming fx replies _ => fx.PositiveRates ∧ replies.Finite
  | .tick fx ticker => fx.PositiveRates ∧ ticker.Finite
  | .portfolioUpdate fx item => fx.PositiveRates ∧ item.Finite
  | .reseed closes => ∀ conId close, closes conId = some close → close.isFinite = true
  | .disconnected => True
  | .clearStreaming => True
  | .foreign refresh => ∃ (fx : FxView) (a : Adapter) (rows : List Position)
    (h : a.getPositions fx = .ok rows) (hpolling : a.name ≠ .ibkr),
      fx.PositiveRates ∧ a.FinitePositions ∧ refresh = a.refresh h hpolling

/-- What the rows that can tick keep besides. -/
def StockValued (p : Position) : Prop := p.Valued ∧ p.assetClass = .stk

theorem finiteNumbers_preserves {e : FeedEvent} (h : e.FiniteNumbers) :
    IbkrFeed.Preserves Position.Valued StockValued e where
  seed := by
    rintro fx replies subscribe rows rfl hrows p hp
    obtain ⟨hvalued, hstk⟩ := getPositions_valued h.1 h.2 hrows p hp
    exact ⟨hvalued, fun hkey => ⟨hvalued, hstk hkey⟩⟩
  tick := by
    rintro fx ticker old rfl hold
    exact ⟨tickRow_valued h.1 hold.1 hold.2 (coerceLast_isFinite h.2) _, hold.2⟩
  portfolio := by
    rintro fx item old new rfl hold hstk hrow
    obtain ⟨-, -, -, hclass, -⟩ := portfolioRow_same hrow
    exact ⟨portfolioRow_valued h.1 hold hstk h.2 hrow, hclass.trans hstk⟩
  reseed := by
    rintro closes conId newPrev old rfl - hold
    exact ⟨reseedRow_valued hold.1 newPrev, hold.2⟩
  stale := fun old hold => staleRow_valued hold
  foreign := by
    rintro refresh rfl
    obtain ⟨fx, a, rows, hrows, hpolling, hfx, ha, rfl⟩ := h
    exact a.getPositions_valued hfx ha hrows

/-- In every history of finite numbers each row of the store is valued. -/
theorem run_valued {events : List FeedEvent} (h : ∀ e ∈ events, e.FiniteNumbers) :
    (IbkrFeed.run events).Rows Position.Valued StockValued := by
  induction events using List.reverseRecOn with
  | nil =>
    refine ⟨LivePositions.every_empty, fun conId p hp => ?_⟩
    have hnone : (OrderedDict.empty : OrderedDict ℤ Position).get? conId = some p := hp
    simp at hnone
  | append_singleton events e ih =>
    have hbefore := ih fun e he => h e (List.mem_append_left _ he)
    rw [IbkrFeed.run_append]
    exact hbefore.step (fun p hp => hp.1)
      (finiteNumbers_preserves (h e (List.mem_append_right _ (by simp))))

/-- Valuation coherence: whatever happens to the store, its rows say what they are worth. -/
theorem rows_coherent {events : List FeedEvent} (h : ∀ e ∈ events, e.FiniteNumbers) :
    ∀ p ∈ (IbkrFeed.run events).live.getAll, p.Coherent :=
  fun p hp => ((run_valued h).live p hp).coherent

theorem sampleReplies_finite : (sampleReplies [sampleIbPosition "U1"] []).Finite where
  positions := by
    rintro ibPositions hpositions ibPos hmem
    obtain rfl := Except.ok.inj hpositions
    obtain rfl := List.mem_singleton.mp hmem
    exact ⟨rfl, rfl⟩
  portfolio := by simp [sampleReplies]
  tickers := by
    rintro ticker hticker conId x hx
    obtain rfl := Except.ok.inj hticker
    obtain hlast | hnone | hnone := hx
    · obtain rfl := Option.some.inj hlast
      rfl
    · cases hnone
    · cases hnone
  closes := by simp [sampleReplies]
  cash := by simp [sampleReplies, accountCashValues, summaryAccounts]
  currencies := by
    rintro ibPositions hpositions ibPos hmem hcash
    obtain rfl := Except.ok.inj hpositions
    obtain rfl := List.mem_singleton.mp hmem
    exact absurd hcash (by decide)
  cashCurrencies := by simp [sampleReplies, accountCashValues, summaryAccounts]

/-- A day in the life of one share. -/
def sampleDay : List FeedEvent :=
  [sampleSeed [sampleIbPosition "U1"] [], .reseed fun _ => some 100,
    .tick sampleView ⟨265598, some 111, none, none, 1⟩]

theorem sampleDay_coherent :
    (IbkrFeed.run sampleDay).live.getAll.map Position.intradayPnlUsd = [.ok 11] ∧
      ∀ p ∈ (IbkrFeed.run sampleDay).live.getAll, p.Coherent := by
  have hrates : sampleView.PositiveRates := by
    rintro service hservice currency rate hrate
    obtain rfl := Option.some.inj hservice
    obtain hnone | hnone := hrate
    · cases hnone
    · cases hnone
  refine ⟨by decide +kernel, rows_coherent fun e he => ?_⟩
  simp only [sampleDay, List.mem_cons, List.not_mem_nil, or_false] at he
  rcases he with rfl | rfl | rfl
  · exact ⟨hrates, sampleReplies_finite⟩
  · rintro conId close hclose
    obtain rfl := Option.some.inj hclose
    rfl
  · refine ⟨hrates, fun x hx => ?_⟩
    obtain hlast | hnone | hnone := hx
    · obtain rfl := Option.some.inj hlast
      rfl
    · cases hnone
    · cases hnone

end PortfolioHub
