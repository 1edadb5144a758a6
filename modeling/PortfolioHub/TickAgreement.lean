import PortfolioHub.ClosePrices
import PortfolioHub.IbkrTicks

namespace PortfolioHub

/-- The broker's position, the name it resolves to and its portfolio item, as the row has them. -/
structure Position.BackedBy (row : Position) (ibPos : IbPosition) (name : ResolvedName)
    (item : Option PortfolioItem) : Prop where
  broker : row.broker = "IBKR"
  assetClass : row.assetClass = .stk
  account : ibPos.account = row.accountId
  contract : toString ibPos.contract.conId = row.nativeKey
  symbol : ibPos.contract.symbol = row.nativeSymbol
  currency : ibPos.contract.currency = row.currency
  name : name = ⟨row.canonicalSymbol, row.nameEn, row.exchange, row.priceMagnifier⟩
  quantity : ibPos.position = row.quantity
  avgCost : (item.bind fun item => portfolioAverageCost item row.priceMagnifier).getD ibPos.avgCost =
    row.avgCost

instance (row : Position) (ibPos : IbPosition) (name : ResolvedName)
    (item : Option PortfolioItem) : Decidable (row.BackedBy ibPos name item) :=
  decidable_of_iff
    (row.broker = "IBKR" ∧ row.assetClass = .stk ∧ ibPos.account = row.accountId ∧
      toString ibPos.contract.conId = row.nativeKey ∧ ibPos.contract.symbol = row.nativeSymbol ∧
      ibPos.contract.currency = row.currency ∧
      name = ⟨row.canonicalSymbol, row.nameEn, row.exchange, row.priceMagnifier⟩ ∧
      ibPos.position = row.quantity ∧
      (item.bind fun item => portfolioAverageCost item row.priceMagnifier).getD ibPos.avgCost =
        row.avgCost)
    ⟨fun ⟨h1, h2, h3, h4, h5, h6, h7, h8, h9⟩ => ⟨h1, h2, h3, h4, h5, h6, h7, h8, h9⟩,
      fun ⟨h1, h2, h3, h4, h5, h6, h7, h8, h9⟩ => ⟨h1, h2, h3, h4, h5, h6, h7, h8, h9⟩⟩

/-- What a tick keeps is the same in both. -/
structure Position.SameHolding (p q : Position) : Prop where
  key : p.key = q.key
  nativeKey : p.nativeKey = q.nativeKey
  nativeSymbol : p.nativeSymbol = q.nativeSymbol
  exchange : p.exchange = q.exchange
  currency : p.currency = q.currency
  nameEn : p.nameEn = q.nameEn
  assetClass : p.assetClass = q.assetClass
  quantity : p.quantity = q.quantity
  avgCost : p.avgCost = q.avgCost
  priceMagnifier : p.priceMagnifier = q.priceMagnifier
  previousClose : p.previousClose = q.previousClose

/-- The row shows the price as quoted now, at the rates of the view. -/
structure Position.QuotedAt (fx : FxView) (price : Python.Float) (delayed : Bool) (p : Position) :
    Prop where
  valued : p.ValuedAt fx price
  fxIsStale : p.fxIsStale =
    (convertToUsd fx p.currency p.marketValueNative p.unrealizedPnlNative).fxIsStale
  fxIsFallback : p.fxIsFallback =
    (convertToUsd fx p.currency p.marketValueNative p.unrealizedPnlNative).fxIsFallback
  fxUnavailable : p.fxUnavailable =
    (convertToUsd fx p.currency p.marketValueNative p.unrealizedPnlNative).fxUnavailable
  lastPriceIsPreviousClose : p.lastPriceIsPreviousClose = false
  lastPriceIsBrokerMark : p.lastPriceIsBrokerMark = false
  lastPriceIsDelayed : p.lastPriceIsDelayed = delayed
  lastPriceIsStale : p.lastPriceIsStale = false

variable {fx : FxView} {price : Python.Float} {delayed : Bool}

/-- The rebuild of a row at a quoted price is the arithmetic of the tick. -/
theorem buildPosition_eq_tickRow {row : Position} {ibPos : IbPosition} {name : ResolvedName}
    {item : Option PortfolioItem} (h : row.BackedBy ibPos name item) (hprice : ¬ price ≤ 0) :
    buildPosition fx ibPos name ⟨price, delayed⟩ row.previousClose item =
      tickRow fx row price delayed := by
  have hseed : seedPrice ⟨price, delayed⟩ row.previousClose item row.priceMagnifier row.quantity =
      ⟨price, false, false, delayed⟩ := if_neg hprice
  obtain ⟨hbroker, hclass, haccount, hcontract, hsymbol, hcurrency, rfl, hquantity, hcost⟩ := h
  unfold buildPosition tickRow
  simp only [haccount, hcontract, hsymbol, hcurrency, hquantity, hcost, hseed, if_neg hprice,
    Option.getD_none, ← hbroker, ← hclass]

theorem tickRow_eq_iff {old row : Position} (hkey : old.key = row.key) :
    tickRow fx old price delayed = tickRow fx row price delayed ↔ old.SameHolding row := by
  constructor
  · intro h
    have hfield : ∀ {β : Type} (f : Position → β),
        f (tickRow fx old price delayed) = f (tickRow fx row price delayed) :=
      fun f => congrArg f h
    exact ⟨hkey, hfield Position.nativeKey, hfield Position.nativeSymbol,
      hfield Position.exchange, hfield Position.currency, hfield Position.nameEn,
      hfield Position.assetClass, hfield Position.quantity, hfield Position.avgCost,
      hfield Position.priceMagnifier, hfield Position.previousClose⟩
  · rintro ⟨hkey, h1, h2, h3, h4, h5, h6, h7, h8, h9, h10⟩
    obtain ⟨hbroker, hkey⟩ := Prod.mk.inj hkey
    obtain ⟨haccount, hcanonical⟩ := Prod.mk.inj hkey
    unfold tickRow
    simp only [hbroker, haccount, hcanonical, h1, h2, h3, h4, h5, h6, h7, h8, h9, h10]

theorem tickRow_eq_self_iff {row : Position} :
    tickRow fx row price delayed = row ↔ row.QuotedAt fx price delayed := by
  constructor
  · intro h
    rw [← h]
    exact ⟨tickRow_valuedAt fx row price delayed, rfl, rfl, rfl, rfl, rfl, rfl, rfl⟩
  · rintro ⟨⟨hprice, hmv, hpnl, husd, hpnlUsd⟩, hstale, hfallback, hunavailable, hclose, hmark,
      hdelayed, hrow⟩
    cases row
    dsimp only at *
    subst hprice hmv hpnl husd hpnlUsd hstale hfallback hunavailable hclose hmark hdelayed hrow
    rfl

namespace IbkrFeed

/-- When a usable tick leaves a stock row as a rebuild at its price would make it. A tick at the
price of the table's entry leaves every row alone, and another the rows of other entries: such a
row has to show the quoted price already. The row of the entry has to be held as the entry is. -/
theorem tick_agrees_with_rebuild_iff (s : IbkrFeed) (fx : FxView) (ticker : Ticker)
    {old row : Position} {ibPos : IbPosition} {name : ResolvedName} {item : Option PortfolioItem}
    (hstreamed : s.streaming.get? ticker.conId = some old) (husable : coerceLast ticker ≠ 0)
    (hrow : row ∈ s.live.getAll) (hbacked : row.BackedBy ibPos name item) :
    (s.onTickerUpdate fx ticker).live.positions.get? row.key =
        some (buildPosition fx ibPos name (.ofTicker ticker) row.previousClose item) ↔
      if row.key = old.key ∧ coerceLast ticker ≠ old.lastPrice then old.SameHolding row
      else row.QuotedAt fx (coerceLast ticker) (tickerIsDelayed ticker) := by
  have hprice : ¬ coerceLast ticker ≤ 0 := ((coerceLast_cases ticker).resolve_left husable).2
  have hget := LivePositions.mem_getAll_iff.mp hrow
  have hkept : (s.onTickerUpdate fx ticker).live.positions.get? row.key = some row →
      ((s.onTickerUpdate fx ticker).live.positions.get? row.key =
          some (tickRow fx row (coerceLast ticker) (tickerIsDelayed ticker)) ↔
        row.QuotedAt fx (coerceLast ticker) (tickerIsDelayed ticker)) := by
    intro hkept
    rw [hkept, Option.some_inj, eq_comm]
    exact tickRow_eq_self_iff
  rw [Quote.ofTicker, buildPosition_eq_tickRow hbacked hprice]
  rcases onTickerUpdate_cases fx hstreamed husable with ⟨hsame, hnoop⟩ | ⟨hnew, hwritten⟩
  · rw [if_neg fun h => h.2 hsame]
    exact hkept (by rw [hnoop, hget])
  · by_cases hkey : row.key = old.key
    · rw [if_pos ⟨hkey, hnew⟩, hwritten, if_pos hkey, Option.some_inj]
      exact tickRow_eq_iff hkey.symm
    · rw [if_neg fun h => hkey h.1]
      exact hkept (by rw [hwritten, if_neg hkey, hget])

end IbkrFeed

/-- Apple as it resolves. -/
def sampleName : ResolvedName := ⟨"AAPL.US", "APPLE INC", "NASDAQ", .one⟩

/-- The last price of Apple moves from 110 to 111. -/
theorem tick_agrees_on_a_new_price :
    ∃ row ∈ (IbkrFeed.run [sampleSeed [sampleIbPosition "U1"] []]).live.getAll,
      ((IbkrFeed.run [sampleSeed [sampleIbPosition "U1"] []]).onTickerUpdate sampleView
          sampleTicker).live.positions.get? row.key =
        some (buildPosition sampleView (sampleIbPosition "U1") sampleName (.ofTicker sampleTicker)
          row.previousClose none) := by
  have hstreamed : ((IbkrFeed.run [sampleSeed [sampleIbPosition "U1"] []]).streaming.get?
      265598).isSome = true := by decide +kernel
  obtain ⟨old, hold⟩ := Option.isSome_iff_exists.mp hstreamed
  have hrows : ∀ q ∈ (IbkrFeed.run [sampleSeed [sampleIbPosition "U1"] []]).streaming.get? 265598,
      q ∈ (IbkrFeed.run [sampleSeed [sampleIbPosition "U1"] []]).live.getAll ∧
        q.lastPrice = 110 ∧ q.BackedBy (sampleIbPosition "U1") sampleName none := by decide +kernel
  obtain ⟨hmem, hprice, hbacked⟩ := hrows old hold
  refine ⟨old, hmem, ?_⟩
  refine (IbkrFeed.tick_agrees_with_rebuild_iff _ sampleView sampleTicker hold (by decide +kernel)
    hmem hbacked).mpr ?_
  rw [if_pos ⟨rfl, by rw [hprice]; decide +kernel⟩]
  exact ⟨rfl, rfl, rfl, rfl, rfl, rfl, rfl, rfl, rfl, rfl, rfl⟩

/-- The first trade of the day is at the close the row was seeded with: the row goes on as priced
at the previous close. -/
theorem tick_at_the_previous_close_disagrees :
    ¬ ∀ (events : List FeedEvent) (fx : FxView) (ticker : Ticker) (old row : Position)
      (ibPos : IbPosition) (name : ResolvedName) (item : Option PortfolioItem),
      (IbkrFeed.run events).streaming.get? ticker.conId = some old → coerceLast ticker ≠ 0 →
        row ∈ (IbkrFeed.run events).live.getAll → row.BackedBy ibPos name item →
          ((IbkrFeed.run events).onTickerUpdate fx ticker).live.positions.get? row.key =
            some (buildPosition fx ibPos name (.ofTicker ticker) row.previousClose item) := by
  intro hall
  let events : List FeedEvent := [closedSeed]
  let ticker : Ticker := ⟨265598, some 110, none, none, 1⟩
  have hstreamed : ((IbkrFeed.run events).streaming.get? 265598).isSome = true := by decide +kernel
  obtain ⟨old, hold⟩ := Option.isSome_iff_exists.mp hstreamed
  have hrows : ∀ q ∈ (IbkrFeed.run events).streaming.get? 265598,
      q ∈ (IbkrFeed.run events).live.getAll ∧
        (∀ p ∈ ((IbkrFeed.run events).onTickerUpdate sampleView ticker).live.positions.get? q.key,
          p.lastPriceIsPreviousClose = true) ∧
        (buildPosition sampleView (sampleIbPosition "U1") sampleName (.ofTicker ticker)
          q.previousClose none).lastPriceIsPreviousClose = false ∧
        q.BackedBy (sampleIbPosition "U1") sampleName none := by decide +kernel
  obtain ⟨hmem, hflag, hrebuilt, hbacked⟩ := hrows old hold
  have hafter := hall events sampleView ticker old old (sampleIbPosition "U1") sampleName none hold
    (by decide +kernel) hmem hbacked
  exact absurd ((hflag _ hafter).symm.trans hrebuilt) (by decide)

end PortfolioHub
