import PortfolioHub.RowCoherence

namespace PortfolioHub

/-- The item's numbers are finite. -/
structure PortfolioItem.Finite (item : PortfolioItem) : Prop where
  price : item.marketPrice.isFinite = true
  value : item.marketValue.isFinite = true
  cost : item.averageCost.isFinite = true
  pnl : item.unrealizedPnl.isFinite = true

/-- What the ticker quotes is finite. -/
def Ticker.Finite (ticker : Ticker) : Prop :=
  ∀ x, ticker.last = some x ∨ ticker.close = some x ∨ ticker.marketPrice = some x →
    x.isFinite = true

structure IbPosition.Finite (ibPos : IbPosition) : Prop where
  position : ibPos.position.isFinite = true
  avgCost : ibPos.avgCost.isFinite = true

/-- The numbers of the replies are finite, and a balance is in a currency, not in a number. -/
structure IbReplies.Finite (r : IbReplies) : Prop where
  positions : ∀ ibPositions, r.positions = .ok ibPositions → ∀ ibPos ∈ ibPositions, ibPos.Finite
  portfolio : ∀ item ∈ r.portfolio, item.Finite
  tickers : ∀ ticker, r.tickers = .ok ticker → ∀ conId, (ticker conId).Finite
  closes : ∀ conId close, r.previousCloses conId = some close → close.isFinite = true
  cash : ∀ cash ∈ accountCashValues r.managedAccounts r.summary, cash.amount.isFinite = true
  currencies : ∀ ibPositions, r.positions = .ok ibPositions → ∀ ibPos ∈ ibPositions,
    ibPos.contract.secType = "CASH" → Python.parseInt ibPos.contract.currency = none
  cashCurrencies : ∀ cash ∈ accountCashValues r.managedAccounts r.summary,
    Python.parseInt cash.currency = none

theorem toPositiveFloat_eq_some {value : Option Python.Float} {x : Python.Float}
    (h : toPositiveFloat value = some x) : value = some x := by
  obtain ⟨f, hf, h⟩ := Option.bind_eq_some_iff.mp h
  split at h
  next => simp at h
  next =>
    obtain rfl := Option.some.inj h
    exact hf

theorem toFiniteFloat_eq_some {value x : Python.Float} (h : toFiniteFloat value = some x) :
    value = x := by
  unfold toFiniteFloat at h
  split at h
  next => simp at h
  next => exact Option.some.inj h

theorem getD_isFinite {o : Option Python.Float} {d : Python.Float}
    (ho : ∀ x, o = some x → x.isFinite = true) (hd : d.isFinite = true) :
    (o.getD d).isFinite = true := by
  cases o with
  | none => exact hd
  | some x => exact ho x rfl

theorem coerceLast_isFinite {ticker : Ticker} (h : ticker.Finite) :
    (coerceLast ticker).isFinite = true := by
  refine getD_isFinite (fun x hx => ?_) rfl
  rcases Option.or_eq_some_iff.mp hx with hlast | ⟨-, hx⟩
  · exact h x (Or.inl (toPositiveFloat_eq_some hlast))
  · rcases Option.or_eq_some_iff.mp hx with hclose | ⟨-, hprice⟩
    · exact h x (Or.inr (Or.inl (toPositiveFloat_eq_some hclose)))
    · exact h x (Or.inr (Or.inr (toPositiveFloat_eq_some hprice)))

theorem portfolioMarketValue_isFinite {item : PortfolioItem} (h : item.Finite) {x : Python.Float}
    (hx : portfolioMarketValue item = some x) : x.isFinite = true :=
  toFiniteFloat_eq_some hx ▸ h.value

theorem portfolioUnrealizedPnl_isFinite {item : PortfolioItem} (h : item.Finite) {x : Python.Float}
    (hx : portfolioUnrealizedPnl item = some x) : x.isFinite = true :=
  toFiniteFloat_eq_some hx ▸ h.pnl

theorem portfolioAverageCost_isFinite {item : PortfolioItem} (h : item.Finite) {m : PriceMagnifier}
    {x : Python.Float} (hx : portfolioAverageCost item m = some x) : x.isFinite = true := by
  obtain ⟨cost, hcost, rfl⟩ := Option.map_eq_some_iff.mp hx
  obtain rfl := Option.some.inj (toPositiveFloat_eq_some hcost)
  exact Python.Float.isFinite_mul h.cost rfl

theorem portfolioDisplayPrice_isFinite {item : PortfolioItem} (h : item.Finite)
    {m : PriceMagnifier} {quantity x : Python.Float} (hquantity : quantity.isFinite = true)
    (hx : portfolioDisplayPrice item m quantity = some x) : x.isFinite = true := by
  obtain ⟨price, hprice, rfl⟩ := Option.map_eq_some_iff.mp hx
  refine Python.Float.isFinite_mul ?_ rfl
  rcases Option.or_eq_some_iff.mp hprice with hquoted | ⟨-, hvalue⟩
  · obtain rfl := Option.some.inj (toPositiveFloat_eq_some hquoted)
    exact h.price
  · split at hvalue
    next => simp at hvalue
    next =>
      obtain ⟨value, hv, rfl⟩ := Option.map_eq_some_iff.mp hvalue
      exact Python.Float.isFinite_abs
        (Python.Float.isFinite_quot (portfolioMarketValue_isFinite h hv) hquantity)

/-- A portfolio item leaves a stock row valued. -/
theorem portfolioRow_valued {fx : FxView} (hfx : fx.PositiveRates) {old new : Position}
    (h : old.Valued) (hstk : old.assetClass = .stk) {item : PortfolioItem} (hitem : item.Finite)
    (hrow : portfolioRow fx old item = some new) : new.Valued := by
  unfold portfolioRow at hrow
  dsimp only at hrow
  split at hrow
  next => simp at hrow
  next =>
    have hnative := getD_isFinite (fun _ => portfolioMarketValue_isFinite hitem) h.native
    have hpnl := getD_isFinite (fun _ => portfolioUnrealizedPnl_isFinite hitem) h.pnlNative
    have hcost := getD_isFinite
      (fun _ => portfolioAverageCost_isFinite hitem (m := old.priceMagnifier)) h.avgCost
    obtain rfl := Option.some.inj hrow
    refine ⟨converted_of_convertToUsd hfx hnative hpnl rfl rfl rfl, fun hcash => ?_, ?_,
      h.quantity, hcost, hnative, hpnl⟩
    · exact absurd (hcash.symm.trans hstk) (by simp)
    · simp [Position.OnePriceFlag]

/-- The seed price is finite and has one origin. -/
theorem seedPrice_spec {quote : Quote} (hquote : quote.last.isFinite = true)
    {previousClose : Python.Float} (hclose : previousClose.isFinite = true)
    {item : Option PortfolioItem} (hitem : ∀ i ∈ item, i.Finite) (m : PriceMagnifier)
    {quantity : Python.Float} (hquantity : quantity.isFinite = true) :
    (seedPrice quote previousClose item m quantity).price.isFinite = true ∧
      [(seedPrice quote previousClose item m quantity).isPreviousClose,
        (seedPrice quote previousClose item m quantity).isBrokerMark,
        (seedPrice quote previousClose item m quantity).isDelayed].count true ≤ 1 := by
  unfold seedPrice
  split
  next =>
    split
    next mark hmark =>
      obtain ⟨i, hi, hmark⟩ := Option.bind_eq_some_iff.mp hmark
      exact ⟨portfolioDisplayPrice_isFinite (hitem i hi) hquantity hmark, by simp⟩
    next =>
      split
      next => exact ⟨hclose, by simp⟩
      next => exact ⟨hquote, by cases quote.delayed <;> simp⟩
  next => exact ⟨hquote, by cases quote.delayed <;> simp⟩

theorem buildPosition_valued {fx : FxView} (hfx : fx.PositiveRates) {ibPos : IbPosition}
    (hpos : ibPos.Finite) (name : ResolvedName) {quote : Quote}
    (hquote : quote.last.isFinite = true) {previousClose : Python.Float}
    (hclose : previousClose.isFinite = true) {item : Option PortfolioItem}
    (hitem : ∀ i ∈ item, i.Finite) :
    (buildPosition fx ibPos name quote previousClose item).Valued := by
  obtain ⟨hprice, hflags⟩ := seedPrice_spec hquote hclose hitem name.priceMagnifier hpos.position
  have hcost : (buildPosition fx ibPos name quote previousClose item).avgCost.isFinite = true := by
    refine getD_isFinite (fun x hx => ?_) hpos.avgCost
    obtain ⟨i, hi, hx⟩ := Option.bind_eq_some_iff.mp hx
    exact portfolioAverageCost_isFinite (hitem i hi) hx
  have hnative : (buildPosition fx ibPos name quote previousClose item).marketValueNative.isFinite =
      true := by
    refine getD_isFinite (fun x hx => ?_) ?_
    · split at hx
      next =>
        obtain ⟨i, hi, hx⟩ := Option.bind_eq_some_iff.mp hx
        exact portfolioMarketValue_isFinite (hitem i hi) hx
      next => simp at hx
    · exact PriceMagnifier.isFinite_divide _ (Python.Float.isFinite_mul hpos.position hprice)
  have hpnl : (buildPosition fx ibPos name quote previousClose
      item).unrealizedPnlNative.isFinite = true := by
    refine getD_isFinite (fun x hx => ?_) ?_
    · split at hx
      next =>
        obtain ⟨i, hi, hx⟩ := Option.bind_eq_some_iff.mp hx
        exact portfolioUnrealizedPnl_isFinite (hitem i hi) hx
      next => simp at hx
    · exact PriceMagnifier.isFinite_divide _
        (Python.Float.isFinite_mul (Python.Float.isFinite_sub hprice hcost) hpos.position)
  refine ⟨converted_of_convertToUsd hfx hnative hpnl rfl rfl rfl, fun hcash => ?_, hflags,
    hpos.position, hcost, hnative, hpnl⟩
  exact absurd hcash (by simp [buildPosition])

end PortfolioHub
