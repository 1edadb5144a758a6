import PortfolioHub.IbkrSeed

namespace PortfolioHub

/-- The row carries the price, and its values are computed from it at the rates of the view. -/
structure Position.ValuedAt (fx : FxView) (price : Python.Float) (p : Position) : Prop where
  lastPrice : p.lastPrice = price
  native : p.marketValueNative = p.priceMagnifier.divide (p.quantity * price)
  pnlNative : p.unrealizedPnlNative = p.priceMagnifier.divide ((price - p.avgCost) * p.quantity)
  usd : p.marketValueUsd = (convertToUsd fx p.currency p.marketValueNative p.unrealizedPnlNative).mvUsd
  pnlUsd :
    p.unrealizedPnlUsd = (convertToUsd fx p.currency p.marketValueNative p.unrealizedPnlNative).pnlUsd

instance (fx : FxView) (price : Python.Float) (p : Position) : Decidable (p.ValuedAt fx price) :=
  decidable_of_iff
    (p.lastPrice = price ∧ p.marketValueNative = p.priceMagnifier.divide (p.quantity * price) ∧
      p.unrealizedPnlNative = p.priceMagnifier.divide ((price - p.avgCost) * p.quantity) ∧
      p.marketValueUsd =
        (convertToUsd fx p.currency p.marketValueNative p.unrealizedPnlNative).mvUsd ∧
      p.unrealizedPnlUsd =
        (convertToUsd fx p.currency p.marketValueNative p.unrealizedPnlNative).pnlUsd)
    ⟨fun ⟨h1, h2, h3, h4, h5⟩ => ⟨h1, h2, h3, h4, h5⟩,
      fun ⟨h1, h2, h3, h4, h5⟩ => ⟨h1, h2, h3, h4, h5⟩⟩

theorem tickRow_valuedAt (fx : FxView) (old : Position) (price : Python.Float) (delayed : Bool) :
    (tickRow fx old price delayed).ValuedAt fx price :=
  ⟨rfl, rfl, rfl, rfl, rfl⟩

/-- Every live row of the contract, of whatever account, is valued at the price. -/
def LivePositions.AllValuedAt (live : LivePositions) (fx : FxView) (conId : ℤ)
    (price : Python.Float) : Prop :=
  ∀ p ∈ live.getAll, p.Holds conId → p.ValuedAt fx price

namespace IbkrFeed

/-- A usable tick at the price the table holds changes nothing; another writes the row of
the table's entry and no other. -/
theorem onTickerUpdate_cases (fx : FxView) {s : IbkrFeed} {ticker : Ticker} {old : Position}
    (hstreamed : s.streaming.get? ticker.conId = some old) (husable : coerceLast ticker ≠ 0) :
    (coerceLast ticker = old.lastPrice ∧ s.onTickerUpdate fx ticker = s) ∨
      (coerceLast ticker ≠ old.lastPrice ∧ ∀ k,
        (s.onTickerUpdate fx ticker).live.positions.get? k =
          if k = old.key then some (tickRow fx old (coerceLast ticker) (tickerIsDelayed ticker))
          else s.live.positions.get? k) := by
  obtain ⟨hnan, hpos⟩ := (coerceLast_cases ticker).resolve_left husable
  have hne : coerceLast ticker ≠ .nan := by
    intro h
    simp [h, Python.Float.isNan] at hnan
  unfold onTickerUpdate
  rw [hstreamed]
  dsimp only
  rw [if_neg hpos]
  by_cases hsame : coerceLast ticker = old.lastPrice
  · rw [if_pos (Python.Float.equal_iff.mpr ⟨hsame, hne⟩)]
    exact Or.inl ⟨hsame, rfl⟩
  · rw [if_neg fun h => hsame (Python.Float.equal_iff.mp h).1]
    exact Or.inr ⟨hsame, fun k => LivePositions.get?_setPosition ..⟩

/-- When a usable tick leaves every row of its contract valued at its price: every such
row is valued already, except the one of the table's entry, and that one too where the
tick repeats the price of the entry. -/
theorem tick_values_all_rows_iff (events : List FeedEvent) (fx : FxView) (ticker : Ticker)
    {old : Position} (hstreamed : (run events).streaming.get? ticker.conId = some old)
    (husable : coerceLast ticker ≠ 0) :
    ((run events).onTickerUpdate fx ticker).live.AllValuedAt fx ticker.conId (coerceLast ticker) ↔
      ∀ p ∈ (run events).live.getAll, p.Holds ticker.conId →
        p.key ≠ old.key ∨ coerceLast ticker = old.lastPrice → p.ValuedAt fx (coerceLast ticker) := by
  rcases onTickerUpdate_cases fx hstreamed husable with ⟨hsame, hnoop⟩ | ⟨hnew, hget⟩
  · rw [hnoop]
    constructor
    · exact fun h p hp hholds _ => h p hp hholds
    · exact fun h p hp hholds => h p hp hholds (Or.inr hsame)
  · constructor
    · intro h p hp hholds hother
      have hkey : p.key ≠ old.key := hother.resolve_right hnew
      refine h p (LivePositions.mem_getAll_iff.mpr ?_) hholds
      rw [hget, if_neg hkey]
      exact LivePositions.mem_getAll_iff.mp hp
    · intro h p hp hholds
      have hp' := LivePositions.mem_getAll_iff.mp hp
      rw [hget] at hp'
      split at hp'
      next =>
        obtain rfl := Option.some.inj hp'
        exact tickRow_valuedAt ..
      next hkey => exact h p (LivePositions.mem_getAll_iff.mpr hp') hholds (Or.inl hkey)

end IbkrFeed

/-- Apple trades at 111. -/
def sampleTicker : Ticker := ⟨265598, some 111, none, none, 1⟩

theorem tick_values_single_row :
    ((IbkrFeed.run [sampleSeed [sampleIbPosition "U1"] []]).onTickerUpdate sampleView
      sampleTicker).live.AllValuedAt sampleView 265598 111 := by
  have hstreamed : ((IbkrFeed.run [sampleSeed [sampleIbPosition "U1"] []]).streaming.get?
      265598).isSome = true := by decide +kernel
  obtain ⟨old, hold⟩ := Option.isSome_iff_exists.mp hstreamed
  have hkeys : ∀ p ∈ (IbkrFeed.run [sampleSeed [sampleIbPosition "U1"] []]).live.getAll,
      ∀ q ∈ (IbkrFeed.run [sampleSeed [sampleIbPosition "U1"] []]).streaming.get? 265598,
        p.key = q.key ∧ q.lastPrice = 110 := by decide +kernel
  refine (IbkrFeed.tick_values_all_rows_iff _ sampleView sampleTicker hold (by decide +kernel)).mpr ?_
  intro p hp _ hother
  obtain ⟨hkey, hprice⟩ := hkeys p hp old hold
  rcases hother with hne | hrepeat
  · exact absurd hkey hne
  · rw [hprice] at hrepeat
    exact absurd hrepeat (by decide +kernel)

/-- Two linked accounts hold the share; the table has room for the row of the second only. -/
theorem tick_misses_the_other_account :
    ¬ ∀ (events : List FeedEvent) (fx : FxView) (ticker : Ticker) (old : Position),
      (IbkrFeed.run events).streaming.get? ticker.conId = some old → coerceLast ticker ≠ 0 →
        ((IbkrFeed.run events).onTickerUpdate fx ticker).live.AllValuedAt fx ticker.conId
          (coerceLast ticker) := by
  intro hall
  have hstreamed : ((IbkrFeed.run [sampleSeed [sampleIbPosition "U1", sampleIbPosition "U2"]
      []]).streaming.get? 265598).isSome = true := by decide +kernel
  obtain ⟨old, hold⟩ := Option.isSome_iff_exists.mp hstreamed
  have hvalued := hall _ sampleView sampleTicker old hold (by decide +kernel)
  have hmissed : ∃ p ∈ ((IbkrFeed.run [sampleSeed [sampleIbPosition "U1", sampleIbPosition "U2"]
      []]).onTickerUpdate sampleView sampleTicker).live.getAll,
      p.Holds 265598 ∧ ¬ p.ValuedAt sampleView (coerceLast sampleTicker) := by decide +kernel
  obtain ⟨p, hp, hholds, hnot⟩ := hmissed
  exact hnot (hvalued p hp hholds)

end PortfolioHub
