import PortfolioHub.FutuRows
import PortfolioHub.IbkrRowRule

namespace PortfolioHub

/-- The rows the four adapters emit: what their builders give, whatever the vendors
answer, and what the IBKR handlers make of such a row later. -/
inductive Emitted : Position → Prop where
  | ibkr {fx : FxView} {replies : IbReplies} {rows : List Position} {p : Position} :
      replies.getPositions fx = .ok rows → p ∈ rows → Emitted p
  | tick {old : Position} (fx : FxView) (ticker : Ticker) :
      Emitted old → old.broker = "IBKR" → ¬ coerceLast ticker ≤ 0 →
        Emitted (tickRow fx old (coerceLast ticker) (tickerIsDelayed ticker))
  | portfolio {fx : FxView} {old new : Position} {item : PortfolioItem} :
      Emitted old → old.broker = "IBKR" → portfolioRow fx old item = some new → Emitted new
  | reseed {old : Position} {newPrev : Python.Float} :
      Emitted old → old.broker = "IBKR" → ¬ newPrev ≤ 0 → Emitted (reseedRow old newPrev)
  | stale {old : Position} : Emitted old → Emitted (staleRow old)
  | longbridgeStock {fx : FxView} {accountId : String} {row : LongbridgeStockRow}
      {quote : Option LongbridgeQuote} {static : Option LongbridgeStatic} {p : Position} :
      longbridgePositionFromStockRow fx accountId row quote static = .ok (some p) → Emitted p
  | longbridgeCash {fx : FxView} {accountId : String} {cashInfos : List LongbridgeCashInfo}
      {p : Position} : p ∈ longbridgeCashPositions fx accountId cashInfos → Emitted p
  | tigerStock {fx : FxView} {markets : List String} {accountId : String} {row : TigerRow}
      {quotes : OrderedDict String TigerQuote} {p : Position} :
      tigerPositionFromRow fx markets accountId row quotes = .ok (some p) → Emitted p
  | tigerCash {fx : FxView} {accountId : String} {assets : List TigerCurrencyAsset}
      {p : Position} : p ∈ tigerCashPositions fx accountId assets → Emitted p
  | futuStock {fx : FxView} {accountId : String} {row : FutuRow} {p : Position} :
      futuPositionFromRow fx accountId row = some p → Emitted p
  | futuCash {fx : FxView} {accountId : String} {row : FutuAccountRow} {p : Position} :
      futuCashPositionFromAccountRow fx accountId row = some p → Emitted p

/-- What every emitted row keeps: cash has no venue, and a stock has a known one unless
Longbridge named it. -/
structure Position.Listed (p : Position) : Prop where
  cash : p.assetClass = .cash → p.exchange = ""
  stock : p.assetClass = .stk → p.broker ≠ "Longbridge" → KnownExchange p.exchange
  venue : p.assetClass = .stk → p.exchange ≠ ""

theorem knownExchange_ne_empty {exchange : String} (h : KnownExchange exchange) :
    exchange ≠ "" := by
  rintro rfl
  exact absurd h (by decide)

theorem listed_of_known {p : Position} (hclass : p.assetClass = .stk)
    (hknown : KnownExchange p.exchange) : p.Listed :=
  ⟨fun hcash => by simp [hclass] at hcash, fun _ _ => hknown,
    fun _ => knownExchange_ne_empty hknown⟩

theorem cashRow_listed (broker accountId currency : String) (amount : Python.Float) (fx : FxView) :
    (cashRow broker accountId currency amount fx).Listed := by
  have hclass : (cashRow broker accountId currency amount fx).assetClass = .cash := rfl
  exact ⟨fun _ => rfl, fun hstk => by simp [hclass] at hstk, fun hstk => by simp [hclass] at hstk⟩

/-- A row that differs from a listed one in its figures only is listed. -/
theorem Position.Listed.of_same {p q : Position} (hp : p.Listed) (hbroker : q.broker = p.broker)
    (hexchange : q.exchange = p.exchange) (hclass : q.assetClass = p.assetClass) : q.Listed := by
  refine ⟨?_, ?_, ?_⟩
  · rw [hclass, hexchange]
    exact hp.cash
  · rw [hclass, hexchange, hbroker]
    exact hp.stock
  · rw [hclass, hexchange]
    exact hp.venue

theorem origin_listed {fx : FxView} {r : IbReplies} {p : Position} (h : r.Origin fx p) :
    p.Listed := by
  rcases h with ⟨_, ibPos, name, quote, -, -, -, hname, rfl⟩ | ⟨ibPos, rfl⟩ | ⟨cash, rfl⟩
  · exact listed_of_known rfl (resolveName_known hname)
  · exact cashRow_listed ..
  · exact cashRow_listed ..

theorem longbridgeNormaliseSymbol_venue {symbol hint nativeSymbol canonical exchange : String}
    (h : longbridgeNormaliseSymbol symbol hint = .ok (nativeSymbol, canonical, exchange)) :
    exchange ≠ "" := by
  unfold longbridgeNormaliseSymbol at h
  dsimp only at h
  split at h
  next => simp at h
  next =>
    split at h
    next hhint =>
      obtain ⟨-, -, rfl⟩ := by simpa using h
      exact hhint
    next =>
      split at h
      next e he =>
        obtain ⟨-, -, rfl⟩ := by simpa using h
        have hall : ∀ e ∈ suffixToExchange, e.2 ≠ "" := by decide
        exact hall _ (OrderedDict.mem_of_lookup he)
      next => simp at h

theorem longbridgePositionFromStockRow_listed {fx : FxView} {accountId : String}
    {row : LongbridgeStockRow} {quote : Option LongbridgeQuote} {static : Option LongbridgeStatic}
    {p : Position}
    (h : longbridgePositionFromStockRow fx accountId row quote static = .ok (some p)) :
    p.Listed := by
  have hstock := longbridgePositionFromStockRow_stockOf h
  refine ⟨fun hcash => ?_, fun _ hbroker => absurd hstock.broker hbroker, fun _ => ?_⟩
  · simp [hstock.assetClass] at hcash
  · exact longbridgeNormaliseSymbol_venue hstock.symbols

theorem tigerPositionFromRow_listed {fx : FxView} {markets : List String} {accountId : String}
    {row : TigerRow} {quotes : OrderedDict String TigerQuote} {p : Position}
    (h : tigerPositionFromRow fx markets accountId row quotes = .ok (some p)) : p.Listed := by
  obtain ⟨contract, -, hstock⟩ := tigerPositionFromRow_stockOf h
  exact listed_of_known hstock.assetClass (tigerNormaliseContractSymbol_known hstock.symbols)

theorem futuPositionFromRow_listed {fx : FxView} {accountId : String} {row : FutuRow}
    {p : Position} (h : futuPositionFromRow fx accountId row = some p) : p.Listed := by
  have hstock := futuPositionFromRow_stockOf h
  exact listed_of_known hstock.assetClass (futuNormaliseCode_known hstock.symbols)

/-- Every emitted row is listed. -/
theorem emitted_listed {p : Position} (h : Emitted p) : p.Listed := by
  induction h with
  | ibkr hrows hp => exact origin_listed (mem_getPositions hrows hp)
  | tick fx ticker _ _ _ ih => exact ih.of_same rfl rfl rfl
  | portfolio _ _ hrow ih =>
    obtain ⟨hkey, -, hexchange, hclass, -⟩ := portfolioRow_same hrow
    exact ih.of_same (congrArg Prod.fst hkey) hexchange hclass
  | reseed _ _ _ ih => exact ih.of_same rfl rfl rfl
  | stale _ ih => exact ih.of_same rfl rfl rfl
  | longbridgeStock hrow => exact longbridgePositionFromStockRow_listed hrow
  | longbridgeCash hp =>
    obtain ⟨e, -, rfl⟩ := List.mem_map.mp hp
    exact cashRow_listed ..
  | tigerStock hrow => exact tigerPositionFromRow_listed hrow
  | tigerCash hp =>
    obtain ⟨e, -, rfl⟩ := List.mem_map.mp hp
    exact cashRow_listed ..
  | futuStock hrow => exact futuPositionFromRow_listed hrow
  | futuCash hrow =>
    obtain rfl := futuCashPositionFromAccountRow_eq hrow
    exact cashRow_listed ..

/-- Whatever happens to the feed, its rows are emitted ones. -/
theorem run_emitted (events : List FeedEvent) :
    (IbkrFeed.run events).All fun p => Emitted p ∧ p.broker = "IBKR" := by
  induction events using List.reverseRecOn with
  | nil => exact IbkrFeed.empty_all
  | append_singleton events e ih =>
    rw [IbkrFeed.run_append]
    refine ih.carried ⟨fun _ _ hp => hp, ?_, ?_, ?_, ?_, ?_⟩
    · intro fx replies subscribe rows _ hrows p hp
      exact ⟨.ibkr hrows hp, getPositions_broker hrows hp⟩
    · intro fx ticker old _ _ hpos hold
      exact ⟨.tick fx ticker hold.1 hold.2 hpos, hold.2⟩
    · intro fx item new _ hnew
      obtain ⟨old, -, hmem, hholds, hrow⟩ := portfolioUpdate_eq_some hnew
      have hold := ih.live old hmem hholds.1
      exact ⟨.portfolio hold.1 hold.2 hrow,
        (congrArg Prod.fst (portfolioRow_same hrow).1).trans hold.2⟩
    · intro closes conId newPrev old _ _ _ hpos hold
      exact ⟨.reseed hold.1 hold.2 hpos, hold.2⟩
    · intro old _ _ hold
      exact ⟨.stale hold.1, hold.2⟩

end PortfolioHub
