import PortfolioHub.IbkrFeed

namespace PortfolioHub

namespace IbkrFeed

/-- A seed that does not raise writes its rows over the old ones, the last row of a key
winning, and removes none. -/
theorem get?_seedRows {subscribe : ℤ → Subscription} {rows : List Position} {s s' : IbkrFeed}
    (h : seedRows subscribe rows s = (s', true)) (k : PositionKey) :
    s'.live.positions.get? k = ((byKey rows).get? k).or (s.live.positions.get? k) := by
  induction rows generalizing s with
  | nil =>
    obtain ⟨rfl, -⟩ := Prod.mk.inj h
    rfl
  | cons p ps ih =>
    have hrest : ∀ t : IbkrFeed, t.live = s.live.setPosition p →
        seedRows subscribe ps t = (s', true) →
          s'.live.positions.get? k = ((byKey (p :: ps)).get? k).or (s.live.positions.get? k) := by
      intro t ht hrun
      have hsplit : byKey (p :: ps) = byKey ([p] ++ ps) := rfl
      rw [ih hrun, hsplit, get?_byKey_append, get?_byKey_singleton, ht,
        LivePositions.get?_setPosition, Option.or_assoc]
      by_cases hk : k = p.key <;> simp [hk]
    rw [seedRows] at h
    dsimp only at h
    split at h
    next => exact hrest _ rfl h
    next =>
      split at h
      next => exact hrest _ rfl h
      next =>
        split at h
        next => exact absurd (Prod.mk.inj h).2 (by simp)
        next => exact hrest _ rfl h

/-- When the IBKR rows behind a successful connect are the rows of its reply: no row
was left under a key the reply lacks, and no two rows of the reply share a key. -/
theorem startStreaming_rows_iff (events : List FeedEvent) (fx : FxView) (replies : IbReplies)
    (subscribe : ℤ → Subscription) {rows : List Position} {s' : IbkrFeed}
    (hrows : replies.getPositions fx = .ok rows)
    (hconnect : (run events).startStreaming fx replies subscribe = (s', true)) :
    (∀ p, p ∈ s'.live.getAll ∧ p.broker = "IBKR" ↔ p ∈ rows) ↔
      (∀ p ∈ (run events).live.getAll, p.broker = "IBKR" → ∃ q ∈ rows, q.key = p.key) ∧
        ∀ p ∈ rows, ∀ q ∈ rows, p.key = q.key → p = q := by
  rw [startStreaming, hrows] at hconnect
  have hget := get?_seedRows hconnect
  constructor
  · intro hset
    have hstored : ∀ p ∈ rows, s'.live.positions.get? p.key = some p := fun p hp =>
      LivePositions.mem_getAll_iff.mp ((hset p).mpr hp).1
    constructor
    · intro p hp hbroker
      cases hd : (byKey rows).get? p.key with
      | none =>
        have hkept : s'.live.positions.get? p.key = some p := by
          rw [hget, hd, LivePositions.mem_getAll_iff.mp hp]
          rfl
        exact ⟨p, (hset p).mp ⟨LivePositions.mem_getAll_iff.mpr hkept, hbroker⟩, rfl⟩
      | some q =>
        obtain ⟨hq, hkey⟩ := mem_of_get?_byKey hd
        exact ⟨q, hq, hkey⟩
    · intro p hp q hq hkey
      have hpq : some p = some q := by
        rw [← hstored p hp, hkey, hstored q hq]
      exact Option.some.inj hpq
  · rintro ⟨hcovered, hdistinct⟩ p
    constructor
    · rintro ⟨hp, hbroker⟩
      have hp' := LivePositions.mem_getAll_iff.mp hp
      rw [hget] at hp'
      rcases Option.or_eq_some_iff.mp hp' with hnew | ⟨hnone, hold⟩
      · exact (mem_of_get?_byKey hnew).1
      · obtain ⟨q, hq, hkey⟩ := hcovered p (LivePositions.mem_getAll_iff.mpr hold) hbroker
        obtain ⟨q', hq'⟩ := get?_byKey_of_mem hq
        rw [hkey, hnone] at hq'
        exact absurd hq' (by simp)
    · intro hp
      obtain ⟨q, hq⟩ := get?_byKey_of_mem hp
      obtain ⟨hmem, hkey⟩ := mem_of_get?_byKey hq
      obtain rfl := hdistinct q hmem p hp hkey
      refine ⟨LivePositions.mem_getAll_iff.mpr ?_, getPositions_broker hrows hp⟩
      rw [hget, hq]
      rfl

end IbkrFeed

def sampleContract : Contract := ⟨265598, "AAPL", "STK", "NASDAQ", "SMART", "USD"⟩

def sampleDetails : ContractDetails := ⟨"NASDAQ", "SMART", "APPLE INC", 1⟩

/-- One Apple share of the account. -/
def sampleIbPosition (account : String) : IbPosition := ⟨account, sampleContract, 1, 100⟩

/-- A session in which Apple last traded at 110. -/
def sampleReplies (positions : List IbPosition) (portfolio : List PortfolioItem) : IbReplies where
  positions := .ok positions
  portfolio := portfolio
  listingCache := fun _ => none
  nameCache := fun _ => none
  details := fun _ => .ok (some sampleDetails)
  tickers := .ok fun conId => ⟨conId, some 110, none, none, 1⟩
  previousCloses := fun _ => none
  managedAccounts := []
  summary := .ok []

def sampleSeed (positions : List IbPosition) (portfolio : List PortfolioItem) : FeedEvent :=
  .startStreaming sampleView (sampleReplies positions portfolio) fun _ => .ticker

example : (IbkrFeed.run [sampleSeed [sampleIbPosition "U1"] []]).live.getAll =
    [{ broker := "IBKR", accountId := "U1", nativeKey := "265598", canonicalSymbol := "AAPL.US",
       nativeSymbol := "AAPL", exchange := "NASDAQ", currency := "USD", nameEn := "APPLE INC",
       assetClass := .stk, quantity := 1, avgCost := 100, lastPrice := 110,
       marketValueNative := 110, marketValueUsd := 110, unrealizedPnlNative := 10,
       unrealizedPnlUsd := 10 }] := by decide +kernel

/-- A first connect finds an empty store, so its rows are those of the reply. -/
theorem first_connect_rows :
    ∃ rows s', (sampleReplies [sampleIbPosition "U1"] []).getPositions sampleView = .ok rows ∧
      (IbkrFeed.run []).startStreaming sampleView (sampleReplies [sampleIbPosition "U1"] [])
        (fun _ => .ticker) = (s', true) ∧
      ∀ p, p ∈ s'.live.getAll ∧ p.broker = "IBKR" ↔ p ∈ rows := by
  have hlen : ((sampleReplies [sampleIbPosition "U1"] []).getPositions sampleView).toOption.map
      List.length = some 1 := by decide +kernel
  have hok : ((IbkrFeed.run []).startStreaming sampleView
      (sampleReplies [sampleIbPosition "U1"] []) fun _ => .ticker).2 = true := by decide +kernel
  cases hrows : (sampleReplies [sampleIbPosition "U1"] []).getPositions sampleView with
  | error e => simp [hrows, Except.toOption] at hlen
  | ok rows =>
    obtain ⟨p, rfl⟩ : ∃ p, rows = [p] := by
      rw [hrows] at hlen
      exact List.length_eq_one_iff.mp (by simpa [Except.toOption] using hlen)
    refine ⟨[p], _, rfl, Prod.ext rfl hok, ?_⟩
    refine (IbkrFeed.startStreaming_rows_iff [] _ _ _ hrows (Prod.ext rfl hok)).mpr ⟨?_, ?_⟩
    · exact fun p hp => absurd hp (by simp [IbkrFeed.run, IbkrFeed.empty, LivePositions.empty,
        LivePositions.getAll, OrderedDict.values, OrderedDict.empty])
    · intro q hq r hr _
      rw [List.mem_singleton.mp hq, List.mem_singleton.mp hr]

/-- The account sells its only share while the adapter is disconnected: the reply of the
reconnect is empty, and the row stays. -/
theorem closed_position_keeps_its_row :
    ¬ ∀ (events : List FeedEvent) (fx : FxView) (replies : IbReplies)
      (subscribe : ℤ → Subscription) (rows : List Position) (s' : IbkrFeed),
      replies.getPositions fx = .ok rows →
        (IbkrFeed.run events).startStreaming fx replies subscribe = (s', true) →
          ∀ p, p ∈ s'.live.getAll ∧ p.broker = "IBKR" ↔ p ∈ rows := by
  intro hall
  have hset := hall [sampleSeed [sampleIbPosition "U1"] [], .disconnected, .clearStreaming]
    sampleView (sampleReplies [] []) (fun _ => .ticker) [] _ rfl rfl
  have hstays : ∃ p ∈ (IbkrFeed.run [sampleSeed [sampleIbPosition "U1"] [], .disconnected,
      .clearStreaming]).live.getAll, p.broker = "IBKR" := by decide +kernel
  obtain ⟨p, hp, hbroker⟩ := hstays
  exact absurd ((hset p).mp ⟨hp, hbroker⟩) (by simp)

end PortfolioHub
