import PortfolioHub.IbkrRowRule
import PortfolioHub.LiveRows

namespace PortfolioHub

namespace IbkrFeed

/-- The first property holds of every row of the store, the second of every row of the table. -/
structure Rows (P Q : Position → Prop) (s : IbkrFeed) : Prop where
  live : s.live.Every P
  streaming : ∀ conId p, s.streaming.get? conId = some p → Q p

/-- What the properties have to be closed under to survive an event. -/
structure Preserves (P Q : Position → Prop) (e : FeedEvent) : Prop where
  seed : ∀ fx replies subscribe rows, e = .startStreaming fx replies subscribe →
    replies.getPositions fx = .ok rows →
      ∀ p ∈ rows, P p ∧ (Python.parseInt p.nativeKey ≠ none → Q p)
  tick : ∀ fx ticker old, e = .tick fx ticker → Q old →
    Q (tickRow fx old (coerceLast ticker) (tickerIsDelayed ticker))
  portfolio : ∀ fx item old new, e = .portfolioUpdate fx item → P old → old.assetClass = .stk →
    portfolioRow fx old item = some new → Q new
  reseed : ∀ closes conId newPrev old, e = .reseed closes → closes conId = some newPrev → Q old →
    Q (reseedRow old newPrev)
  stale : ∀ old, P old → P (staleRow old)
  foreign : ∀ refresh, e = .foreign refresh → ∀ p ∈ refresh.positions, P p

variable {P Q : Position → Prop} {s : IbkrFeed}

theorem Rows.setPosition (hs : s.Rows P Q) {p : Position} (hp : P p) :
    IbkrFeed.Rows P Q { s with live := s.live.setPosition p } :=
  ⟨hs.live.setPosition hp, hs.streaming⟩

theorem Rows.insert (hs : s.Rows P Q) {conId : ℤ} {p : Position} (hp : Q p) :
    IbkrFeed.Rows P Q { s with streaming := s.streaming.insert conId p } := by
  refine ⟨hs.live, fun other q hq => ?_⟩
  rw [OrderedDict.get?_insert] at hq
  split at hq
  next =>
    obtain rfl := Option.some.inj hq
    exact hp
  next => exact hs.streaming other q hq

theorem Rows.seedRows {subscribe : ℤ → Subscription} {rows : List Position} (hs : s.Rows P Q)
    (hrows : ∀ p ∈ rows, P p ∧ (Python.parseInt p.nativeKey ≠ none → Q p)) :
    (seedRows subscribe rows s).1.Rows P Q := by
  induction rows generalizing s with
  | nil => exact hs
  | cons p ps ih =>
    obtain ⟨hp, hq⟩ := hrows p (by simp)
    have hps := fun q hq => hrows q (List.mem_cons_of_mem p hq)
    rw [IbkrFeed.seedRows]
    dsimp only
    split
    next => exact ih (hs.setPosition hp) hps
    next conId hkey =>
      split
      next => exact ih (hs.setPosition hp) hps
      next =>
        split
        next => exact hs.setPosition hp
        next => exact ih ((hs.setPosition hp).insert (hq (by simp [hkey]))) hps

theorem portfolioUpdate_assetClass {fx : FxView} {item : PortfolioItem} {old new : Position}
    (htarget : s.portfolioTarget item = some old) (h : s.portfolioUpdate fx item = some new) :
    old.assetClass = .stk := by
  unfold portfolioUpdate at h
  rw [htarget] at h
  split at h
  next => simp at h
  next =>
    simp only [Option.bind_some] at h
    split at h
    next => simp at h
    next hclass => exact not_not.mp hclass

theorem Rows.markStale (hs : s.Rows P Q) (hstale : ∀ old, P old → P (staleRow old)) :
    s.markLivePositionsStale.Rows P Q := by
  refine ⟨LivePositions.every_iff.mpr fun k p hp => ?_, hs.streaming⟩
  rw [get?_markLivePositionsStale] at hp
  obtain ⟨old, hold, rfl⟩ := Option.map_eq_some_iff.mp hp
  have hbase := LivePositions.every_iff.mp hs.live k old hold
  unfold markedRow
  split
  next => exact hstale old hbase
  next => exact hbase

/-- The rule for invariants of the rows of the store and of the rows of the table. -/
theorem Rows.step {e : FeedEvent} (hQP : ∀ p, Q p → P p) (hs : s.Rows P Q)
    (hk : Preserves P Q e) : (s.step e).Rows P Q := by
  cases e with
  | startStreaming fx replies subscribe =>
    unfold IbkrFeed.step startStreaming
    dsimp only
    split
    next => exact hs
    next rows hrows => exact hs.seedRows (hk.seed fx replies subscribe rows rfl hrows)
  | tick fx ticker =>
    unfold IbkrFeed.step onTickerUpdate
    dsimp only
    split
    next => exact hs
    next old hold =>
      split
      next => exact hs
      next =>
        split
        next => exact hs
        next =>
          have hnew := hk.tick fx ticker old rfl (hs.streaming _ old hold)
          exact (hs.setPosition (hQP _ hnew)).insert hnew
  | portfolioUpdate fx item =>
    unfold IbkrFeed.step onPortfolioUpdate
    dsimp only
    split
    next => exact hs
    next new hnew =>
      obtain ⟨old, htarget, hmem, -, hrow⟩ := portfolioUpdate_eq_some hnew
      have hnew := hk.portfolio fx item old new rfl (hs.live old hmem)
        (portfolioUpdate_assetClass htarget hnew) hrow
      split
      next => exact (hs.setPosition (hQP _ hnew)).insert hnew
      next => exact hs.setPosition (hQP _ hnew)
  | reseed closes =>
    have hfold : ∀ (entries : List (ℤ × Position)) (t : IbkrFeed),
        (∀ entry ∈ entries, Q entry.2) → t.Rows P Q →
          (entries.foldl (reseedEntry closes) t).Rows P Q := by
      intro entries
      induction entries with
      | nil => exact fun t _ h => h
      | cons entry entries ih =>
        intro t hentries ht
        refine ih _ (fun e he => hentries e (List.mem_cons_of_mem _ he)) ?_
        unfold reseedEntry
        split
        next => exact ht
        next newPrev hclose =>
          split
          next => exact ht
          next =>
            have hnew := hk.reseed closes entry.1 newPrev entry.2 rfl hclose
              (hentries entry (by simp))
            exact (ht.setPosition (hQP _ hnew)).insert hnew
    exact hfold _ s (fun entry hentry =>
      hs.streaming entry.1 entry.2 (OrderedDict.get?_eq_some_iff.mpr hentry)) hs
  | disconnected => exact hs.markStale hk.stale
  | clearStreaming =>
    refine ⟨hs.live, fun conId p hp => ?_⟩
    have hnone : (OrderedDict.empty : OrderedDict ℤ Position).get? conId = some p := hp
    simp at hnone
  | foreign refresh => exact ⟨hs.live.replaceBroker _ (hk.foreign refresh rfl), hs.streaming⟩

end IbkrFeed

end PortfolioHub
