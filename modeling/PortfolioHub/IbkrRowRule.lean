import PortfolioHub.IbkrSeed

namespace PortfolioHub

/-- A portfolio row is the old row with new values. -/
theorem portfolioRow_same {fx : FxView} {old new : Position} {item : PortfolioItem}
    (h : portfolioRow fx old item = some new) :
    new.key = old.key ∧ new.nativeKey = old.nativeKey ∧ new.exchange = old.exchange ∧
      new.assetClass = old.assetClass ∧ new.currency = old.currency := by
  unfold portfolioRow at h
  dsimp only at h
  split at h
  next => simp at h
  next =>
    obtain rfl := Option.some.inj h
    exact ⟨rfl, rfl, rfl, rfl, rfl⟩

/-- What an update that is not dropped does: it revalues the first row of its contract. -/
theorem portfolioUpdate_eq_some {fx : FxView} {s : IbkrFeed} {item : PortfolioItem} {new : Position}
    (h : s.portfolioUpdate fx item = some new) :
    ∃ old, s.portfolioTarget item = some old ∧ old ∈ s.live.getAll ∧ old.Holds item.conId ∧
      portfolioRow fx old item = some new := by
  unfold IbkrFeed.portfolioUpdate at h
  split at h
  next => simp at h
  next =>
    obtain ⟨old, htarget, h⟩ := Option.bind_eq_some_iff.mp h
    split at h
    next => simp at h
    next =>
      split at h
      next => simp at h
      next =>
        refine ⟨old, htarget, List.mem_of_find?_eq_some htarget, ?_, h⟩
        simpa using List.find?_some htarget

namespace IbkrFeed

/-- The property holds of every IBKR row of the store and of every row of the table. -/
structure All (P : Position → Prop) (s : IbkrFeed) : Prop where
  live : ∀ p ∈ s.live.getAll, p.broker = "IBKR" → P p
  streaming : ∀ conId p, s.streaming.get? conId = some p → P p

variable {P : Position → Prop} {s : IbkrFeed}

theorem empty_all : empty.All P :=
  ⟨fun p hp => absurd hp (by simp [empty, LivePositions.empty, LivePositions.getAll,
    OrderedDict.values, OrderedDict.empty]), fun conId p hp => absurd hp (by simp [empty])⟩

theorem All.setPosition (hs : s.All P) {p : Position} (hp : P p) :
    IbkrFeed.All P { s with live := s.live.setPosition p } := by
  refine ⟨fun q hq hbroker => ?_, hs.streaming⟩
  have hq' := LivePositions.mem_getAll_iff.mp hq
  rw [LivePositions.get?_setPosition] at hq'
  split at hq'
  next =>
    obtain rfl := Option.some.inj hq'
    exact hp
  next => exact hs.live q (LivePositions.mem_getAll_iff.mpr hq') hbroker

theorem All.insert (hs : s.All P) {conId : ℤ} {p : Position} (hp : P p) :
    IbkrFeed.All P { s with streaming := s.streaming.insert conId p } := by
  refine ⟨hs.live, fun other q hq => ?_⟩
  rw [OrderedDict.get?_insert] at hq
  split at hq
  next =>
    obtain rfl := Option.some.inj hq
    exact hp
  next => exact hs.streaming other q hq

theorem All.seedRows {subscribe : ℤ → Subscription} {rows : List Position} (hs : s.All P)
    (hrows : ∀ p ∈ rows, P p) : (seedRows subscribe rows s).1.All P := by
  induction rows generalizing s with
  | nil => exact hs
  | cons p ps ih =>
    have hp : P p := hrows p (by simp)
    have hps : ∀ q ∈ ps, P q := fun q hq => hrows q (List.mem_cons_of_mem _ hq)
    rw [IbkrFeed.seedRows]
    dsimp only
    split
    next => exact ih (hs.setPosition hp) hps
    next =>
      split
      next => exact ih (hs.setPosition hp) hps
      next =>
        split
        next => exact hs.setPosition hp
        next => exact ih ((hs.setPosition hp).insert hp) hps

/-- A fold of steps that keep the property for the entries it goes over keeps it. -/
theorem All.foldl {α : Type} {f : IbkrFeed → α → IbkrFeed} {entries : List α} (hs : s.All P)
    (hf : ∀ t, t.All P → ∀ e ∈ entries, (f t e).All P) : (entries.foldl f s).All P := by
  induction entries generalizing s with
  | nil => exact hs
  | cons e es ih =>
    exact ih (hf s hs e (by simp)) fun t ht e' he' => hf t ht e' (List.mem_cons_of_mem _ he')

/-- The row is in the store, as one of IBKR's, or in the table. -/
def Held (s : IbkrFeed) (p : Position) : Prop :=
  (p ∈ s.live.getAll ∧ p.broker = "IBKR") ∨ ∃ conId, s.streaming.get? conId = some p

theorem All.mono {Q : Position → Prop} (hs : s.All P) (h : ∀ p, s.Held p → P p → Q p) : s.All Q :=
  ⟨fun p hp hbroker => h p (Or.inl ⟨hp, hbroker⟩) (hs.live p hp hbroker),
    fun conId p hp => h p (Or.inr ⟨conId, hp⟩) (hs.streaming conId p hp)⟩

/-- What carries a property of the rows before an event to one of the rows after it. -/
structure Carries (P Q : Position → Prop) (s : IbkrFeed) (e : FeedEvent) : Prop where
  kept : ∀ p, s.Held p → P p → Q p
  seed : ∀ fx replies subscribe rows, e = .startStreaming fx replies subscribe →
    replies.getPositions fx = .ok rows → ∀ p ∈ rows, Q p
  tick : ∀ fx ticker old, e = .tick fx ticker → s.streaming.get? ticker.conId = some old →
    ¬ coerceLast ticker ≤ 0 → P old → Q (tickRow fx old (coerceLast ticker) (tickerIsDelayed ticker))
  portfolio : ∀ fx item new, e = .portfolioUpdate fx item →
    s.portfolioUpdate fx item = some new → Q new
  reseed : ∀ closes conId newPrev old, e = .reseed closes → closes conId = some newPrev →
    s.streaming.get? conId = some old → ¬ newPrev ≤ 0 → P old → Q (reseedRow old newPrev)
  stale : ∀ old, e = .disconnected → s.Held old → P old → Q (staleRow old)

theorem All.markStale {Q : Position → Prop} (hs : s.All P) (hkept : ∀ p, s.Held p → P p → Q p)
    (hstale : ∀ old, s.Held old → P old → Q (staleRow old)) :
    s.markLivePositionsStale.All Q := by
  have hfold : ∀ (ps : List Position) (live : LivePositions),
      (∀ p ∈ ps, p.broker = "IBKR" → Q (staleRow p)) → (∀ p ∈ live.getAll, p.broker = "IBKR" → Q p) →
        ∀ q ∈ (ps.foldl (fun live p => live.setPosition (staleRow p)) live).getAll,
          q.broker = "IBKR" → Q q := by
    intro ps
    induction ps with
    | nil => exact fun _ _ h => h
    | cons p ps ih =>
      intro live hps hlive
      refine ih _ (fun q hq => hps q (List.mem_cons_of_mem _ hq)) fun q hq hbroker => ?_
      have hq' := LivePositions.mem_getAll_iff.mp hq
      rw [LivePositions.get?_setPosition] at hq'
      split at hq'
      next =>
        obtain rfl := Option.some.inj hq'
        exact hps p (by simp) hbroker
      next => exact hlive q (LivePositions.mem_getAll_iff.mpr hq') hbroker
  have hnow := hs.mono hkept
  refine ⟨hfold _ s.live (fun p hp hbroker => ?_) hnow.live, hnow.streaming⟩
  have hmem := List.mem_of_mem_filter hp
  exact hstale p (Or.inl ⟨hmem, hbroker⟩) (hs.live p hmem hbroker)

/-- Another adapter's refresh leaves the IBKR rows as they are. -/
theorem All.foreign (hs : s.All P) (refresh : ForeignRefresh) :
    IbkrFeed.All P { s with live := s.live.replaceBroker refresh.broker refresh.positions } := by
  refine ⟨fun q hq hbroker => ?_, hs.streaming⟩
  have hq' := LivePositions.mem_getAll_iff.mp hq
  rw [LivePositions.get?_replaceBroker] at hq'
  rcases Option.or_eq_some_iff.mp hq' with hnew | ⟨-, hold⟩
  · exact absurd ((refresh.own q (mem_of_get?_byKey hnew).1).symm.trans hbroker) refresh.notIbkr
  · split at hold
    next => exact hs.live q (LivePositions.mem_getAll_iff.mpr hold) hbroker
    next => simp at hold

/-- The rule for properties of single rows: what holds of the rows before an event, and is carried
over it, holds of the rows after it. -/
theorem All.carried {Q : Position → Prop} {e : FeedEvent} (hs : s.All P) (hc : Carries P Q s e) :
    (s.step e).All Q := by
  have hnow := hs.mono hc.kept
  cases e with
  | startStreaming fx replies subscribe =>
    unfold IbkrFeed.step startStreaming
    dsimp only
    split
    next => exact hnow
    next rows hrows => exact hnow.seedRows (hc.seed fx replies subscribe rows rfl hrows)
  | tick fx ticker =>
    unfold IbkrFeed.step onTickerUpdate
    dsimp only
    split
    next => exact hnow
    next old hold =>
      split
      next => exact hnow
      next hpos =>
        split
        next => exact hnow
        next =>
          have hnew := hc.tick fx ticker old rfl hold hpos (hs.streaming _ old hold)
          exact (hnow.setPosition hnew).insert hnew
  | portfolioUpdate fx item =>
    unfold IbkrFeed.step onPortfolioUpdate
    dsimp only
    split
    next => exact hnow
    next new hnew =>
      have hp := hc.portfolio fx item new rfl hnew
      split
      next => exact (hnow.setPosition hp).insert hp
      next => exact hnow.setPosition hp
  | reseed closes =>
    refine hnow.foldl fun t ht entry hentry => ?_
    unfold reseedEntry
    split
    next => exact ht
    next newPrev hclose =>
      split
      next => exact ht
      next hcond =>
        have hstreamed := OrderedDict.get?_eq_some_iff.mpr hentry
        have hnew := hc.reseed closes entry.1 newPrev entry.2 rfl hclose hstreamed
          (fun hle => hcond (Or.inl hle)) (hs.streaming entry.1 entry.2 hstreamed)
        exact (ht.setPosition hnew).insert hnew
  | disconnected => exact hs.markStale hc.kept fun old => hc.stale old rfl
  | clearStreaming =>
    refine ⟨hnow.live, fun conId p hp => ?_⟩
    have hnone : (OrderedDict.empty : OrderedDict ℤ Position).get? conId = some p := hp
    simp at hnone
  | foreign refresh => exact hnow.foreign refresh

theorem run_append (events : List FeedEvent) (e : FeedEvent) :
    run (events ++ [e]) = (run events).step e := by
  simp [run]

end IbkrFeed

end PortfolioHub
