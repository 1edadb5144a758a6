import PortfolioHub.Emitted
import PortfolioHub.LiveRows

namespace PortfolioHub

namespace LivePositions

/-- The stores differ in rows of the broker only. -/
def Frame (broker : String) (live live' : LivePositions) : Prop :=
  ∀ k : PositionKey, k.1 ≠ broker → live'.positions.get? k = live.positions.get? k

variable {broker : String} {live live' live'' : LivePositions}

theorem Frame.refl (broker : String) (live : LivePositions) : Frame broker live live :=
  fun _ _ => rfl

theorem Frame.trans (h : Frame broker live live') (h' : Frame broker live' live'') :
    Frame broker live live'' :=
  fun k hk => (h' k hk).trans (h k hk)

theorem frame_setPosition {p : Position} (hp : p.broker = broker) :
    Frame broker live (live.setPosition p) := by
  intro k hk
  rw [get?_setPosition, if_neg]
  rintro rfl
  exact hk hp

theorem frame_replaceBroker {rows : List Position} (hrows : ∀ p ∈ rows, p.broker = broker) :
    Frame broker live (live.replaceBroker broker rows) := by
  intro k hk
  rw [get?_replaceBroker, if_pos hk]
  cases hnew : (byKey rows).get? k with
  | none => rfl
  | some p =>
    obtain ⟨hp, hkey⟩ := mem_of_get?_byKey hnew
    have hbroker : k.1 = broker := by rw [← hkey]; exact hrows p hp
    exact absurd hbroker hk

end LivePositions

/-- The name of the adapter that handles the event. -/
def FeedEvent.adapter : FeedEvent → String
  | .foreign refresh => refresh.broker
  | _ => "IBKR"

namespace IbkrFeed

open LivePositions

variable {s : IbkrFeed}

theorem frame_seedRows {subscribe : ℤ → Subscription} {rows : List Position}
    (hrows : ∀ p ∈ rows, p.broker = "IBKR") :
    Frame "IBKR" s.live (seedRows subscribe rows s).1.live := by
  induction rows generalizing s with
  | nil => exact Frame.refl _ _
  | cons p ps ih =>
    have hps : ∀ q ∈ ps, q.broker = "IBKR" := fun q hq => hrows q (List.mem_cons_of_mem _ hq)
    have hstored : Frame "IBKR" s.live (s.live.setPosition p) :=
      frame_setPosition (hrows p (by simp))
    rw [seedRows]
    dsimp only
    split
    next => exact hstored.trans (ih hps)
    next =>
      split
      next => exact hstored.trans (ih hps)
      next =>
        split
        next => exact hstored
        next => exact hstored.trans (ih hps)

theorem frame_reseed {closes : ℤ → Option Python.Float} {entries : List (ℤ × Position)}
    (hentries : ∀ entry ∈ entries, entry.2.broker = "IBKR") :
    Frame "IBKR" s.live (entries.foldl (reseedEntry closes) s).live := by
  induction entries generalizing s with
  | nil => exact Frame.refl _ _
  | cons entry entries ih =>
    refine Frame.trans ?_ (ih fun e he => hentries e (List.mem_cons_of_mem _ he))
    unfold reseedEntry
    split
    next => exact Frame.refl _ _
    next =>
      split
      next => exact Frame.refl _ _
      next => exact frame_setPosition (hentries entry (by simp))

/-- Every event but a disconnect keeps to the rows of its adapter. -/
theorem frame_step (events : List FeedEvent) {e : FeedEvent} (he : e ≠ .disconnected) :
    Frame e.adapter (run events).live ((run events).step e).live := by
  have hibkr := run_emitted events
  cases e with
  | startStreaming fx replies subscribe =>
    unfold step startStreaming
    dsimp only
    split
    next => exact Frame.refl _ _
    next rows hrows => exact frame_seedRows fun p hp => getPositions_broker hrows hp
  | tick fx ticker =>
    unfold step onTickerUpdate
    dsimp only
    split
    next => exact Frame.refl _ _
    next old hold =>
      split
      next => exact Frame.refl _ _
      next =>
        split
        next => exact Frame.refl _ _
        next => exact frame_setPosition (hibkr.streaming _ old hold).2
  | portfolioUpdate fx item =>
    unfold step onPortfolioUpdate
    dsimp only
    split
    next => exact Frame.refl _ _
    next new hnew =>
      obtain ⟨old, -, -, hholds, hrow⟩ := portfolioUpdate_eq_some hnew
      exact frame_setPosition ((congrArg Prod.fst (portfolioRow_same hrow).1).trans hholds.1)
  | reseed closes =>
    refine frame_reseed fun entry hentry => ?_
    exact (hibkr.streaming entry.1 entry.2 (OrderedDict.get?_eq_some_iff.mpr hentry)).2
  | disconnected => exact absurd rfl he
  | clearStreaming => exact Frame.refl _ _
  | foreign refresh => exact frame_replaceBroker refresh.own

/-- The stale marking keeps to the IBKR rows just when it finds no other row to mark. -/
theorem frame_markLivePositionsStale_iff (s : IbkrFeed) :
    Frame "IBKR" s.live s.markLivePositionsStale.live ↔
      ∀ p ∈ s.live.getAll, p.broker ≠ "IBKR" → p.assetClass = .cash ∨ p.lastPriceIsStale = true := by
  constructor
  · intro h p hp hbroker
    have hget := LivePositions.mem_getAll_iff.mp hp
    have hsame := h p.key hbroker
    rw [get?_markLivePositionsStale, hget] at hsame
    have hmarked : markedRow p = p := Option.some.inj hsame
    unfold markedRow at hmarked
    split at hmarked
    next =>
      have hflag : p.lastPriceIsStale = true := by
        rw [← hmarked]
        rfl
      exact Or.inr hflag
    next hcond =>
      by_contra hneither
      rw [not_or] at hneither
      exact hcond ⟨hneither.1, by simpa using hneither.2⟩
  · intro h k hk
    rw [get?_markLivePositionsStale]
    cases hget : s.live.positions.get? k with
    | none => rfl
    | some p =>
      obtain rfl := s.live.keyed k p hget
      have hmarked := h p (LivePositions.mem_getAll_iff.mpr hget) hk
      have hsame : markedRow p = p := by
        unfold markedRow
        rw [if_neg]
        rintro ⟨hclass, hstale⟩
        rcases hmarked with hcash | hflag
        · exact hclass hcash
        · simp [hstale] at hflag
      exact congrArg some hsame

/-- When an event leaves the rows of the other brokers alone: always, unless it is an IBKR
disconnect and another broker has a stock row that is not stale yet. -/
theorem event_keeps_other_brokers_iff (events : List FeedEvent) (e : FeedEvent) :
    (∀ k : PositionKey, k.1 ≠ e.adapter →
      ((run events).step e).live.positions.get? k = (run events).live.positions.get? k) ↔
      (e = .disconnected → ∀ p ∈ (run events).live.getAll, p.broker ≠ "IBKR" →
        p.assetClass = .cash ∨ p.lastPriceIsStale = true) := by
  by_cases he : e = .disconnected
  · subst he
    refine (frame_markLivePositionsStale_iff (run events)).trans ?_
    exact ⟨fun h _ => h, fun h => h rfl⟩
  · exact iff_of_true (frame_step events he) fun h => absurd h he

end IbkrFeed

/-- A refresh of Futu that finds an Apple share. -/
def futuShare : ForeignRefresh where
  broker := "Futu"
  positions := [
    { broker := "Futu", accountId := "F1", nativeKey := "US.AAPL", canonicalSymbol := "AAPL.US"
      nativeSymbol := "AAPL", exchange := "NYSE", currency := "USD", nameEn := "Apple"
      assetClass := .stk, quantity := 1, avgCost := 1, lastPrice := 1, marketValueNative := 1
      marketValueUsd := 1, unrealizedPnlNative := 0, unrealizedPnlUsd := 0 }]
  notIbkr := by decide
  own := by decide

/-- The IBKR session drops: the row of Futu is marked stale. -/
theorem disconnect_marks_a_foreign_row :
    ¬ ∀ (events : List FeedEvent) (e : FeedEvent) (k : PositionKey), k.1 ≠ e.adapter →
      ((IbkrFeed.run events).step e).live.positions.get? k =
        (IbkrFeed.run events).live.positions.get? k := by
  intro hall
  have hsame := hall [.foreign futuShare] .disconnected ("Futu", "F1", "AAPL.US") (by decide)
  exact absurd hsame (by decide +kernel)

end PortfolioHub
