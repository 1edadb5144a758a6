import PortfolioHub.IbkrSeed
import PortfolioHub.IbkrTickHandlers
import PortfolioHub.LiveRows

namespace PortfolioHub

/-- A stock row of IBKR is shown as stale. -/
def ShownStale (p : Position) : Prop :=
  p.broker = "IBKR" → p.assetClass = .stk → p.lastPriceIsStale = true

theorem shownStale_of_cash {p : Position} (h : p.assetClass = .cash) : ShownStale p := by
  intro _ hstk
  exact absurd (h.symm.trans hstk) (by simp)

namespace IbkrAdapter

/-- Every stock row of IBKR is stale, and no attached handler has one to write. -/
structure Disarmed (s : IbkrAdapter) : Prop where
  stale : s.feed.live.Every ShownStale
  silent : ∀ ref ∈ s.attached, ∀ p ∈ s.feed.streaming.get? ref.conId, p.assetClass = .cash

/-- The step writes no stock row that has been kept or fetched as fresh: no seed goes on
with one, no portfolio update gets through, and the refresh brings no stock a new close. -/
def KeepsStale (s : IbkrAdapter) : AdapterEvent → Prop
  | .connection e _ =>
    (∀ p ∈ s.conn.seedRest e, p.assetClass = .cash) ∧
      ∀ entry ∈ s.conn.subscribes e, entry.2.assetClass = .cash
  | .portfolioUpdate ib fx item =>
    ∀ i ∈ s.conn.instances.get? ib, i.registered = true → s.feed.portfolioUpdate fx item = none
  | .closesReply (.ok closes) => ∀ entry ∈ s.feed.streaming.entries,
    entry.2.assetClass = .stk → ∀ newPrev ∈ closes entry.1,
      newPrev ≤ 0 ∨ newPrev.equal entry.2.previousClose = true
  | _ => True

instance (s : IbkrAdapter) : (e : AdapterEvent) → Decidable (s.KeepsStale e)
  | .connection _ _ => inferInstanceAs (Decidable (_ ∧ _))
  | .tick _ _ _ => inferInstanceAs (Decidable True)
  | .portfolioUpdate ib fx item => inferInstanceAs (Decidable (∀ i ∈ s.conn.instances.get? ib,
      i.registered = true → s.feed.portfolioUpdate fx item = none))
  | .refreshDue => inferInstanceAs (Decidable True)
  | .closesReply (.ok closes) => inferInstanceAs (Decidable (∀ entry ∈ s.feed.streaming.entries,
      entry.2.assetClass = .stk → ∀ newPrev ∈ closes entry.1,
        newPrev ≤ 0 ∨ newPrev.equal entry.2.previousClose = true))
  | .closesReply (.error _) => inferInstanceAs (Decidable True)
  | .foreign _ => inferInstanceAs (Decidable True)

variable {delays : List ℚ} {s s' : IbkrAdapter}

/-- The rows an attached handler may read are those of the old entries, up to new cash. -/
theorem Disarmed.setFeed (hs : s.Disarmed) {feed : IbkrFeed} (hlive : feed.live.Every ShownStale)
    (hstreaming : ∀ conId p, feed.streaming.get? conId = some p → p.assetClass = .cash ∨
      ∃ old, s.feed.streaming.get? conId = some old ∧ p.assetClass = old.assetClass) :
    (s.setFeed feed).Disarmed := by
  refine ⟨hlive, fun ref href p hp => ?_⟩
  rcases hstreaming ref.conId p hp with hcash | ⟨old, hold, hclass⟩
  · exact hcash
  · exact hclass.trans (hs.silent ref href old hold)

/-- A call of an attached handler leaves the stock rows alone. -/
theorem Disarmed.onTickerUpdate (hs : s.Disarmed) (fx : FxView) {ticker : Ticker}
    (hattached : ∃ ref ∈ s.attached, ref.conId = ticker.conId) :
    (s.setFeed (s.feed.onTickerUpdate fx ticker)).Disarmed := by
  obtain ⟨ref, href, hconId⟩ := hattached
  unfold IbkrFeed.onTickerUpdate
  split
  next => exact hs
  next old hold =>
    dsimp only
    split
    next => exact hs
    next =>
      split
      next => exact hs
      next =>
        have hcash : old.assetClass = .cash := hs.silent ref href old (by rw [hconId]; exact hold)
        refine hs.setFeed (hs.stale.setPosition (shownStale_of_cash hcash)) fun conId p hp => ?_
        rw [OrderedDict.get?_insert] at hp
        split at hp
        next =>
          obtain rfl := Option.some.inj hp
          exact Or.inl hcash
        next => exact Or.inr ⟨p, hp, rfl⟩

theorem Disarmed.emitTick (hs : s.Disarmed) (fx : FxView) (serial : ℕ) (ticker : Ticker) :
    (s.setFeed (s.emitTick fx serial ticker)).Disarmed := by
  have hcalls : ∀ (calls : List TickerRef) (feed : IbkrFeed),
      (∀ ref ∈ calls, ref ∈ s.attached ∧ ref.conId = ticker.conId) → (s.setFeed feed).Disarmed →
        (s.setFeed (calls.foldl (fun feed _ => feed.onTickerUpdate fx ticker) feed)).Disarmed := by
    intro calls
    induction calls with
    | nil => exact fun feed _ h => h
    | cons ref calls ih =>
      intro feed hcalls h
      obtain ⟨href, hconId⟩ := hcalls ref (by simp)
      refine ih _ (fun other hother => hcalls other (List.mem_cons_of_mem _ hother)) ?_
      exact h.onTickerUpdate fx ⟨ref, href, hconId⟩
  refine hcalls _ s.feed (fun ref href => ?_) hs
  obtain ⟨hmem, heq⟩ := List.mem_filter.mp href
  exact ⟨hmem, by rw [of_decide_eq_true heq]⟩

/-- The refresh writes back the entries it has a new close for, and none of them is a stock. -/
theorem Disarmed.reseed (hs : s.Disarmed) {closes : ℤ → Option Python.Float}
    (hkeeps : s.KeepsStale (.closesReply (.ok closes))) :
    (s.setFeed (s.feed.reseedPreviousCloses closes)).Disarmed := by
  have hfold : ∀ (entries : List (ℤ × Position)) (feed : IbkrFeed),
      (∀ entry ∈ entries, entry ∈ s.feed.streaming.entries) → (s.setFeed feed).Disarmed →
        (s.setFeed (entries.foldl (IbkrFeed.reseedEntry closes) feed)).Disarmed := by
    intro entries
    induction entries with
    | nil => exact fun feed _ h => h
    | cons entry entries ih =>
      intro feed hentries h
      refine ih _ (fun e he => hentries e (List.mem_cons_of_mem _ he)) ?_
      unfold IbkrFeed.reseedEntry
      split
      next => exact h
      next newPrev hclose =>
        split
        next => exact h
        next hcond =>
          have hcash : entry.2.assetClass = .cash := by
            cases hclass : entry.2.assetClass with
            | cash => rfl
            | stk => exact absurd (hkeeps entry (hentries entry (by simp)) hclass newPrev hclose) hcond
          refine h.setFeed (h.stale.setPosition (shownStale_of_cash hcash)) fun conId p hp => ?_
          rw [OrderedDict.get?_insert] at hp
          split at hp
          next =>
            obtain rfl := Option.some.inj hp
            exact Or.inl hcash
          next => exact Or.inr ⟨p, hp, rfl⟩
  exact hfold _ s.feed (fun _ h => h) hs

/-- A step of the connection that goes on with no stock keeps the rows stale. -/
theorem Disarmed.follow (hs : s.Disarmed) {e : ConnectionEvent} {serial : ℕ} {conn : IbkrConnection}
    (hkeeps : s.KeepsStale (.connection e serial)) (hfeed : s.conn.FeedStep conn e) :
    (s.follow e serial conn).Disarmed := by
  have hsub := kept_sublist s conn
  have hplain : conn.feed.live.Every ShownStale →
      (∀ conId p, conn.feed.streaming.get? conId = some p →
        s.feed.streaming.get? conId = some p) →
      s.conn.subscribes e = none → (s.follow e serial conn).Disarmed := by
    intro hlive hstreaming hnone
    unfold IbkrAdapter.follow
    rw [hnone]
    exact ⟨hlive, fun ref href p hp => hs.silent ref (hsub.subset href) p (hstreaming _ p hp)⟩
  cases hfeed with
  | marked hmarked hnone =>
    refine hplain ?_ (fun conId p hp => ?_) hnone
    · rw [hmarked]
      intro p hp _ hstk
      exact IbkrFeed.markLivePositionsStale_stale _ p hp (by simp [hstk])
    · rw [hmarked] at hp
      exact hp
  | cleared _ _ hcleared hnone =>
    refine hplain ?_ (fun conId p hp => ?_) hnone
    · rw [hcleared]
      exact hs.stale
    · rw [hcleared] at hp
      simp at hp
  | seeded written _ hwritten hlive hstreaming =>
    have hstale : conn.feed.live.Every ShownStale := by
      rw [hlive]
      exact hs.stale.setPositions fun p hp => shownStale_of_cash (hkeeps.1 p (hwritten p hp))
    cases hsubscribes : s.conn.subscribes e with
    | none =>
      rw [hsubscribes] at hstreaming
      exact hplain hstale (fun conId p hp => by rwa [hstreaming] at hp) hsubscribes
    | some entry =>
      obtain ⟨conId, p⟩ := entry
      rw [hsubscribes] at hstreaming
      have hcash : p.assetClass = .cash := hkeeps.2 _ hsubscribes
      unfold IbkrAdapter.follow
      rw [hsubscribes]
      refine ⟨hstale, fun ref href q hq => ?_⟩
      have hq' : conn.feed.streaming.get? ref.conId = some q := hq
      rw [hstreaming, OrderedDict.get?_insert] at hq'
      split at hq'
      next =>
        obtain rfl := Option.some.inj hq'
        exact hcash
      next hne =>
        rcases List.mem_append.mp href with hold | hself
        · exact hs.silent ref (hsub.subset hold) q hq'
        · obtain rfl := List.mem_singleton.mp hself
          exact absurd rfl hne

/-- The step lemma: whatever else happens, the rows stay stale. -/
theorem Disarmed.step (hs : s.Disarmed) {e : AdapterEvent} (hkeeps : s.KeepsStale e)
    (h : s.step delays e = some s') : s'.Disarmed := by
  cases e with
  | connection e serial =>
    obtain ⟨conn, hconn, rfl⟩ := Option.map_eq_some_iff.mp h
    exact hs.follow hkeeps (IbkrConnection.step_feed hconn)
  | tick fx serial ticker =>
    obtain rfl := Option.some.inj h
    exact hs.emitTick fx serial ticker
  | portfolioUpdate ib fx item =>
    simp only [IbkrAdapter.step] at h
    split at h
    next i hi =>
      obtain rfl := Option.some.inj h
      split
      next hregistered =>
        have hnone := hkeeps i hi hregistered
        have hsame : s.feed.onPortfolioUpdate fx item = s.feed := by
          rw [IbkrFeed.onPortfolioUpdate, hnone]
        rw [hsame]
        exact hs
      next => exact hs
    next => simp at h
  | refreshDue =>
    simp only [IbkrAdapter.step] at h
    split at h
    next =>
      obtain rfl := Option.some.inj h
      split
      next => exact hs
      next => exact ⟨hs.stale, hs.silent⟩
    next => simp at h
  | closesReply reply =>
    simp only [IbkrAdapter.step] at h
    split at h
    next =>
      cases reply with
      | error err =>
        obtain rfl := Option.some.inj h
        exact ⟨hs.stale, hs.silent⟩
      | ok closes =>
        obtain rfl := Option.some.inj h
        have hfeed := hs.reseed hkeeps
        exact ⟨hfeed.stale, hfeed.silent⟩
    next => simp at h
  | foreign refresh =>
    obtain rfl := Option.some.inj h
    refine hs.setFeed (hs.stale.replaceBroker _ fun p hp hbroker => ?_) fun conId p hp =>
      Or.inr ⟨p, hp, rfl⟩
    exact absurd ((refresh.own p hp).symm.trans hbroker) refresh.notIbkr

/-- The handler of the disconnect detaches every tidy handler and marks every stock row. -/
theorem Tidy.disarmed (hs : s.Tidy) {e : ConnectionEvent} {serial : ℕ}
    (h : s.step delays (.connection e serial) = some s')
    (hdrop : s.conn.HandlesDisconnect s'.conn) : s'.Disarmed := by
  obtain ⟨conn, hconn, rfl⟩ := Option.map_eq_some_iff.mp h
  rw [follow_conn] at hdrop
  cases IbkrConnection.step_feed hconn with
  | marked hmarked hnone =>
    unfold IbkrAdapter.follow
    rw [hnone, if_pos hdrop]
    refine ⟨?_, fun ref href => ?_⟩
    · intro p hp _ hstk
      have hp' : p ∈ conn.feed.live.getAll := hp
      rw [hmarked] at hp'
      exact IbkrFeed.markLivePositionsStale_stale _ p hp' (by simp [hstk])
    · obtain ⟨hmem, hnot⟩ := (hs.nodup.mem_sdiff_iff).mp href
      exact absurd (OrderedDict.mem_values_iff.mpr ⟨_, hs.held ref hmem⟩) hnot
  | cleared hnot => exact absurd hdrop hnot
  | seeded written hnot => exact absurd hdrop hnot

/-- Staleness in a run whose handlers can be disarmed: behind a handled disconnect every
stock row of IBKR stays stale, as long as no step keeps or fetches a fresh one. -/
theorem stale_until_reconnected {live : LivePositions} {before dropped : IbkrAdapter}
    {e : ConnectionEvent} {serial : ℕ}
    (hbefore : Reaches (step delays) SubscribesOnce (init live) before)
    (hstep : before.step delays (.connection e serial) = some dropped)
    (hdrop : before.conn.HandlesDisconnect dropped.conn)
    (hwindow : Reaches (step delays) KeepsStale dropped s) :
    ∀ p ∈ s.feed.live.getAll, p.broker = "IBKR" → p.assetClass = .stk →
      p.lastPriceIsStale = true := by
  have htidy : before.Tidy := hbefore.invariant (I := Tidy) (init_tidy live)
    fun _ _ _ hs honce h => hs.step honce h
  have hdisarmed : s.Disarmed := hwindow.invariant (I := Disarmed) (htidy.disarmed hstep hdrop)
    fun _ _ _ hs hkeeps h => hs.step hkeeps h
  exact hdisarmed.stale

/-- The adapter connects, and its portfolio is one Apple share. -/
def sampleConnect (subscription : Subscription) : List AdapterEvent :=
  [.connection .start 0, .connection (.connectReply 0 true) 0,
    .connection (.positionsReply 0
      ((sampleReplies [sampleIbPosition "U1"] []).getPositions sampleView)) 0,
    .connection (.contractReply 0 subscription) 0]

/-- A tick that was queued when the session dropped finds its handler detached. -/
theorem queued_tick_is_dropped :
    ∃ before dropped s : IbkrAdapter,
      before.step [1] (.connection (.disconnectedEvent 1) 0) = some dropped ∧
      dropped.step [1] (.tick sampleView 0 ⟨265598, some 130, none, none, 1⟩) = some s ∧
      s.feed.live.getAll.map (·.lastPrice) = [110] ∧
      ∀ p ∈ s.feed.live.getAll, p.broker = "IBKR" → p.assetClass = .stk →
        p.lastPriceIsStale = true := by
  obtain ⟨before, hbefore, hp⟩ := Reaches.exists_of_execute (step [1]) SubscribesOnce (init .empty)
    (sampleConnect .ticker)
    (fun before => (before.step [1] (.connection (.disconnectedEvent 1) 0)).any fun dropped =>
      before.conn.HandlesDisconnect dropped.conn ∧
        (dropped.step [1] (.tick sampleView 0 ⟨265598, some 130, none, none, 1⟩)).any fun s =>
          s.feed.live.getAll.map (·.lastPrice) = [110]) (by decide +kernel)
  obtain ⟨dropped, hstep, hp⟩ := (Option.any_eq_true ..).mp hp
  obtain ⟨hdrop, hp⟩ := of_decide_eq_true hp
  obtain ⟨s, htick, hp⟩ := (Option.any_eq_true ..).mp hp
  refine ⟨before, dropped, s, hstep, htick, of_decide_eq_true hp, ?_⟩
  have hkeeps : dropped.KeepsStale (.tick sampleView 0 ⟨265598, some 130, none, none, 1⟩) := trivial
  have hwindow : Reaches (step [1]) KeepsStale dropped s :=
    Relation.ReflTransGen.single ⟨_, hkeeps, htick⟩
  exact stale_until_reconnected hbefore hstep hdrop hwindow

/-- The step seeds nothing. -/
def SeedsNothing (s : IbkrAdapter) : AdapterEvent → Prop
  | .connection e _ => s.conn.seedRest e = [] ∧ s.conn.subscribes e = none
  | _ => True

/-- IBKR could not tell the contract of the share, so it is not streamed; an update of
the portfolio that was queued when the session dropped shows it as fresh. -/
theorem queued_portfolio_update_hides_the_drop :
    ¬ ∀ (delays : List ℚ) (live : LivePositions) (before dropped s : IbkrAdapter)
      (e : ConnectionEvent) (serial : ℕ),
      Reaches (step delays) (fun _ _ => True) (init live) before →
        before.step delays (.connection e serial) = some dropped →
          before.conn.HandlesDisconnect dropped.conn →
            Reaches (step delays) SeedsNothing dropped s →
              ∀ p ∈ s.feed.live.getAll, p.broker = "IBKR" → p.assetClass = .stk →
                p.lastPriceIsStale = true := by
  intro hall
  obtain ⟨before, hbefore, hp⟩ := Reaches.exists_of_execute (step [1]) (fun _ _ => True)
    (init .empty) (sampleConnect .noContract)
    (fun before => (before.step [1] (.connection (.disconnectedEvent 1) 0)).any fun dropped =>
      before.conn.HandlesDisconnect dropped.conn ∧
        (dropped.step [1] (.portfolioUpdate 1 sampleView ⟨"U1", 265598, 120, 120, 100, 20⟩)).any
          fun s => ∃ p ∈ s.feed.live.getAll, p.broker = "IBKR" ∧ p.assetClass = .stk ∧
            p.lastPriceIsStale = false) (by decide +kernel)
  obtain ⟨dropped, hstep, hp⟩ := (Option.any_eq_true ..).mp hp
  obtain ⟨hdrop, hp⟩ := of_decide_eq_true hp
  obtain ⟨s, hupdate, hp⟩ := (Option.any_eq_true ..).mp hp
  obtain ⟨p, hp, hbroker, hstk, hfresh⟩ := of_decide_eq_true hp
  have hseeds : dropped.SeedsNothing
      (.portfolioUpdate 1 sampleView ⟨"U1", 265598, 120, 120, 100, 20⟩) := trivial
  have hwindow : Reaches (step [1]) SeedsNothing dropped s :=
    Relation.ReflTransGen.single ⟨_, hseeds, hupdate⟩
  have hstale := hall [1] .empty before dropped s _ 0 hbefore hstep hdrop hwindow p hp hbroker hstk
  simp [hfresh] at hstale

end IbkrAdapter

end PortfolioHub
