import PortfolioHub.IbkrRowRule
import PortfolioHub.Transition

namespace PortfolioHub

/-- A row shown at the previous close is priced at the close it holds. -/
def Position.AtPreviousClose (p : Position) : Prop :=
  p.lastPriceIsPreviousClose = true → p.lastPrice = p.previousClose

theorem seedPrice_atPreviousClose {quote : Quote} {previousClose : Python.Float}
    {item : Option PortfolioItem} {m : PriceMagnifier} {quantity : Python.Float}
    (h : (seedPrice quote previousClose item m quantity).isPreviousClose = true) :
    (seedPrice quote previousClose item m quantity).price = previousClose := by
  revert h
  unfold seedPrice
  split
  next =>
    split
    next => nofun
    next =>
      split
      next => exact fun _ => rfl
      next => nofun
  next => nofun

theorem buildPosition_atPreviousClose (fx : FxView) (ibPos : IbPosition) (name : ResolvedName)
    (quote : Quote) (previousClose : Python.Float) (item : Option PortfolioItem) :
    (buildPosition fx ibPos name quote previousClose item).AtPreviousClose :=
  seedPrice_atPreviousClose

theorem portfolioRow_atPreviousClose {fx : FxView} {old new : Position} {item : PortfolioItem}
    (h : portfolioRow fx old item = some new) : new.AtPreviousClose := by
  unfold portfolioRow at h
  dsimp only at h
  split at h
  next => cases h
  next =>
    obtain rfl := Option.some.inj h
    nofun

/-- Only a changed close moves the row away from it. -/
theorem reseedRow_atPreviousClose_iff {old : Position} {newPrev : Python.Float}
    (h : old.AtPreviousClose) :
    (reseedRow old newPrev).AtPreviousClose ↔
      (old.lastPriceIsPreviousClose = true → newPrev = old.previousClose) := by
  constructor
  · exact fun hnew hflag => (hnew hflag).symm.trans (h hflag)
  · exact fun hsame hflag => (h hflag).trans (hsame hflag).symm

namespace IbkrFeed

/-- A step of the rows, which nothing refuses. -/
def next (s : IbkrFeed) (e : FeedEvent) : Option IbkrFeed := some (s.step e)

/-- A reseed brings no other close for a contract whose row is shown at the previous close. -/
def KeepsShownCloses (s : IbkrFeed) : FeedEvent → Prop
  | .reseed closes => ∀ entry ∈ s.streaming.entries, entry.2.lastPriceIsPreviousClose = true →
      ∀ newPrev ∈ closes entry.1, newPrev ≤ 0 ∨ newPrev.equal entry.2.previousClose
  | _ => True

instance (s : IbkrFeed) : (e : FeedEvent) → Decidable (s.KeepsShownCloses e)
  | .reseed _ => inferInstanceAs (Decidable (∀ entry ∈ s.streaming.entries, _))
  | .startStreaming _ _ _ => inferInstanceAs (Decidable True)
  | .tick _ _ => inferInstanceAs (Decidable True)
  | .portfolioUpdate _ _ => inferInstanceAs (Decidable True)
  | .disconnected => inferInstanceAs (Decidable True)
  | .clearStreaming => inferInstanceAs (Decidable True)
  | .foreign _ => inferInstanceAs (Decidable True)

theorem All.reseed_atPreviousClose {s : IbkrFeed} (hs : s.All Position.AtPreviousClose)
    {closes : ℤ → Option Python.Float} (hguard : s.KeepsShownCloses (.reseed closes)) :
    (s.reseedPreviousCloses closes).All Position.AtPreviousClose := by
  refine hs.foldl fun t ht entry hentry => ?_
  have hold : entry.2.AtPreviousClose :=
    hs.streaming entry.1 entry.2 (OrderedDict.get?_eq_some_iff.mpr hentry)
  unfold reseedEntry
  split
  next => exact ht
  next newPrev hclose =>
    split
    next => exact ht
    next hchanged =>
      have hnew : (reseedRow entry.2 newPrev).AtPreviousClose :=
        (reseedRow_atPreviousClose_iff hold).mpr fun hflag =>
          absurd (hguard entry hentry hflag newPrev hclose) hchanged
      exact (ht.setPosition hnew).insert hnew

theorem All.step_atPreviousClose {s : IbkrFeed} (hs : s.All Position.AtPreviousClose)
    {e : FeedEvent} (hguard : s.KeepsShownCloses e) :
    (s.step e).All Position.AtPreviousClose := by
  by_cases hreseed : ∃ closes, e = .reseed closes
  · obtain ⟨closes, rfl⟩ := hreseed
    exact hs.reseed_atPreviousClose hguard
  · refine hs.carried ⟨fun _ _ hp => hp, ?_, ?_, ?_, ?_, ?_⟩
    · rintro fx replies subscribe rows rfl hrows p hp
      rcases mem_getPositions hrows hp with
        ⟨_, ibPos, name, quote, -, -, -, -, rfl⟩ | ⟨_, rfl⟩ | ⟨_, rfl⟩
      · exact buildPosition_atPreviousClose fx ibPos name quote _ _
      · nofun
      · nofun
    · rintro fx ticker old rfl - - - hflag
      cases hflag
    · rintro fx item new rfl hnew
      obtain ⟨old, -, -, -, hrow⟩ := portfolioUpdate_eq_some hnew
      exact portfolioRow_atPreviousClose hrow
    · rintro closes conId newPrev old rfl
      exact absurd ⟨closes, rfl⟩ hreseed
    · exact fun old _ _ hold => hold

end IbkrFeed

/-- In a history whose reseeds keep the closes that are shown, every IBKR row shown at the previous
close is priced at the close it holds. -/
theorem shown_closes_are_current {s : IbkrFeed}
    (hrun : Reaches IbkrFeed.next IbkrFeed.KeepsShownCloses .empty s) :
    ∀ p ∈ s.live.getAll, p.broker = "IBKR" → p.lastPriceIsPreviousClose = true →
      p.lastPrice = p.previousClose := by
  have hall : s.All Position.AtPreviousClose := by
    refine hrun.invariant IbkrFeed.empty_all fun t e t' ht hguard hstep => ?_
    obtain rfl := Option.some.inj hstep
    exact ht.step_atPreviousClose hguard
  exact fun p hp hbroker => hall.live p hp hbroker

/-- A session without a quote, in which Apple has closed at 110. -/
def closedReplies : IbReplies :=
  { sampleReplies [sampleIbPosition "U1"] [] with
    tickers := .ok fun conId => ⟨conId, none, none, none, 1⟩
    previousCloses := fun _ => some 110 }

def closedSeed : FeedEvent := .startStreaming sampleView closedReplies fun _ => .ticker

/-- Apple is shown at its close, and the reseed finds the close unchanged. -/
theorem unchanged_close_is_shown :
    ∃ s, Reaches IbkrFeed.next IbkrFeed.KeepsShownCloses .empty s ∧
      ∃ p ∈ s.live.getAll, p.lastPriceIsPreviousClose = true ∧ p.lastPrice = p.previousClose := by
  obtain ⟨s, hrun, hs⟩ := Reaches.exists_of_execute IbkrFeed.next IbkrFeed.KeepsShownCloses .empty
    [closedSeed, .reseed fun _ => some 110]
    (fun s => ∃ p ∈ s.live.getAll, p.broker = "IBKR" ∧ p.lastPriceIsPreviousClose = true)
    (by decide +kernel)
  obtain ⟨p, hp, hbroker, hflag⟩ := of_decide_eq_true hs
  exact ⟨s, hrun, p, hp, hflag, shown_closes_are_current hrun p hp hbroker hflag⟩

/-- The next day brings the close 112, and the row goes on at 110 as the previous close. -/
theorem reseed_leaves_the_price_at_the_old_close :
    ¬ ∀ (events : List FeedEvent), ∀ p ∈ (IbkrFeed.run events).live.getAll,
      p.broker = "IBKR" → p.lastPriceIsPreviousClose = true → p.lastPrice = p.previousClose := by
  intro hall
  have hrow : ∃ p ∈ (IbkrFeed.run [closedSeed, .reseed fun _ => some 112]).live.getAll,
      p.broker = "IBKR" ∧ p.lastPriceIsPreviousClose = true ∧ p.lastPrice ≠ p.previousClose := by
    decide +kernel
  obtain ⟨p, hp, hbroker, hflag, hne⟩ := hrow
  exact hne (hall _ p hp hbroker hflag)

end PortfolioHub
