import PortfolioHub.IbkrRowRule

namespace PortfolioHub

/-- The history has made the row what it is with valuations of the row's own account only. A seed
builds it of the positions line of its account and, where it takes a portfolio item, of one of the
same account; every later event that changed it is in the history. -/
inductive OwnValued : List FeedEvent → Position → Prop
  | seed {before : List FeedEvent} {fx : FxView} {replies : IbReplies} {subscribe : ℤ → Subscription}
      {p : Position} (source : replies.Source fx p)
      (own : ∀ conId, p.assetClass = .stk → p.Holds conId →
        ∀ item ∈ (portfolioItemsByConid replies.portfolio).get? conId, item.account = p.accountId) :
      OwnValued (before ++ [.startStreaming fx replies subscribe]) p
  | tick {before : List FeedEvent} {fx : FxView} {ticker : Ticker} {old : Position}
      (h : OwnValued before old) :
      OwnValued (before ++ [.tick fx ticker]) (tickRow fx old (coerceLast ticker) (tickerIsDelayed ticker))
  | portfolio {before : List FeedEvent} {fx : FxView} {item : PortfolioItem} {old new : Position}
      (h : OwnValued before old) (own : item.account = old.accountId)
      (contract : old.Holds item.conId) (row : portfolioRow fx old item = some new) :
      OwnValued (before ++ [.portfolioUpdate fx item]) new
  | reseed {before : List FeedEvent} {closes : ℤ → Option Python.Float} {conId : ℤ}
      {newPrev : Python.Float} {old : Position} (h : OwnValued before old)
      (close : closes conId = some newPrev) :
      OwnValued (before ++ [.reseed closes]) (reseedRow old newPrev)
  | stale {before : List FeedEvent} {old : Position} (h : OwnValued before old) :
      OwnValued (before ++ [.disconnected]) (staleRow old)
  | kept {before : List FeedEvent} {p : Position} (e : FeedEvent) (h : OwnValued before p) :
      OwnValued (before ++ [e]) p

/-- The last item of every stock of the positions reply is one of the account that holds it. -/
def IbReplies.ItemsInOrder (r : IbReplies) : Prop :=
  ∀ ibPositions ∈ r.positions.toOption, ∀ ibPos ∈ ibPositions, ibPos.contract.secType = "STK" →
    ∀ item ∈ (portfolioItemsByConid r.portfolio).get? ibPos.contract.conId,
      item.account = ibPos.account

instance (r : IbReplies) : Decidable r.ItemsInOrder :=
  inferInstanceAs (Decidable (∀ ibPositions ∈ r.positions.toOption, _))

/-- The event meets a portfolio in order: a seed finds the items in order, and an update
that is not dropped finds as the first row of its contract the row of its own account. -/
def MeetsOwnAccount (s : IbkrFeed) : FeedEvent → Prop
  | .startStreaming _ replies _ => replies.ItemsInOrder
  | .portfolioUpdate fx item =>
    ∀ old ∈ s.portfolioTarget item, (s.portfolioUpdate fx item).isSome → old.accountId = item.account
  | _ => True

instance (s : IbkrFeed) : (e : FeedEvent) → Decidable (MeetsOwnAccount s e)
  | .startStreaming _ replies _ => inferInstanceAs (Decidable replies.ItemsInOrder)
  | .portfolioUpdate fx item => inferInstanceAs (Decidable (∀ old ∈ s.portfolioTarget item,
      (s.portfolioUpdate fx item).isSome → old.accountId = item.account))
  | .tick _ _ => inferInstanceAs (Decidable True)
  | .reseed _ => inferInstanceAs (Decidable True)
  | .disconnected => inferInstanceAs (Decidable True)
  | .clearStreaming => inferInstanceAs (Decidable True)
  | .foreign _ => inferInstanceAs (Decidable True)

/-- Every event of the history meets the portfolio in order. -/
def OrderlyFrom (s : IbkrFeed) : List FeedEvent → Prop
  | [] => True
  | e :: events => MeetsOwnAccount s e ∧ OrderlyFrom (s.step e) events

def orderlyFromDecidable : (s : IbkrFeed) → (events : List FeedEvent) →
    Decidable (OrderlyFrom s events)
  | _, [] => inferInstanceAs (Decidable True)
  | s, e :: events =>
    have := orderlyFromDecidable (s.step e) events
    inferInstanceAs (Decidable (MeetsOwnAccount s e ∧ OrderlyFrom (s.step e) events))

instance (s : IbkrFeed) (events : List FeedEvent) : Decidable (OrderlyFrom s events) :=
  orderlyFromDecidable s events

theorem orderlyFrom_append {s : IbkrFeed} {before after : List FeedEvent} :
    OrderlyFrom s (before ++ after) ↔
      OrderlyFrom s before ∧ OrderlyFrom (before.foldl IbkrFeed.step s) after := by
  induction before generalizing s with
  | nil => simp [OrderlyFrom]
  | cons e before ih => simp [OrderlyFrom, ih, and_assoc]

/-- The items that a seed in order takes for a row are of the row's account. -/
theorem getPositions_own {fx : FxView} {replies : IbReplies} {p : Position}
    (horder : replies.ItemsInOrder) (h : replies.Source fx p) (conId : ℤ)
    (hstk : p.assetClass = .stk) (hholds : p.Holds conId) :
    ∀ item ∈ (portfolioItemsByConid replies.portfolio).get? conId, item.account = p.accountId := by
  cases h with
  | stock hpos hmem hsec hname hquotes =>
    next ibPositions ibPos name quotes =>
      have hconId : conId = ibPos.contract.conId := by
        have hkey := congrArg Python.parseInt hholds.2
        rw [Python.parseInt_toString, buildPosition, Python.parseInt_toString] at hkey
        exact (Option.some.inj hkey).symm
      have hreply : ibPositions ∈ replies.positions.toOption := by simp [hpos, Except.toOption]
      rw [hconId]
      exact horder ibPositions hreply ibPos hmem hsec
  | cash _ _ _ => exact AssetClass.noConfusion hstk
  | accountCash _ => exact AssetClass.noConfusion hstk

/-- The invariant: in an orderly history every row is valued on its own account's items. -/
theorem orderly_ownValued {events : List FeedEvent} (h : OrderlyFrom .empty events) :
    (IbkrFeed.run events).All (OwnValued events) := by
  induction events using List.reverseRecOn with
  | nil => exact IbkrFeed.empty_all
  | append_singleton events e ih =>
    obtain ⟨hbefore, hnow, -⟩ := orderlyFrom_append.mp h
    have hold := ih hbefore
    rw [IbkrFeed.run_append]
    refine hold.carried ⟨fun p _ hp => .kept e hp, ?_, ?_, ?_, ?_, ?_⟩
    · rintro fx replies subscribe rows rfl hrows p hp
      have hsource := getPositions_source hrows hp
      exact .seed hsource (getPositions_own hnow hsource)
    · rintro fx ticker old rfl - - hp
      exact .tick hp
    · rintro fx item new rfl hnew
      obtain ⟨old, htarget, hmem, hholds, hrow⟩ := portfolioUpdate_eq_some hnew
      have hown : old.accountId = item.account := hnow old htarget (Option.isSome_iff_exists.mpr ⟨new, hnew⟩)
      exact .portfolio (hold.live old hmem hholds.1) hown.symm hholds hrow
    · rintro closes conId newPrev old rfl hclose - - hp
      exact .reseed hp hclose
    · rintro old rfl - hp
      exact .stale hp

/-- An update that meets its own account's row leaves every other row as it is. -/
theorem onPortfolioUpdate_frame {fx : FxView} {s : IbkrFeed} {item : PortfolioItem}
    (h : MeetsOwnAccount s (.portfolioUpdate fx item)) {k : PositionKey} {p : Position}
    (hp : s.live.positions.get? k = some p)
    (hother : ¬ (p.Holds item.conId ∧ p.accountId = item.account)) :
    (s.onPortfolioUpdate fx item).live.positions.get? k = some p := by
  unfold IbkrFeed.onPortfolioUpdate
  split
  next => exact hp
  next new hnew =>
    obtain ⟨old, htarget, hmem, hholds, hrow⟩ := portfolioUpdate_eq_some hnew
    have hown : old.accountId = item.account := h old htarget (Option.isSome_iff_exists.mpr ⟨new, hnew⟩)
    dsimp only
    rw [LivePositions.get?_setPosition, (portfolioRow_same hrow).1]
    split
    next hk =>
      have hold := LivePositions.mem_getAll_iff.mp hmem
      rw [← hk, hp] at hold
      obtain rfl := Option.some.inj hold
      exact absurd ⟨hholds, hown⟩ hother
    next => exact hp

/-- Account isolation in an orderly history: every IBKR row is valued on what was
reported for its own account, and no update touches another row. -/
theorem valuations_stay_in_account {events : List FeedEvent} (h : OrderlyFrom .empty events) :
    (∀ p ∈ (IbkrFeed.run events).live.getAll, p.broker = "IBKR" →
      OwnValued events p) ∧
    ∀ before fx item after, events = before ++ .portfolioUpdate fx item :: after →
      ∀ k p, (IbkrFeed.run before).live.positions.get? k = some p →
        ¬ (p.Holds item.conId ∧ p.accountId = item.account) →
          ((IbkrFeed.run before).step (.portfolioUpdate fx item)).live.positions.get? k = some p := by
  refine ⟨(orderly_ownValued h).live, ?_⟩
  rintro before fx item after rfl k p hp hother
  exact onPortfolioUpdate_frame (orderlyFrom_append.mp h).2.1 hp hother

/-- IB values the account's share at 120. -/
def sampleItem (account : String) : PortfolioItem := ⟨account, 265598, 120, 120, 100, 20⟩

/-- Account U1 holds the share and IB values it at the connect and after it. -/
def sampleUpdates : List FeedEvent :=
  [.startStreaming sampleView (sampleReplies [sampleIbPosition "U1"] [sampleItem "U1"])
    fun _ => .noContract, .portfolioUpdate sampleView (sampleItem "U1")]

theorem single_account_is_isolated :
    (IbkrFeed.run sampleUpdates).live.getAll.map (·.lastPrice) = [120] ∧
      ∀ p ∈ (IbkrFeed.run sampleUpdates).live.getAll, p.broker = "IBKR" →
        OwnValued sampleUpdates p :=
  ⟨by decide +kernel, (@valuations_stay_in_account sampleUpdates (by decide +kernel)).1⟩

/-- Both accounts hold the share: an update for U2 revalues the row of U1, which comes first. -/
theorem update_revalues_the_other_account :
    ¬ ∀ events : List FeedEvent,
      (∀ p ∈ (IbkrFeed.run events).live.getAll, p.broker = "IBKR" →
        OwnValued events p) ∧
      ∀ before fx item after, events = before ++ .portfolioUpdate fx item :: after →
        ∀ k p, (IbkrFeed.run before).live.positions.get? k = some p →
          ¬ (p.Holds item.conId ∧ p.accountId = item.account) →
            ((IbkrFeed.run before).step (.portfolioUpdate fx item)).live.positions.get? k =
              some p := by
  intro hall
  let seed : FeedEvent := .startStreaming sampleView
    (sampleReplies [sampleIbPosition "U1", sampleIbPosition "U2"] []) fun _ => .noContract
  have hframe := (hall [seed, .portfolioUpdate sampleView (sampleItem "U2")]).2 [seed] sampleView
    (sampleItem "U2") [] rfl ("IBKR", "U1", "AAPL.US")
  have htouched : ∃ p ∈ (IbkrFeed.run [seed]).live.positions.get? ("IBKR", "U1", "AAPL.US"),
      ¬ (p.Holds 265598 ∧ p.accountId = "U2") ∧
        ((IbkrFeed.run [seed]).step (.portfolioUpdate sampleView (sampleItem "U2"))
          ).live.positions.get? ("IBKR", "U1", "AAPL.US") ≠ some p := by decide +kernel
  obtain ⟨p, hp, hother, hchanged⟩ := htouched
  exact hchanged (hframe p hp hother)

end PortfolioHub
