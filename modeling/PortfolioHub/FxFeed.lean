import PortfolioHub.FxWrites
import PortfolioHub.IbkrRowRule

namespace PortfolioHub

/-- What the adapters do to the rows, at the rates the service has by then. -/
inductive RowAction where
  | startStreaming (replies : IbReplies) (subscribe : ℤ → Subscription)
  | tick (ticker : Ticker)
  | portfolioUpdate (item : PortfolioItem)
  | reseed (closes : ℤ → Option Python.Float)
  | disconnected
  | clearStreaming
  | foreign (refresh : ForeignRefresh)

/-- What can happen to the rows and to the rates. -/
inductive FxFeedEvent where
  | rows (now : Instant) (action : RowAction)
  | fxTick (now : Instant) (currency : String) (invert : Bool) (ticker : ForexTicker)
  | apiRefresh (now : Instant) (rates : String → Option Python.Float)

/-- The rows, the rates, and whether the adapter is CONNECTED. -/
structure FxFeed where
  feed : IbkrFeed
  fx : FxService
  connected : Bool

def RowAction.event (fx : FxView) : RowAction → FeedEvent
  | .startStreaming replies subscribe => .startStreaming fx replies subscribe
  | .tick ticker => .tick fx ticker
  | .portfolioUpdate item => .portfolioUpdate fx item
  | .reseed closes => .reseed closes
  | .disconnected => .disconnected
  | .clearStreaming => .clearStreaming
  | .foreign refresh => .foreign refresh

namespace FxFeed

def init (fx : FxService) : FxFeed := ⟨.empty, fx, false⟩

/-- A successful seed is the last step to CONNECTED. -/
def connectedAfter (s : FxFeed) (now : Instant) : RowAction → Bool
  | .startStreaming replies subscribe =>
    (s.feed.startStreaming ⟨some s.fx, now⟩ replies subscribe).2
  | .disconnected => false
  | _ => s.connected

def step (s : FxFeed) : FxFeedEvent → FxFeed
  | .rows now action =>
    ⟨s.feed.step (action.event ⟨some s.fx, now⟩), s.fx, s.connectedAfter now action⟩
  | .fxTick now currency invert ticker =>
    { s with fx := s.fx.tickerHandler now currency invert ticker }
  | .apiRefresh now rates =>
    match s.fx.refreshFromApi now rates with
    | .ok fx => { s with fx := fx }
    | .error _ => s

/-- The state after a history, from the rates of the cache. -/
def run (fx : FxService) (events : List FxFeedEvent) : FxFeed := events.foldl step (init fx)

theorem run_append (fx : FxService) (events more : List FxFeedEvent) :
    run fx (events ++ more) = more.foldl step (run fx events) := by
  simp [run]

theorem step_grows (s : FxFeed) (e : FxFeedEvent) : s.fx.Grows (s.step e).fx := by
  cases e with
  | rows now action => exact FxService.Grows.refl _
  | fxTick now currency invert ticker => exact FxService.tickerHandler_grows ..
  | apiRefresh now rates =>
    unfold step
    dsimp only
    split
    next hfx => exact FxService.refreshFromApi_grows hfx
    next => exact FxService.Grows.refl _

theorem foldl_grows (s : FxFeed) (events : List FxFeedEvent) :
    s.fx.Grows (events.foldl step s).fx := by
  induction events generalizing s with
  | nil => exact FxService.Grows.refl _
  | cons e events ih => exact (s.step_grows e).trans (ih (s.step e))

end FxFeed

/-- What an action computes at the rates of `fx`: the rows of a seed, the row of a tick at a price,
the row of a portfolio update. Whether a tick at the price that is held computes the row anew is
left open. -/
inductive Computes (fx : FxView) (s : IbkrFeed) : RowAction → Position → Prop where
  | seed {replies : IbReplies} {subscribe : ℤ → Subscription} {rows : List Position} {p : Position} :
      replies.getPositions fx = .ok rows → p ∈ rows → Computes fx s (.startStreaming replies subscribe) p
  | tick {ticker : Ticker} {old : Position} : s.streaming.get? ticker.conId = some old →
      ¬ coerceLast ticker ≤ 0 →
      Computes fx s (.tick ticker) (tickRow fx old (coerceLast ticker) (tickerIsDelayed ticker))
  | portfolio {item : PortfolioItem} {new : Position} : s.portfolioUpdate fx item = some new →
      Computes fx s (.portfolioUpdate item) new

/-- What an action is sure to write to the store: the rows of a seed that succeeds, the row of a tick
at another price, the row of a portfolio update with other values. -/
inductive Writes (fx : FxView) (s : IbkrFeed) : RowAction → Position → Prop where
  | seed {replies : IbReplies} {subscribe : ℤ → Subscription} {rows : List Position} {p : Position} :
      replies.getPositions fx = .ok rows → (s.startStreaming fx replies subscribe).2 = true →
      (byKey rows).get? p.key = some p → Writes fx s (.startStreaming replies subscribe) p
  | tick {ticker : Ticker} {old : Position} : s.streaming.get? ticker.conId = some old →
      ¬ coerceLast ticker ≤ 0 → (coerceLast ticker).equal old.lastPrice = false →
      Writes fx s (.tick ticker) (tickRow fx old (coerceLast ticker) (tickerIsDelayed ticker))
  | portfolio {item : PortfolioItem} {new : Position} : s.portfolioUpdate fx item = some new →
      Writes fx s (.portfolioUpdate item) new

/-- The row is the one that `action` computed at the rates after `before`. It has been held since,
and the reseed of its close and the stale mark of a disconnect are all that changed it. -/
inductive LastComputed (fx : FxService) (before : List FxFeedEvent) (now : Instant)
    (action : RowAction) : List FxFeedEvent → Position → Prop where
  | computed {p : Position} :
      Computes ⟨some (FxFeed.run fx before).fx, now⟩ (FxFeed.run fx before).feed action p →
      LastComputed fx before now action (before ++ [.rows now action]) p
  | kept {events : List FxFeedEvent} {p : Position} (e : FxFeedEvent) :
      LastComputed fx before now action events p → (FxFeed.run fx (events ++ [e])).feed.Held p →
      LastComputed fx before now action (events ++ [e]) p
  | reseed {events : List FxFeedEvent} {later : Instant} {closes : ℤ → Option Python.Float} {conId : ℤ}
      {newPrev : Python.Float} {old : Position} :
      LastComputed fx before now action events old → closes conId = some newPrev →
      LastComputed fx before now action (events ++ [.rows later (.reseed closes)]) (reseedRow old newPrev)
  | stale {events : List FxFeedEvent} {later : Instant} {old : Position} :
      LastComputed fx before now action events old →
      LastComputed fx before now action (events ++ [.rows later .disconnected]) (staleRow old)

theorem convertToUsd_unavailable_iff (service : FxService) (now : Instant) (currency : String)
    (value pnl : Python.Float) :
    (convertToUsd ⟨some service, now⟩ currency value pnl).fxUnavailable = true ↔
      service.NoRate now currency := by
  unfold convertToUsd
  split
  next husd =>
    rw [FxService.noRate_iff]
    simp [husd]
  next =>
    dsimp only
    unfold FxService.NoRate
    split
    next hrate => exact iff_of_true rfl fun rate h => by simp [hrate] at h
    next hrate => exact iff_of_true rfl fun rate h => by simp [hrate] at h
    next rate hrate => exact iff_of_false (by simp) fun h => h rate hrate

/-- A row is flagged just when the service had no rate as it was computed. -/
theorem computes_unavailable_iff {service : FxService} {now : Instant} {s : IbkrFeed}
    {action : RowAction} {p : Position} (h : Computes ⟨some service, now⟩ s action p) :
    p.fxUnavailable = true ↔ service.NoRate now p.currency := by
  cases h with
  | seed hrows hp =>
    rcases mem_getPositions hrows hp with ⟨_, ibPos, name, quote, -, -, -, -, rfl⟩ | ⟨ibPos, rfl⟩ |
      ⟨cash, rfl⟩
    · exact convertToUsd_unavailable_iff ..
    · exact convertToUsd_unavailable_iff ..
    · exact convertToUsd_unavailable_iff ..
  | tick hold hpos => exact convertToUsd_unavailable_iff ..
  | portfolio hnew =>
    obtain ⟨old, -, -, -, hrow⟩ := portfolioUpdate_eq_some hnew
    unfold portfolioRow at hrow
    dsimp only at hrow
    split at hrow
    next => simp at hrow
    next =>
      obtain rfl := Option.some.inj hrow
      exact convertToUsd_unavailable_iff ..

/-- What is written has been computed, and is what the store shows from then on. -/
theorem Writes.shown {fx : FxView} {s : IbkrFeed} {action : RowAction} {p : Position}
    (h : Writes fx s action p) :
    Computes fx s action p ∧ (s.step (action.event fx)).live.positions.get? p.key = some p := by
  cases h with
  | seed hrows hok hp =>
    next replies subscribe rows =>
      refine ⟨.seed hrows (mem_of_get?_byKey hp).1, ?_⟩
      have hrun : IbkrFeed.seedRows subscribe rows s = ((s.startStreaming fx replies subscribe).1, true) := by
        refine Prod.ext ?_ ?_
        · rw [IbkrFeed.startStreaming, hrows]
        · rw [← hok, IbkrFeed.startStreaming, hrows]
      rw [RowAction.event, IbkrFeed.step, IbkrFeed.get?_seedRows hrun, hp]
      rfl
  | tick hold hpos hmoved =>
    refine ⟨.tick hold hpos, ?_⟩
    simp only [RowAction.event, IbkrFeed.step, IbkrFeed.onTickerUpdate, hold, if_neg hpos, hmoved,
      Bool.false_eq_true, if_false]
    rw [LivePositions.get?_setPosition, if_pos rfl]
  | portfolio hnew =>
    refine ⟨.portfolio hnew, ?_⟩
    simp only [RowAction.event, IbkrFeed.step, IbkrFeed.onPortfolioUpdate, hnew]
    rw [LivePositions.get?_setPosition, if_pos rfl]

namespace LastComputed

variable {fx : FxService} {before events : List FxFeedEvent} {now : Instant} {action : RowAction}
  {p : Position}

theorem isPrefix (h : LastComputed fx before now action events p) :
    before ++ [.rows now action] <+: events := by
  induction h with
  | computed _ => exact List.prefix_rfl
  | kept e _ _ ih => exact ih.trans (List.prefix_append _ _)
  | reseed _ _ ih => exact ih.trans (List.prefix_append _ _)
  | stale _ ih => exact ih.trans (List.prefix_append _ _)

/-- The reseed and the stale mark leave the flag of the computation. -/
theorem unavailable_iff (h : LastComputed fx before now action events p) :
    p.fxUnavailable = true ↔ (FxFeed.run fx before).fx.NoRate now p.currency := by
  induction h with
  | computed hcomputes => exact computes_unavailable_iff hcomputes
  | kept e _ _ ih => exact ih
  | reseed _ _ ih => exact ih
  | stale _ ih => exact ih

end LastComputed

/-- In every history each IBKR row that is held has been computed at some point of it. -/
theorem run_lastComputed (fx : FxService) (events : List FxFeedEvent) :
    (FxFeed.run fx events).feed.All fun p =>
      ∃ before now action, LastComputed fx before now action events p := by
  induction events using List.reverseRecOn with
  | nil => exact IbkrFeed.empty_all
  | append_singleton events e ih =>
    -- a row is handed on for as long as it is held
    suffices hheld : (FxFeed.run fx (events ++ [e])).feed.All fun p =>
        (FxFeed.run fx (events ++ [e])).feed.Held p →
          ∃ before now action, LastComputed fx before now action (events ++ [e]) p from
      hheld.mono fun p hp h => h hp
    have hkept : ∀ p, (FxFeed.run fx events).feed.Held p →
        (∃ before now action, LastComputed fx before now action events p) →
          (FxFeed.run fx (events ++ [e])).feed.Held p →
            ∃ before now action, LastComputed fx before now action (events ++ [e]) p := by
      intro p _ hp hheld
      obtain ⟨before, now, action, hlast⟩ := hp
      exact ⟨before, now, action, .kept e hlast hheld⟩
    have hsame : (FxFeed.run fx (events ++ [e])) = (FxFeed.run fx events).step e :=
      FxFeed.run_append fx events [e]
    cases e with
    | fxTick now currency invert ticker =>
      have hfeed : (FxFeed.run fx (events ++ [.fxTick now currency invert ticker])).feed =
          (FxFeed.run fx events).feed := by rw [hsame]; rfl
      rw [hfeed] at hkept ⊢
      exact ih.mono hkept
    | apiRefresh now rates =>
      have hfeed : (FxFeed.run fx (events ++ [.apiRefresh now rates])).feed =
          (FxFeed.run fx events).feed := by
        rw [hsame, FxFeed.step]
        split
        next => rfl
        next => rfl
      rw [hfeed] at hkept ⊢
      exact ih.mono hkept
    | rows now action =>
      have hfeed : (FxFeed.run fx (events ++ [.rows now action])).feed =
          (FxFeed.run fx events).feed.step (action.event ⟨some (FxFeed.run fx events).fx, now⟩) := by
        rw [hsame]
        rfl
      have hnow : ∀ p, Computes ⟨some (FxFeed.run fx events).fx, now⟩ (FxFeed.run fx events).feed action p →
          (FxFeed.run fx (events ++ [.rows now action])).feed.Held p →
            ∃ before now' action', LastComputed fx before now' action' (events ++ [.rows now action]) p :=
        fun p hp _ => ⟨events, now, action, .computed hp⟩
      rw [hfeed] at hkept hnow ⊢
      refine ih.carried ⟨hkept, ?_, ?_, ?_, ?_, ?_⟩
      · intro view replies subscribe rows he hrows p hp
        cases action with
        | startStreaming replies' subscribe' =>
          obtain ⟨rfl, rfl, rfl⟩ := FeedEvent.startStreaming.inj he
          exact hnow p (.seed hrows hp)
        | tick ticker => cases he
        | portfolioUpdate item => cases he
        | reseed closes => cases he
        | disconnected => cases he
        | clearStreaming => cases he
        | foreign refresh => cases he
      · intro view ticker old he hold hpos _
        cases action with
        | tick ticker' =>
          obtain ⟨rfl, rfl⟩ := FeedEvent.tick.inj he
          exact hnow _ (.tick hold hpos)
        | startStreaming replies subscribe => cases he
        | portfolioUpdate item => cases he
        | reseed closes => cases he
        | disconnected => cases he
        | clearStreaming => cases he
        | foreign refresh => cases he
      · intro view item new he hnew
        cases action with
        | portfolioUpdate item' =>
          obtain ⟨rfl, rfl⟩ := FeedEvent.portfolioUpdate.inj he
          exact hnow _ (.portfolio hnew)
        | startStreaming replies subscribe => cases he
        | tick ticker => cases he
        | reseed closes => cases he
        | disconnected => cases he
        | clearStreaming => cases he
        | foreign refresh => cases he
      · intro closes conId newPrev old he hclose _ _ hp _
        obtain ⟨before, now', action', hlast⟩ := hp
        cases action with
        | reseed closes' =>
          obtain rfl := FeedEvent.reseed.inj he
          exact ⟨before, now', action', .reseed hlast hclose⟩
        | startStreaming replies subscribe => cases he
        | tick ticker => cases he
        | portfolioUpdate item => cases he
        | disconnected => cases he
        | clearStreaming => cases he
        | foreign refresh => cases he
      · intro old he _ hp _
        obtain ⟨before, now', action', hlast⟩ := hp
        cases action with
        | disconnected => exact ⟨before, now', action', .stale hlast⟩
        | startStreaming replies subscribe => cases he
        | tick ticker => cases he
        | portfolioUpdate item => cases he
        | reseed closes => cases he
        | clearStreaming => cases he
        | foreign refresh => cases he

/-- A balance of 500 HKD beside the Apple share. -/
def sampleHkdReplies : IbReplies :=
  { sampleReplies [sampleIbPosition "U1"] [] with
    summary := .ok [⟨"U1", "TotalCashValue", "500", "HKD"⟩] }

/-- The connect, then the first forex tick of the dollar in Hong Kong. -/
def sampleHkdDay : List FxFeedEvent :=
  [.rows 0 (.startStreaming sampleHkdReplies fun _ => .ticker),
    .fxTick 1 "HKD" true ⟨some 8, some 8, none, none⟩]

end PortfolioHub
