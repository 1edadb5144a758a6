import PortfolioHub.IbkrRows
import PortfolioHub.LivePositions
import PortfolioHub.Published

namespace PortfolioHub

/-- The rows the IBKR adapter works on: the shared store and `_streaming`, the table
of the streamed contracts, by contract id. -/
structure IbkrFeed where
  live : LivePositions
  streaming : OrderedDict ℤ Position

/-- The row is one of the contract's. -/
def Position.Holds (p : Position) (conId : ℤ) : Prop :=
  p.broker = "IBKR" ∧ p.nativeKey = toString conId

instance (p : Position) (conId : ℤ) : Decidable (p.Holds conId) :=
  inferInstanceAs (Decidable (_ ∧ _))

/-- The row revalued at a tick. -/
def tickRow (fx : FxView) (old : Position) (newLast : Python.Float) (delayed : Bool) : Position :=
  let mvNative := old.priceMagnifier.divide (old.quantity * newLast)
  let pnlNative := old.priceMagnifier.divide ((newLast - old.avgCost) * old.quantity)
  let conv := convertToUsd fx old.currency mvNative pnlNative
  { old with
    lastPrice := newLast
    marketValueNative := mvNative
    unrealizedPnlNative := pnlNative
    marketValueUsd := conv.mvUsd
    unrealizedPnlUsd := conv.pnlUsd
    fxIsStale := conv.fxIsStale
    fxIsFallback := conv.fxIsFallback
    fxUnavailable := conv.fxUnavailable
    lastPriceIsPreviousClose := false
    lastPriceIsBrokerMark := false
    lastPriceIsDelayed := delayed
    lastPriceIsStale := false }

/-- The row revalued from a portfolio item; `none` when the item says nothing new. -/
def portfolioRow (fx : FxView) (old : Position) (item : PortfolioItem) : Option Position :=
  let m := old.priceMagnifier
  let lastPrice := (portfolioDisplayPrice item m old.quantity).getD old.lastPrice
  let mvNative := (portfolioMarketValue item).getD old.marketValueNative
  let pnlNative := (portfolioUnrealizedPnl item).getD old.unrealizedPnlNative
  let avgCost := (portfolioAverageCost item m).getD old.avgCost
  if lastPrice.equal old.lastPrice ∧ mvNative.equal old.marketValueNative ∧
      pnlNative.equal old.unrealizedPnlNative ∧ avgCost.equal old.avgCost then none
  else
    let conv := convertToUsd fx old.currency mvNative pnlNative
    some
      { old with
        avgCost := avgCost
        lastPrice := lastPrice
        marketValueNative := mvNative
        unrealizedPnlNative := pnlNative
        marketValueUsd := conv.mvUsd
        unrealizedPnlUsd := conv.pnlUsd
        fxIsStale := conv.fxIsStale
        fxIsFallback := conv.fxIsFallback
        fxUnavailable := conv.fxUnavailable
        lastPriceIsPreviousClose := false
        lastPriceIsBrokerMark := true
        lastPriceIsDelayed := false
        lastPriceIsStale := false }

def staleRow (old : Position) : Position := { old with lastPriceIsStale := true }

def reseedRow (old : Position) (newPrev : Python.Float) : Position :=
  { old with previousClose := newPrev }

/-- How the subscription of a seeded contract goes. -/
inductive Subscription where
  /-- The contract lookup finds nothing or raises. -/
  | noContract
  | ticker
  /-- `reqMktData` raises. -/
  | fails
deriving DecidableEq, Repr

namespace IbkrFeed

def empty : IbkrFeed := ⟨.empty, .empty⟩

def onTickerUpdate (fx : FxView) (s : IbkrFeed) (ticker : Ticker) : IbkrFeed :=
  match s.streaming.get? ticker.conId with
  | none => s
  | some old =>
    let newLast := coerceLast ticker
    if newLast ≤ 0 then s
    else if newLast.equal old.lastPrice then s
    else
      let new := tickRow fx old newLast (tickerIsDelayed ticker)
      ⟨s.live.setPosition new, s.streaming.insert ticker.conId new⟩

/-- The row an item is read against: the first IBKR row of its contract. -/
def portfolioTarget (s : IbkrFeed) (item : PortfolioItem) : Option Position :=
  s.live.getAll.find? fun p => p.Holds item.conId

/-- The row an item writes, behind all guards of the handler: a contract that ticks
keeps its tick price. -/
def portfolioUpdate (fx : FxView) (s : IbkrFeed) (item : PortfolioItem) : Option Position :=
  if item.conId = 0 then none
  else (s.portfolioTarget item).bind fun old =>
    if old.assetClass ≠ .stk then none
    else if item.conId ∈ s.streaming.keys ∧ old.lastPriceIsBrokerMark = false ∧ 0 < old.lastPrice
      then none
    else portfolioRow fx old item

def onPortfolioUpdate (fx : FxView) (s : IbkrFeed) (item : PortfolioItem) : IbkrFeed :=
  match s.portfolioUpdate fx item with
  | none => s
  | some new =>
    ⟨s.live.setPosition new,
      if item.conId ∈ s.streaming.keys then s.streaming.insert item.conId new else s.streaming⟩

/-- One entry of the daily reseed. -/
def reseedEntry (closes : ℤ → Option Python.Float) (s : IbkrFeed) (entry : ℤ × Position) :
    IbkrFeed :=
  match closes entry.1 with
  | none => s
  | some newPrev =>
    if newPrev ≤ 0 ∨ newPrev.equal entry.2.previousClose then s
    else
      let new := reseedRow entry.2 newPrev
      ⟨s.live.setPosition new, s.streaming.insert entry.1 new⟩

def reseedPreviousCloses (closes : ℤ → Option Python.Float) (s : IbkrFeed) : IbkrFeed :=
  s.streaming.entries.foldl (reseedEntry closes) s

/-- `_mark_live_positions_stale`, over the stock rows of every broker. -/
def markLivePositionsStale (s : IbkrFeed) : IbkrFeed :=
  { s with
    live := (s.live.getAll.filter fun p => p.assetClass ≠ .cash ∧ p.lastPriceIsStale = false).foldl
      (fun live p => live.setPosition (staleRow p)) s.live }

/-- The loop of `_start_streaming` over the positions; the flag tells that it ends
without raising. The row is stored before its contract is subscribed. -/
def seedRows (subscribe : ℤ → Subscription) : List Position → IbkrFeed → IbkrFeed × Bool
  | [], s => (s, true)
  | p :: ps, s =>
    let stored : IbkrFeed := { s with live := s.live.setPosition p }
    match Python.parseInt p.nativeKey with
    | none => seedRows subscribe ps stored
    | some conId =>
      if subscribe conId = .noContract ∨ isPermissionGated p.exchange then
        seedRows subscribe ps stored
      else if subscribe conId = .fails then (stored, false)
      else seedRows subscribe ps { stored with streaming := stored.streaming.insert conId p }

/-- `_start_streaming`: the positions reply, then the rows. -/
def startStreaming (fx : FxView) (replies : IbReplies) (subscribe : ℤ → Subscription)
    (s : IbkrFeed) : IbkrFeed × Bool :=
  match replies.getPositions fx with
  | .error _ => (s, false)
  | .ok rows => seedRows subscribe rows s

end IbkrFeed

/-- Another adapter's refresh of its own rows. -/
structure ForeignRefresh where
  broker : String
  positions : List Position
  notIbkr : broker ≠ "IBKR"
  own : ∀ p ∈ positions, p.broker = broker

/-- What can happen to the rows. -/
inductive FeedEvent where
  | startStreaming (fx : FxView) (replies : IbReplies) (subscribe : ℤ → Subscription)
  | tick (fx : FxView) (ticker : Ticker)
  | portfolioUpdate (fx : FxView) (item : PortfolioItem)
  | reseed (closes : ℤ → Option Python.Float)
  | disconnected
  | clearStreaming
  | foreign (refresh : ForeignRefresh)

namespace IbkrFeed

def step (s : IbkrFeed) : FeedEvent → IbkrFeed
  | .startStreaming fx replies subscribe => (s.startStreaming fx replies subscribe).1
  | .tick fx ticker => s.onTickerUpdate fx ticker
  | .portfolioUpdate fx item => s.onPortfolioUpdate fx item
  | .reseed closes => s.reseedPreviousCloses closes
  | .disconnected => s.markLivePositionsStale
  | .clearStreaming => { s with streaming := .empty }
  | .foreign refresh => { s with live := s.live.replaceBroker refresh.broker refresh.positions }

/-- The rows after a history, from the start of the app. -/
def run (events : List FeedEvent) : IbkrFeed := events.foldl step empty

end IbkrFeed

end PortfolioHub
