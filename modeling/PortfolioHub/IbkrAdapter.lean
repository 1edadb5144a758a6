import PortfolioHub.IbkrConnection

namespace PortfolioHub

/-- A ticker object that `reqMktData` has given for a contract. -/
structure TickerRef where
  serial : ℕ
  conId : ℤ
deriving DecidableEq, Repr

/-- Where the daily refresh of the previous closes is suspended. -/
inductive RefreshTask where
  | sleeping
  | fetching
deriving DecidableEq, Repr

/-- The adapter with all its callbacks. -/
structure IbkrAdapter where
  conn : IbkrConnection
  /-- The tickers in the entries of `_streaming`. -/
  tickers : OrderedDict ℤ TickerRef
  /-- The tickers that `_on_ticker_update` is attached to, as often as it is. -/
  attached : List TickerRef
  /-- `_prev_close_refresh_task`. -/
  refresh : Option RefreshTask

/-- What the adapter and its callbacks can meet. A connection event comes with the serial
of the ticker that a subscription would get. -/
inductive AdapterEvent where
  | connection (event : ConnectionEvent) (serial : ℕ)
  | tick (fx : FxView) (serial : ℕ) (ticker : Ticker)
  | portfolioUpdate (ib : ℕ) (fx : FxView) (item : PortfolioItem)
  /-- The daily refresh wakes up. -/
  | refreshDue
  | closesReply (reply : Except Python.Error (ℤ → Option Python.Float))
  | foreign (refresh : ForeignRefresh)

namespace IbkrConnection

/-- The contract and the row that the step puts into `_streaming`. -/
def subscribes (s : IbkrConnection) : ConnectionEvent → Option (ℤ × Position)
  | .contractReply id subscription =>
    match s.tasks.get? id with
    | some (.subscribing _ _ p conId _) =>
      if subscription = .noContract ∨ isPermissionGated p.exchange then none
      else if s.ib = none ∨ subscription = .fails then none
      else some (conId, p)
    | _ => none
  | _ => none

/-- The step runs `_handle_disconnect` past its guards: nothing else sets RECONNECTING. -/
def HandlesDisconnect (s s' : IbkrConnection) : Prop :=
  s.state ≠ .reconnecting ∧ s'.state = .reconnecting

instance (s s' : IbkrConnection) : Decidable (s.HandlesDisconnect s') :=
  inferInstanceAs (Decidable (_ ∧ _))

/-- A `_start_streaming` has reached its end with the event. -/
def FinishesSeed (s' : IbkrConnection) : ConnectionEvent → Prop
  | .positionsReply id _ => id ∉ s'.tasks.keys ∧ s'.state = .connected
  | .contractReply id _ => id ∉ s'.tasks.keys ∧ s'.state = .connected
  | _ => False

instance (s' : IbkrConnection) : (e : ConnectionEvent) → Decidable (s'.FinishesSeed e)
  | .positionsReply _ _ => inferInstanceAs (Decidable (_ ∧ _))
  | .contractReply _ _ => inferInstanceAs (Decidable (_ ∧ _))
  | .start => inferInstanceAs (Decidable False)
  | .retryNow => inferInstanceAs (Decidable False)
  | .loopStarts _ => inferInstanceAs (Decidable False)
  | .backoffOver _ => inferInstanceAs (Decidable False)
  | .connectReply _ _ => inferInstanceAs (Decidable False)
  | .disconnectedEvent _ => inferInstanceAs (Decidable False)

end IbkrConnection

namespace IbkrAdapter

def init (live : LivePositions) : IbkrAdapter := ⟨.init live, .empty, [], none⟩

def feed (s : IbkrAdapter) : IbkrFeed := s.conn.feed

def setFeed (s : IbkrAdapter) (feed : IbkrFeed) : IbkrAdapter :=
  { s with conn := { s.conn with feed := feed } }

/-- `_deregister_tick_handlers`: every entry of `_streaming` detaches its ticker once. -/
def deregistered (s : IbkrAdapter) : List TickerRef := s.attached.diff s.tickers.values

/-- What a step of the connection does to the callbacks. -/
def follow (s : IbkrAdapter) (e : ConnectionEvent) (serial : ℕ) (conn : IbkrConnection) :
    IbkrAdapter :=
  let attached := if s.conn.HandlesDisconnect conn then s.deregistered else s.attached
  let refresh := if conn.FinishesSeed e then some .sleeping else s.refresh
  match s.conn.subscribes e with
  | some (conId, _) =>
    ⟨conn, s.tickers.insert conId ⟨serial, conId⟩, attached ++ [⟨serial, conId⟩], refresh⟩
  | none =>
    -- `_streaming.clear()` drops the tickers with the rows
    ⟨conn, s.tickers.filterKeys (· ∈ conn.feed.streaming.keys), attached, refresh⟩

/-- The event of the ticker calls the handler as often as it is attached. -/
def emitTick (s : IbkrAdapter) (fx : FxView) (serial : ℕ) (ticker : Ticker) : IbkrFeed :=
  (s.attached.filter (· = ⟨serial, ticker.conId⟩)).foldl
    (fun feed _ => feed.onTickerUpdate fx ticker) s.feed

def step (delays : List ℚ) (s : IbkrAdapter) : AdapterEvent → Option IbkrAdapter
  | .connection e serial => (s.conn.step delays e).map (s.follow e serial)
  | .tick fx serial ticker => some (s.setFeed (s.emitTick fx serial ticker))
  | .portfolioUpdate ib fx item =>
    -- the portfolio handler is attached and detached along with the one of the disconnect
    match s.conn.instances.get? ib with
    | some i => some (if i.registered then s.setFeed (s.feed.onPortfolioUpdate fx item) else s)
    | none => none
  | .refreshDue =>
    if s.refresh = some .sleeping then
      some (if s.conn.ib = none ∨ s.feed.streaming.keys = [] then s
        else { s with refresh := some .fetching })
    else none
  | .closesReply reply =>
    if s.refresh = some .fetching then
      match reply with
      | .ok closes =>
        some { s.setFeed (s.feed.reseedPreviousCloses closes) with refresh := some .sleeping }
      | .error _ => some { s with refresh := some .sleeping }
    else none
  | .foreign refresh =>
    some (s.setFeed { s.feed with
      live := s.feed.live.replaceBroker refresh.broker refresh.positions })

end IbkrAdapter

end PortfolioHub
