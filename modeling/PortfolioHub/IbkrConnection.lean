import PortfolioHub.IbkrFeed
import PortfolioHub.Transition

namespace PortfolioHub

/-- An `IB` object the adapter has created. -/
structure IbInstance where
  /-- Its `connectAsync` has returned. -/
  connected : Bool
  /-- It has raised its `disconnectedEvent`. -/
  raised : Bool
  /-- `_handle_disconnect` is attached to the event. -/
  registered : Bool
deriving DecidableEq, Repr

def IbInstance.alive (i : IbInstance) : Bool := i.connected && !i.raised

/-- Who awaits a running `connect()`: `start()`, or a reconnect loop with the delays it
has left. -/
inductive Caller where
  | start
  | reconnectLoop (rest : List ℚ)
deriving DecidableEq, Repr

/-- Where a task is suspended. -/
inductive Task where
  /-- A reconnect loop that has not run yet. -/
  | created
  /-- In `_wait_for_reconnect_delay`. -/
  | backoff (rest : List ℚ) (wakeup : ℕ)
  /-- In `connectAsync`. -/
  | connecting (caller : Caller) (ib : ℕ)
  /-- Anywhere in the `get_positions` of `_start_streaming`. -/
  | fetching (caller : Caller) (ib : ℕ)
  /-- In the contract lookup of a row that is stored already. -/
  | subscribing (caller : Caller) (ib : ℕ) (position : Position) (conId : ℤ) (rest : List Position)
deriving DecidableEq, Repr

def Caller.isLoop : Caller → Bool
  | .start => false
  | .reconnectLoop _ => true

def Task.isLoop : Task → Bool
  | .created => true
  | .backoff _ _ => true
  | .connecting caller _ => caller.isLoop
  | .fetching caller _ => caller.isLoop
  | .subscribing caller _ _ _ _ => caller.isLoop

/-- The instance that a running `_start_streaming` has been started on. -/
def Task.session : Task → Option ℕ
  | .fetching _ ib => some ib
  | .subscribing _ ib _ _ _ => some ib
  | _ => none

/-- The adapter's connection. Tasks, instances and wake-up events are objects and have
identities of their own; `nextId` is the next one. -/
structure IbkrConnection where
  state : ConnectionState
  ib : Option ℕ
  instances : OrderedDict ℕ IbInstance
  tasks : OrderedDict ℕ Task
  reconnectTask : Option ℕ
  reconnectWakeup : Option ℕ
  wakeups : OrderedDict ℕ Bool
  disconnecting : Bool
  currentBackoffDelay : Option ℚ
  feed : IbkrFeed
  nextId : ℕ

/-- What the adapter can meet. -/
inductive ConnectionEvent where
  | start
  | retryNow
  /-- A created reconnect loop gets its first turn. -/
  | loopStarts (task : ℕ)
  /-- The delay runs out or the wake-up is set. -/
  | backoffOver (task : ℕ)
  | connectReply (task : ℕ) (ok : Bool)
  | positionsReply (task : ℕ) (reply : Except Python.Error (List Position))
  | contractReply (task : ℕ) (subscription : Subscription)
  | disconnectedEvent (ib : ℕ)

namespace IbkrConnection

/-- A new adapter, over a store that other adapters may have filled. -/
def init (live : LivePositions) : IbkrConnection where
  state := .disconnected
  ib := none
  instances := .empty
  tasks := .empty
  reconnectTask := none
  reconnectWakeup := none
  wakeups := .empty
  disconnecting := false
  currentBackoffDelay := none
  feed := ⟨live, .empty⟩
  nextId := 0

/-- The held instance is connected and has not raised its event. -/
def heldAlive (s : IbkrConnection) : Bool :=
  ((s.ib.bind s.instances.get?).map IbInstance.alive).getD false

def setTask (s : IbkrConnection) (id : ℕ) (task : Task) : IbkrConnection :=
  { s with tasks := s.tasks.insert id task }

/-- The task is done. -/
def endTask (s : IbkrConnection) (id : ℕ) : IbkrConnection :=
  { s with tasks := s.tasks.filterKeys (· ≠ id) }

def modifyInstance (s : IbkrConnection) (ib : ℕ) (f : IbInstance → IbInstance) : IbkrConnection :=
  match s.instances.get? ib with
  | none => s
  | some i => { s with instances := s.instances.insert ib (f i) }

/-- There is no reconnect task, or it is done. -/
def ReconnectDone (s : IbkrConnection) : Prop := ∀ id ∈ s.reconnectTask, id ∉ s.tasks.keys

instance (s : IbkrConnection) : Decidable s.ReconnectDone :=
  inferInstanceAs (Decidable (∀ id ∈ s.reconnectTask, id ∉ s.tasks.keys))

/-- `create_task(self._reconnect_loop())`, unless one is running. -/
def ensureLoop (s : IbkrConnection) : IbkrConnection :=
  if s.ReconnectDone then
    { s.setTask s.nextId .created with reconnectTask := some s.nextId, nextId := s.nextId + 1 }
  else s

def handleDisconnect (s : IbkrConnection) : IbkrConnection :=
  if s.disconnecting ∨ s.state = .reconnecting then s
  else { s with state := .reconnecting, feed := s.feed.markLivePositionsStale }.ensureLoop

/-- `_reconnect_wakeup_event`: the event object, created where there is none. -/
def wakeupEvent (s : IbkrConnection) : ℕ × IbkrConnection :=
  match s.reconnectWakeup with
  | some wakeup => (wakeup, s)
  | none =>
    (s.nextId, { s with
      reconnectWakeup := some s.nextId
      wakeups := s.wakeups.insert s.nextId false
      nextId := s.nextId + 1 })

/-- The `finally` of the reconnect loop, and the end of its task. -/
def endLoop (s : IbkrConnection) (id : ℕ) : IbkrConnection :=
  { s.endTask id with currentBackoffDelay := none, reconnectWakeup := none }

/-- The head of the loop over the delays. -/
def nextDelay (s : IbkrConnection) (id : ℕ) : List ℚ → IbkrConnection
  | [] => { s.endLoop id with state := .disconnected }
  | delay :: rest =>
    let waiting := { s with currentBackoffDelay := some delay }.wakeupEvent
    waiting.2.setTask id (.backoff rest waiting.1)

/-- `connect()` up to `connectAsync`. -/
def beginConnect (s : IbkrConnection) (id : ℕ) (caller : Caller) : IbkrConnection :=
  { s.setTask id (.connecting caller s.nextId) with
    instances := s.instances.insert s.nextId ⟨false, false, false⟩
    nextId := s.nextId + 1 }

/-- `connect()` has raised: `start()` treats it as a disconnect, the loop goes on. -/
def connectFailed (s : IbkrConnection) (id : ℕ) : Caller → IbkrConnection
  | .start => (s.endTask id).handleDisconnect
  | .reconnectLoop rest => s.nextDelay id rest

/-- The last statement of `connect()`, and the return of its caller. -/
def connectSucceeded (s : IbkrConnection) (id : ℕ) : Caller → IbkrConnection
  | .start => { s.endTask id with state := .connected }
  | .reconnectLoop _ => { s.endLoop id with state := .connected }

/-- `connectAsync` has returned: the instance is held and its event handled. -/
def connectReturned (s : IbkrConnection) (id : ℕ) (caller : Caller) (ib : ℕ) (i : IbInstance) :
    IbkrConnection :=
  { s.setTask id (.fetching caller ib) with
    ib := some ib
    instances := s.instances.insert ib { i with connected := true, registered := true } }

/-- `_start_streaming` has raised: `connect()` lets go of whatever instance is held. -/
def streamingFailed (s : IbkrConnection) (id : ℕ) (caller : Caller) (ib : ℕ) : IbkrConnection :=
  ({ s with ib := none }.modifyInstance ib fun i => { i with registered := false }).connectFailed
    id caller

/-- The loop of `_start_streaming` up to the next contract lookup; without a held
instance a lookup finds nothing. -/
def seedNext (s : IbkrConnection) (id : ℕ) (caller : Caller) (ib : ℕ) :
    List Position → IbkrConnection
  | [] => s.connectSucceeded id caller
  | p :: rest =>
    let stored := { s with feed := { s.feed with live := s.feed.live.setPosition p } }
    match s.ib, Python.parseInt p.nativeKey with
    | some _, some conId => stored.setTask id (.subscribing caller ib p conId rest)
    | _, _ => stored.seedNext id caller ib rest

/-- The rest of the loop body: a subscription is requested of the instance held by now. -/
def contractReturned (s : IbkrConnection) (id : ℕ) (caller : Caller) (ib : ℕ) (p : Position)
    (conId : ℤ) (rest : List Position) (subscription : Subscription) : IbkrConnection :=
  if subscription = .noContract ∨ isPermissionGated p.exchange then s.seedNext id caller ib rest
  else if s.ib = none ∨ subscription = .fails then s.streamingFailed id caller ib
  else { s with feed := { s.feed with streaming := s.feed.streaming.insert conId p } }.seedNext id
    caller ib rest

/-- The body of the loop behind its wait: someone else may have connected. -/
def attempt (s : IbkrConnection) (id : ℕ) (rest : List ℚ) (wakeup : ℕ) : IbkrConnection :=
  let cleared := { s with wakeups := s.wakeups.insert wakeup false }
  if s.state = .connected then cleared.endLoop id
  else { cleared with ib := none, feed := { s.feed with streaming := .empty } }.beginConnect id
    (.reconnectLoop rest)

def retryNow (s : IbkrConnection) : IbkrConnection :=
  if s.disconnecting ∨ s.state = .connected then s
  else
    let woken := s.wakeupEvent
    let s' := { woken.2 with wakeups := woken.2.wakeups.insert woken.1 true }
    if s.state = .disconnected then s'.handleDisconnect else s'.ensureLoop

/-- One step of the adapter with the schedule `delays`; `connectAsync` returns only on an
instance that has not raised its event. -/
def step (delays : List ℚ) (s : IbkrConnection) : ConnectionEvent → Option IbkrConnection
  | .start => some ({ s with nextId := s.nextId + 1 }.beginConnect s.nextId .start)
  | .retryNow => some s.retryNow
  | .loopStarts id =>
    match s.tasks.get? id with
    | some .created => some (s.nextDelay id delays)
    | _ => none
  | .backoffOver id =>
    match s.tasks.get? id with
    | some (.backoff rest wakeup) => some (s.attempt id rest wakeup)
    | _ => none
  | .connectReply id ok =>
    match s.tasks.get? id with
    | some (.connecting caller ib) =>
      if ok then
        match s.instances.get? ib with
        | some i => if i.raised then none else some (s.connectReturned id caller ib i)
        | none => none
      else some (s.connectFailed id caller)
    | _ => none
  | .positionsReply id reply =>
    match s.tasks.get? id with
    | some (.fetching caller ib) =>
      match reply with
      | .error _ => some (s.streamingFailed id caller ib)
      | .ok rows => some (s.seedNext id caller ib rows)
    | _ => none
  | .contractReply id subscription =>
    match s.tasks.get? id with
    | some (.subscribing caller ib p conId rest) =>
      some (s.contractReturned id caller ib p conId rest subscription)
    | _ => none
  | .disconnectedEvent ib =>
    match s.instances.get? ib with
    | some i =>
      let dropped := { s with instances := s.instances.insert ib { i with raised := true } }
      some (if i.registered then dropped.handleDisconnect else dropped)
    | none => none

end IbkrConnection

end PortfolioHub
