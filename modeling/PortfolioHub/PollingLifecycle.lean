import PortfolioHub.IbkrConnection

namespace PortfolioHub

/-- The adapters that poll. -/
inductive PolledBroker where
  | longbridge
  | tiger
  | futu
deriving DecidableEq, Repr

/-- What an adapter is made with: `live`, a store of positions; `polls`, a positive
`poll_interval_s`. -/
structure PollingConfig where
  broker : PolledBroker
  delays : List ℚ
  live : Bool
  polls : Bool

/-- Whose code `connect()` and `disconnect()` run in. -/
inductive PollingCall where
  | start
  | connect
  | reconnectLoop (rest : List ℚ)
  | disconnect
deriving DecidableEq, Repr

/-- Where `connect()` or `disconnect()` is suspended. -/
inductive PollingStage where
  /-- It awaits the reconnect loop it has cancelled. -/
  | stoppingReconnect (task : ℕ)
  /-- It awaits the poll loop it has cancelled. -/
  | stoppingPoll (task : ℕ)
  /-- In `_close_contexts` or `_close_clients`. -/
  | closing
  /-- Futu builds its contexts in threads. -/
  | opening
  /-- In the fetch of `connect()`; with Futu, in the discovery of the accounts. -/
  | loading (observed : List (Option ℕ))
  /-- In the refresh that Futu makes as CONNECTED. -/
  | refreshing (observed : List (Option ℕ))
  /-- The handler of `connect()` closes what it has opened. -/
  | failing (config : Bool)
deriving DecidableEq, Repr

/-- Where a call or a task is suspended. A fetch keeps the session that each of its vendor calls
was made on, `none` where there was none. -/
inductive PollingCoroutine where
  | loopCreated
  | loopSleeping (rest : List ℚ)
  | running (call : PollingCall) (stage : PollingStage)
  /-- The handler of `start()` closes. -/
  | startFailing (config : Bool)
  | pollSleeping
  | pollFetching (observed : List (Option ℕ))
  /-- In `get_positions`. -/
  | reading (observed : List (Option ℕ))
deriving DecidableEq, Repr

/-- The clients of one `connect()`, `complete` unless building the second one has raised. -/
structure PollingSession where
  id : ℕ
  complete : Bool
deriving DecidableEq, Repr

/-- A list given to `replace_broker`: the sessions its fetch has seen, and the one then held. -/
structure Publication where
  observed : List (Option ℕ)
  session : Option ℕ
deriving DecidableEq, Repr

/-- The adapter between its turns. -/
structure PollingAdapter where
  state : ConnectionState
  session : Option PollingSession
  coroutines : OrderedDict ℕ PollingCoroutine
  /-- The tasks that `cancel()` has been called on. -/
  cancelled : List ℕ
  pollTask : Option ℕ
  reconnectTask : Option ℕ
  published : List Publication
  nextId : ℕ

/-- What building the clients comes to; `config`: it raises the adapter's configuration error. -/
inductive Build where
  | built
  | raises (config half : Bool)
deriving DecidableEq, Repr

/-- What a turn meets before its next `await`: whether closing a client is awaited, whether
Futu's `get_positions` has an account to ask for, what building the clients comes to. -/
structure PollingTurn where
  closeAwaits : Bool
  asks : Bool
  build : Build
deriving DecidableEq, Repr

/-- `raises`: with `some config` the vendor's part raises. -/
inductive PollingEvent where
  | start (turn : PollingTurn)
  | connect (turn : PollingTurn)
  | disconnect (turn : PollingTurn)
  | getPositions (turn : PollingTurn)
  | loopStarts (id : ℕ)
  | loopWakes (id : ℕ) (turn : PollingTurn)
  | pollWakes (id : ℕ) (turn : PollingTurn)
  | taskAwaited (id : ℕ) (turn : PollingTurn)
  | closed (id : ℕ) (turn : PollingTurn)
  | opened (id : ℕ) (raises : Option Bool) (turn : PollingTurn)
  /-- A fetch makes a vendor call, or takes the answer for empty where its client is gone. -/
  | asks (id : ℕ)
  | fetchEnds (id : ℕ) (raises : Option Bool) (turn : PollingTurn)
  /-- A cancelled task gets its next turn. -/
  | cancelDelivered (id : ℕ)
deriving DecidableEq, Repr

namespace PollingAdapter

def init : PollingAdapter where
  state := .disconnected
  session := none
  coroutines := .empty
  cancelled := []
  pollTask := none
  reconnectTask := none
  published := []
  nextId := 0

def setCoroutine (s : PollingAdapter) (id : ℕ) (c : PollingCoroutine) : PollingAdapter :=
  { s with coroutines := s.coroutines.insert id c }

/-- The coroutine leaves its suspension: it runs, and is gone unless it awaits again. -/
def resume (s : PollingAdapter) (id : ℕ) : PollingAdapter :=
  { s with coroutines := s.coroutines.filterKeys (· ≠ id) }

/-- The coroutine, unless its next turn is its cancellation. -/
def running (s : PollingAdapter) (id : ℕ) : Option PollingCoroutine :=
  if id ∈ s.cancelled then none else s.coroutines.get? id

/-- The session a vendor call is made on. -/
def seen (s : PollingAdapter) : Option ℕ := s.session.map PollingSession.id

def publish (s : PollingAdapter) (observed : List (Option ℕ)) : PollingAdapter :=
  { s with published := ⟨observed, s.seen⟩ :: s.published }

/-- There is no reconnect task, or it is done; `current` is running. -/
def ReconnectDone (s : PollingAdapter) (current : ℕ) : Prop :=
  ∀ id ∈ s.reconnectTask, id ≠ current ∧ id ∉ s.coroutines.keys

instance (s : PollingAdapter) (current : ℕ) : Decidable (s.ReconnectDone current) :=
  inferInstanceAs (Decidable (∀ id ∈ s.reconnectTask, id ≠ current ∧ id ∉ s.coroutines.keys))

def enterReconnecting (s : PollingAdapter) (config : PollingConfig) (current : ℕ) :
    PollingAdapter :=
  if s.state = .reconnecting then s
  else if config.delays = [] then { s with state := .disconnected }
  else if s.ReconnectDone current then
    { s.setCoroutine s.nextId .loopCreated with
      state := .reconnecting, reconnectTask := some s.nextId, nextId := s.nextId + 1 }
  else { s with state := .reconnecting }

/-- The head of the loop over the delays. -/
def nextDelay (s : PollingAdapter) (id : ℕ) : List ℚ → PollingAdapter
  | [] => { s with state := .disconnected }
  | _ :: rest => s.setCoroutine id (.loopSleeping rest)

def closeSession (s : PollingAdapter) : PollingAdapter := { s with session := none }

/-- The end of the handlers of `start()`. -/
def startFailed (s : PollingAdapter) (config : PollingConfig) (id : ℕ) (invalid : Bool) :
    PollingAdapter :=
  if invalid then { s with state := .disconnected } else s.enterReconnecting config id

/-- `connect()` has raised. -/
def raised (s : PollingAdapter) (config : PollingConfig) (id : ℕ) (invalid : Bool)
    (turn : PollingTurn) : PollingCall → PollingAdapter
  | .start =>
    if s.session.isSome && turn.closeAwaits then
      s.closeSession.setCoroutine id (.startFailing invalid)
    else s.closeSession.startFailed config id invalid
  | .reconnectLoop rest =>
    if invalid then { s with state := .disconnected }
    else { s with state := .reconnecting }.nextDelay id rest
  | .connect => s
  | .disconnect => s

/-- The handler of `connect()` behind its close; Futu sets the state before. -/
def failureClosed (s : PollingAdapter) (config : PollingConfig) (id : ℕ) (call : PollingCall)
    (invalid : Bool) (turn : PollingTurn) : PollingAdapter :=
  (if config.broker = .futu then s else { s with state := .disconnected }).raised config id
    invalid turn call

/-- The handler of `connect()`; Futu closes the contexts that it has built itself. -/
def failed (s : PollingAdapter) (config : PollingConfig) (id : ℕ) (call : PollingCall)
    (invalid : Bool) (turn : PollingTurn) : PollingAdapter :=
  let s' := if config.broker = .futu then { s with state := .disconnected } else s
  if (decide (config.broker = .futu) || s.session.isSome) && turn.closeAwaits then
    s'.closeSession.setCoroutine id (.running call (.failing invalid))
  else s'.closeSession.failureClosed config id call invalid turn

/-- `create_task(self._poll_loop())`. -/
def startPolling (s : PollingAdapter) : PollingAdapter :=
  { s.setCoroutine s.nextId .pollSleeping with
    pollTask := some s.nextId, nextId := s.nextId + 1 }

/-- The last part of `connect()`. -/
def connected (s : PollingAdapter) (config : PollingConfig) (observed : List (Option ℕ)) :
    PollingAdapter :=
  let s' := { s with state := .connected }
  let s'' := if config.live then s'.publish observed else s'
  if config.live && config.polls then s''.startPolling else s''

/-- The fetch of `connect()` has its list; Futu fetches only now. -/
def loaded (s : PollingAdapter) (config : PollingConfig) (id : ℕ) (call : PollingCall)
    (observed : List (Option ℕ)) (turn : PollingTurn) : PollingAdapter :=
  if config.broker = .futu then
    if config.live && turn.asks then
      { s with state := .connected }.setCoroutine id (.running call (.refreshing [s.seen]))
    else s.connected config []
  else s.connected config observed

/-- The clients are built; the first vendor call is made. -/
def openSession (s : PollingAdapter) (config : PollingConfig) (id : ℕ) (call : PollingCall)
    (turn : PollingTurn) : PollingAdapter :=
  match turn.build with
  | .built =>
    if config.broker = .futu then s.setCoroutine id (.running call .opening)
    else { s.setCoroutine id (.running call (.loading [some s.nextId])) with
      session := some ⟨s.nextId, true⟩, nextId := s.nextId + 1 }
  | .raises invalid half =>
    if config.broker ≠ .futu ∧ half then
      { s with session := some ⟨s.nextId, false⟩, nextId := s.nextId + 1 }.raised config id
        invalid turn call
    else s.raised config id invalid turn call

/-- Behind `_close_contexts`. -/
def closedThen (s : PollingAdapter) (config : PollingConfig) (id : ℕ) (call : PollingCall)
    (turn : PollingTurn) : PollingAdapter :=
  match call with
  | .disconnect => { s with state := .disconnected }
  | call => s.openSession config id call turn

/-- Behind `_stop_polling`. -/
def closeContexts (s : PollingAdapter) (config : PollingConfig) (id : ℕ) (call : PollingCall)
    (turn : PollingTurn) : PollingAdapter :=
  if s.session.isSome && turn.closeAwaits then
    s.closeSession.setCoroutine id (.running call .closing)
  else s.closeSession.closedThen config id call turn

/-- Behind `_stop_reconnecting`. -/
def stopPolling (s : PollingAdapter) (config : PollingConfig) (id : ℕ) (call : PollingCall)
    (turn : PollingTurn) : PollingAdapter :=
  match s.pollTask.filter (· ∈ s.coroutines.keys) with
  | some task =>
    { s.setCoroutine id (.running call (.stoppingPoll task)) with
      pollTask := none, cancelled := task :: s.cancelled }
  | none => { s with pollTask := none }.closeContexts config id call turn

/-- `connect()` or `disconnect()` from its beginning. -/
def stopReconnecting (s : PollingAdapter) (config : PollingConfig) (id : ℕ) (call : PollingCall)
    (turn : PollingTurn) : PollingAdapter :=
  match s.reconnectTask.filter (· ∈ s.coroutines.keys) with
  | some task =>
    { s.setCoroutine id (.running call (.stoppingReconnect task)) with
      reconnectTask := none, cancelled := task :: s.cancelled }
  | none => { s with reconnectTask := none }.stopPolling config id call turn

/-- A call takes the next id. -/
def call (s : PollingAdapter) (config : PollingConfig) (call : PollingCall) (turn : PollingTurn) :
    PollingAdapter :=
  { s with nextId := s.nextId + 1 }.stopReconnecting config s.nextId call turn

/-- The reconnect loop behind its sleep. -/
def wake (s : PollingAdapter) (config : PollingConfig) (id : ℕ) (rest : List ℚ)
    (turn : PollingTurn) : PollingAdapter :=
  if s.state = .connected then s
  else if s.reconnectTask = some id then s.stopPolling config id (.reconnectLoop rest) turn
  else s.stopReconnecting config id (.reconnectLoop rest) turn

/-- `_refresh_live_positions` up to its first vendor call; without one it publishes at once. -/
def refresh (s : PollingAdapter) (config : PollingConfig) (id : ℕ) (turn : PollingTurn) :
    PollingAdapter :=
  if config.broker = .futu then
    if s.state ≠ .connected then s.setCoroutine id .pollSleeping
    else if turn.asks then s.setCoroutine id (.pollFetching [s.seen])
    else (s.publish []).setCoroutine id .pollSleeping
  else if s.session.any PollingSession.complete then s.setCoroutine id (.pollFetching [s.seen])
  else (s.publish [none]).setCoroutine id .pollSleeping

/-- `get_positions` takes the next id where it awaits. -/
def getPositions (s : PollingAdapter) (config : PollingConfig) (turn : PollingTurn) :
    PollingAdapter :=
  if s.state = .connected ∧
      (if config.broker = .futu then turn.asks else s.session.any PollingSession.complete) then
    { s.setCoroutine s.nextId (.reading [s.seen]) with nextId := s.nextId + 1 }
  else s

/-- The poll loop ends where its refresh has left CONNECTED. -/
def pollFailed (s : PollingAdapter) (config : PollingConfig) (id : ℕ) : PollingAdapter :=
  let s' := s.enterReconnecting config id
  if s'.state = .connected then s'.setCoroutine id .pollSleeping else s'

def fetchEnds (s : PollingAdapter) (config : PollingConfig) (id : ℕ) (raises : Option Bool)
    (turn : PollingTurn) : PollingCoroutine → Option PollingAdapter
  | .running call (.loading observed) =>
    match raises with
    | none => some ((s.resume id).loaded config id call observed turn)
    | some invalid => some ((s.resume id).failed config id call invalid turn)
  | .running call (.refreshing observed) =>
    match raises with
    | none => some ((s.resume id).connected config observed)
    | some invalid =>
      some (((s.resume id).enterReconnecting config id).failed config id call invalid turn)
  | .pollFetching observed =>
    match raises with
    | none => some (((s.resume id).publish observed).setCoroutine id .pollSleeping)
    | some _ => some ((s.resume id).pollFailed config id)
  | .reading _ => some (s.resume id)
  | _ => none

/-- The fetch with the session its next vendor call is made on. -/
def asked (seen : Option ℕ) : PollingCoroutine → Option PollingCoroutine
  | .running call (.loading observed) => some (.running call (.loading (seen :: observed)))
  | .running call (.refreshing observed) => some (.running call (.refreshing (seen :: observed)))
  | .pollFetching observed => some (.pollFetching (seen :: observed))
  | .reading observed => some (.reading (seen :: observed))
  | _ => none

/-- One step of the adapter. A cancellation that meets `await task` of `_stop_polling` or
`_stop_reconnecting` is swallowed there. -/
def step (config : PollingConfig) (s : PollingAdapter) : PollingEvent → Option PollingAdapter
  | .start turn => some (s.call config .start turn)
  | .connect turn => some (s.call config .connect turn)
  | .disconnect turn => some (s.call config .disconnect turn)
  | .getPositions turn => some (s.getPositions config turn)
  | .loopStarts id =>
    match s.running id with
    | some .loopCreated => some ((s.resume id).nextDelay id config.delays)
    | _ => none
  | .loopWakes id turn =>
    match s.running id with
    | some (.loopSleeping rest) => some ((s.resume id).wake config id rest turn)
    | _ => none
  | .pollWakes id turn =>
    match s.running id with
    | some .pollSleeping => some ((s.resume id).refresh config id turn)
    | _ => none
  | .taskAwaited id turn =>
    let s' := { s.resume id with cancelled := s.cancelled.filter (· ≠ id) }
    match s.coroutines.get? id with
    | some (.running call (.stoppingReconnect task)) =>
      if task ∈ s.coroutines.keys then none else some (s'.stopPolling config id call turn)
    | some (.running call (.stoppingPoll task)) =>
      if task ∈ s.coroutines.keys then none else some (s'.closeContexts config id call turn)
    | _ => none
  | .closed id turn =>
    match s.running id with
    | some (.running call .closing) => some ((s.resume id).closedThen config id call turn)
    | some (.running call (.failing invalid)) =>
      some ((s.resume id).failureClosed config id call invalid turn)
    | some (.startFailing invalid) => some ((s.resume id).startFailed config id invalid)
    | _ => none
  | .opened id raises turn =>
    match s.running id with
    | some (.running call .opening) =>
      match raises with
      | none => some { (s.resume id).setCoroutine id (.running call (.loading [])) with
          session := some ⟨s.nextId, true⟩, nextId := s.nextId + 1 }
      | some invalid => some ((s.resume id).failed config id call invalid turn)
    | _ => none
  | .asks id =>
    match (s.running id).bind (asked s.seen) with
    | some c => some (s.setCoroutine id c)
    | none => none
  | .fetchEnds id raises turn => (s.running id).bind (s.fetchEnds config id raises turn)
  | .cancelDelivered id =>
    match s.coroutines.get? id with
    | some (.running _ (.stoppingReconnect _)) => none
    | some (.running _ (.stoppingPoll _)) => none
    | some _ => if id ∈ s.cancelled then some (s.resume id) else none
    | none => none

variable {s : PollingAdapter}

theorem get?_setCoroutine (s : PollingAdapter) (id : ℕ) (c : PollingCoroutine) (j : ℕ) :
    (s.setCoroutine id c).coroutines.get? j = if j = id then some c else s.coroutines.get? j :=
  OrderedDict.get?_insert s.coroutines id j c

theorem get?_resume (s : PollingAdapter) (id j : ℕ) :
    (s.resume id).coroutines.get? j = if j = id then none else s.coroutines.get? j := by
  unfold resume
  rw [OrderedDict.get?_filterKeys]
  by_cases hj : j = id
  · simp [hj]
  · simp [hj]

theorem get?_of_resume {id j : ℕ} {c : PollingCoroutine}
    (hc : (s.resume id).coroutines.get? j = some c) : s.coroutines.get? j = some c := by
  rw [get?_resume] at hc
  split at hc
  next => cases hc
  next => exact hc

theorem running_eq_some {id : ℕ} {c : PollingCoroutine} :
    s.running id = some c ↔ id ∉ s.cancelled ∧ s.coroutines.get? id = some c := by
  unfold running
  split
  next h => simp [h]
  next h => simp [h]

end PollingAdapter

end PortfolioHub
