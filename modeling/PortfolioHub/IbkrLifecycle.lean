import PortfolioHub.IbkrConnection

namespace PortfolioHub

/-- Who awaits a running `connect()`: a `start()`, whoever has called it, or a reconnect loop
with the delays it has left. -/
inductive Awaiter where
  | start
  | connect
  | reconnectLoop (rest : List ℚ)
deriving DecidableEq, Repr

/-- Where a call or a task is suspended. -/
inductive Coroutine where
  /-- A reconnect loop that has not run yet. -/
  | created
  /-- In `_wait_for_reconnect_delay`. -/
  | backoff (rest : List ℚ) (wakeup : ℕ)
  /-- In `connectAsync`. -/
  | connecting (awaiter : Awaiter) (ib : ℕ)
  /-- Anywhere in `_start_streaming`. -/
  | streaming (awaiter : Awaiter) (ib : ℕ)
  /-- A `disconnect()` that awaits the loop it has cancelled. -/
  | stopping (loop : ℕ)
  /-- A `disconnect()` that awaits the pending writes. -/
  | draining
deriving DecidableEq, Repr

def Awaiter.isLoop : Awaiter → Bool
  | .start => false
  | .connect => false
  | .reconnectLoop _ => true

def Coroutine.isLoop : Coroutine → Bool
  | .created => true
  | .backoff _ _ => true
  | .connecting awaiter _ => awaiter.isLoop
  | .streaming awaiter _ => awaiter.isLoop
  | .stopping _ => false
  | .draining => false

def Coroutine.isDisconnect : Coroutine → Bool
  | .stopping _ => true
  | .draining => true
  | _ => false

/-- A loop between its attempts. -/
def Coroutine.waits : Coroutine → Bool
  | .created => true
  | .backoff _ _ => true
  | _ => false

/-- The instance a running `connect()` has made. -/
def Coroutine.instance? : Coroutine → Option ℕ
  | .connecting _ ib => some ib
  | .streaming _ ib => some ib
  | _ => none

/-- The adapter between its calls. Coroutines, instances and wake-up events are objects and have
identities of their own; `nextId` is the next one. -/
structure IbkrLifecycle where
  state : ConnectionState
  ib : Option ℕ
  instances : OrderedDict ℕ IbInstance
  coroutines : OrderedDict ℕ Coroutine
  /-- The loops that `cancel()` has been called on. -/
  cancelled : List ℕ
  reconnectTask : Option ℕ
  reconnectWakeup : Option ℕ
  wakeups : OrderedDict ℕ Bool
  disconnecting : Bool
  currentBackoffDelay : Option ℚ
  nextId : ℕ

/-- `pendingWrites`: fill writes are in flight. `emits`: `IB.disconnect` calls the handlers of
the instance's event before it returns. -/
inductive LifecycleEvent where
  | start
  | connect
  | retryNow
  | disconnect (pendingWrites emits : Bool)
  /-- A created loop gets its first turn. -/
  | loopStarts (id : ℕ)
  /-- The delay runs out or the wake-up is set. -/
  | backoffOver (id : ℕ)
  | connectReply (id : ℕ) (ok : Bool)
  | streamingReply (id : ℕ) (ok : Bool)
  | disconnectedEvent (ib : ℕ)
  /-- A cancelled loop gets its next turn. -/
  | cancelDelivered (id : ℕ)
  | loopAwaited (id : ℕ) (pendingWrites emits : Bool)
  | writesDrained (id : ℕ) (emits : Bool)
deriving DecidableEq, Repr

namespace IbkrLifecycle

def init : IbkrLifecycle where
  state := .disconnected
  ib := none
  instances := .empty
  coroutines := .empty
  cancelled := []
  reconnectTask := none
  reconnectWakeup := none
  wakeups := .empty
  disconnecting := false
  currentBackoffDelay := none
  nextId := 0

/-- The instance is connected, and neither dropped nor disconnected by the adapter. -/
def aliveInstance (s : IbkrLifecycle) (ib : ℕ) : Bool :=
  ((s.instances.get? ib).map IbInstance.alive).getD false

/-- The coroutine, unless its next turn is its cancellation. -/
def running (s : IbkrLifecycle) (id : ℕ) : Option Coroutine :=
  if id ∈ s.cancelled then none else s.coroutines.get? id

def setCoroutine (s : IbkrLifecycle) (id : ℕ) (c : Coroutine) : IbkrLifecycle :=
  { s with coroutines := s.coroutines.insert id c }

def endCoroutine (s : IbkrLifecycle) (id : ℕ) : IbkrLifecycle :=
  { s with coroutines := s.coroutines.filterKeys (· ≠ id) }

def modifyInstance (s : IbkrLifecycle) (ib : ℕ) (f : IbInstance → IbInstance) : IbkrLifecycle :=
  match s.instances.get? ib with
  | none => s
  | some i => { s with instances := s.instances.insert ib (f i) }

/-- There is no reconnect task, or it is done. -/
def ReconnectDone (s : IbkrLifecycle) : Prop := ∀ id ∈ s.reconnectTask, id ∉ s.coroutines.keys

instance (s : IbkrLifecycle) : Decidable s.ReconnectDone :=
  inferInstanceAs (Decidable (∀ id ∈ s.reconnectTask, id ∉ s.coroutines.keys))

/-- `create_task(self._reconnect_loop())`, unless one is running. -/
def ensureLoop (s : IbkrLifecycle) : IbkrLifecycle :=
  if s.ReconnectDone then
    { s.setCoroutine s.nextId .created with reconnectTask := some s.nextId, nextId := s.nextId + 1 }
  else s

def handleDisconnect (s : IbkrLifecycle) : IbkrLifecycle :=
  if s.disconnecting ∨ s.state = .reconnecting then s
  else { s with state := .reconnecting }.ensureLoop

/-- `_reconnect_wakeup_event`: the event object, created where there is none. -/
def wakeupEvent (s : IbkrLifecycle) : ℕ × IbkrLifecycle :=
  match s.reconnectWakeup with
  | some wakeup => (wakeup, s)
  | none =>
    (s.nextId, { s with
      reconnectWakeup := some s.nextId
      wakeups := s.wakeups.insert s.nextId false
      nextId := s.nextId + 1 })

/-- The `finally` of the reconnect loop, and the end of its task. -/
def endLoop (s : IbkrLifecycle) (id : ℕ) : IbkrLifecycle :=
  { s.endCoroutine id with currentBackoffDelay := none, reconnectWakeup := none }

/-- The head of the loop over the delays. -/
def nextDelay (s : IbkrLifecycle) (id : ℕ) : List ℚ → IbkrLifecycle
  | [] => { s.endLoop id with state := .disconnected }
  | delay :: rest =>
    let waiting := { s with currentBackoffDelay := some delay }.wakeupEvent
    waiting.2.setCoroutine id (.backoff rest waiting.1)

/-- `connect()` up to `connectAsync`. -/
def beginConnect (s : IbkrLifecycle) (id : ℕ) (awaiter : Awaiter) : IbkrLifecycle :=
  { s.setCoroutine id (.connecting awaiter s.nextId) with
    instances := s.instances.insert s.nextId ⟨false, false, false⟩
    nextId := s.nextId + 1 }

/-- A call of `connect()`, by itself or in `start()`. -/
def call (s : IbkrLifecycle) (awaiter : Awaiter) : IbkrLifecycle :=
  { s with nextId := s.nextId + 1 }.beginConnect s.nextId awaiter

/-- `connect()` has raised: `start()` treats it as a disconnect, the loop goes on. -/
def connectRaised (s : IbkrLifecycle) (id : ℕ) : Awaiter → IbkrLifecycle
  | .start => (s.endCoroutine id).handleDisconnect
  | .connect => s.endCoroutine id
  | .reconnectLoop rest => s.nextDelay id rest

/-- The last statement of `connect()`, and the return of its awaiter. -/
def connectSucceeded (s : IbkrLifecycle) (id : ℕ) : Awaiter → IbkrLifecycle
  | .start => { s.endCoroutine id with state := .connected }
  | .connect => { s.endCoroutine id with state := .connected }
  | .reconnectLoop _ => { s.endLoop id with state := .connected }

/-- `connectAsync` has returned: the instance is held and its event handled. -/
def connectReturned (s : IbkrLifecycle) (id : ℕ) (awaiter : Awaiter) (ib : ℕ) : IbkrLifecycle :=
  { (s.modifyInstance ib fun i => { i with connected := true, registered := true }).setCoroutine
      id (.streaming awaiter ib) with ib := some ib }

/-- `_start_streaming` has raised: `connect()` lets go of whatever instance is held. -/
def streamingFailed (s : IbkrLifecycle) (id : ℕ) (awaiter : Awaiter) (ib : ℕ) : IbkrLifecycle :=
  ({ s with ib := none }.modifyInstance ib fun i => { i with registered := false }).connectRaised
    id awaiter

/-- The body of the loop behind its wait: someone else may have connected. -/
def attempt (s : IbkrLifecycle) (id : ℕ) (rest : List ℚ) (wakeup : ℕ) : IbkrLifecycle :=
  let cleared := { s with wakeups := s.wakeups.insert wakeup false }
  if s.state = .connected then cleared.endLoop id
  else { cleared with ib := none }.beginConnect id (.reconnectLoop rest)

def retryNow (s : IbkrLifecycle) : IbkrLifecycle :=
  if s.disconnecting ∨ s.state = .connected then s
  else
    let woken := s.wakeupEvent
    let s' := { woken.2 with wakeups := woken.2.wakeups.insert woken.1 true }
    if s.state = .disconnected then s'.handleDisconnect else s'.ensureLoop

/-- `IB.disconnect` on the held instance. -/
def closeHeld (s : IbkrLifecycle) (emits : Bool) : IbkrLifecycle :=
  match s.ib.bind fun ib => (s.instances.get? ib).map (Prod.mk ib) with
  | none => s
  | some (ib, i) =>
    let closed := s.modifyInstance ib fun i => { i with raised := true }
    if emits && i.registered then closed.handleDisconnect else closed

/-- `disconnect()` behind its last `await`. -/
def teardown (s : IbkrLifecycle) (emits : Bool) : IbkrLifecycle :=
  { s.closeHeld emits with
    ib := none
    state := .disconnected
    reconnectWakeup := none
    disconnecting := false }

/-- `disconnect()` up to its first `await`; it gets the next id. -/
def disconnect (s : IbkrLifecycle) (pendingWrites emits : Bool) : IbkrLifecycle :=
  let s' := { s with
    disconnecting := true, reconnectTask := none, reconnectWakeup := none, nextId := s.nextId + 1 }
  match s.reconnectTask.filter (· ∈ s.coroutines.keys) with
  | some loop =>
    { s'.setCoroutine s.nextId (.stopping loop) with cancelled := loop :: s.cancelled }
  | none =>
    if pendingWrites then s'.setCoroutine s.nextId .draining else s'.teardown emits

/-- `CancelledError` in the loop: one that has not run yet has no `finally`. -/
def cancelDelivered (s : IbkrLifecycle) (id : ℕ) : Coroutine → IbkrLifecycle
  | .created => s.endCoroutine id
  | .backoff _ wakeup => { s with wakeups := s.wakeups.insert wakeup false }.endLoop id
  | _ => s.endLoop id

/-- One step of the adapter with the schedule `delays`. An instance raises its event once, and
`connectAsync` returns only on one that has not. -/
def step (delays : List ℚ) (s : IbkrLifecycle) : LifecycleEvent → Option IbkrLifecycle
  | .start => some (s.call .start)
  | .connect => some (s.call .connect)
  | .retryNow => some s.retryNow
  | .disconnect pendingWrites emits => some (s.disconnect pendingWrites emits)
  | .loopStarts id =>
    match s.running id with
    | some .created => some (s.nextDelay id delays)
    | _ => none
  | .backoffOver id =>
    match s.running id with
    | some (.backoff rest wakeup) => some (s.attempt id rest wakeup)
    | _ => none
  | .connectReply id ok =>
    match s.running id with
    | some (.connecting awaiter ib) =>
      if ok then
        if (s.instances.get? ib).any fun i => i.raised then none
        else some (s.connectReturned id awaiter ib)
      else some (s.connectRaised id awaiter)
    | _ => none
  | .streamingReply id ok =>
    match s.running id with
    | some (.streaming awaiter ib) =>
      if ok then some (s.connectSucceeded id awaiter) else some (s.streamingFailed id awaiter ib)
    | _ => none
  | .disconnectedEvent ib =>
    match s.instances.get? ib with
    | some i =>
      if i.raised then none
      else
        let dropped := { s with instances := s.instances.insert ib { i with raised := true } }
        some (if i.registered then dropped.handleDisconnect else dropped)
    | none => none
  | .cancelDelivered id =>
    match s.coroutines.get? id with
    | some c => if id ∈ s.cancelled then some (s.cancelDelivered id c) else none
    | none => none
  | .loopAwaited id pendingWrites emits =>
    match s.coroutines.get? id with
    | some (.stopping loop) =>
      if loop ∈ s.coroutines.keys then none
      else
        let s' := { s with reconnectWakeup := none }
        if pendingWrites then some (s'.setCoroutine id .draining)
        else some ((s'.endCoroutine id).teardown emits)
    | _ => none
  | .writesDrained id emits =>
    match s.coroutines.get? id with
    | some .draining => some ((s.endCoroutine id).teardown emits)
    | _ => none

variable {s : IbkrLifecycle}

theorem get?_setCoroutine (s : IbkrLifecycle) (id : ℕ) (c : Coroutine) (j : ℕ) :
    (s.setCoroutine id c).coroutines.get? j = if j = id then some c else s.coroutines.get? j :=
  OrderedDict.get?_insert s.coroutines id j c

theorem get?_endCoroutine (s : IbkrLifecycle) (id j : ℕ) :
    (s.endCoroutine id).coroutines.get? j = if j = id then none else s.coroutines.get? j := by
  unfold endCoroutine
  rw [OrderedDict.get?_filterKeys]
  by_cases hj : j = id
  · simp [hj]
  · simp [hj]

theorem running_eq_some {id : ℕ} {c : Coroutine} :
    s.running id = some c ↔ id ∉ s.cancelled ∧ s.coroutines.get? id = some c := by
  unfold running
  split
  next h => simp [h]
  next h => simp [h]

theorem keys_insert_of_get? {d : OrderedDict ℕ IbInstance} {ib : ℕ} {i : IbInstance}
    (h : d.get? ib = some i) (i' : IbInstance) : (d.insert ib i').keys = d.keys := by
  have hmem : ib ∈ d.keys := OrderedDict.mem_keys_iff.mpr ⟨i, h⟩
  exact (OrderedDict.keys_upsert ib i' d.entries).trans (if_pos hmem)

theorem modifyInstance_eq (s : IbkrLifecycle) (ib : ℕ) (f : IbInstance → IbInstance) :
    ∃ instances, s.modifyInstance ib f = { s with instances := instances } ∧
      instances.keys = s.instances.keys ∧
      ∀ j, instances.get? j = if j = ib then (s.instances.get? j).map f else s.instances.get? j := by
  unfold modifyInstance
  cases hib : s.instances.get? ib with
  | none =>
    refine ⟨s.instances, rfl, rfl, fun j => ?_⟩
    by_cases hj : j = ib
    · simp [hj, hib]
    · simp [hj]
  | some i =>
    refine ⟨s.instances.insert ib (f i), rfl, keys_insert_of_get? hib (f i), fun j => ?_⟩
    rw [OrderedDict.get?_insert]
    by_cases hj : j = ib
    · simp [hj, hib]
    · simp [hj]

/-- A loop is created unless one is live. -/
theorem ensureLoop_cases (s : IbkrLifecycle) :
    (∃ id c, s.reconnectTask = some id ∧ s.coroutines.get? id = some c ∧ s.ensureLoop = s) ∨
      s.ReconnectDone ∧ s.ensureLoop =
        { s.setCoroutine s.nextId .created with
          reconnectTask := some s.nextId, nextId := s.nextId + 1 } := by
  unfold ensureLoop
  split
  next hdone => exact Or.inr ⟨hdone, rfl⟩
  next hlive =>
    left
    unfold ReconnectDone at hlive
    push Not at hlive
    obtain ⟨id, hid, hkeys⟩ := hlive
    obtain ⟨c, hc⟩ := OrderedDict.mem_keys_iff.mp hkeys
    exact ⟨id, c, hid, hc, rfl⟩

theorem handleDisconnect_cases (s : IbkrLifecycle) :
    (s.disconnecting = true ∨ s.state = .reconnecting) ∧ s.handleDisconnect = s ∨
      s.disconnecting = false ∧ s.state ≠ .reconnecting ∧
        s.handleDisconnect = { s with state := .reconnecting }.ensureLoop := by
  unfold handleDisconnect
  split
  next h => exact Or.inl ⟨h, rfl⟩
  next h =>
    push Not at h
    exact Or.inr ⟨by simpa using h.1, h.2, rfl⟩

/-- Only the wake-up of the adapter is new. -/
theorem wakeupEvent_cases (s : IbkrLifecycle) :
    s.wakeupEvent.2 = s ∨ ∃ wakeups,
      s.wakeupEvent.2 = { s with
        reconnectWakeup := some s.nextId, wakeups := wakeups, nextId := s.nextId + 1 } := by
  unfold wakeupEvent
  split
  next => exact Or.inl rfl
  next => exact Or.inr ⟨_, rfl⟩

/-- Only the subject and new coroutines change, into some of the kind, and a live reconnect task
stays it. -/
structure Touches (kind : Coroutine → Prop) (s t : IbkrLifecycle) (subject : Option ℕ) : Prop where
  nextId : s.nextId ≤ t.nextId
  cancelled : t.cancelled = s.cancelled
  disconnecting : t.disconnecting = s.disconnecting
  coroutines : ∀ j, t.coroutines.get? j = s.coroutines.get? j ∨
    (subject = some j ∨ s.nextId ≤ j) ∧ ∀ c, t.coroutines.get? j = some c → kind c
  task : ∀ j c, s.reconnectTask = some j → s.coroutines.get? j = some c → j < s.nextId →
    subject ≠ some j → t.reconnectTask = some j

variable {t u : IbkrLifecycle} {subject : Option ℕ} {kind : Coroutine → Prop}

theorem Touches.of_eq (hnext : s.nextId ≤ t.nextId) (hcancelled : t.cancelled = s.cancelled)
    (hdisconnecting : t.disconnecting = s.disconnecting) (hcoroutines : t.coroutines = s.coroutines)
    (htask : t.reconnectTask = s.reconnectTask) : Touches kind s t subject :=
  ⟨hnext, hcancelled, hdisconnecting, fun j => Or.inl (by rw [hcoroutines]),
    fun _ _ hj _ _ _ => htask.trans hj⟩

theorem Touches.coroutine_eq (h : Touches kind s t subject) {j : ℕ} (hj : j < s.nextId)
    (hsubject : subject ≠ some j) : t.coroutines.get? j = s.coroutines.get? j := by
  rcases h.coroutines j with heq | ⟨hsub | hnew, -⟩
  · exact heq
  · exact absurd hsub hsubject
  · exact absurd hj hnew.not_gt

theorem Touches.trans (h : Touches kind s t subject) (h' : Touches kind t u subject) :
    Touches kind s u subject := by
  refine ⟨h.nextId.trans h'.nextId, h'.cancelled.trans h.cancelled,
    h'.disconnecting.trans h.disconnecting, fun j => ?_, ?_⟩
  · rcases h'.coroutines j with heq' | ⟨hj, hc⟩
    · rw [heq']
      exact h.coroutines j
    · exact Or.inr ⟨hj.imp_right h.nextId.trans, hc⟩
  · intro j c htask hc hj hsubject
    exact h'.task j c (h.task j c htask hc hj hsubject) ((h.coroutine_eq hj hsubject).trans hc)
      (hj.trans_le h.nextId) hsubject

theorem Touches.mono {kind' : Coroutine → Prop} (h : Touches kind s t subject)
    (hkind : ∀ c, kind c → kind' c) : Touches kind' s t subject :=
  ⟨h.nextId, h.cancelled, h.disconnecting, fun j => (h.coroutines j).imp_right
    fun ⟨hj, hc⟩ => ⟨hj, fun c hjc => hkind c (hc c hjc)⟩, h.task⟩

theorem Touches.setCoroutine (s : IbkrLifecycle) {id : ℕ} {c : Coroutine}
    (hid : subject = some id ∨ s.nextId ≤ id) (hc : kind c) :
    Touches kind s (s.setCoroutine id c) subject := by
  refine ⟨le_rfl, rfl, rfl, fun j => ?_, fun _ _ hj _ _ _ => hj⟩
  rw [get?_setCoroutine]
  split
  next heq =>
    subst heq
    refine Or.inr ⟨hid, fun d hd => ?_⟩
    obtain rfl := Option.some.inj hd
    exact hc
  next => exact Or.inl rfl

theorem Touches.modifyInstance (s : IbkrLifecycle) (ib : ℕ) (f : IbInstance → IbInstance) :
    Touches kind s (s.modifyInstance ib f) subject := by
  obtain ⟨instances, heq, -, -⟩ := modifyInstance_eq s ib f
  rw [heq]
  exact .of_eq le_rfl rfl rfl rfl rfl

theorem Touches.beginConnect (s : IbkrLifecycle) {id : ℕ} {awaiter : Awaiter}
    (hid : subject = some id ∨ s.nextId ≤ id) (hkind : kind (.connecting awaiter s.nextId)) :
    Touches kind s (s.beginConnect id awaiter) subject :=
  (Touches.setCoroutine s hid hkind).trans (.of_eq (Nat.le_succ _) rfl rfl rfl rfl)

/-- A turn that leaves the instances alone and ends in loops that wait. -/
structure Turns (s t : IbkrLifecycle) (subject : Option ℕ) : Prop extends
    Touches (fun c => c.waits = true) s t subject where
  instances : t.instances = s.instances
  ib : t.ib = s.ib

theorem Turns.of_eq (hnext : s.nextId ≤ t.nextId) (hcancelled : t.cancelled = s.cancelled)
    (hdisconnecting : t.disconnecting = s.disconnecting) (hcoroutines : t.coroutines = s.coroutines)
    (htask : t.reconnectTask = s.reconnectTask) (hinstances : t.instances = s.instances)
    (hib : t.ib = s.ib) : s.Turns t subject :=
  ⟨.of_eq hnext hcancelled hdisconnecting hcoroutines htask, hinstances, hib⟩

theorem Turns.trans (h : s.Turns t subject) (h' : t.Turns u subject) : s.Turns u subject :=
  ⟨h.toTouches.trans h'.toTouches, h'.instances.trans h.instances, h'.ib.trans h.ib⟩

theorem Turns.endCoroutine (s : IbkrLifecycle) (id : ℕ) :
    s.Turns (s.endCoroutine id) (some id) := by
  refine ⟨⟨le_rfl, rfl, rfl, fun j => ?_, fun _ _ hj _ _ _ => hj⟩, rfl, rfl⟩
  rw [get?_endCoroutine]
  split
  next heq =>
    subst heq
    refine Or.inr ⟨Or.inl rfl, fun d hd => ?_⟩
    cases hd
  next => exact Or.inl rfl

theorem Turns.endLoop (s : IbkrLifecycle) (id : ℕ) : s.Turns (s.endLoop id) (some id) :=
  (endCoroutine s id).trans (.of_eq le_rfl rfl rfl rfl rfl rfl rfl)

theorem Turns.ensureLoop (s : IbkrLifecycle) : s.Turns s.ensureLoop subject := by
  rcases ensureLoop_cases s with ⟨-, -, -, -, heq⟩ | ⟨hdone, heq⟩
  · rw [heq]
    exact .of_eq le_rfl rfl rfl rfl rfl rfl rfl
  · rw [heq]
    have hcreated : Touches (fun c => c.waits = true) s (s.setCoroutine s.nextId .created) subject :=
      .setCoroutine s (Or.inr le_rfl) rfl
    refine ⟨⟨Nat.le_succ _, rfl, rfl, hcreated.coroutines, fun j c hj hc _ _ => ?_⟩, rfl, rfl⟩
    exact absurd (OrderedDict.mem_keys_iff.mpr ⟨c, hc⟩) (hdone j hj)

theorem Turns.handleDisconnect (s : IbkrLifecycle) : s.Turns s.handleDisconnect subject := by
  rcases handleDisconnect_cases s with ⟨-, heq⟩ | ⟨-, -, heq⟩
  · rw [heq]
    exact .of_eq le_rfl rfl rfl rfl rfl rfl rfl
  · rw [heq]
    have hstate : s.Turns { s with state := .reconnecting } subject :=
      .of_eq le_rfl rfl rfl rfl rfl rfl rfl
    exact hstate.trans (.ensureLoop _)

theorem Turns.wakeupEvent (s : IbkrLifecycle) : s.Turns s.wakeupEvent.2 subject := by
  rcases wakeupEvent_cases s with heq | ⟨wakeups, heq⟩
  · rw [heq]
    exact .of_eq le_rfl rfl rfl rfl rfl rfl rfl
  · rw [heq]
    exact .of_eq (Nat.le_succ _) rfl rfl rfl rfl rfl rfl

theorem Turns.nextDelay (s : IbkrLifecycle) (id : ℕ) (delays : List ℚ) :
    s.Turns (s.nextDelay id delays) (some id) := by
  cases delays with
  | nil => exact (Turns.endLoop s id).trans (.of_eq le_rfl rfl rfl rfl rfl rfl rfl)
  | cons delay rest =>
    have hdelay : s.Turns { s with currentBackoffDelay := some delay } (some id) :=
      .of_eq le_rfl rfl rfl rfl rfl rfl rfl
    have hbackoff : ∀ s : IbkrLifecycle, ∀ wakeup,
        s.Turns (s.setCoroutine id (.backoff rest wakeup)) (some id) := fun s _ =>
      ⟨.setCoroutine s (Or.inl rfl) rfl, rfl, rfl⟩
    exact (hdelay.trans (.wakeupEvent _)).trans (hbackoff _ _)

theorem Turns.connectRaised (s : IbkrLifecycle) (id : ℕ) (awaiter : Awaiter) :
    s.Turns (s.connectRaised id awaiter) (some id) := by
  cases awaiter with
  | start => exact (Turns.endCoroutine s id).trans (.handleDisconnect _)
  | connect => exact .endCoroutine s id
  | reconnectLoop rest => exact .nextDelay s id rest

theorem Turns.connectSucceeded (s : IbkrLifecycle) (id : ℕ) (awaiter : Awaiter) :
    s.Turns (s.connectSucceeded id awaiter) (some id) := by
  cases awaiter with
  | start => exact (Turns.endCoroutine s id).trans (.of_eq le_rfl rfl rfl rfl rfl rfl rfl)
  | connect => exact (Turns.endCoroutine s id).trans (.of_eq le_rfl rfl rfl rfl rfl rfl rfl)
  | reconnectLoop rest => exact (Turns.endLoop s id).trans (.of_eq le_rfl rfl rfl rfl rfl rfl rfl)

theorem Turns.retryNow (s : IbkrLifecycle) : s.Turns s.retryNow subject := by
  unfold IbkrLifecycle.retryNow
  split
  next => exact .of_eq le_rfl rfl rfl rfl rfl rfl rfl
  next =>
    have hwoken : s.Turns { s.wakeupEvent.2 with
        wakeups := s.wakeupEvent.2.wakeups.insert s.wakeupEvent.1 true } subject :=
      (Turns.wakeupEvent s).trans (.of_eq le_rfl rfl rfl rfl rfl rfl rfl)
    dsimp only
    split
    next => exact hwoken.trans (.handleDisconnect _)
    next => exact hwoken.trans (.ensureLoop _)

theorem Turns.cancelDelivered (s : IbkrLifecycle) (id : ℕ) (c : Coroutine) :
    s.Turns (s.cancelDelivered id c) (some id) := by
  unfold IbkrLifecycle.cancelDelivered
  split
  next => exact .endCoroutine s id
  next rest wakeup =>
    have hcleared : s.Turns { s with wakeups := s.wakeups.insert wakeup false } (some id) :=
      .of_eq le_rfl rfl rfl rfl rfl rfl rfl
    exact hcleared.trans (.endLoop _ id)
  next => exact .endLoop s id

theorem Turns.touches (h : s.Turns t subject) :
    Touches (fun c => c.isDisconnect = false) s t subject :=
  h.toTouches.mono fun c hc => by cases c <;> simp_all [Coroutine.waits, Coroutine.isDisconnect]

end IbkrLifecycle

/-- The coroutine that an event resumes. -/
def LifecycleEvent.subject : LifecycleEvent → Option ℕ
  | .loopStarts id => some id
  | .backoffOver id => some id
  | .connectReply id _ => some id
  | .streamingReply id _ => some id
  | .cancelDelivered id => some id
  | .loopAwaited id _ _ => some id
  | .writesDrained id _ => some id
  | _ => none

/-- The event is a part of a `disconnect()`. -/
def LifecycleEvent.disconnects : LifecycleEvent → Bool
  | .disconnect _ _ => true
  | .loopAwaited _ _ _ => true
  | .writesDrained _ _ => true
  | _ => false

namespace IbkrLifecycle

theorem Touches.call (s : IbkrLifecycle) {awaiter : Awaiter}
    (hkind : kind (.connecting awaiter (s.nextId + 1))) :
    Touches kind s (s.call awaiter) none := by
  refine ⟨(Nat.le_succ _).trans (Nat.le_succ _), rfl, rfl, ?_, fun _ _ hj _ _ _ => hj⟩
  have hset : Touches kind s (s.setCoroutine s.nextId (.connecting awaiter (s.nextId + 1))) none :=
    .setCoroutine s (Or.inr le_rfl) hkind
  exact hset.coroutines

/-- A step outside of `disconnect()` leaves the coroutines it does not resume. -/
theorem step_touches {delays : List ℚ} {e : LifecycleEvent} (he : e.disconnects = false)
    (hstep : step delays s e = some t) :
    Touches (fun c => c.isDisconnect = false) s t e.subject := by
  cases e with
  | start =>
    obtain rfl := Option.some.inj hstep
    exact .call s rfl
  | connect =>
    obtain rfl := Option.some.inj hstep
    exact .call s rfl
  | retryNow =>
    obtain rfl := Option.some.inj hstep
    exact (Turns.retryNow s).touches
  | disconnect pendingWrites emits => cases he
  | loopStarts id =>
    simp only [step] at hstep
    split at hstep
    next =>
      obtain rfl := Option.some.inj hstep
      exact (Turns.nextDelay s id delays).touches
    next => cases hstep
  | backoffOver id =>
    simp only [step] at hstep
    split at hstep
    next rest wakeup _ =>
      obtain rfl := Option.some.inj hstep
      unfold attempt
      dsimp only
      split
      next =>
        have hcleared : s.Turns { s with wakeups := s.wakeups.insert wakeup false } (some id) :=
          .of_eq le_rfl rfl rfl rfl rfl rfl rfl
        exact (hcleared.trans (.endLoop _ id)).touches
      next =>
        have hcleared : Touches (fun c => c.isDisconnect = false) s
            { s with wakeups := s.wakeups.insert wakeup false, ib := none } (some id) :=
          .of_eq le_rfl rfl rfl rfl rfl
        exact hcleared.trans (.beginConnect _ (Or.inl rfl) rfl)
    next => cases hstep
  | connectReply id ok =>
    simp only [step] at hstep
    split at hstep
    next awaiter ib _ =>
      split at hstep
      next =>
        split at hstep
        next => cases hstep
        next =>
          obtain rfl := Option.some.inj hstep
          have hreturned : Touches (fun c => c.isDisconnect = false) s
              ((s.modifyInstance ib fun i => { i with connected := true, registered := true }
                ).setCoroutine id (.streaming awaiter ib)) (some id) :=
            (Touches.modifyInstance s ib _).trans (.setCoroutine _ (Or.inl rfl) rfl)
          exact hreturned.trans (.of_eq le_rfl rfl rfl rfl rfl)
      next =>
        obtain rfl := Option.some.inj hstep
        exact (Turns.connectRaised s id awaiter).touches
    next => cases hstep
  | streamingReply id ok =>
    simp only [step] at hstep
    split at hstep
    next awaiter ib _ =>
      split at hstep
      next =>
        obtain rfl := Option.some.inj hstep
        exact (Turns.connectSucceeded s id awaiter).touches
      next =>
        obtain rfl := Option.some.inj hstep
        have hcleared : Touches (fun c => c.isDisconnect = false) s { s with ib := none }
            (some id) := .of_eq le_rfl rfl rfl rfl rfl
        exact (hcleared.trans (.modifyInstance _ ib _)).trans
          (Turns.connectRaised _ id awaiter).touches
    next => cases hstep
  | disconnectedEvent ib =>
    simp only [step] at hstep
    split at hstep
    next i _ =>
      split at hstep
      next => cases hstep
      next =>
        have hdropped : Touches (fun c => c.isDisconnect = false) s { s with
            instances := s.instances.insert ib { i with raised := true } } none :=
          .of_eq le_rfl rfl rfl rfl rfl
        obtain rfl := Option.some.inj hstep
        split
        next => exact hdropped.trans (Turns.handleDisconnect _).touches
        next => exact hdropped
    next => cases hstep
  | cancelDelivered id =>
    simp only [step] at hstep
    split at hstep
    next c _ =>
      split at hstep
      next =>
        obtain rfl := Option.some.inj hstep
        exact (Turns.cancelDelivered s id c).touches
      next => cases hstep
    next => cases hstep
  | loopAwaited id pendingWrites emits => cases he
  | writesDrained id emits => cases he

end IbkrLifecycle

end PortfolioHub
