import PortfolioHub.PollingTasks

namespace PortfolioHub

namespace PollingCoroutine

/-- The call whose refresh a coroutine is in. -/
def refreshes? : PollingCoroutine → Option PollingCall
  | .running call (.refreshing _) => some call
  | _ => none

/-- A `start()` closes after a failure that it will answer with a reconnect loop. -/
def Retries (c : PollingCoroutine) : Prop :=
  c = .running .start (.failing false) ∨ c = .startFailing false

theorem Retries.role {c : PollingCoroutine} (h : c.Retries) : c.role = .tail := by
  rcases h with rfl | rfl <;> rfl

/-- The attempt of a reconnect loop closes what it has opened. -/
def Failing (c : PollingCoroutine) : Prop :=
  ∃ rest invalid, c = .running (.reconnectLoop rest) (.failing invalid)

end PollingCoroutine

namespace PollingAdapter

variable {config : PollingConfig} {s t u : PollingAdapter} {id : ℕ} {call : PollingCall}

/-- Calls are made one at a time, and no reconnect delay runs out in one. Where there are delays
no refresh inside `connect()` raises, and none inside `start()` a ValueError. -/
def OneAtATime (config : PollingConfig) (s : PollingAdapter) : PollingEvent → Prop
  | .start _ => ∀ c ∈ s.coroutines.values, c.role.isCall = false
  | .connect _ => ∀ c ∈ s.coroutines.values, c.role.isCall = false
  | .disconnect _ => ∀ c ∈ s.coroutines.values, c.role.isCall = false
  | .loopWakes _ _ => ∀ c ∈ s.coroutines.values, c.role.isCall = false
  | .fetchEnds id (some invalid) _ => config.delays = [] ∨
      ∀ call ∈ (s.coroutines.get? id).bind PollingCoroutine.refreshes?,
        call ≠ .connect ∧ (call = .start → invalid = false)
  | _ => True

instance (config : PollingConfig) (s : PollingAdapter) :
    (e : PollingEvent) → Decidable (s.OneAtATime config e)
  | .start _ => inferInstanceAs (Decidable (∀ c ∈ s.coroutines.values, _))
  | .connect _ => inferInstanceAs (Decidable (∀ c ∈ s.coroutines.values, _))
  | .disconnect _ => inferInstanceAs (Decidable (∀ c ∈ s.coroutines.values, _))
  | .getPositions _ => inferInstanceAs (Decidable True)
  | .loopStarts _ => inferInstanceAs (Decidable True)
  | .loopWakes _ _ => inferInstanceAs (Decidable (∀ c ∈ s.coroutines.values, _))
  | .pollWakes _ _ => inferInstanceAs (Decidable True)
  | .taskAwaited _ _ => inferInstanceAs (Decidable True)
  | .closed _ _ => inferInstanceAs (Decidable True)
  | .opened _ _ _ => inferInstanceAs (Decidable True)
  | .asks _ => inferInstanceAs (Decidable True)
  | .fetchEnds _ none _ => inferInstanceAs (Decidable True)
  | .fetchEnds _ (some _) _ => inferInstanceAs (Decidable (_ ∨ ∀ call ∈ _, _))
  | .cancelDelivered _ => inferInstanceAs (Decidable True)

theorem OneAtATime.serial {e : PollingEvent} (h : s.OneAtATime config e) : s.Serial config e := by
  cases e with
  | start turn => exact h
  | connect turn => exact h
  | disconnect turn => exact forall_values.mpr (Uncalled.unopened (forall_values.mp h))
  | loopWakes id turn => exact fun _ => h
  | _ => trivial

/-- The turn in which a call returns or raises, with no other in flight. -/
def Finishes (s t : PollingAdapter) : PollingEvent → Prop
  | .start _ => t.Uncalled
  | .connect _ => t.Uncalled
  | .disconnect _ => t.Uncalled
  | .taskAwaited id _ =>
    (∃ c, s.coroutines.get? id = some c ∧ c.role.isCall = true) ∧ t.Uncalled
  | .closed id _ => (∃ c, s.coroutines.get? id = some c ∧ c.role.isCall = true) ∧ t.Uncalled
  | .opened id _ _ => (∃ c, s.coroutines.get? id = some c ∧ c.role.isCall = true) ∧ t.Uncalled
  | .fetchEnds id _ _ => (∃ c, s.coroutines.get? id = some c ∧ c.role.isCall = true) ∧ t.Uncalled
  | _ => False

/-- Beside a closing `start()` or `connect()` there is a worker only where a loop will be kept.
The loop of a DISCONNECTED adapter, with no call in flight, closes after a failed attempt. -/
structure Settled (config : PollingConfig) (s : PollingAdapter) : Prop where
  tail : ∀ k d, s.coroutines.get? k = some d → d.role = .tail →
    ∀ i c, s.coroutines.get? i = some c → c.role.isWorker = true →
      config.delays ≠ [] ∧ d.Retries
  loop : ∀ i c, s.coroutines.get? i = some c → i ∉ s.cancelled →
    c.role = .loop ∨ c.role = .attempt → s.state = .disconnected → c.Failing ∨ ¬ s.Uncalled

/-- What a turn of whoever runs the call leaves behind. -/
inductive Outcome (config : PollingConfig) (id : ℕ) (call : PollingCall) (u : PollingAdapter) :
    Prop
  | waits (c : PollingCoroutine) (hc : u.coroutines.get? id = some c)
      (hrole : c.role = .connecting ∨ c.role = .disconnecting)
  | quiet (h : ∀ i c, u.coroutines.get? i = some c → c.role.isWorker = false)
  | stopped (hquelled : u.Quelled) (hunopened : u.Unopened)
  | running (hstate : u.state ≠ .disconnected) (huncalled : u.Uncalled)
  | retries (d : PollingCoroutine) (hdelays : config.delays ≠ [])
      (hd : u.coroutines.get? id = some d) (h : d.Retries)
  | failing (c : PollingCoroutine) (hloop : ∃ rest, call = .reconnectLoop rest)
      (huncalled : u.Uncalled) (hc : u.coroutines.get? id = some c) (h : c.Failing)

theorem not_uncalled {c : PollingCoroutine} (hc : s.coroutines.get? id = some c)
    (hcall : c.role.isCall = true) : ¬ s.Uncalled :=
  fun h => absurd (hcall.symm.trans (h id c hc)) (by decide)

/-- Beside a call there is no other that closes. -/
theorem Tidy.tail_eq (h : s.Tidy config) {c d : PollingCoroutine} {k : ℕ}
    (hc : s.coroutines.get? id = some c) (hcall : c.role.isCall = true)
    (hd : s.coroutines.get? k = some d) (hrole : d.role = .tail) : d = c := by
  obtain rfl := h.alone k id d c hd hc (by rw [hrole]; rfl) hcall
  exact Option.some.inj (hd.symm.trans hc)

theorem Outcome.settled (ho : u.Outcome config id call) (h : u.Tidy config) :
    u.Settled config := by
  cases ho with
  | waits c hc hrole =>
    have hcall : c.role.isCall = true := by rcases hrole with heq | heq <;> rw [heq] <;> rfl
    refine ⟨fun k d hd htail => ?_, fun _ _ _ _ _ _ => Or.inr (not_uncalled hc hcall)⟩
    obtain rfl := h.tail_eq hc hcall hd htail
    rw [htail] at hrole
    rcases hrole with heq | heq <;> cases heq
  | quiet hquiet =>
    refine ⟨fun k d hd htail i c hc hworker => ?_, fun i c hc _ hrole => ?_⟩
    · exact absurd (hworker.symm.trans (hquiet i c hc)) (by decide)
    · have hnot := hquiet i c hc
      rcases hrole with heq | heq <;> rw [heq] at hnot <;> cases hnot
  | stopped hquelled hunopened =>
    refine ⟨fun k d hd htail => ?_, fun i c hc hi hrole => absurd (hquelled i c hc ?_) hi⟩
    · have hopens := hunopened k d hd
      rw [htail] at hopens
      cases hopens
    · rcases hrole with heq | heq <;> rw [heq] <;> rfl
  | running hstate huncalled =>
    refine ⟨fun k d hd htail => ?_, fun _ _ _ _ _ hdisconnected => absurd hdisconnected hstate⟩
    exact absurd huncalled (not_uncalled hd (by rw [htail]; rfl))
  | retries d hdelays hd hretries =>
    have hcall : d.role.isCall = true := by rw [hretries.role]; rfl
    refine ⟨fun k d' hd' htail _ _ _ _ => ⟨hdelays, ?_⟩,
      fun _ _ _ _ _ _ => Or.inr (not_uncalled hd hcall)⟩
    rw [h.tail_eq hd hcall hd' htail]
    exact hretries
  | failing c hloop huncalled hc hfailing =>
    refine ⟨fun k d hd htail => ?_, fun i d hd _ hrole _ => Or.inl ?_⟩
    · exact absurd huncalled (not_uncalled hd (by rw [htail]; rfl))
    · have hworker : d.role.isWorker = true := by rcases hrole with heq | heq <;> rw [heq] <;> rfl
      have hcworker : c.role.isWorker = true := by
        obtain ⟨rest, invalid, rfl⟩ := hfailing
        rfl
      obtain rfl := h.one i id d c hd hc hworker hcworker
      rwa [Option.some.inj (hd.symm.trans hc)]

/-- Where a call has finished DISCONNECTED no task is left. -/
theorem Outcome.idle (ho : u.Outcome config id call) (h : u.Tidy config)
    (hloop : ∀ rest, call ≠ .reconnectLoop rest) (huncalled : u.Uncalled)
    (hstate : u.state = .disconnected) : u.Idle := by
  cases ho with
  | waits c hc hrole =>
    exact absurd huncalled (not_uncalled hc (by rcases hrole with heq | heq <;> rw [heq] <;> rfl))
  | quiet hquiet =>
    exact h.idle huncalled fun i c hc hworker =>
      absurd (hworker.symm.trans (hquiet i c hc)) (by decide)
  | stopped hquelled => exact h.idle huncalled hquelled
  | running hne => exact absurd hstate hne
  | retries d _ hd hretries => exact absurd huncalled (not_uncalled hd (by rw [hretries.role]; rfl))
  | failing c hrest =>
    obtain ⟨rest, hrest⟩ := hrest
    exact absurd hrest (hloop rest)

theorem Idle.quiet (h : s.Idle) : s.Outcome config id call :=
  .quiet fun i c hc => by
    rw [h i c hc]
    rfl

/-- One coroutine beside calls of `get_positions`. -/
theorem Idle.uncalled_set (h : s.Idle) {c : PollingCoroutine} (hc : c.role.isCall = false) :
    (s.setCoroutine id c).Uncalled := by
  intro j d hd
  rw [get?_setCoroutine] at hd
  split at hd
  next =>
    obtain rfl := Option.some.inj hd
    exact hc
  next => exact h.uncalled j d hd

theorem Idle.quiet_set (h : s.Idle) {c : PollingCoroutine} (hc : c.role.isWorker = false) :
    (s.setCoroutine id c).Outcome config id call := by
  refine .quiet fun j d hd => ?_
  rw [get?_setCoroutine] at hd
  split at hd
  next =>
    obtain rfl := Option.some.inj hd
    exact hc
  next =>
    rw [h j d hd]
    rfl

theorem get?_setCoroutine_self (s : PollingAdapter) (id : ℕ) (c : PollingCoroutine) :
    (s.setCoroutine id c).coroutines.get? id = some c :=
  (get?_setCoroutine s id c id).trans (if_pos rfl)

/-- `connect()` goes on. -/
theorem Idle.goes (h : s.Idle) {stage : PollingStage} (hcall : call ≠ .disconnect)
    (hstage : ∀ invalid, stage ≠ .failing invalid)
    (hstate : (∃ rest, call = .reconnectLoop rest) → s.state ≠ .disconnected) :
    (s.setCoroutine id (.running call stage)).Outcome config id call := by
  cases call with
  | disconnect => exact absurd rfl hcall
  | reconnectLoop rest => exact .running (hstate ⟨rest, rfl⟩) (h.uncalled_set rfl)
  | _ =>
    refine .waits _ (get?_setCoroutine_self s id _) (Or.inl ?_)
    cases stage <;> first | rfl | exact absurd rfl (hstage _)

/-- Where there are delays `_enter_reconnecting` leaves the adapter RECONNECTING. -/
theorem Uncalled.reconnecting (h : s.Uncalled) (hdelays : config.delays ≠ []) (current : ℕ) :
    (s.enterReconnecting config current).Outcome config id call := by
  unfold enterReconnecting
  rw [if_neg hdelays]
  split
  next hstate =>
    exact .running (by rw [hstate]; decide) h
  next =>
    split
    next =>
      refine .running (fun heq => ConnectionState.noConfusion heq) fun j d hd => ?_
      have hd' := (get?_setCoroutine s s.nextId .loopCreated j).symm.trans hd
      split at hd'
      next =>
        obtain rfl := Option.some.inj hd'
        rfl
      next => exact h j d hd'
    next => exact .running (fun heq => ConnectionState.noConfusion heq) h

theorem Idle.enterReconnecting (h : s.Idle) (current : ℕ) :
    (s.enterReconnecting config current).Outcome config id call := by
  by_cases hdelays : config.delays = []
  · unfold PollingAdapter.enterReconnecting
    rw [if_pos hdelays]
    split
    next => exact h.quiet
    next => exact Idle.quiet (s := { s with state := .disconnected }) h
  · exact h.uncalled.reconnecting hdelays current

theorem Idle.nextDelay (h : s.Idle) (hstate : s.state ≠ .disconnected) :
    ∀ delays, (s.nextDelay id delays).Outcome config id call
  | [] => Idle.quiet (s := { s with state := .disconnected }) h
  | _ :: _ => .running hstate (h.uncalled_set rfl)

/-- `connect()` has failed beside no task, or in a `start()` beside a loop that it will keep. -/
def Fails (config : PollingConfig) (s : PollingAdapter) (call : PollingCall) (invalid : Bool) :
    Prop :=
  s.Idle ∨ s.Uncalled ∧ call = .start ∧ invalid = false ∧ config.delays ≠ []

variable {invalid : Bool}

theorem Fails.startFailed (h : s.Fails config .start invalid) :
    (s.startFailed config id invalid).Outcome config id .start := by
  unfold PollingAdapter.startFailed
  rcases h with hidle | ⟨huncalled, -, rfl, hdelays⟩
  · split
    next => exact Idle.quiet (s := { s with state := .disconnected }) hidle
    next => exact hidle.enterReconnecting id
  · exact huncalled.reconnecting hdelays id

theorem Fails.raised (h : s.Fails config call invalid) (turn : PollingTurn) :
    (s.raised config id invalid turn call).Outcome config id call := by
  unfold PollingAdapter.raised
  cases call with
  | start =>
    have hclosed : s.closeSession.Fails config .start invalid := h
    dsimp only
    split
    next =>
      rcases hclosed with hidle | ⟨-, -, rfl, hdelays⟩
      · exact hidle.quiet_set rfl
      · exact .retries _ hdelays (get?_setCoroutine_self _ id _) (Or.inr rfl)
    next => exact hclosed.startFailed
  | reconnectLoop rest =>
    rcases h with hidle | ⟨-, heq, -⟩
    · dsimp only
      split
      next => exact Idle.quiet (s := { s with state := .disconnected }) hidle
      next =>
        exact Idle.nextDelay (s := { s with state := .reconnecting }) hidle
          (fun heq => ConnectionState.noConfusion heq) rest
    · cases heq
  | _ =>
    rcases h with hidle | ⟨-, heq, -⟩
    · exact hidle.quiet
    · cases heq

theorem Fails.failureClosed (h : s.Fails config call invalid) (hfutu : config.broker = .futu)
    (turn : PollingTurn) : (s.failureClosed config id call invalid turn).Outcome config id call := by
  unfold PollingAdapter.failureClosed
  rw [if_pos hfutu]
  exact h.raised turn

theorem Fails.failed (h : s.Fails config call invalid) (hfutu : config.broker = .futu)
    (turn : PollingTurn) : (s.failed config id call invalid turn).Outcome config id call := by
  have hclosed : Fails config { s with state := .disconnected, session := none } call invalid := h
  unfold PollingAdapter.failed
  rw [if_pos hfutu]
  dsimp only
  split
  next =>
    rcases hclosed with hidle | ⟨-, rfl, rfl, hdelays⟩
    · cases call with
      | reconnectLoop rest =>
        exact .failing _ ⟨rest, rfl⟩ (hidle.uncalled_set rfl) (get?_setCoroutine_self _ id _)
          ⟨rest, invalid, rfl⟩
      | _ => exact hidle.quiet_set rfl
    · exact .retries _ hdelays (get?_setCoroutine_self _ id _) (Or.inl rfl)
  next => exact hclosed.failureClosed hfutu turn

theorem Idle.publishes (h : s.Idle) (observed : List (Option ℕ)) :
    (s.connected config observed).Outcome config id call := by
  have hpolls : ∀ u : PollingAdapter, u.Idle → u.startPolling.Uncalled := fun u hu =>
    Idle.uncalled_set (s := u) hu rfl
  unfold PollingAdapter.connected
  dsimp only
  split
  next =>
    split
    next => exact .running (fun heq => ConnectionState.noConfusion heq) (hpolls _ h)
    next => exact .running (fun heq => ConnectionState.noConfusion heq) (hpolls _ h)
  next =>
    split
    next => exact .running (fun heq => ConnectionState.noConfusion heq) h.uncalled
    next => exact .running (fun heq => ConnectionState.noConfusion heq) h.uncalled

theorem Idle.loads (h : s.Idle) (hcall : call ≠ .disconnect) (observed : List (Option ℕ))
    (turn : PollingTurn) : (s.loaded config id call observed turn).Outcome config id call := by
  unfold PollingAdapter.loaded
  split
  next =>
    split
    next =>
      exact Idle.goes (s := { s with state := .connected }) h hcall nofun
        (fun _ heq => ConnectionState.noConfusion heq)
    next => exact h.publishes []
  next => exact h.publishes observed

theorem Idle.opens (h : s.Idle) (id : ℕ) (hfutu : config.broker = .futu) (hcall : call ≠ .disconnect)
    (hstate : (∃ rest, call = .reconnectLoop rest) → s.state ≠ .disconnected)
    (turn : PollingTurn) : (s.openSession config id call turn).Outcome config id call := by
  unfold PollingAdapter.openSession
  split
  next =>
    rw [if_pos hfutu]
    exact h.goes hcall nofun hstate
  next =>
    rw [if_neg fun hnot => hnot.1 hfutu]
    exact Fails.raised (Or.inl h) turn

theorem Idle.closes (h : s.Idle) (hfutu : config.broker = .futu) (hcall : call ≠ .disconnect)
    (hstate : (∃ rest, call = .reconnectLoop rest) → s.state ≠ .disconnected)
    (turn : PollingTurn) : (s.closeContexts config id call turn).Outcome config id call := by
  have hidle : s.closeSession.Idle := h
  unfold PollingAdapter.closeContexts
  split
  next => exact hidle.goes hcall nofun hstate
  next =>
    have hopens := hidle.opens id hfutu hcall hstate turn
    cases call with
    | disconnect => exact absurd rfl hcall
    | _ => exact hopens

/-- The close of a call that has stopped the tasks. -/
theorem Calls.closes (h : s.Calls id call) (htidy : s.Tidy config) (hfutu : config.broker = .futu)
    (hquelled : s.Quelled) (turn : PollingTurn) :
    (s.closeContexts config id call turn).Outcome config id call := by
  rcases h.alone with ⟨rfl, hunopened⟩ | ⟨hcall, huncalled⟩
  · unfold PollingAdapter.closeContexts
    split
    next => exact .waits _ (get?_setCoroutine_self _ id _) (Or.inr rfl)
    next => exact .stopped hquelled hunopened
  · exact (htidy.idle huncalled hquelled).closes hfutu hcall
      (fun ⟨rest, hrest⟩ => absurd hrest (h.loop rest)) turn

/-- A call awaits a task that it has cancelled. -/
theorem Calls.waits (h : s.Calls id call) {stage : PollingStage} {c : PollingCoroutine} {w : ℕ}
    (hstage : stage = .stoppingReconnect w ∨ stage = .stoppingPoll w)
    (hc : c = .running call stage) (hget : u.coroutines.get? id = some c) :
    u.Outcome config id call := by
  subst hc
  refine .waits _ hget ?_
  cases call with
  | reconnectLoop rest => exact absurd rfl (h.loop rest)
  | disconnect => exact Or.inr rfl
  | _ => rcases hstage with rfl | rfl <;> exact Or.inl rfl

theorem Calls.stops (h : s.Calls id call) (htidy : s.Tidy config) (hfutu : config.broker = .futu)
    (hpolls : ∀ i c, s.coroutines.get? i = some c → c.role.isWorker = true → i ∉ s.cancelled →
      c.role = .poll) (turn : PollingTurn) :
    (s.stopPolling config id call turn).Outcome config id call := by
  unfold PollingAdapter.stopPolling
  split
  next task _ =>
    exact h.waits (Or.inr rfl) rfl (get?_setCoroutine_self s id (.running call (.stoppingPoll task)))
  next hnone =>
    obtain ⟨hquelled, hclear, hcalls⟩ := h.pollCleared htidy hpolls hnone
    exact hcalls.closes hclear hfutu hquelled turn

theorem Calls.begins (h : s.Calls id call) (htidy : s.Tidy config) (hfutu : config.broker = .futu)
    (turn : PollingTurn) : (s.stopReconnecting config id call turn).Outcome config id call := by
  unfold PollingAdapter.stopReconnecting
  split
  next task _ =>
    exact h.waits (Or.inl rfl) rfl
      (get?_setCoroutine_self s id (.running call (.stoppingReconnect task)))
  next hnone => exact h.loopCleared.stops (htidy.loopCleared hnone) hfutu (htidy.polls hnone) turn

/-- The attempt of a reconnect loop begins. -/
theorem Idle.wakes (h : s.Idle) (htidy : s.Tidy config) {rest : List ℚ}
    (hcaller : s.Caller id (.reconnectLoop rest)) (hfutu : config.broker = .futu)
    (hstate : s.state ≠ .disconnected) (turn : PollingTurn) :
    (s.wake config id rest turn).Outcome config id (.reconnectLoop rest) := by
  unfold wake
  split
  next => exact h.quiet
  next =>
    rw [if_pos (hcaller.loop.mpr ⟨rest, rfl⟩)]
    unfold PollingAdapter.stopPolling
    split
    next task hsome =>
      obtain ⟨htask, c, hc⟩ := filter_live_eq_some hsome
      exact absurd (htidy.task .poll task c htask hc).2.1 (h.not_worker hc)
    next =>
      exact Idle.closes (s := { s with pollTask := none }) h hfutu (by simp) (fun _ => hstate) turn

/-- The workers and the calls stay what they are, but for what a fetch has seen and the delays a
loop has left. -/
theorem Settled.keep (h : s.Settled config) (hcancelled : ∀ i ∈ s.cancelled, i ∈ t.cancelled)
    (hstate : t.state = s.state)
    (hget : ∀ i c, t.coroutines.get? i = some c → c.role = .reader ∨
      ∃ c', s.coroutines.get? i = some c' ∧ c'.role = c.role ∧
        (c = c' ∨ c'.seen? ≠ none ∨ c'.role = .loop))
    (hcalls : ∀ k d, s.coroutines.get? k = some d → d.role.isCall = true →
      ∃ d', t.coroutines.get? k = some d' ∧ d'.role.isCall = true) : t.Settled config := by
  constructor
  · intro k d hd htail i c hc hworker
    rcases hget k d hd with hreader | ⟨d', hd', hrole, hsame⟩
    · rw [htail] at hreader
      cases hreader
    · have htail' : d'.role = .tail := hrole.trans htail
      rcases hget i c hc with hreader | ⟨c', hc', hcrole, -⟩
      · rw [hreader] at hworker
        cases hworker
      · obtain ⟨hdelays, hretries⟩ := h.tail k d' hd' htail' i c' hc' (by rw [hcrole, hworker])
        refine ⟨hdelays, ?_⟩
        rcases hsame with rfl | hseen | hloop
        · exact hretries
        · rcases hretries with rfl | rfl <;> exact absurd rfl hseen
        · rw [htail'] at hloop
          cases hloop
  · intro i c hc hi hrole hdisconnected
    rcases hget i c hc with hreader | ⟨c', hc', hcrole, hsame⟩
    · rw [hreader] at hrole
      rcases hrole with heq | heq <;> cases heq
    · rcases h.loop i c' hc' (fun hmem => hi (hcancelled i hmem)) (hcrole ▸ hrole)
        (hstate ▸ hdisconnected) with hfailing | hcalled
      · refine Or.inl ?_
        rcases hsame with rfl | hseen | hloop
        · exact hfailing
        · obtain ⟨rest, invalid, rfl⟩ := hfailing
          exact absurd rfl hseen
        · obtain ⟨rest, invalid, rfl⟩ := hfailing
          cases hloop
      · refine Or.inr fun huncalled => hcalled fun k d hd => ?_
        refine Bool.eq_false_iff.mpr fun hcall => ?_
        obtain ⟨d', hd', hcall'⟩ := hcalls k d hd hcall
        exact not_uncalled hd' hcall' huncalled

/-- A task or a read ends or goes on. -/
theorem Settled.goes (h : s.Settled config) {c : PollingCoroutine}
    (hc : s.coroutines.get? id = some c) (hcall : c.role.isCall = false)
    (hcancelled : t.cancelled = s.cancelled) (hstate : t.state = s.state)
    (hgone : ∀ j, j ≠ id → t.coroutines.get? j = s.coroutines.get? j)
    (hself : ∀ d, t.coroutines.get? id = some d →
      d.role = c.role ∧ (c.seen? ≠ none ∨ c.role = .loop)) : t.Settled config := by
  refine h.keep (fun i hi => hcancelled ▸ hi) hstate (fun i d hd => ?_) fun k d hd hdcall => ?_
  · by_cases hi : i = id
    · subst hi
      obtain ⟨hrole, hsame⟩ := hself d hd
      exact Or.inr ⟨c, hc, hrole.symm, Or.inr hsame⟩
    · exact Or.inr ⟨d, (hgone i hi).symm.trans hd, rfl, Or.inl rfl⟩
  · have hk : k ≠ id := by
      rintro rfl
      obtain rfl := Option.some.inj (hc.symm.trans hd)
      exact absurd (hdcall.symm.trans hcall) (by decide)
    exact ⟨d, (hgone k hk).trans hd, hdcall⟩

theorem asked_seen {seen : Option ℕ} {c d : PollingCoroutine} (h : asked seen c = some d) :
    c.role = .reader ∨ c.seen? ≠ none := by
  cases c with
  | running call stage =>
    cases stage with
    | loading observed => exact Or.inr nofun
    | refreshing observed => exact Or.inr nofun
    | _ => cases h
  | pollFetching observed => exact Or.inr nofun
  | reading observed => exact Or.inl rfl
  | _ => cases h

theorem Settled.asks (hs : s.Settled config) {c d : PollingCoroutine}
    (hc : s.coroutines.get? id = some c) (hasked : asked s.seen c = some d) :
    (s.setCoroutine id d).Settled config := by
  have hrole := (asked_eq_some hasked).role
  refine hs.keep (fun i hi => hi) rfl (fun i d' hd' => ?_) fun k d' hd' hcall => ?_
  · rw [get?_setCoroutine] at hd'
    split at hd'
    next heq =>
      subst heq
      obtain rfl := Option.some.inj hd'
      rcases asked_seen hasked with hreader | hseen
      · exact Or.inl (hrole.trans hreader)
      · exact Or.inr ⟨c, hc, hrole.symm, Or.inr (Or.inl hseen)⟩
    next => exact Or.inr ⟨d', hd', rfl, Or.inl rfl⟩
  · by_cases hk : k = id
    · subst hk
      obtain rfl := Option.some.inj (hc.symm.trans hd')
      exact ⟨d, get?_setCoroutine_self s k d, hrole ▸ hcall⟩
    · exact ⟨d', (get?_setCoroutine s id d k).trans ((if_neg hk).trans hd'), hcall⟩

theorem Settled.getPositions (hs : s.Settled config) (h : s.Tidy config) (turn : PollingTurn) :
    (s.getPositions config turn).Settled config := by
  have hreading : (setCoroutine { s with nextId := s.nextId + 1 } s.nextId
      (.reading [s.seen])).Settled config := by
    refine hs.keep (fun i hi => hi) rfl (fun i d hd => ?_) fun k d hd hcall => ?_
    · have hd' := (get?_setCoroutine _ s.nextId _ i).symm.trans hd
      split at hd'
      next =>
        obtain rfl := Option.some.inj hd'
        exact Or.inl rfl
      next => exact Or.inr ⟨d, hd', rfl, Or.inl rfl⟩
    · have hk : k ≠ s.nextId := (h.fresh k d hd).ne
      exact ⟨d, (get?_setCoroutine _ s.nextId _ k).trans ((if_neg hk).trans hd), hcall⟩
  unfold PollingAdapter.getPositions
  by_cases hfutu : config.broker = .futu
  · rw [if_pos hfutu]
    split
    next => exact hreading
    next => exact hs
  · rw [if_neg hfutu]
    split
    next => exact hreading
    next => exact hs

/-- A task runs on, in its role or to its end. -/
theorem Settled.resumed (hs : s.Settled config) {c : PollingCoroutine}
    (hc : s.coroutines.get? id = some c) (hcall : c.role.isCall = false)
    (hu : u = s.resume id ∨ ∃ d, u = (s.resume id).setCoroutine id d ∧ d.role = c.role ∧
      (c.seen? ≠ none ∨ c.role = .loop)) (hcoroutines : t.coroutines = u.coroutines)
    (hcancelled : t.cancelled = s.cancelled) (hstate : t.state = s.state) : t.Settled config := by
  refine hs.goes hc hcall hcancelled hstate (fun j hj => ?_) fun d hd => ?_
  · rw [hcoroutines]
    rcases hu with rfl | ⟨d, rfl, -⟩
    · rw [get?_resume, if_neg hj]
    · rw [get?_setCoroutine, if_neg hj, get?_resume, if_neg hj]
  · rw [hcoroutines] at hd
    rcases hu with rfl | ⟨d', rfl, hkept⟩
    · rw [get?_resume, if_pos rfl] at hd
      cases hd
    · rw [get?_setCoroutine, if_pos rfl] at hd
      obtain rfl := Option.some.inj hd
      exact hkept

theorem Settled.refresh (hs : s.Settled config)
    (hc : s.coroutines.get? id = some .pollSleeping) (turn : PollingTurn) :
    ((s.resume id).refresh config id turn).Settled config := by
  have hset : ∀ d : PollingCoroutine, d.role = .poll → ∀ t : PollingAdapter,
      t.coroutines = ((s.resume id).setCoroutine id d).coroutines → t.cancelled = s.cancelled →
        t.state = s.state → t.Settled config := fun d hrole t hcoroutines hcancelled hstate =>
    hs.resumed hc rfl (Or.inr ⟨d, rfl, hrole, Or.inl nofun⟩) hcoroutines hcancelled hstate
  unfold PollingAdapter.refresh
  split
  next =>
    split
    next => exact hset .pollSleeping rfl _ rfl rfl rfl
    next =>
      split
      next => exact hset (.pollFetching [(s.resume id).seen]) rfl _ rfl rfl rfl
      next => exact hset .pollSleeping rfl _ rfl rfl rfl
  next =>
    split
    next => exact hset (.pollFetching [(s.resume id).seen]) rfl _ rfl rfl rfl
    next => exact hset .pollSleeping rfl _ rfl rfl rfl

theorem Settled.loopStarts (hs : s.Settled config) (h : s.Tidy config)
    (hc : s.coroutines.get? id = some .loopCreated) (ht : t.Tidy config) :
    ∀ delays, t = (s.resume id).nextDelay id delays → t.Settled config := by
  rintro (_ | ⟨delay, rest⟩) rfl
  · -- the loop that has ended was the one worker
    refine Outcome.settled (show Outcome config id .connect _ from .quiet fun i c hc' => ?_) ht
    have hc'' := (get?_resume s id i).symm.trans hc'
    split at hc''
    next => cases hc''
    next hne =>
      exact Bool.eq_false_iff.mpr fun hworker => hne (h.one i id c _ hc'' hc hworker rfl)
  · exact hs.resumed hc rfl (Or.inr ⟨.loopSleeping rest, rfl, rfl, Or.inr rfl⟩) rfl rfl rfl

/-- The attempt of a reconnect loop that has not failed. -/
theorem Settled.attempts (hs : s.Settled config) (h : s.Tidy config) {stage : PollingStage}
    (hc : s.coroutines.get? id = some (.running call stage)) (hi : id ∉ s.cancelled)
    (hstage : ∀ invalid, stage ≠ .failing invalid) :
    (∃ rest, call = .reconnectLoop rest) → s.state ≠ .disconnected := by
  rintro ⟨rest, rfl⟩ hstate
  rcases hs.loop id _ hc hi (Or.inr rfl) hstate with ⟨rest', invalid, heq⟩ | hcalled
  · exact hstage invalid (PollingCoroutine.running.inj heq).2
  · have hidle : (s.resume id).Idle := h.idle_of_worker hc hi rfl nofun
    refine hcalled fun k d hd => ?_
    by_cases hk : k = id
    · subst hk
      obtain rfl := Option.some.inj (hc.symm.trans hd)
      rfl
    · exact hidle.uncalled k d ((get?_resume s id k).trans ((if_neg hk).trans hd))

/-- The handlers of a `start()` or `connect()` go on. -/
theorem Settled.fails (hs : s.Settled config) {c : PollingCoroutine}
    (hc : s.coroutines.get? id = some c) (hrole : c.role = .tail)
    (hready : (s.resume id).Ready config id call)
    (hretries : c.Retries → call = .start ∧ invalid = false) :
    (s.resume id).Fails config call invalid := by
  by_cases hworker : ∃ i d, (s.resume id).coroutines.get? i = some d ∧ d.role.isWorker = true
  · obtain ⟨i, d, hd, hworker⟩ := hworker
    rw [get?_resume] at hd
    split at hd
    next => cases hd
    next =>
      obtain ⟨hdelays, hc'⟩ := hs.tail id c hc hrole i d hd hworker
      exact Or.inr ⟨hready.uncalled, (hretries hc').1, (hretries hc').2, hdelays⟩
  · refine Or.inl (hready.tidy.idle hready.uncalled fun i d hd hdworker => ?_)
    exact absurd ⟨i, d, hd, hdworker⟩ hworker

/-- The refresh inside `connect()` has failed. -/
theorem OneAtATime.fails {observed : List (Option ℕ)} {turn : PollingTurn}
    (hguard : s.OneAtATime config (.fetchEnds id (some invalid) turn))
    (hc : s.coroutines.get? id = some (.running call (.refreshing observed)))
    (hcall : call ≠ .disconnect)
    (hidle : (s.resume id).Idle)
    (hready : ((s.resume id).enterReconnecting config id).Ready config id call) :
    ((s.resume id).enterReconnecting config id).Fails config call invalid := by
  by_cases hdelays : config.delays = []
  · refine Or.inl ?_
    unfold PollingAdapter.enterReconnecting
    rw [if_pos hdelays]
    split <;> exact hidle
  · rcases hguard with hnil | hguard
    · exact absurd hnil hdelays
    · have hmem : call ∈ (s.coroutines.get? id).bind PollingCoroutine.refreshes? := by
        rw [hc]
        rfl
      obtain ⟨hconnect, hstart⟩ := hguard call hmem
      cases call with
      | start => exact Or.inr ⟨hready.uncalled, rfl, hstart rfl, hdelays⟩
      | connect => exact absurd rfl hconnect
      | reconnectLoop rest => exact Or.inl (hready.idle ⟨rest, rfl⟩)
      | disconnect => exact absurd rfl hcall

/-- What a turn of whoever runs a call comes to. -/
theorem Outcome.advance (call : PollingCall) (ho : t.Outcome config id call) (ht : t.Tidy config)
    {c : PollingCoroutine} (hc : s.coroutines.get? id = some c)
    (hloop : c.role.isCall = true → ∀ rest, call ≠ .reconnectLoop rest) :
    t.Settled config ∧
      ((∃ d, s.coroutines.get? id = some d ∧ d.role.isCall = true) ∧ t.Uncalled →
        t.state = .disconnected → t.Idle) := by
  refine ⟨ho.settled ht, ?_⟩
  rintro ⟨⟨d, hd, hcall⟩, huncalled⟩ hstate
  obtain rfl := Option.some.inj (hc.symm.trans hd)
  exact ho.idle ht (hloop hcall) huncalled hstate

theorem not_loop_of_isCall {stage : PollingStage}
    (h : (PollingCoroutine.running call stage).role.isCall = true) (rest : List ℚ) :
    call ≠ .reconnectLoop rest := by
  rintro rfl
  cases h

theorem advance_call (h : s.Tidy config) (hfutu : config.broker = .futu)
    (hloop : ∀ rest, call ≠ .reconnectLoop rest) (huncalled : s.Uncalled) (turn : PollingTurn) :
    (s.call config call turn).Settled config ∧
      ((s.call config call turn).Uncalled → (s.call config call turn).state = .disconnected →
        (s.call config call turn).Idle) := by
  have halone : call = .disconnect ∧ s.Unopened ∨ call ≠ .disconnect ∧ s.Uncalled := by
    by_cases hcall : call = .disconnect
    · exact Or.inl ⟨hcall, huncalled.unopened⟩
    · exact Or.inr ⟨hcall, huncalled⟩
  obtain ⟨hnext, hcalls⟩ := h.calls hloop halone
  have ho : (s.call config call turn).Outcome config s.nextId call :=
    hcalls.begins hnext hfutu turn
  have ht := h.called hloop halone turn
  exact ⟨ho.settled ht, ho.idle ht hloop⟩

theorem Settled.closed (hs : s.Settled config) (h : s.Tidy config) (hfutu : config.broker = .futu)
    {turn : PollingTurn} (ht : t.Tidy config) (hstep : step config s (.closed id turn) = some t) :
    t.Settled config ∧ (s.Finishes t (.closed id turn) → t.state = .disconnected → t.Idle) := by
  simp only [step] at hstep
  split at hstep
  next call hrunning =>
    obtain ⟨hi, hc⟩ := running_eq_some.mp hrunning
    obtain rfl := Option.some.inj hstep
    refine Outcome.advance call ?_ ht hc not_loop_of_isCall
    by_cases hcall : call = .disconnect
    · subst hcall
      obtain ⟨hquelled, hunopened⟩ := h.disconnecting hc rfl
      refine .stopped (fun j d hd => hquelled j d ?_) fun j d hd => hunopened j d ?_
      · exact get?_of_resume hd
      · exact get?_of_resume hd
    · obtain ⟨hidle, -, -⟩ := h.idle_of_running hc hi hcall (by simp) (by rintro _ ⟨⟩)
      have hopens := hidle.opens id hfutu hcall (hs.attempts h hc hi (by rintro _ ⟨⟩)) turn
      cases call with
      | disconnect => exact absurd rfl hcall
      | _ => exact hopens
  next call invalid hrunning =>
    obtain ⟨hi, hc⟩ := running_eq_some.mp hrunning
    obtain rfl := Option.some.inj hstep
    refine Outcome.advance call ?_ ht hc not_loop_of_isCall
    have hready := h.ready_of_failing hc hi
    refine Fails.failureClosed ?_ hfutu turn
    by_cases hloop : ∃ rest, call = .reconnectLoop rest
    · exact Or.inl (hready.idle hloop)
    · have hcall := h.fetches_call hc rfl (by simp)
      have hrole : call.role (.failing invalid) = .tail := by
        cases call with
        | reconnectLoop rest => exact absurd ⟨rest, rfl⟩ hloop
        | disconnect => exact absurd rfl hcall
        | _ => rfl
      refine hs.fails hc hrole hready fun hretries => ?_
      rcases hretries with heq | heq
      · obtain ⟨rfl, hstage⟩ := PollingCoroutine.running.inj heq
        exact ⟨rfl, PollingStage.failing.inj hstage⟩
      · cases heq
  next invalid hrunning =>
    obtain ⟨hi, hc⟩ := running_eq_some.mp hrunning
    obtain rfl := Option.some.inj hstep
    refine Outcome.advance .start ?_ ht hc fun _ => by simp
    have hready : (s.resume id).Ready config id .start :=
      h.ready_of_tail hc hi rfl rfl (by simp)
    refine Fails.startFailed (hs.fails hc rfl hready fun hretries => ?_)
    rcases hretries with heq | heq
    · cases heq
    · exact ⟨rfl, PollingCoroutine.startFailing.inj heq⟩
  next => cases hstep

theorem Settled.opened (hs : s.Settled config) (h : s.Tidy config) (hfutu : config.broker = .futu)
    {raises : Option Bool} {turn : PollingTurn} (ht : t.Tidy config)
    (hstep : step config s (.opened id raises turn) = some t) :
    t.Settled config ∧
      (s.Finishes t (.opened id raises turn) → t.state = .disconnected → t.Idle) := by
  simp only [step] at hstep
  split at hstep
  next call hrunning =>
    obtain ⟨hi, hc⟩ := running_eq_some.mp hrunning
    have hcall := h.fetches_call hc rfl (by simp)
    obtain ⟨hidle, -, -⟩ := h.idle_of_running hc hi hcall (by simp) (by rintro _ ⟨⟩)
    refine Outcome.advance call ?_ ht hc not_loop_of_isCall
    split at hstep
    next =>
      obtain rfl := Option.some.inj hstep
      exact Idle.goes (s := { s.resume id with
        session := some ⟨s.nextId, true⟩, nextId := s.nextId + 1 }) hidle hcall (by rintro _ ⟨⟩)
        (hs.attempts h hc hi (by rintro _ ⟨⟩))
    next =>
      obtain rfl := Option.some.inj hstep
      exact Fails.failed (Or.inl hidle) hfutu turn
  next => cases hstep

theorem advance_taskAwaited (h : s.Tidy config)
    (hfutu : config.broker = .futu) {turn : PollingTurn} (ht : t.Tidy config)
    (hstep : step config s (.taskAwaited id turn) = some t) :
    t.Settled config ∧ (s.Finishes t (.taskAwaited id turn) → t.state = .disconnected →
      t.Idle) := by
  simp only [step] at hstep
  split at hstep
  next call task hc =>
    split at hstep
    next => cases hstep
    next hdone =>
      obtain ⟨htidy, hcalls, hquelled⟩ := h.stopped hc rfl (OrderedDict.get?_eq_none_iff.mpr hdone)
      obtain rfl := Option.some.inj hstep
      refine Outcome.advance call ?_ ht hc not_loop_of_isCall
      rw [h.cancelled_filter hc rfl]
      exact hcalls.stops htidy hfutu
        (fun i c hc hworker hi => absurd (hquelled i c hc hworker) hi) turn
  next call task hc =>
    split at hstep
    next => cases hstep
    next hdone =>
      obtain ⟨htidy, hcalls, hquelled⟩ := h.stopped hc rfl (OrderedDict.get?_eq_none_iff.mpr hdone)
      obtain rfl := Option.some.inj hstep
      refine Outcome.advance call ?_ ht hc not_loop_of_isCall
      rw [h.cancelled_filter hc rfl]
      exact hcalls.closes htidy hfutu hquelled turn
  next => cases hstep

theorem Settled.fetchEnds (hs : s.Settled config) (h : s.Tidy config)
    (hfutu : config.broker = .futu) {raises : Option Bool} {turn : PollingTurn}
    (hguard : s.OneAtATime config (.fetchEnds id raises turn)) (ht : t.Tidy config)
    (hstep : step config s (.fetchEnds id raises turn) = some t) :
    t.Settled config ∧
      (s.Finishes t (.fetchEnds id raises turn) → t.state = .disconnected → t.Idle) := by
  obtain ⟨c, hrunning, hend⟩ := Option.bind_eq_some_iff.mp hstep
  obtain ⟨hi, hc⟩ := running_eq_some.mp hrunning
  have hnot : c.role.isCall = false → s.Finishes t (.fetchEnds id raises turn) → t.Idle := by
    rintro hcall ⟨⟨d, hd, hdcall⟩, -⟩
    obtain rfl := Option.some.inj (hc.symm.trans hd)
    exact absurd (hdcall.symm.trans hcall) (by decide)
  cases c with
  | running call stage =>
    cases stage with
    | loading observed =>
      have hcall := h.fetches_call hc rfl (by simp)
      obtain ⟨hidle, -, -⟩ := h.idle_of_running hc hi hcall (by simp) nofun
      refine Outcome.advance call ?_ ht hc not_loop_of_isCall
      cases raises with
      | none =>
        obtain rfl := Option.some.inj hend
        exact hidle.loads hcall observed turn
      | some invalid =>
        obtain rfl := Option.some.inj hend
        exact Fails.failed (Or.inl hidle) hfutu turn
    | refreshing observed =>
      have hcall := h.fetches_call hc rfl (by simp)
      obtain ⟨hidle, htidy, hcaller⟩ := h.idle_of_running hc hi hcall (by simp) nofun
      refine Outcome.advance call ?_ ht hc not_loop_of_isCall
      cases raises with
      | none =>
        obtain rfl := Option.some.inj hend
        exact hidle.publishes observed
      | some invalid =>
        obtain rfl := Option.some.inj hend
        have hready := hidle.refreshFailed htidy hcaller hfutu
        exact (hguard.fails hc hcall hidle hready).failed hfutu turn
    | _ => cases hend
  | pollFetching observed =>
    refine ⟨?_, fun hfinishes _ => hnot rfl hfinishes⟩
    cases raises with
    | none =>
      obtain rfl := Option.some.inj hend
      exact hs.resumed hc rfl (Or.inr ⟨.pollSleeping, rfl, rfl, Or.inl nofun⟩) rfl rfl rfl
    | some invalid =>
      obtain rfl := Option.some.inj hend
      have hidle : (s.resume id).Idle := h.idle_of_worker hc hi rfl nofun
      refine Outcome.settled (show Outcome config id .connect _ from ?_) ht
      unfold pollFailed
      dsimp only
      rw [if_neg (enterReconnecting_state _ config id)]
      exact hidle.enterReconnecting id
  | reading observed =>
    obtain rfl := Option.some.inj hend
    exact ⟨hs.resumed hc rfl (Or.inl rfl) rfl rfl rfl, fun hfinishes _ => hnot rfl hfinishes⟩
  | _ => cases hend

theorem Settled.step (hs : s.Settled config) (h : s.Tidy config) (hfutu : config.broker = .futu)
    {e : PollingEvent} (hguard : s.OneAtATime config e) (hstep : step config s e = some t) :
    t.Settled config ∧ (s.Finishes t e → t.state = .disconnected → t.Idle) := by
  have ht : t.Tidy config := step_tidy h hguard.serial hstep
  cases e with
  | start turn =>
    obtain rfl := Option.some.inj hstep
    exact advance_call h hfutu (by simp) (forall_values.mp hguard) turn
  | connect turn =>
    obtain rfl := Option.some.inj hstep
    exact advance_call h hfutu (by simp) (forall_values.mp hguard) turn
  | disconnect turn =>
    obtain rfl := Option.some.inj hstep
    exact advance_call h hfutu (by simp) (forall_values.mp hguard) turn
  | getPositions turn =>
    obtain rfl := Option.some.inj hstep
    exact ⟨hs.getPositions h turn, False.elim⟩
  | loopStarts id =>
    simp only [PollingAdapter.step] at hstep
    split at hstep
    next hrunning =>
      obtain ⟨-, hc⟩ := running_eq_some.mp hrunning
      exact ⟨hs.loopStarts h hc ht config.delays (Option.some.inj hstep).symm, False.elim⟩
    next => cases hstep
  | loopWakes id turn =>
    simp only [PollingAdapter.step] at hstep
    split at hstep
    next rest hrunning =>
      obtain ⟨hi, hc⟩ := running_eq_some.mp hrunning
      obtain rfl := Option.some.inj hstep
      have huncalled : s.Uncalled := forall_values.mp hguard
      have hidle : (s.resume id).Idle := h.idle_of_worker hc hi rfl fun _ _ => huncalled
      have hcaller : (s.resume id).Caller id (.reconnectLoop rest) :=
        h.runner hc hi (by rintro ⟨⟩) ⟨fun _ => ⟨rest, rfl⟩, fun _ => rfl⟩
      have htidy : (s.resume id).Tidy config := h.resume fun c' w hc' hw => by
        obtain rfl := Option.some.inj (hc.symm.trans hc')
        cases hw
      have hstate : s.state ≠ .disconnected := fun hdisconnected => by
        rcases hs.loop id _ hc hi (Or.inl rfl) hdisconnected with ⟨_, _, heq⟩ | hcalled
        · cases heq
        · exact hcalled huncalled
      exact ⟨(hidle.wakes htidy hcaller hfutu hstate turn).settled ht, False.elim⟩
    next => cases hstep
  | pollWakes id turn =>
    simp only [PollingAdapter.step] at hstep
    split at hstep
    next hrunning =>
      obtain ⟨-, hc⟩ := running_eq_some.mp hrunning
      obtain rfl := Option.some.inj hstep
      exact ⟨hs.refresh hc turn, False.elim⟩
    next => cases hstep
  | taskAwaited id turn => exact advance_taskAwaited h hfutu ht hstep
  | closed id turn => exact hs.closed h hfutu ht hstep
  | opened id raises turn => exact hs.opened h hfutu ht hstep
  | asks id =>
    simp only [PollingAdapter.step] at hstep
    split at hstep
    next d hasked =>
      obtain ⟨c, hrunning, hd⟩ := Option.bind_eq_some_iff.mp hasked
      obtain ⟨-, hc⟩ := running_eq_some.mp hrunning
      obtain rfl := Option.some.inj hstep
      exact ⟨hs.asks hc hd, False.elim⟩
    next => cases hstep
  | fetchEnds id raises turn => exact hs.fetchEnds h hfutu hguard ht hstep
  | cancelDelivered id =>
    refine ⟨?_, False.elim⟩
    simp only [PollingAdapter.step] at hstep
    split at hstep
    next => cases hstep
    next => cases hstep
    next c _ _ hc =>
      split at hstep
      next hi =>
        obtain rfl := Option.some.inj hstep
        have hworker := (h.awaited id c hc hi).1
        refine hs.resumed hc ?_ (Or.inl rfl) rfl rfl rfl
        revert hworker
        cases c.role <;> simp [PollingRole.isWorker, PollingRole.isCall]
      next => cases hstep
    next => cases hstep

theorem init_settled : init.Settled config := ⟨nofun, nofun⟩

end PollingAdapter

/-- Futu, where calls are made one at a time and no refresh inside `connect()` fails but in a
`start()` that retries. A call that has finished DISCONNECTED leaves no reconnect loop, nor is
there one until `start()` or `connect()` is called; a DISCONNECTED adapter with no call in flight
has one only while it closes after a failed attempt. -/
theorem disconnected_is_idle {config : PollingConfig} (hfutu : config.broker = .futu)
    {s : PollingAdapter}
    (hrun : Reaches (PollingAdapter.step config) (PollingAdapter.OneAtATime config) .init s) :
    (s.Uncalled → s.state = .disconnected → ∀ id, s.ReconnectLoop id →
      ∃ c, s.coroutines.get? id = some c ∧ c.Failing) ∧
    ∀ e t, s.OneAtATime config e → PollingAdapter.step config s e = some t → s.Finishes t e →
      t.state = .disconnected → ∀ u, Reaches (PollingAdapter.step config)
        (fun s e => s.OneAtATime config e ∧ ¬ e.Connects) t u → ∀ id, ¬ u.ReconnectLoop id := by
  obtain ⟨htidy, hsettled⟩ : s.Tidy config ∧ s.Settled config := by
    refine hrun.invariant (I := fun s => s.Tidy config ∧ s.Settled config)
      ⟨PollingAdapter.init_tidy, PollingAdapter.init_settled⟩ ?_
    rintro s e t ⟨h, hs⟩ hguard hstep
    exact ⟨PollingAdapter.step_tidy h hguard.serial hstep, (hs.step h hfutu hguard hstep).1⟩
  refine ⟨fun huncalled hstate id hloop => ?_, fun e t hguard hstep hfinishes hstate u hlater id => ?_⟩
  · obtain ⟨c, hc, hrole⟩ : ∃ c, s.coroutines.get? id = some c ∧
        (c.role = .loop ∨ c.role = .attempt) := by
      rcases hloop with ⟨c, hc, hrole⟩ | ⟨c, hc, hrole⟩
      · exact ⟨c, hc, Or.inl hrole⟩
      · exact ⟨c, hc, Or.inr hrole⟩
    rcases hsettled.loop id c hc (htidy.not_cancelled huncalled hc) hrole hstate with hfailing | h
    · exact ⟨c, hc, hfailing⟩
    · exact absurd huncalled h
  · have ht := PollingAdapter.step_tidy htidy hguard.serial hstep
    have hidle := (hsettled.step htidy hfutu hguard hstep).2 hfinishes hstate
    obtain ⟨-, hdormant⟩ : u.Tidy config ∧ u.Dormant := by
      refine hlater.invariant (I := fun v => v.Tidy config ∧ v.Dormant) ⟨ht, hidle.dormant⟩ ?_
      rintro v e w ⟨hv, hdormant⟩ ⟨hguard, hconnects⟩ hstep
      exact ⟨PollingAdapter.step_tidy hv hguard.serial hstep, hdormant.step hv hconnects hstep⟩
    intro hloop
    obtain ⟨c, hc, hworker⟩ := hloop.worker
    exact absurd (hworker.symm.trans (hdormant.not_worker hc)) (by decide)

/-- A refresh that fails and a `disconnect()` before the first delay has run out. -/
theorem disconnect_before_the_attempt :
    ∃ s t : PollingAdapter,
      Reaches (PollingAdapter.step ⟨.futu, [5], true, true⟩)
        (PollingAdapter.OneAtATime ⟨.futu, [5], true, true⟩) .init s ∧
      PollingAdapter.step ⟨.futu, [5], true, true⟩ s (.taskAwaited 4 ⟨false, true, .built⟩) =
        some t ∧
      t.state = .disconnected ∧ ∀ id, ¬ t.ReconnectLoop id := by
  obtain ⟨s, hrun, hs⟩ := Reaches.exists_of_execute
    (PollingAdapter.step ⟨.futu, [5], true, true⟩)
    (PollingAdapter.OneAtATime ⟨.futu, [5], true, true⟩) .init
    [.start ⟨false, true, .built⟩, .opened 0 none ⟨false, true, .built⟩,
      .fetchEnds 0 none ⟨false, true, .built⟩, .fetchEnds 0 none ⟨false, true, .built⟩,
      .pollWakes 2 ⟨false, true, .built⟩, .fetchEnds 2 (some false) ⟨false, true, .built⟩,
      .loopStarts 3, .disconnect ⟨false, true, .built⟩, .cancelDelivered 3]
    (fun s => s.Plays 4 .disconnecting ∧ (PollingAdapter.step ⟨.futu, [5], true, true⟩ s
      (.taskAwaited 4 ⟨false, true, .built⟩)).any fun t =>
        t.state = .disconnected ∧ ∀ c ∈ t.coroutines.values, c.role.isCall = false)
    (by decide +kernel)
  obtain ⟨⟨c, hc, hrole⟩, hstep⟩ := of_decide_eq_true hs
  obtain ⟨t, hstep, ht⟩ := (Option.any_eq_true _ _).mp hstep
  obtain ⟨hstate, hcalls⟩ := of_decide_eq_true ht
  have hfinishes : s.Finishes t (.taskAwaited 4 ⟨false, true, .built⟩) :=
    ⟨⟨c, hc, by rw [hrole]; rfl⟩, PollingAdapter.forall_values.mp hcalls⟩
  exact ⟨s, t, hrun, hstep, hstate, (disconnected_is_idle rfl hrun).2
    (.taskAwaited 4 ⟨false, true, .built⟩) t trivial hstep hfinishes hstate t .refl⟩

/-- The refresh of the one `connect()` fails: it returns DISCONNECTED with a reconnect loop, which
makes an attempt of its own. -/
theorem failed_connect_leaves_a_loop :
    ∃ s t u : PollingAdapter,
      Reaches (PollingAdapter.step ⟨.futu, [5], true, true⟩)
        (PollingAdapter.Serial ⟨.futu, [5], true, true⟩) .init s ∧
      PollingAdapter.step ⟨.futu, [5], true, true⟩ s (.closed 0 ⟨true, true, .built⟩) = some t ∧
      s.Finishes t (.closed 0 ⟨true, true, .built⟩) ∧ t.state = .disconnected ∧
      t.ReconnectLoop 2 ∧
      Reaches (PollingAdapter.step ⟨.futu, [5], true, true⟩)
        (fun s e => s.Serial ⟨.futu, [5], true, true⟩ e ∧ ¬ e.Connects) t u ∧
      u.Plays 2 .attempt := by
  obtain ⟨s, hrun, hs⟩ := Reaches.exists_of_execute
    (PollingAdapter.step ⟨.futu, [5], true, true⟩)
    (PollingAdapter.Serial ⟨.futu, [5], true, true⟩) .init
    [.connect ⟨true, true, .built⟩, .opened 0 none ⟨true, true, .built⟩,
      .fetchEnds 0 none ⟨true, true, .built⟩, .fetchEnds 0 (some false) ⟨true, true, .built⟩]
    (fun s => s.Plays 0 .tail ∧ (PollingAdapter.step ⟨.futu, [5], true, true⟩ s
      (.closed 0 ⟨true, true, .built⟩)).any fun t =>
        (t.state = .disconnected ∧ ∀ c ∈ t.coroutines.values, c.role.isCall = false) ∧
        t.ReconnectLoop 2 ∧ (execute (restrict (PollingAdapter.step ⟨.futu, [5], true, true⟩)
          fun s e => s.Serial ⟨.futu, [5], true, true⟩ e ∧ ¬ e.Connects) t
            [.loopStarts 2, .loopWakes 2 ⟨true, true, .built⟩]).any fun u => u.Plays 2 .attempt)
    (by decide +kernel)
  obtain ⟨⟨c, hc, hrole⟩, hstep⟩ := of_decide_eq_true hs
  obtain ⟨t, hstep, ht⟩ := (Option.any_eq_true _ _).mp hstep
  obtain ⟨⟨hstate, hcalls⟩, hloop, hlater⟩ := of_decide_eq_true ht
  obtain ⟨u, hu, hattempt⟩ := Reaches.exists_of_execute _ _ t _ _ hlater
  exact ⟨s, t, u, hrun, hstep, ⟨⟨c, hc, by rw [hrole]; rfl⟩, PollingAdapter.forall_values.mp hcalls⟩,
    hstate, hloop, hu, of_decide_eq_true hattempt⟩

end PortfolioHub
