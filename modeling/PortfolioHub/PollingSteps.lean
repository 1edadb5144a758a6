import PortfolioHub.PollingWorkers

namespace PortfolioHub

namespace PollingAdapter

variable {config : PollingConfig} {s t : PollingAdapter} {id : ℕ} {call : PollingCall}

/-- What is live beside a coroutine that is not cancelled. -/
theorem Tidy.beside (h : s.Tidy config) {c d : PollingCoroutine} {j : ℕ}
    (hc : s.coroutines.get? id = some c) (hi : id ∉ s.cancelled)
    (hd : s.coroutines.get? j = some d) (hne : j ≠ id) :
    Beside config c.role (j ∈ s.cancelled) d.role := by
  refine ⟨fun hworker => ?_, fun hrole hworker => h.quelled id c hc hrole j d hd hworker,
    fun hworker hrole => hi (h.quelled j d hd hrole id c hc hworker),
    fun hrole hworker => h.tail id c hc hrole j d hd hworker,
    fun hrole hworker => h.tail j d hd hrole id c hc hworker, fun hopens => ?_, fun hcall => ?_⟩
  · exact Bool.eq_false_iff.mpr fun hdworker => hne (h.one j id d c hd hc hdworker hworker)
  · exact Bool.eq_false_iff.mpr fun hdcall => hne (h.alone id j c d hc hd hopens hdcall).symm
  · exact Bool.eq_false_iff.mpr fun hdopens => hne (h.alone j id d c hd hc hdopens hcall)

/-- A coroutine that has run is suspended again in the same role. -/
theorem Tidy.resuspend (h : s.Tidy config) {c d : PollingCoroutine}
    (hc : s.coroutines.get? id = some c) (hi : id ∉ s.cancelled) (hawaits : c.awaits = none)
    (hrole : d.role = c.role) (hdawaits : d.awaits = none)
    (hfetches : ∀ observed, d.seen? = some observed → s.Sees observed)
    (hrefreshes : ∀ call observed, d = .running call (.refreshing observed) →
      config.broker = .futu)
    (hcloses : d.role = .disconnecting → d = .running .disconnect .closing) :
    ((s.resume id).setCoroutine id d).Tidy config := by
  have hresumed : (s.resume id).Tidy config := h.resume fun c' w hc' hw => by
    obtain rfl := Option.some.inj (hc.symm.trans hc')
    exact absurd (hw.symm.trans hawaits) (by simp)
  refine hresumed.add (h.fresh id c hc) hi ?_ hdawaits ?_ ?_ ?_ hfetches hrefreshes hcloses
  · rw [get?_resume, if_pos rfl]
  · rw [hrole]
    exact fun hworker => (h.held id c hc hworker hi).1
  · rw [hrole]
    exact fun role htask => (h.task role id c htask hc).2
  · intro j d' hd'
    rw [get?_resume] at hd'
    split at hd'
    next => cases hd'
    next hne =>
      rw [hrole]
      exact h.beside hc hi hd' hne

theorem Tidy.publish (h : s.Tidy config) {observed : List (Option ℕ)} (hsees : s.Sees observed) :
    (s.publish observed).Tidy config := by
  refine h.congr (.refl _) rfl le_rfl (fun role i hi => ⟨h.freshTask role i hi, Or.inl hi⟩)
    (fun _ _ _ _ _ => rfl) (fun _ _ _ _ _ _ => rfl) fun p hp => ?_
  rcases List.mem_cons.mp hp with rfl | hp
  · exact hsees.whole
  · exact h.published p hp

/-- Every worker that is live is cancelled. -/
def Quelled (s : PollingAdapter) : Prop :=
  ∀ i c, s.coroutines.get? i = some c → c.role.isWorker = true → i ∈ s.cancelled

/-- No call is in flight that may open a session. -/
def Unopened (s : PollingAdapter) : Prop :=
  ∀ i c, s.coroutines.get? i = some c → c.role.opens = false

theorem Uncalled.unopened (h : s.Uncalled) : s.Unopened := by
  intro i c hc
  have hcall := h i c hc
  revert hcall
  cases c.role <;> simp [PollingRole.isCall, PollingRole.opens]

theorem Idle.quelled (h : s.Idle) : s.Quelled := fun _ _ hc hworker =>
  absurd hworker (h.not_worker hc)

theorem Quelled.unfetched (h : s.Quelled) (htidy : s.Tidy config) (hunopened : s.Unopened) :
    s.Unfetched := by
  refine htidy.unfetched (fun i c hc hi hworker => absurd (h i c hc hworker) hi) fun i c hc hrole => ?_
  have hopens := hunopened i c hc
  rw [hrole] at hopens
  cases hopens

/-- A `disconnect()` has stopped the tasks. -/
theorem Tidy.closeContexts (h : s.Tidy config) (hcaller : s.Caller id .disconnect)
    (hquelled : s.Quelled) (hunopened : s.Unopened) (turn : PollingTurn) :
    (s.closeContexts config id .disconnect turn).Tidy config := by
  have hunfetched := hquelled.unfetched h hunopened
  have hclosed : s.closeSession.Tidy config := h.update hunfetched rfl rfl le_rfl rfl rfl rfl
  unfold PollingAdapter.closeContexts
  split
  next =>
    have hcaller' : s.closeSession.Caller id .disconnect :=
      hcaller.congr rfl rfl le_rfl (Or.inl rfl) rfl
    refine hclosed.suspend hcaller' (c := .running .disconnect .closing) rfl ?_ ?_ ?_ ?_ ?_ ?_
    · simp [PollingCoroutine.role, PollingCall.role, PollingRole.isWorker]
    · simp [PollingCoroutine.role, PollingCall.role]
    · intro j d hd
      refine ⟨fun hworker => ?_, fun _ => hquelled j d hd, fun hworker => ?_, fun hrole => ?_,
        fun _ hworker => ?_, fun hopens => ?_, fun _ => hunopened j d hd⟩
      · cases hworker
      · cases hworker
      · cases hrole
      · cases hworker
      · cases hopens
    · intro observed hobserved
      cases hobserved
    · intro call observed heq
      cases heq
    · exact fun _ => rfl
  next => exact hclosed.setState .disconnected

/-- A call or an attempt has stopped the tasks. -/
theorem Idle.closeContexts (h : s.Idle) (htidy : s.Tidy config) (hcaller : s.Caller id call)
    (hcall : call ≠ .disconnect) (turn : PollingTurn) :
    (s.closeContexts config id call turn).Tidy config := by
  have hclosed : s.closeSession.Ready config id call :=
    (h.ready htidy hcaller).update rfl rfl le_rfl rfl rfl rfl
  have hidle : s.closeSession.Idle := h
  unfold PollingAdapter.closeContexts
  split
  next => exact hidle.suspend hclosed.tidy hclosed.caller hcall (Or.inl rfl)
  next =>
    have hopens := hidle.openSession hclosed.tidy hclosed.caller hcall turn
    cases call with
    | disconnect => exact absurd rfl hcall
    | start => exact hopens
    | connect => exact hopens
    | reconnectLoop rest => exact hopens

theorem filter_live_eq_some {task : Option ℕ} {i : ℕ}
    (h : task.filter (· ∈ s.coroutines.keys) = some i) :
    task = some i ∧ ∃ c, s.coroutines.get? i = some c := by
  obtain ⟨heq, hlive⟩ := Option.filter_eq_some_iff.mp h
  exact ⟨heq, OrderedDict.mem_keys_iff.mp (of_decide_eq_true hlive)⟩

theorem filter_live_eq_none {task : Option ℕ} {i : ℕ} {c : PollingCoroutine}
    (h : task.filter (· ∈ s.coroutines.keys) = none) (hc : s.coroutines.get? i = some c) :
    task ≠ some i := by
  rintro rfl
  exact Option.filter_eq_none_iff.mp h i rfl (decide_eq_true (OrderedDict.mem_keys_iff.mpr ⟨c, hc⟩))

/-- Where no reconnect loop is held the workers that are not cancelled are poll loops. -/
theorem Tidy.polls (h : s.Tidy config)
    (hnone : s.reconnectTask.filter (· ∈ s.coroutines.keys) = none) : ∀ i c,
    s.coroutines.get? i = some c → c.role.isWorker = true → i ∉ s.cancelled → c.role = .poll := by
  intro i c hc hworker hi
  by_contra hrole
  have hheld := (h.held i c hc hworker hi).1
  rw [taskOf_of_ne hrole] at hheld
  exact filter_live_eq_none hnone hc hheld

theorem Tidy.quelled_of_polls (h : s.Tidy config)
    (hpolls : ∀ i c, s.coroutines.get? i = some c → c.role.isWorker = true → i ∉ s.cancelled →
      c.role = .poll) (hnone : s.pollTask.filter (· ∈ s.coroutines.keys) = none) : s.Quelled := by
  intro i c hc hworker
  by_contra hi
  have hheld := (h.held i c hc hworker hi).1
  rw [hpolls i c hc hworker hi] at hheld
  exact filter_live_eq_none hnone hc hheld

/-- A field whose task is done is cleared. -/
theorem Tidy.clear (h : s.Tidy config) (hcoroutines : t.coroutines = s.coroutines)
    (hcancelled : t.cancelled = s.cancelled) (hnext : t.nextId = s.nextId)
    (hsession : t.session = s.session) (hpublished : t.published = s.published)
    (htask : ∀ role i, t.taskOf role = some i → s.taskOf role = some i)
    (hheld : ∀ i c, s.coroutines.get? i = some c → c.role.isWorker = true → i ∉ s.cancelled →
      t.taskOf c.role = s.taskOf c.role) : t.Tidy config :=
  h.congr (hcoroutines ▸ .refl _) hcancelled hnext.ge
    (fun role i hi => ⟨hnext ▸ h.freshTask role i (htask role i hi), Or.inl (htask role i hi)⟩)
    hheld (fun _ _ _ _ _ _ => hsession) (hpublished ▸ h.published)

/-- An attempt finds no poll loop to stop. -/
theorem Idle.stopPolling (h : s.Idle) (htidy : s.Tidy config) (hcaller : s.Caller id call)
    (hcall : call ≠ .disconnect) (turn : PollingTurn) :
    (s.stopPolling config id call turn).Tidy config := by
  unfold PollingAdapter.stopPolling
  split
  next task hsome =>
    obtain ⟨htask, c, hc⟩ := filter_live_eq_some hsome
    exact absurd (htidy.task .poll task c htask hc).2.1 (h.not_worker hc)
  next =>
    have hclear : Tidy config { s with pollTask := none } := by
      refine htidy.clear rfl rfl rfl rfl rfl (fun role i hi => ?_)
        fun i c hc hworker => absurd hworker (h.not_worker hc)
      cases role <;> first | exact hi | cases hi
    exact Idle.closeContexts (s := { s with pollTask := none }) h hclear
      (hcaller.congr rfl rfl le_rfl (Or.inr rfl) rfl) hcall turn

/-- The part of a call that is not the reconnect loop's. -/
structure Calls (s : PollingAdapter) (id : ℕ) (call : PollingCall) : Prop where
  caller : s.Caller id call
  loop : ∀ rest, call ≠ .reconnectLoop rest
  alone : call = .disconnect ∧ s.Unopened ∨ call ≠ .disconnect ∧ s.Uncalled

theorem Calls.unopened (h : s.Calls id call) : s.Unopened :=
  h.alone.elim And.right fun h => h.2.unopened

/-- Nothing live is left to stop. -/
theorem Calls.closeContexts (h : s.Calls id call) (htidy : s.Tidy config) (hquelled : s.Quelled)
    (turn : PollingTurn) : (s.closeContexts config id call turn).Tidy config := by
  rcases h.alone with ⟨rfl, hunopened⟩ | ⟨hcall, huncalled⟩
  · exact htidy.closeContexts h.caller hquelled hunopened turn
  · exact (htidy.idle huncalled hquelled).closeContexts htidy h.caller hcall turn

/-- The call awaits a worker that it has cancelled, and forgets it. -/
theorem Calls.quell (h : s.Calls id call) (htidy : s.Tidy config) {w : ℕ} {b : PollingCoroutine}
    {stage : PollingStage} (hb : s.coroutines.get? w = some b) (hworker : b.role.isWorker = true)
    (hw : w ∉ s.cancelled) (hstage : stage = .stoppingReconnect w ∨ stage = .stoppingPoll w)
    (hcoroutines : t.coroutines = (s.setCoroutine id (.running call stage)).coroutines)
    (hcancelled : t.cancelled = w :: s.cancelled) (hnext : t.nextId = s.nextId)
    (htask : ∀ role i, t.taskOf role = some i → s.taskOf role = some i ∧ i ≠ w ∧ i ≠ id)
    (hsession : t.session = s.session) (hpublished : t.published = s.published) :
    t.Tidy config := by
  have hrole : (PollingCoroutine.running call stage).role = .connecting ∧ s.Uncalled ∨
      (PollingCoroutine.running call stage).role = .disconnecting := by
    rcases h.alone with ⟨rfl, -⟩ | ⟨hcall, huncalled⟩
    · exact Or.inr rfl
    · refine Or.inl ⟨?_, huncalled⟩
      rcases hstage with rfl | rfl <;> cases call <;>
        first | rfl | exact absurd rfl hcall | exact absurd rfl (h.loop _)
  refine htidy.quell h.caller hb hworker hw hrole ?_ ?_ h.unopened hcoroutines hcancelled hnext
    htask hsession hpublished
  · rcases hstage with rfl | rfl <;> rfl
  · rcases hstage with rfl | rfl <;> rfl

/-- No poll loop is left to stop. -/
theorem Calls.pollCleared (h : s.Calls id call) (htidy : s.Tidy config)
    (hpolls : ∀ i c, s.coroutines.get? i = some c → c.role.isWorker = true → i ∉ s.cancelled →
      c.role = .poll) (hnone : s.pollTask.filter (· ∈ s.coroutines.keys) = none) :
    s.Quelled ∧ Tidy config { s with pollTask := none } ∧
      Calls { s with pollTask := none } id call := by
  have hquelled := htidy.quelled_of_polls hpolls hnone
  refine ⟨hquelled, ?_, h.caller.congr rfl rfl le_rfl (Or.inr rfl) rfl, h.loop, h.alone⟩
  refine htidy.clear rfl rfl rfl rfl rfl (fun role i hi => ?_)
    fun i c hc hworker hi => absurd (hquelled i c hc hworker) hi
  cases role <;> first | exact hi | cases hi

theorem Calls.stopPolling (h : s.Calls id call) (htidy : s.Tidy config)
    (hpolls : ∀ i c, s.coroutines.get? i = some c → c.role.isWorker = true → i ∉ s.cancelled →
      c.role = .poll) (turn : PollingTurn) : (s.stopPolling config id call turn).Tidy config := by
  have hloop : s.reconnectTask ≠ some id := fun heq =>
    (h.caller.loop.mp heq).elim fun rest hrest => h.loop rest hrest
  unfold PollingAdapter.stopPolling
  split
  next task hsome =>
    obtain ⟨htask, b, hb⟩ := filter_live_eq_some hsome
    obtain ⟨hw, hworker, hpoll⟩ := htidy.task .poll task b htask hb
    refine h.quell htidy hb hworker hw (Or.inr rfl) rfl rfl rfl (fun role i hi => ?_) rfl rfl
    by_cases hrole : role = .poll
    · subst hrole
      cases hi
    · rw [taskOf_of_ne hrole] at hi
      refine ⟨(taskOf_of_ne hrole).trans hi, ?_, ?_⟩
      · rintro rfl
        have hboth := (htidy.task role i b ((taskOf_of_ne hrole).trans hi) hb).2.2
        exact hrole (hboth.mp (hpoll.mpr rfl))
      · rintro rfl
        exact hloop hi
  next hnone =>
    obtain ⟨hquelled, hclear, hcalls⟩ := h.pollCleared htidy hpolls hnone
    exact hcalls.closeContexts hclear hquelled turn

/-- No reconnect loop is left to stop. -/
theorem Tidy.loopCleared (h : s.Tidy config)
    (hnone : s.reconnectTask.filter (· ∈ s.coroutines.keys) = none) :
    Tidy config { s with reconnectTask := none } := by
  refine h.clear rfl rfl rfl rfl rfl (fun role i hi => ?_) fun i c hc hworker hi => ?_
  · cases role <;> first | exact hi | cases hi
  · rw [h.polls hnone i c hc hworker hi]
    rfl

theorem Calls.loopCleared (h : s.Calls id call) : Calls { s with reconnectTask := none } id call := by
  refine ⟨⟨h.caller.fresh, h.caller.cancelled, h.caller.free, h.caller.poll, ?_⟩, h.loop, h.alone⟩
  constructor
  · intro heq
    cases heq
  · rintro ⟨rest, hrest⟩
    exact absurd hrest (h.loop rest)

theorem Calls.stopReconnecting (h : s.Calls id call) (htidy : s.Tidy config) (turn : PollingTurn) :
    (s.stopReconnecting config id call turn).Tidy config := by
  unfold PollingAdapter.stopReconnecting
  split
  next task hsome =>
    obtain ⟨htask, b, hb⟩ := filter_live_eq_some hsome
    obtain ⟨hw, hworker, hpoll⟩ := htidy.task .loop task b htask hb
    refine h.quell htidy hb hworker hw (Or.inl rfl) rfl rfl rfl (fun role i hi => ?_) rfl rfl
    by_cases hrole : role = .poll
    · subst hrole
      refine ⟨hi, ?_, ?_⟩
      · rintro rfl
        cases hpoll.mp ((htidy.task .poll i b hi hb).2.2.mpr rfl)
      · rintro rfl
        exact h.caller.poll hi
    · rw [taskOf_of_ne hrole] at hi
      cases hi
  next hnone => exact h.loopCleared.stopPolling (htidy.loopCleared hnone) (htidy.polls hnone) turn

/-- A call that begins where no other is in flight; `disconnect()`, where none is that may open a
session. -/
theorem Tidy.calls (h : s.Tidy config) (hloop : ∀ rest, call ≠ .reconnectLoop rest)
    (halone : call = .disconnect ∧ s.Unopened ∨ call ≠ .disconnect ∧ s.Uncalled) :
    Tidy config { s with nextId := s.nextId + 1 } ∧
      Calls { s with nextId := s.nextId + 1 } s.nextId call := by
  refine ⟨?_, ⟨Nat.lt_succ_self _, fun hi => ?_, ?_, fun heq => ?_, fun heq => ?_, ?_⟩, hloop,
    halone⟩
  · exact h.congr (.refl _) rfl (Nat.le_succ _)
      (fun role i hi => ⟨Nat.lt_succ_of_lt (h.freshTask role i hi), Or.inl hi⟩)
      (fun _ _ _ _ _ => rfl) (fun _ _ _ _ _ _ => rfl) h.published
  · exact absurd (h.freshCancelled _ hi) (lt_irrefl _)
  · cases hget : s.coroutines.get? s.nextId with
    | none => rfl
    | some d => exact absurd (h.fresh _ d hget) (lt_irrefl _)
  · exact absurd (h.freshTask .poll _ heq) (lt_irrefl _)
  · exact absurd (h.freshTask .loop _ heq) (lt_irrefl _)
  · rintro ⟨rest, hrest⟩
    exact absurd hrest (hloop rest)

theorem Tidy.called (h : s.Tidy config) (hloop : ∀ rest, call ≠ .reconnectLoop rest)
    (halone : call = .disconnect ∧ s.Unopened ∨ call ≠ .disconnect ∧ s.Uncalled)
    (turn : PollingTurn) : (s.call config call turn).Tidy config := by
  obtain ⟨hnext, hcalls⟩ := h.calls hloop halone
  exact hcalls.stopReconnecting hnext turn

/-- Whoever runs on in `connect()` or `disconnect()` is a worker just where the reconnect loop
does. -/
theorem Tidy.runner (h : s.Tidy config) {c : PollingCoroutine} (hc : s.coroutines.get? id = some c)
    (hi : id ∉ s.cancelled) (hpoll : c.role ≠ .poll)
    (hworker : c.role.isWorker = true ↔ ∃ rest, call = .reconnectLoop rest) :
    (s.resume id).Caller id call := by
  refine ⟨h.fresh id c hc, hi, ?_, fun heq => ?_, fun heq => ?_, fun hloop => ?_⟩
  · rw [get?_resume, if_pos rfl]
  · exact hpoll ((h.task .poll id c heq hc).2.2.mpr rfl)
  · exact hworker.mp (h.task .loop id c heq hc).2.1
  · rw [← taskOf_of_ne hpoll]
    exact (h.held id c hc (hworker.mpr hloop) hi).1

/-- A worker that runs on is live alone, but for a `start()` or `connect()` that closes. -/
theorem Tidy.idle_of_worker (h : s.Tidy config) {c : PollingCoroutine}
    (hc : s.coroutines.get? id = some c) (hi : id ∉ s.cancelled) (hworker : c.role.isWorker = true)
    (hrole : c.role = .loop → config.broker = .futu → s.Uncalled) : (s.resume id).Idle := by
  intro j d hd
  rw [get?_resume] at hd
  split at hd
  next => cases hd
  next hne =>
    have hbeside := h.beside hc hi hd hne
    have hnot := hbeside.worker hworker
    have hcalled := hbeside.called hworker
    cases hd' : d.role with
    | reader => rfl
    | tail =>
      obtain ⟨hloop, hfutu⟩ := hbeside.tailed hd' hworker
      have huncalled := hrole hloop hfutu j d hd
      rw [hd'] at huncalled
      cases huncalled
    | connecting => exact absurd (Or.inl hd') hcalled
    | disconnecting => exact absurd (Or.inr hd') hcalled
    | _ =>
      rw [hd'] at hnot
      cases hnot

/-- A `start()` or `connect()` that awaits no live task is live alone. -/
theorem Tidy.idle_of_connecting (h : s.Tidy config) {c : PollingCoroutine}
    (hc : s.coroutines.get? id = some c) (hrole : c.role = .connecting)
    (hawaits : ∀ w, c.awaits = some w → s.coroutines.get? w = none) : (s.resume id).Idle := by
  intro j d hd
  rw [get?_resume] at hd
  split at hd
  next => cases hd
  next hne =>
    have hopens : c.role.opens = true := by
      rw [hrole]
      rfl
    rcases PollingRole.kinds d.role with hreader | hworker | hcall
    · exact hreader
    · have hcancelled := h.quelled id c hc (Or.inl hrole) j d hd hworker
      obtain ⟨-, -, k, d', hd', hcall, hk⟩ := h.awaited j d hd hcancelled
      obtain rfl := h.alone id k c d' hc hd' hopens hcall
      obtain rfl := Option.some.inj (hc.symm.trans hd')
      exact absurd (hd.symm.trans (hawaits j hk)) (by simp)
    · exact absurd (h.alone id j c d hc hd hopens hcall).symm hne

/-- The handlers of a `start()` or `connect()` go on. -/
theorem Tidy.ready_of_tail (h : s.Tidy config) {c : PollingCoroutine}
    (hc : s.coroutines.get? id = some c) (hi : id ∉ s.cancelled) (hrole : c.role = .tail)
    (hawaits : c.awaits = none) (hcall : ¬ ∃ rest, call = .reconnectLoop rest) :
    (s.resume id).Ready config id call := by
  have hget : ∀ {j d}, (s.resume id).coroutines.get? j = some d →
      s.coroutines.get? j = some d ∧ j ≠ id := by
    intro j d hd
    rw [get?_resume] at hd
    split at hd
    next => cases hd
    next hne => exact ⟨hd, hne⟩
  refine ⟨h.resume fun c' w hc' hw => ?_, h.runner hc hi ?_ ?_, fun j d hd => ?_,
    fun j d hd hworker => ?_, fun hloop => absurd hloop hcall⟩
  · obtain rfl := Option.some.inj (hc.symm.trans hc')
    exact absurd (hw.symm.trans hawaits) (by simp)
  · rw [hrole]
    decide
  · rw [hrole]
    simp [PollingRole.isWorker, hcall]
  · exact (h.beside hc hi (hget hd).1 (hget hd).2).alone (by rw [hrole]; rfl)
  · exact h.tail id c hc hrole j d (hget hd).1 hworker

/-- A `disconnect()` runs on beside cancelled workers only. -/
theorem Tidy.disconnecting (h : s.Tidy config) {c : PollingCoroutine}
    (hc : s.coroutines.get? id = some c) (hrole : c.role = .disconnecting) :
    s.Quelled ∧ s.Unopened := by
  refine ⟨h.quelled id c hc (Or.inr hrole), fun j d hd => Bool.eq_false_iff.mpr fun hopens => ?_⟩
  obtain rfl := h.alone j id d c hd hc hopens (by rw [hrole]; rfl)
  obtain rfl := Option.some.inj (hc.symm.trans hd)
  rw [hrole] at hopens
  cases hopens

/-- Nothing runs on in a call that awaits a task but that call: it is not itself cancelled. -/
theorem Tidy.awaiter (h : s.Tidy config) {c : PollingCoroutine} {w : ℕ}
    (hc : s.coroutines.get? id = some c) (hw : c.awaits = some w) :
    id ∉ s.cancelled ∧ c.role.isWorker = false := by
  have hi : id ∉ s.cancelled := by
    intro hi
    exact absurd (hw.symm.trans (h.awaited id c hc hi).2.1) (by simp)
  refine ⟨hi, Bool.eq_false_iff.mpr fun hworker => ?_⟩
  exact absurd (hw.symm.trans (h.held id c hc hworker hi).2) (by simp)

/-- `connect()` runs on outside its handler. -/
theorem Tidy.idle_of_running (h : s.Tidy config) {stage : PollingStage}
    (hc : s.coroutines.get? id = some (.running call stage)) (hi : id ∉ s.cancelled)
    (hcall : call ≠ .disconnect) (hstage : ∀ invalid, stage ≠ .failing invalid)
    (hawaits : ∀ w, (PollingCoroutine.running call stage).awaits = some w →
      s.coroutines.get? w = none) :
    (s.resume id).Idle ∧ (s.resume id).Tidy config ∧ (s.resume id).Caller id call := by
  have htidy : (s.resume id).Tidy config := h.resume fun c' w hc' hw => by
    obtain rfl := Option.some.inj (hc.symm.trans hc')
    exact hawaits w hw
  have hrole : (call = .start ∨ call = .connect) ∧ call.role stage = .connecting ∨
      (∃ rest, call = .reconnectLoop rest) ∧ call.role stage = .attempt := by
    cases call with
    | disconnect => exact absurd rfl hcall
    | reconnectLoop rest => exact Or.inr ⟨⟨rest, rfl⟩, rfl⟩
    | _ =>
      refine Or.inl ⟨by simp, ?_⟩
      cases stage <;> first | rfl | exact absurd rfl (hstage _)
  rcases hrole with ⟨hkind, hrole⟩ | ⟨hloop, hrole⟩
  · refine ⟨h.idle_of_connecting hc hrole hawaits, htidy, h.runner hc hi ?_ ?_⟩
    · simp [PollingCoroutine.role, hrole]
    · rcases hkind with rfl | rfl <;>
        simp [PollingCoroutine.role, hrole, PollingRole.isWorker]
  · refine ⟨h.idle_of_worker hc hi ?_ fun heq => ?_, htidy, h.runner hc hi ?_ ?_⟩
    · simp [PollingCoroutine.role, hrole, PollingRole.isWorker]
    · simp [PollingCoroutine.role, hrole] at heq
    · simp [PollingCoroutine.role, hrole]
    · simp [PollingCoroutine.role, hrole, hloop, PollingRole.isWorker]

/-- No `disconnect()` fetches. -/
theorem Tidy.fetches_call (h : s.Tidy config) {stage : PollingStage}
    (hc : s.coroutines.get? id = some (.running call stage))
    (hawaits : (PollingCoroutine.running call stage).awaits = none) (hclosing : stage ≠ .closing) :
    call ≠ .disconnect := by
  rintro rfl
  rcases h.closes id _ hc rfl with hne | heq
  · exact hne hawaits
  · exact hclosing (PollingCoroutine.running.inj heq).2

/-- The handler of `connect()` goes on. -/
theorem Tidy.ready_of_failing (h : s.Tidy config) {invalid : Bool}
    (hc : s.coroutines.get? id = some (.running call (.failing invalid))) (hi : id ∉ s.cancelled) :
    (s.resume id).Ready config id call := by
  have hcall := h.fetches_call hc rfl (by simp)
  cases call with
  | disconnect => exact absurd rfl hcall
  | start => exact h.ready_of_tail hc hi rfl rfl (by simp)
  | connect => exact h.ready_of_tail hc hi rfl rfl (by simp)
  | reconnectLoop rest =>
    have hidle : (s.resume id).Idle := by
      refine h.idle_of_worker hc hi rfl fun hrole => ?_
      cases hrole
    refine hidle.ready (h.resume fun c' w hc' hw => ?_) (h.runner hc hi ?_ ?_)
    · obtain rfl := Option.some.inj (hc.symm.trans hc')
      cases hw
    · simp [PollingCoroutine.role, PollingCall.role]
    · simp [PollingCoroutine.role, PollingCall.role, PollingRole.isWorker]

/-- The refresh of `connect()` has failed; the loop it may create has not begun. -/
theorem Idle.refreshFailed (h : s.Idle) (htidy : s.Tidy config) (hcaller : s.Caller id call)
    (hfutu : config.broker = .futu) : (s.enterReconnecting config id).Ready config id call := by
  obtain ⟨htidy', huncalled, hworkers⟩ := htidy.enterReconnecting h.uncalled
    (fun i c hc hworker => absurd hworker (h.not_worker hc)) id
  refine ⟨htidy', ?_, huncalled, fun i c hc hworker => ⟨hworkers i c hc hworker, hfutu⟩, ?_⟩
  · rcases enterReconnecting_cases s config id with ⟨state, heq⟩ | ⟨hdone, heq⟩
    · rw [heq]
      exact hcaller.congr rfl rfl le_rfl (Or.inl rfl) rfl
    · have hne : id ≠ s.nextId := hcaller.fresh.ne
      rw [heq]
      refine ⟨Nat.lt_succ_of_lt hcaller.fresh, hcaller.cancelled, ?_, hcaller.poll, ?_⟩
      · exact (get?_setCoroutine s s.nextId _ id).trans ((if_neg hne).trans hcaller.free)
      · constructor
        · intro hid
          exact absurd (Option.some.inj hid).symm hne
        · intro hloop
          exact absurd rfl (hdone id (hcaller.loop.mpr hloop)).1
  · intro hloop
    rcases enterReconnecting_cases s config id with ⟨state, heq⟩ | ⟨hdone, heq⟩
    · rw [heq]
      exact h
    · exact absurd rfl (hdone id (hcaller.loop.mpr hloop)).1

theorem enterReconnecting_state (s : PollingAdapter) (config : PollingConfig) (current : ℕ) :
    (s.enterReconnecting config current).state ≠ .connected := by
  unfold enterReconnecting
  split
  next hstate =>
    rw [hstate]
    decide
  next =>
    split
    next => exact ConnectionState.noConfusion
    next => split <;> exact ConnectionState.noConfusion

theorem Tidy.fetchEnds (h : s.Tidy config) {c : PollingCoroutine}
    (hc : s.coroutines.get? id = some c) (hi : id ∉ s.cancelled) {raises : Option Bool}
    {turn : PollingTurn} (hstep : s.fetchEnds config id raises turn c = some t) :
    t.Tidy config := by
  cases c with
  | running call stage =>
    cases stage with
    | loading observed =>
      have hcall := h.fetches_call hc rfl (by simp)
      obtain ⟨hidle, htidy, hcaller⟩ := h.idle_of_running hc hi hcall (by simp)
        fun w hw => by cases hw
      cases raises with
      | none =>
        obtain rfl := Option.some.inj hstep
        exact hidle.loaded htidy hcaller hcall (h.fetches id _ observed hc hi rfl) turn
      | some invalid =>
        obtain rfl := Option.some.inj hstep
        exact (hidle.ready htidy hcaller).failed hcall invalid turn
    | refreshing observed =>
      have hcall := h.fetches_call hc rfl (by simp)
      obtain ⟨hidle, htidy, hcaller⟩ := h.idle_of_running hc hi hcall (by simp)
        fun w hw => by cases hw
      cases raises with
      | none =>
        obtain rfl := Option.some.inj hstep
        exact hidle.connected htidy (h.fetches id _ observed hc hi rfl)
      | some invalid =>
        obtain rfl := Option.some.inj hstep
        have hready := hidle.refreshFailed htidy hcaller (h.refreshes id call observed hc)
        exact hready.failed hcall invalid turn
    | _ => cases hstep
  | pollFetching observed =>
    cases raises with
    | none =>
      obtain rfl := Option.some.inj hstep
      have hsees : s.Sees observed := h.fetches id _ observed hc hi rfl
      have hsleeping : ((s.resume id).setCoroutine id .pollSleeping).Tidy config := by
        refine h.resuspend hc hi rfl rfl rfl ?_ ?_ ?_
        · rintro observed' ⟨⟩
          exact hsees.nil
        · intro call observed' heq
          cases heq
        · intro hrole
          cases hrole
      exact hsleeping.publish hsees
    | some invalid =>
      obtain rfl := Option.some.inj hstep
      have hidle : (s.resume id).Idle := by
        refine h.idle_of_worker hc hi rfl fun hrole => ?_
        cases hrole
      have htidy : (s.resume id).Tidy config := h.resume fun c' w hc' hw => by
        obtain rfl := Option.some.inj (hc.symm.trans hc')
        cases hw
      unfold pollFailed
      dsimp only
      rw [if_neg (enterReconnecting_state _ config id)]
      exact (htidy.enterReconnecting hidle.uncalled
        (fun i c hc hworker => absurd hworker (hidle.not_worker hc)) id).1
  | reading observed =>
    obtain rfl := Option.some.inj hstep
    refine h.resume fun c' w hc' hw => ?_
    obtain rfl := Option.some.inj (hc.symm.trans hc')
    cases hw
  | _ => cases hstep

/-- What one more vendor call changes of a fetch. -/
structure Asked (seen : Option ℕ) (c d : PollingCoroutine) : Prop where
  role : d.role = c.role
  awaits : c.awaits = none ∧ d.awaits = none
  seen? : ∀ observed, d.seen? = some observed →
    ∃ before, c.seen? = some before ∧ observed = seen :: before
  refreshing : ∀ call observed, d = .running call (.refreshing observed) →
    ∃ before, c = .running call (.refreshing before)
  closing : c ≠ .running .disconnect .closing

theorem asked_eq_some {seen : Option ℕ} {c d : PollingCoroutine} (h : asked seen c = some d) :
    Asked seen c d := by
  cases c with
  | running call stage =>
    cases stage with
    | loading before =>
      obtain rfl := Option.some.inj h
      refine ⟨by cases call <;> rfl, ⟨rfl, rfl⟩, ?_, nofun, nofun⟩
      rintro observed ⟨⟩
      exact ⟨before, rfl, rfl⟩
    | refreshing before =>
      obtain rfl := Option.some.inj h
      refine ⟨by cases call <;> rfl, ⟨rfl, rfl⟩, ?_, ?_, nofun⟩
      · rintro observed ⟨⟩
        exact ⟨before, rfl, rfl⟩
      · rintro call' observed ⟨⟩
        exact ⟨before, rfl⟩
    | _ => cases h
  | pollFetching before =>
    obtain rfl := Option.some.inj h
    refine ⟨rfl, ⟨rfl, rfl⟩, ?_, nofun, nofun⟩
    rintro observed ⟨⟩
    exact ⟨before, rfl, rfl⟩
  | reading before =>
    obtain rfl := Option.some.inj h
    exact ⟨rfl, ⟨rfl, rfl⟩, nofun, nofun, nofun⟩
  | _ => cases h

theorem Tidy.asks (h : s.Tidy config) {c d : PollingCoroutine} (hc : s.coroutines.get? id = some c)
    (hi : id ∉ s.cancelled) (hasked : asked s.seen c = some d) :
    (s.setCoroutine id d).Tidy config := by
  have ha := asked_eq_some hasked
  have hagain : ((s.resume id).setCoroutine id d).Tidy config := by
    refine h.resuspend hc hi ha.awaits.1 ha.role ha.awaits.2 (fun observed hobserved => ?_)
      (fun call observed heq => ?_) fun hrole => ?_
    · obtain ⟨before, hbefore, rfl⟩ := ha.seen? observed hobserved
      exact Sees.cons (h.fetches id c before hc hi hbefore)
    · obtain ⟨before, rfl⟩ := ha.refreshing call observed heq
      exact h.refreshes id call before hc
    · rcases h.closes id c hc (ha.role.symm.trans hrole) with hawaits | heq
      · exact absurd ha.awaits.1 hawaits
      · exact absurd heq ha.closing
  refine hagain.congr (fun j => ?_) rfl le_rfl
    (fun role i hrole => ⟨h.freshTask role i hrole, Or.inl hrole⟩) (fun _ _ _ _ _ => rfl)
    (fun _ _ _ _ _ _ => rfl) h.published
  rw [get?_setCoroutine, get?_setCoroutine, get?_resume]
  split <;> rfl

theorem Tidy.refresh (h : s.Tidy config) (hc : s.coroutines.get? id = some .pollSleeping)
    (hi : id ∉ s.cancelled) (turn : PollingTurn) :
    ((s.resume id).refresh config id turn).Tidy config := by
  have hsees : s.Sees [] := h.fetches id _ [] hc hi rfl
  have hagain : ∀ d : PollingCoroutine, d = .pollSleeping ∨ d = .pollFetching [s.seen] →
      ((s.resume id).setCoroutine id d).Tidy config := by
    rintro d (rfl | rfl)
    · refine h.resuspend hc hi rfl rfl rfl ?_ (fun call observed heq => ?_) fun hrole => ?_
      · rintro observed ⟨⟩
        exact hsees
      · cases heq
      · cases hrole
    · refine h.resuspend hc hi rfl rfl rfl ?_ (fun call observed heq => ?_) fun hrole => ?_
      · rintro observed ⟨⟩
        exact hsees.cons
      · cases heq
      · cases hrole
  unfold PollingAdapter.refresh
  split
  next =>
    split
    next => exact hagain _ (Or.inl rfl)
    next =>
      split
      next => exact hagain _ (Or.inr rfl)
      next => exact (hagain _ (Or.inl rfl)).publish hsees
  next =>
    -- the session held is complete, so the fetch makes a vendor call
    obtain ⟨n, hsession, -⟩ := hsees
    have hany : (s.resume id).session.any PollingSession.complete = true := by
      rw [PollingAdapter.resume, hsession]
      rfl
    rw [if_pos hany]
    exact hagain _ (Or.inr rfl)

theorem Tidy.getPositions (h : s.Tidy config) (turn : PollingTurn) :
    (s.getPositions config turn).Tidy config := by
  have hnext : Tidy config { s with nextId := s.nextId + 1 } :=
    h.congr (.refl _) rfl (Nat.le_succ _)
      (fun role i hi => ⟨Nat.lt_succ_of_lt (h.freshTask role i hi), Or.inl hi⟩)
      (fun _ _ _ _ _ => rfl) (fun _ _ _ _ _ _ => rfl) h.published
  have hreading : (setCoroutine { s with nextId := s.nextId + 1 } s.nextId
      (.reading [s.seen])).Tidy config := by
    refine hnext.add (Nat.lt_succ_self _) (fun hi => ?_) ?_ rfl nofun (fun role hrole => ?_)
      (fun j d _ => .reader _ _) nofun nofun nofun
    · exact absurd (h.freshCancelled _ hi) (lt_irrefl _)
    · cases hget : s.coroutines.get? s.nextId with
      | none => rfl
      | some d => exact absurd (h.fresh _ d hget) (lt_irrefl _)
    · exact absurd (h.freshTask role _ hrole) (lt_irrefl _)
  unfold PollingAdapter.getPositions
  by_cases hfutu : config.broker = .futu
  · rw [if_pos hfutu]
    split
    next => exact hreading
    next => exact h
  · rw [if_neg hfutu]
    split
    next => exact hreading
    next => exact h

/-- The reconnect loop takes its next delay, or has none left. -/
theorem Tidy.loopStarts (h : s.Tidy config) (hc : s.coroutines.get? id = some .loopCreated)
    (hi : id ∉ s.cancelled) : ∀ delays, ((s.resume id).nextDelay id delays).Tidy config
  | [] => Tidy.setState (h.resume fun c' w hc' hw => by
      obtain rfl := Option.some.inj (hc.symm.trans hc')
      cases hw) .disconnected
  | _ :: rest => h.resuspend hc hi (d := .loopSleeping rest) rfl rfl rfl nofun nofun nofun

/-- The delay of the reconnect loop is over. -/
theorem Tidy.loopWakes (h : s.Tidy config) {rest : List ℚ}
    (hc : s.coroutines.get? id = some (.loopSleeping rest)) (hi : id ∉ s.cancelled)
    (hguard : config.broker = .futu → s.Uncalled) (turn : PollingTurn) :
    ((s.resume id).wake config id rest turn).Tidy config := by
  have hidle : (s.resume id).Idle := h.idle_of_worker hc hi rfl fun _ => hguard
  have htidy : (s.resume id).Tidy config := h.resume fun c' w hc' hw => by
    obtain rfl := Option.some.inj (hc.symm.trans hc')
    cases hw
  have hcaller : (s.resume id).Caller id (.reconnectLoop rest) :=
    h.runner hc hi (by simp [PollingCoroutine.role])
      (by simp [PollingCoroutine.role, PollingRole.isWorker])
  unfold wake
  split
  next => exact htidy
  next =>
    rw [if_pos (hcaller.loop.mpr ⟨rest, rfl⟩)]
    exact hidle.stopPolling htidy hcaller (by simp) turn

/-- The task that a call awaits is done, and no worker is left but cancelled ones. -/
theorem Tidy.stopped (h : s.Tidy config) {stage : PollingStage} {w : ℕ}
    (hc : s.coroutines.get? id = some (.running call stage))
    (hw : (PollingCoroutine.running call stage).awaits = some w)
    (hdone : s.coroutines.get? w = none) :
    (s.resume id).Tidy config ∧ (s.resume id).Calls id call ∧ (s.resume id).Quelled := by
  obtain ⟨hi, hworker⟩ := h.awaiter hc hw
  have htidy : (s.resume id).Tidy config := h.resume fun c' w' hc' hw' => by
    obtain rfl := Option.some.inj (hc.symm.trans hc')
    obtain rfl := Option.some.inj (hw.symm.trans hw')
    exact hdone
  have hloop : ∀ rest, call ≠ .reconnectLoop rest := by
    rintro rest rfl
    cases hworker
  have hcaller : (s.resume id).Caller id call := by
    refine h.runner hc hi (fun hpoll => ?_) ?_
    · rw [hpoll] at hworker
      cases hworker
    · rw [hworker]
      exact ⟨nofun, fun ⟨rest, hrest⟩ => absurd hrest (hloop rest)⟩
  have hget : ∀ {j d}, (s.resume id).coroutines.get? j = some d → s.coroutines.get? j = some d :=
    get?_of_resume
  by_cases hcall : call = .disconnect
  · subst hcall
    obtain ⟨hquelled, hunopened⟩ := h.disconnecting hc rfl
    exact ⟨htidy, ⟨hcaller, hloop, Or.inl ⟨rfl, fun j d hd => hunopened j d (hget hd)⟩⟩,
      fun j d hd => hquelled j d (hget hd)⟩
  · have hstage : ∀ invalid, stage ≠ .failing invalid := by
      rintro invalid rfl
      cases hw
    obtain ⟨hidle, -, -⟩ := h.idle_of_running hc hi hcall hstage fun w' hw' => by
      obtain rfl := Option.some.inj (hw.symm.trans hw')
      exact hdone
    exact ⟨htidy, ⟨hcaller, hloop, Or.inr ⟨hcall, hidle.uncalled⟩⟩, hidle.quelled⟩

/-- The cancellation that `await task` swallows is none of its own. -/
theorem Tidy.cancelled_filter (h : s.Tidy config) {c : PollingCoroutine} {w : ℕ}
    (hc : s.coroutines.get? id = some c) (hw : c.awaits = some w) :
    { s.resume id with cancelled := s.cancelled.filter (· ≠ id) } = s.resume id := by
  have hfilter : s.cancelled.filter (· ≠ id) = s.cancelled := by
    rw [List.filter_eq_self]
    intro i hi
    refine decide_eq_true fun heq => ?_
    exact (h.awaiter hc hw).1 (heq ▸ hi)
  rw [hfilter]
  rfl

theorem Tidy.taskAwaited (h : s.Tidy config) {turn : PollingTurn}
    (hstep : step config s (.taskAwaited id turn) = some t) : t.Tidy config := by
  simp only [step] at hstep
  split at hstep
  next call task hc =>
    split at hstep
    next => cases hstep
    next hdone =>
      obtain ⟨htidy, hcalls, hquelled⟩ := h.stopped hc rfl (OrderedDict.get?_eq_none_iff.mpr hdone)
      obtain rfl := Option.some.inj hstep
      rw [h.cancelled_filter hc rfl]
      exact hcalls.stopPolling htidy (fun i c hc hworker hi => absurd (hquelled i c hc hworker) hi)
        turn
  next call task hc =>
    split at hstep
    next => cases hstep
    next hdone =>
      obtain ⟨htidy, hcalls, hquelled⟩ := h.stopped hc rfl (OrderedDict.get?_eq_none_iff.mpr hdone)
      obtain rfl := Option.some.inj hstep
      rw [h.cancelled_filter hc rfl]
      exact hcalls.closeContexts htidy hquelled turn
  next => cases hstep

theorem Tidy.closed (h : s.Tidy config) {turn : PollingTurn}
    (hstep : step config s (.closed id turn) = some t) : t.Tidy config := by
  simp only [step] at hstep
  split at hstep
  next call hrunning =>
    obtain ⟨hi, hc⟩ := running_eq_some.mp hrunning
    obtain rfl := Option.some.inj hstep
    by_cases hcall : call = .disconnect
    · subst hcall
      refine Tidy.setState (h.resume fun c' w hc' hw => ?_) .disconnected
      obtain rfl := Option.some.inj (hc.symm.trans hc')
      cases hw
    · obtain ⟨hidle, htidy, hcaller⟩ := h.idle_of_running hc hi hcall (by simp) nofun
      have hopens := hidle.openSession htidy hcaller hcall turn
      cases call with
      | disconnect => exact absurd rfl hcall
      | start => exact hopens
      | connect => exact hopens
      | reconnectLoop rest => exact hopens
  next call invalid hrunning =>
    obtain ⟨hi, hc⟩ := running_eq_some.mp hrunning
    obtain rfl := Option.some.inj hstep
    exact (h.ready_of_failing hc hi).failureClosed invalid turn
  next invalid hrunning =>
    obtain ⟨hi, hc⟩ := running_eq_some.mp hrunning
    obtain rfl := Option.some.inj hstep
    have hready : (s.resume id).Ready config id .start :=
      h.ready_of_tail hc hi rfl rfl (by simp)
    exact hready.startFailed invalid
  next => cases hstep

theorem Tidy.opened (h : s.Tidy config) {raises : Option Bool} {turn : PollingTurn}
    (hstep : step config s (.opened id raises turn) = some t) : t.Tidy config := by
  simp only [step] at hstep
  split at hstep
  next call hrunning =>
    obtain ⟨hi, hc⟩ := running_eq_some.mp hrunning
    have hcall := h.fetches_call hc rfl (by simp)
    obtain ⟨hidle, htidy, hcaller⟩ := h.idle_of_running hc hi hcall (by simp) nofun
    split at hstep
    next =>
      obtain rfl := Option.some.inj hstep
      have hheld : Ready config { s.resume id with
          session := some ⟨s.nextId, true⟩, nextId := s.nextId + 1 } id call :=
        (hidle.ready htidy hcaller).update rfl rfl (Nat.le_succ _) rfl rfl rfl
      exact Idle.suspend (s := { s.resume id with
          session := some ⟨s.nextId, true⟩, nextId := s.nextId + 1 }) hidle hheld.tidy hheld.caller
        hcall (Or.inr (Or.inr (Or.inl ⟨[], rfl, s.nextId, rfl, nofun⟩)))
    next =>
      obtain rfl := Option.some.inj hstep
      exact (hidle.ready htidy hcaller).failed hcall _ turn
  next => cases hstep

theorem Tidy.cancelDelivered (h : s.Tidy config)
    (hstep : step config s (.cancelDelivered id) = some t) : t.Tidy config := by
  have hresume : id ∈ s.cancelled → (s.resume id).Tidy config := fun hi => by
    refine h.resume fun c w hc hw => ?_
    exact absurd (hw.symm.trans (h.awaited id c hc hi).2.1) (by simp)
  simp only [step] at hstep
  split at hstep
  next => cases hstep
  next => cases hstep
  next =>
    split at hstep
    next hi =>
      obtain rfl := Option.some.inj hstep
      exact hresume hi
    next => cases hstep
  next => cases hstep

/-- A `start()` or `connect()` begins where no call is in flight, a `disconnect()` where none of
those is; where a reconnect loop of Futu makes its attempt none is either. -/
def Serial (config : PollingConfig) (s : PollingAdapter) : PollingEvent → Prop
  | .start _ => ∀ c ∈ s.coroutines.values, c.role.isCall = false
  | .connect _ => ∀ c ∈ s.coroutines.values, c.role.isCall = false
  | .disconnect _ => ∀ c ∈ s.coroutines.values, c.role.opens = false
  | .loopWakes _ _ => config.broker = .futu → ∀ c ∈ s.coroutines.values, c.role.isCall = false
  | _ => True

instance (config : PollingConfig) (s : PollingAdapter) :
    (e : PollingEvent) → Decidable (s.Serial config e)
  | .start _ => inferInstanceAs (Decidable (∀ c ∈ s.coroutines.values, _))
  | .connect _ => inferInstanceAs (Decidable (∀ c ∈ s.coroutines.values, _))
  | .disconnect _ => inferInstanceAs (Decidable (∀ c ∈ s.coroutines.values, _))
  | .getPositions _ => inferInstanceAs (Decidable True)
  | .loopStarts _ => inferInstanceAs (Decidable True)
  | .loopWakes _ _ => inferInstanceAs (Decidable (_ → ∀ c ∈ s.coroutines.values, _))
  | .pollWakes _ _ => inferInstanceAs (Decidable True)
  | .taskAwaited _ _ => inferInstanceAs (Decidable True)
  | .closed _ _ => inferInstanceAs (Decidable True)
  | .opened _ _ _ => inferInstanceAs (Decidable True)
  | .asks _ => inferInstanceAs (Decidable True)
  | .fetchEnds _ _ _ => inferInstanceAs (Decidable True)
  | .cancelDelivered _ => inferInstanceAs (Decidable True)

theorem forall_values {p : PollingCoroutine → Prop} :
    (∀ c ∈ s.coroutines.values, p c) ↔ ∀ id c, s.coroutines.get? id = some c → p c := by
  constructor
  · exact fun h id c hc => h c (OrderedDict.mem_values_iff.mpr ⟨id, hc⟩)
  · intro h c hc
    obtain ⟨id, hid⟩ := OrderedDict.mem_values_iff.mp hc
    exact h id c hid

theorem init_tidy : init.Tidy config := by
  refine ⟨nofun, nofun, ?_, nofun, nofun, nofun, ?_, nofun, nofun, nofun, nofun, nofun, nofun,
    nofun⟩
  · intro role i hi
    cases role <;> cases hi
  · intro role i c hi
    cases role <;> cases hi

theorem step_tidy {e : PollingEvent} (h : s.Tidy config) (hguard : s.Serial config e)
    (hstep : step config s e = some t) : t.Tidy config := by
  cases e with
  | start turn =>
    have hloop : ∀ rest, PollingCall.start ≠ .reconnectLoop rest := by simp
    obtain rfl := Option.some.inj hstep
    exact h.called hloop (Or.inr ⟨by simp, forall_values.mp hguard⟩) turn
  | connect turn =>
    have hloop : ∀ rest, PollingCall.connect ≠ .reconnectLoop rest := by simp
    obtain rfl := Option.some.inj hstep
    exact h.called hloop (Or.inr ⟨by simp, forall_values.mp hguard⟩) turn
  | disconnect turn =>
    have hloop : ∀ rest, PollingCall.disconnect ≠ .reconnectLoop rest := by simp
    obtain rfl := Option.some.inj hstep
    exact h.called hloop (Or.inl ⟨rfl, forall_values.mp hguard⟩) turn
  | getPositions turn =>
    obtain rfl := Option.some.inj hstep
    exact h.getPositions turn
  | loopStarts id =>
    simp only [step] at hstep
    split at hstep
    next hrunning =>
      obtain ⟨hi, hc⟩ := running_eq_some.mp hrunning
      obtain rfl := Option.some.inj hstep
      exact h.loopStarts hc hi config.delays
    next => cases hstep
  | loopWakes id turn =>
    simp only [step] at hstep
    split at hstep
    next rest hrunning =>
      obtain ⟨hi, hc⟩ := running_eq_some.mp hrunning
      obtain rfl := Option.some.inj hstep
      exact h.loopWakes hc hi (fun hfutu => forall_values.mp (hguard hfutu)) turn
    next => cases hstep
  | pollWakes id turn =>
    simp only [step] at hstep
    split at hstep
    next hrunning =>
      obtain ⟨hi, hc⟩ := running_eq_some.mp hrunning
      obtain rfl := Option.some.inj hstep
      exact h.refresh hc hi turn
    next => cases hstep
  | taskAwaited id turn => exact h.taskAwaited hstep
  | closed id turn => exact h.closed hstep
  | opened id raises turn => exact h.opened hstep
  | asks id =>
    simp only [step] at hstep
    split at hstep
    next d hasked =>
      obtain ⟨c, hrunning, hd⟩ := Option.bind_eq_some_iff.mp hasked
      obtain ⟨hi, hc⟩ := running_eq_some.mp hrunning
      obtain rfl := Option.some.inj hstep
      exact h.asks hc hi hd
    next => cases hstep
  | fetchEnds id raises turn =>
    obtain ⟨c, hrunning, hd⟩ := Option.bind_eq_some_iff.mp hstep
    obtain ⟨hi, hc⟩ := running_eq_some.mp hrunning
    exact h.fetchEnds hc hi hd
  | cancelDelivered id => exact h.cancelDelivered hstep

end PollingAdapter

end PortfolioHub
