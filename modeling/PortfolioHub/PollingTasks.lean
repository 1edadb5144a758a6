import PortfolioHub.PollingSteps

namespace PortfolioHub

/-- A `start()` or a `connect()` begins. -/
def PollingEvent.Connects : PollingEvent → Prop
  | .start _ => True
  | .connect _ => True
  | _ => False

instance : (e : PollingEvent) → Decidable e.Connects
  | .start _ => inferInstanceAs (Decidable True)
  | .connect _ => inferInstanceAs (Decidable True)
  | .disconnect _ => inferInstanceAs (Decidable False)
  | .getPositions _ => inferInstanceAs (Decidable False)
  | .loopStarts _ => inferInstanceAs (Decidable False)
  | .loopWakes _ _ => inferInstanceAs (Decidable False)
  | .pollWakes _ _ => inferInstanceAs (Decidable False)
  | .taskAwaited _ _ => inferInstanceAs (Decidable False)
  | .closed _ _ => inferInstanceAs (Decidable False)
  | .opened _ _ _ => inferInstanceAs (Decidable False)
  | .asks _ => inferInstanceAs (Decidable False)
  | .fetchEnds _ _ _ => inferInstanceAs (Decidable False)
  | .cancelDelivered _ => inferInstanceAs (Decidable False)

namespace PollingAdapter

variable {config : PollingConfig} {s t : PollingAdapter} {id : ℕ}

instance (s : PollingAdapter) (id : ℕ) (role : PollingRole) : Decidable (s.Plays id role) :=
  decidable_of_iff ((s.coroutines.get? id).any (·.role = role) = true) <| by
    rw [Option.any_eq_true]
    simp [Plays]

/-- A poll loop that is not done. -/
def PollLoop (s : PollingAdapter) (id : ℕ) : Prop := s.Plays id .poll

/-- A reconnect loop that is not done. -/
def ReconnectLoop (s : PollingAdapter) (id : ℕ) : Prop := s.Plays id .loop ∨ s.Plays id .attempt

instance (s : PollingAdapter) (id : ℕ) : Decidable (s.PollLoop id) :=
  inferInstanceAs (Decidable (s.Plays id .poll))

instance (s : PollingAdapter) (id : ℕ) : Decidable (s.ReconnectLoop id) :=
  inferInstanceAs (Decidable (s.Plays id .loop ∨ s.Plays id .attempt))

theorem PollLoop.worker (h : s.PollLoop id) :
    ∃ c, s.coroutines.get? id = some c ∧ c.role.isWorker = true := by
  obtain ⟨c, hc, hrole⟩ := h
  exact ⟨c, hc, by rw [hrole]; rfl⟩

theorem ReconnectLoop.worker (h : s.ReconnectLoop id) :
    ∃ c, s.coroutines.get? id = some c ∧ c.role.isWorker = true := by
  rcases h with ⟨c, hc, hrole⟩ | ⟨c, hc, hrole⟩
  · exact ⟨c, hc, by rw [hrole]; rfl⟩
  · exact ⟨c, hc, by rw [hrole]; rfl⟩

/-- The turn in which a `disconnect()` returns. -/
def Returns (s t : PollingAdapter) : PollingEvent → Prop
  | .disconnect _ => t.coroutines.get? s.nextId = none
  | .taskAwaited id _ => s.Plays id .disconnecting ∧ t.coroutines.get? id = none
  | .closed id _ => s.Plays id .disconnecting ∧ t.coroutines.get? id = none
  | _ => False

theorem Quelled.closeContexts (h : s.Quelled) (turn : PollingTurn) :
    (s.closeContexts config id .disconnect turn).Quelled := by
  unfold PollingAdapter.closeContexts
  split
  next =>
    intro j d hd hworker
    have hd' := (get?_setCoroutine _ id _ j).symm.trans hd
    split at hd'
    next =>
      obtain rfl := Option.some.inj hd'
      cases hworker
    next => exact h j d hd' hworker
  next => exact h

/-- The poll loop that a suspended `disconnect()` awaits is not yet done. -/
theorem Tidy.quelled_of_stopPolling (h : s.Tidy config) {turn : PollingTurn}
    (hpolls : ∀ i c, s.coroutines.get? i = some c → c.role.isWorker = true → i ∉ s.cancelled →
      c.role = .poll)
    (hreturned : (s.stopPolling config id .disconnect turn).coroutines.get? id = none) :
    (s.stopPolling config id .disconnect turn).Quelled := by
  unfold PollingAdapter.stopPolling at hreturned ⊢
  split at hreturned
  next task _ =>
    have hawaiting := (get?_setCoroutine s id (.running .disconnect (.stoppingPoll task)) id).trans
      (if_pos rfl)
    exact absurd (hawaiting.symm.trans hreturned) (by simp)
  next hnone =>
    have hquelled : s.Quelled := h.quelled_of_polls hpolls hnone
    exact Quelled.closeContexts (s := { s with pollTask := none }) hquelled turn

theorem Tidy.quelled_of_stopReconnecting (h : s.Tidy config) {turn : PollingTurn}
    (hreturned : (s.stopReconnecting config id .disconnect turn).coroutines.get? id = none) :
    (s.stopReconnecting config id .disconnect turn).Quelled := by
  unfold PollingAdapter.stopReconnecting at hreturned ⊢
  split at hreturned
  next task _ =>
    have hawaiting := (get?_setCoroutine s id
      (.running .disconnect (.stoppingReconnect task)) id).trans (if_pos rfl)
    exact absurd (hawaiting.symm.trans hreturned) (by simp)
  next hnone =>
    exact (h.loopCleared hnone).quelled_of_stopPolling (h.polls hnone) hreturned

/-- A call that plays the part of a `disconnect()` is one. -/
theorem disconnect_of_plays {call : PollingCall} {stage : PollingStage}
    (hc : s.coroutines.get? id = some (.running call stage)) (h : s.Plays id .disconnecting) :
    call = .disconnect := by
  obtain ⟨c, hc', hrole⟩ := h
  obtain rfl := Option.some.inj (hc.symm.trans hc')
  cases call with
  | disconnect => rfl
  | reconnectLoop rest => cases hrole
  | start => cases stage <;> cases hrole
  | connect => cases stage <;> cases hrole

theorem Returns.quelled {e : PollingEvent} (hreturns : s.Returns t e) (h : s.Tidy config)
    (hstep : step config s e = some t) : t.Quelled := by
  cases e with
  | disconnect turn =>
    obtain rfl := Option.some.inj hstep
    have hnext : Tidy config { s with nextId := s.nextId + 1 } :=
      h.congr (.refl _) rfl (Nat.le_succ _)
        (fun role i hi => ⟨Nat.lt_succ_of_lt (h.freshTask role i hi), Or.inl hi⟩)
        (fun _ _ _ _ _ => rfl) (fun _ _ _ _ _ _ => rfl) h.published
    exact hnext.quelled_of_stopReconnecting hreturns
  | taskAwaited id turn =>
    obtain ⟨hplays, hreturned⟩ := hreturns
    simp only [step] at hstep
    split at hstep
    next call task hc =>
      obtain rfl := disconnect_of_plays hc hplays
      split at hstep
      next => cases hstep
      next hdone =>
        obtain ⟨htidy, -, hquelled⟩ := h.stopped hc rfl (OrderedDict.get?_eq_none_iff.mpr hdone)
        obtain rfl := Option.some.inj hstep
        rw [h.cancelled_filter hc rfl] at hreturned ⊢
        exact htidy.quelled_of_stopPolling
          (fun i c hc hworker hi => absurd (hquelled i c hc hworker) hi) hreturned
    next call task hc =>
      obtain rfl := disconnect_of_plays hc hplays
      split at hstep
      next => cases hstep
      next hdone =>
        obtain ⟨-, -, hquelled⟩ := h.stopped hc rfl (OrderedDict.get?_eq_none_iff.mpr hdone)
        obtain rfl := Option.some.inj hstep
        rw [h.cancelled_filter hc rfl]
        exact hquelled.closeContexts turn
    next => cases hstep
  | closed id turn =>
    obtain ⟨hplays, -⟩ := hreturns
    simp only [step] at hstep
    split at hstep
    next call hrunning =>
      obtain ⟨-, hc⟩ := running_eq_some.mp hrunning
      obtain rfl := disconnect_of_plays hc hplays
      obtain rfl := Option.some.inj hstep
      exact fun j d hd hworker => (h.disconnecting hc rfl).1 j d (get?_of_resume hd) hworker
    next call invalid hrunning =>
      obtain ⟨-, hc⟩ := running_eq_some.mp hrunning
      exact absurd (disconnect_of_plays hc hplays) (h.fetches_call hc rfl (by simp))
    next invalid hrunning =>
      obtain ⟨-, hc⟩ := running_eq_some.mp hrunning
      obtain ⟨c, hc', hrole⟩ := hplays
      obtain rfl := Option.some.inj (hc.symm.trans hc')
      cases hrole
    next => cases hstep
  | _ => exact hreturns.elim

/-- Nothing is live but calls of `get_positions` and `disconnect()`. -/
def Dormant (s : PollingAdapter) : Prop :=
  ∀ id c, s.coroutines.get? id = some c → c.role = .reader ∨ c.role = .disconnecting

theorem Idle.dormant (h : s.Idle) : s.Dormant := fun id c hc => Or.inl (h id c hc)

theorem Dormant.not_worker (h : s.Dormant) {c : PollingCoroutine}
    (hc : s.coroutines.get? id = some c) : c.role.isWorker = false := by
  rcases h id c hc with hrole | hrole <;> rw [hrole] <;> rfl

theorem Dormant.resume (h : s.Dormant) : (s.resume id).Dormant :=
  fun j d hd => h j d (get?_of_resume hd)

theorem Dormant.setCoroutine (h : s.Dormant) {c : PollingCoroutine}
    (hrole : c.role = .reader ∨ c.role = .disconnecting) : (s.setCoroutine id c).Dormant := by
  intro j d hd
  rw [get?_setCoroutine] at hd
  split at hd
  next =>
    obtain rfl := Option.some.inj hd
    exact hrole
  next => exact h j d hd

theorem Dormant.closeContexts (h : s.Dormant) (turn : PollingTurn) :
    (s.closeContexts config id .disconnect turn).Dormant := by
  unfold PollingAdapter.closeContexts
  split
  next => exact Dormant.setCoroutine (s := s.closeSession) h (Or.inr rfl)
  next => exact h

/-- No task that a field holds is live. -/
theorem Dormant.done (h : s.Dormant) (htidy : s.Tidy config) (role : PollingRole) :
    (s.taskOf role).filter (· ∈ s.coroutines.keys) = none := by
  rw [Option.filter_eq_none_iff]
  intro task htask hlive
  obtain ⟨c, hc⟩ := OrderedDict.mem_keys_iff.mp (of_decide_eq_true hlive)
  exact absurd ((htidy.task role task c htask hc).2.1.symm.trans (h.not_worker hc)) (by decide)

theorem Dormant.stopPolling (h : s.Dormant) (htidy : s.Tidy config) (turn : PollingTurn) :
    (s.stopPolling config id .disconnect turn).Dormant := by
  have hdone : s.pollTask.filter (· ∈ s.coroutines.keys) = none := h.done htidy .poll
  unfold PollingAdapter.stopPolling
  rw [hdone]
  exact Dormant.closeContexts (s := { s with pollTask := none }) h turn

theorem Dormant.disconnect (h : s.Dormant) (htidy : s.Tidy config) (turn : PollingTurn) :
    (s.call config .disconnect turn).Dormant := by
  have hnext : Tidy config { s with nextId := s.nextId + 1, reconnectTask := none } := by
    refine htidy.congr (.refl _) rfl (Nat.le_succ _) (fun role i hi => ?_)
      (fun i c hc hworker _ => ?_) (fun _ _ _ _ _ _ => rfl) htidy.published
    · have hi' : s.taskOf role = some i := by
        cases role <;> first | exact hi | cases hi
      exact ⟨Nat.lt_succ_of_lt (htidy.freshTask role i hi'), Or.inl hi'⟩
    · exact absurd (hworker.symm.trans (h.not_worker hc)) (by decide)
  have hdone : s.reconnectTask.filter (· ∈ s.coroutines.keys) = none := h.done htidy .loop
  unfold PollingAdapter.call PollingAdapter.stopReconnecting
  rw [hdone]
  exact Dormant.stopPolling (s := { s with nextId := s.nextId + 1, reconnectTask := none }) h hnext
    turn

theorem Dormant.plays (h : s.Dormant) {call : PollingCall} {stage : PollingStage}
    (hc : s.coroutines.get? id = some (.running call stage)) : call = .disconnect := by
  rcases h id _ hc with hrole | hrole
  · cases call with
    | disconnect => rfl
    | reconnectLoop rest => cases hrole
    | start => cases stage <;> cases hrole
    | connect => cases stage <;> cases hrole
  · exact disconnect_of_plays hc ⟨_, hc, hrole⟩

/-- No worker comes to life before `start()` or `connect()` is called. -/
theorem Dormant.step (h : s.Dormant) (htidy : s.Tidy config) {e : PollingEvent}
    (hconnects : ¬ e.Connects) (hstep : step config s e = some t) : t.Dormant := by
  cases e with
  | start turn => exact absurd trivial hconnects
  | connect turn => exact absurd trivial hconnects
  | disconnect turn =>
    obtain rfl := Option.some.inj hstep
    exact h.disconnect htidy turn
  | getPositions turn =>
    obtain rfl := Option.some.inj hstep
    have hreading : (s.setCoroutine s.nextId (.reading [s.seen])).Dormant :=
      h.setCoroutine (Or.inl rfl)
    unfold PollingAdapter.getPositions
    by_cases hfutu : config.broker = .futu
    · rw [if_pos hfutu]
      split
      next => exact hreading
      next => exact h
    · rw [if_neg hfutu]
      split
      next => exact hreading
      next => exact h
  | loopStarts id =>
    simp only [PollingAdapter.step] at hstep
    split at hstep
    next hrunning =>
      obtain ⟨-, hc⟩ := running_eq_some.mp hrunning
      cases h.not_worker hc
    next => cases hstep
  | loopWakes id turn =>
    simp only [PollingAdapter.step] at hstep
    split at hstep
    next rest hrunning =>
      obtain ⟨-, hc⟩ := running_eq_some.mp hrunning
      cases h.not_worker hc
    next => cases hstep
  | pollWakes id turn =>
    simp only [PollingAdapter.step] at hstep
    split at hstep
    next hrunning =>
      obtain ⟨-, hc⟩ := running_eq_some.mp hrunning
      cases h.not_worker hc
    next => cases hstep
  | taskAwaited id turn =>
    simp only [PollingAdapter.step] at hstep
    split at hstep
    next call task hc =>
      obtain rfl := h.plays hc
      split at hstep
      next => cases hstep
      next hdone =>
        obtain ⟨hresumed, -, -⟩ := htidy.stopped hc rfl (OrderedDict.get?_eq_none_iff.mpr hdone)
        obtain rfl := Option.some.inj hstep
        rw [htidy.cancelled_filter hc rfl]
        exact h.resume.stopPolling hresumed turn
    next call task hc =>
      obtain rfl := h.plays hc
      split at hstep
      next => cases hstep
      next =>
        obtain rfl := Option.some.inj hstep
        exact Dormant.closeContexts (s := { s.resume id with
          cancelled := s.cancelled.filter (· ≠ id) }) h.resume turn
    next => cases hstep
  | closed id turn =>
    simp only [PollingAdapter.step] at hstep
    split at hstep
    next call hrunning =>
      obtain ⟨-, hc⟩ := running_eq_some.mp hrunning
      obtain rfl := h.plays hc
      obtain rfl := Option.some.inj hstep
      exact h.resume
    next call invalid hrunning =>
      obtain ⟨-, hc⟩ := running_eq_some.mp hrunning
      exact absurd (h.plays hc) (htidy.fetches_call hc rfl (by simp))
    next invalid hrunning =>
      obtain ⟨-, hc⟩ := running_eq_some.mp hrunning
      rcases h id _ hc with hrole | hrole <;> cases hrole
    next => cases hstep
  | opened id raises turn =>
    simp only [PollingAdapter.step] at hstep
    split at hstep
    next call hrunning =>
      obtain ⟨-, hc⟩ := running_eq_some.mp hrunning
      exact absurd (h.plays hc) (htidy.fetches_call hc rfl (by simp))
    next => cases hstep
  | asks id =>
    simp only [PollingAdapter.step] at hstep
    split at hstep
    next d hasked =>
      obtain ⟨c, hrunning, hd⟩ := Option.bind_eq_some_iff.mp hasked
      obtain ⟨-, hc⟩ := running_eq_some.mp hrunning
      obtain rfl := Option.some.inj hstep
      refine h.setCoroutine ?_
      rw [(asked_eq_some hd).role]
      exact h id c hc
    next => cases hstep
  | fetchEnds id raises turn =>
    obtain ⟨c, hrunning, hd⟩ := Option.bind_eq_some_iff.mp hstep
    obtain ⟨-, hc⟩ := running_eq_some.mp hrunning
    cases c with
    | running call stage =>
      obtain rfl := h.plays hc
      cases stage <;> first | cases hd | exact absurd rfl (htidy.fetches_call hc rfl (by simp))
    | pollFetching observed => cases h.not_worker hc
    | reading observed =>
      obtain rfl := Option.some.inj hd
      exact h.resume
    | _ => cases hd
  | cancelDelivered id =>
    simp only [PollingAdapter.step] at hstep
    split at hstep
    next => cases hstep
    next => cases hstep
    next =>
      split at hstep
      next =>
        obtain rfl := Option.some.inj hstep
        exact h.resume
      next => cases hstep
    next => cases hstep

end PollingAdapter

/-- In a serial run there is at most one live poll loop and one live reconnect loop, and none once
a `disconnect()` has returned with no other call in flight, until `start()` or `connect()` is
called. -/
theorem one_loop_of_each_kind {config : PollingConfig} {s : PollingAdapter}
    (hrun : Reaches (PollingAdapter.step config) (PollingAdapter.Serial config) .init s) :
    (∀ i j, s.PollLoop i → s.PollLoop j → i = j) ∧
      (∀ i j, s.ReconnectLoop i → s.ReconnectLoop j → i = j) ∧
      ∀ e t, s.Serial config e → PollingAdapter.step config s e = some t →
        s.Returns t e → t.Uncalled → ∀ u, Reaches (PollingAdapter.step config)
          (fun s e => s.Serial config e ∧ ¬ e.Connects) t u →
            ∀ id, ¬ u.PollLoop id ∧ ¬ u.ReconnectLoop id := by
  have htidy : s.Tidy config := hrun.invariant PollingAdapter.init_tidy
    fun _ _ _ h hguard hstep => PollingAdapter.step_tidy h hguard hstep
  refine ⟨fun i j hi hj => ?_, fun i j hi hj => ?_, ?_⟩
  · obtain ⟨c, hc, hworker⟩ := hi.worker
    obtain ⟨d, hd, hdworker⟩ := hj.worker
    exact htidy.one i j c d hc hd hworker hdworker
  · obtain ⟨c, hc, hworker⟩ := hi.worker
    obtain ⟨d, hd, hdworker⟩ := hj.worker
    exact htidy.one i j c d hc hd hworker hdworker
  · intro e t hguard hstep hreturns huncalled u hlater
    have ht : t.Tidy config := PollingAdapter.step_tidy htidy hguard hstep
    have hidle : t.Idle := ht.idle huncalled (hreturns.quelled htidy hstep)
    have hrest : u.Tidy config ∧ u.Dormant := by
      refine hlater.invariant (I := fun v => v.Tidy config ∧ v.Dormant) ⟨ht, hidle.dormant⟩ ?_
      rintro v e w ⟨hv, hdormant⟩ ⟨hguard, hconnects⟩ hstep
      exact ⟨PollingAdapter.step_tidy hv hguard hstep, hdormant.step hv hconnects hstep⟩
    intro id
    constructor
    · intro hpoll
      obtain ⟨c, hc, hworker⟩ := hpoll.worker
      exact absurd (hworker.symm.trans (hrest.2.not_worker hc)) (by decide)
    · intro hloop
      obtain ⟨c, hc, hworker⟩ := hloop.worker
      exact absurd (hworker.symm.trans (hrest.2.not_worker hc)) (by decide)

/-- A refresh that fails and a reconnect loop, whose attempt a `disconnect()` cancels. -/
theorem disconnect_stops_the_attempt :
    ∃ s t : PollingAdapter,
      Reaches (PollingAdapter.step ⟨.longbridge, [5], true, true⟩)
        (PollingAdapter.Serial ⟨.longbridge, [5], true, true⟩) .init s ∧
      PollingAdapter.step ⟨.longbridge, [5], true, true⟩ s
        (.taskAwaited 5 ⟨false, true, .built⟩) = some t ∧
      (∀ i j, s.ReconnectLoop i → s.ReconnectLoop j → i = j) ∧
      ∀ id, ¬ t.PollLoop id ∧ ¬ t.ReconnectLoop id := by
  obtain ⟨s, hrun, hs⟩ := Reaches.exists_of_execute
    (PollingAdapter.step ⟨.longbridge, [5], true, true⟩)
    (PollingAdapter.Serial ⟨.longbridge, [5], true, true⟩) .init
    [.start ⟨false, true, .built⟩, .fetchEnds 0 none ⟨false, true, .built⟩,
      .pollWakes 2 ⟨false, true, .built⟩, .fetchEnds 2 (some false) ⟨false, true, .built⟩,
      .loopStarts 3, .loopWakes 3 ⟨false, true, .built⟩, .disconnect ⟨false, true, .built⟩,
      .cancelDelivered 3]
    (fun s => (PollingAdapter.step ⟨.longbridge, [5], true, true⟩ s
      (.taskAwaited 5 ⟨false, true, .built⟩)).any fun t =>
        s.Plays 5 .disconnecting ∧ t.coroutines.keys = []) (by decide +kernel)
  obtain ⟨t, hstep, ht⟩ := (Option.any_eq_true _ _).mp hs
  obtain ⟨hplays, hkeys⟩ := of_decide_eq_true ht
  have hnone : ∀ id, t.coroutines.get? id = none := by
    intro id
    rw [OrderedDict.get?_eq_none_iff, hkeys]
    exact List.not_mem_nil
  have huncalled : t.Uncalled := fun id c hc => absurd (hc.symm.trans (hnone id)) (by simp)
  obtain ⟨-, hone, hrest⟩ := one_loop_of_each_kind hrun
  exact ⟨s, t, hrun, hstep, hone, hrest (.taskAwaited 5 ⟨false, true, .built⟩) t trivial hstep
    ⟨hplays, hnone 5⟩ huncalled t .refl⟩

/-- Two calls of `start()`, each past its `_stop_polling` before the other has fetched. -/
theorem overlapping_starts_poll_twice :
    ∃ s, Reaches (PollingAdapter.step ⟨.longbridge, [5], true, true⟩) (fun _ _ => True) .init s ∧
      s.PollLoop 4 ∧ s.PollLoop 5 := by
  obtain ⟨s, hrun, hs⟩ := Reaches.exists_of_execute
    (PollingAdapter.step ⟨.longbridge, [5], true, true⟩) (fun _ _ => True) .init
    [.start ⟨false, true, .built⟩, .start ⟨false, true, .built⟩,
      .fetchEnds 0 none ⟨false, true, .built⟩, .fetchEnds 2 none ⟨false, true, .built⟩]
    (fun s => s.PollLoop 4 ∧ s.PollLoop 5) (by decide +kernel)
  exact ⟨s, hrun, of_decide_eq_true hs⟩

end PortfolioHub
