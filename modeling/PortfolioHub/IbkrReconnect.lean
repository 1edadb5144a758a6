import PortfolioHub.IbkrLifecycle

namespace PortfolioHub

namespace IbkrLifecycle

/-- Every live loop is the reconnect task or has been cancelled by a `disconnect()` that still
awaits it. -/
structure Owned (s : IbkrLifecycle) : Prop where
  fresh : ∀ id c, s.coroutines.get? id = some c → id < s.nextId
  freshCancelled : ∀ id ∈ s.cancelled, id < s.nextId
  freshTask : ∀ id, s.reconnectTask = some id → id < s.nextId
  task : ∀ id c, s.reconnectTask = some id → s.coroutines.get? id = some c →
    c.isLoop = true ∧ id ∉ s.cancelled
  loop : ∀ id c, s.coroutines.get? id = some c → c.isLoop = true →
    s.reconnectTask = some id ∨ id ∈ s.cancelled
  awaited : ∀ id c, id ∈ s.cancelled → s.coroutines.get? id = some c →
    c.isLoop = true ∧ ∃ d, s.coroutines.get? d = some (.stopping id)

variable {s s' : IbkrLifecycle}

theorem Owned.congr (h : s.Owned) (hcoroutines : s'.coroutines = s.coroutines)
    (hcancelled : s'.cancelled = s.cancelled) (htask : s'.reconnectTask = s.reconnectTask)
    (hnext : s.nextId ≤ s'.nextId) : s'.Owned := by
  refine ⟨?_, ?_, ?_, ?_, ?_, ?_⟩
  · rw [hcoroutines]
    exact fun id c hc => (h.fresh id c hc).trans_le hnext
  · rw [hcancelled]
    exact fun id hid => (h.freshCancelled id hid).trans_le hnext
  · rw [htask]
    exact fun id hid => (h.freshTask id hid).trans_le hnext
  · rw [hcoroutines, hcancelled, htask]
    exact h.task
  · rw [hcoroutines, hcancelled, htask]
    exact h.loop
  · rw [hcoroutines, hcancelled]
    exact h.awaited

/-- A coroutine goes on as one of its kind; a `disconnect()` only when its loop is done. -/
theorem Owned.setCoroutine (h : s.Owned) {id : ℕ} {c b : Coroutine}
    (hc : s.coroutines.get? id = some c) (hloop : b.isLoop = c.isLoop)
    (hstop : ∀ loop, c = .stopping loop → s.coroutines.get? loop = none) :
    (s.setCoroutine id b).Owned := by
  have hget : ∀ j d, (s.setCoroutine id b).coroutines.get? j = some d →
      ∃ d', s.coroutines.get? j = some d' ∧ d'.isLoop = d.isLoop := by
    intro j d hj
    rw [get?_setCoroutine] at hj
    split at hj
    next heq =>
      subst heq
      obtain rfl := Option.some.inj hj
      exact ⟨c, hc, hloop.symm⟩
    next => exact ⟨d, hj, rfl⟩
  refine ⟨?_, h.freshCancelled, h.freshTask, ?_, ?_, ?_⟩
  · intro j d hj
    obtain ⟨d', hd', -⟩ := hget j d hj
    exact h.fresh j d' hd'
  · intro j d htask hj
    obtain ⟨d', hd', hkind⟩ := hget j d hj
    exact ⟨hkind ▸ (h.task j d' htask hd').1, (h.task j d' htask hd').2⟩
  · intro j d hj hdloop
    obtain ⟨d', hd', hkind⟩ := hget j d hj
    exact h.loop j d' hd' (hkind.trans hdloop)
  · intro j d hcancelled hj
    obtain ⟨d', hd', hkind⟩ := hget j d hj
    obtain ⟨hjloop, k, hk⟩ := h.awaited j d' hcancelled hd'
    refine ⟨hkind ▸ hjloop, k, ?_⟩
    rw [get?_setCoroutine]
    split
    next heq =>
      subst heq
      rw [hstop j (Option.some.inj (hc.symm.trans hk))] at hd'
      cases hd'
    next => exact hk

theorem Owned.endCoroutine (h : s.Owned) {id : ℕ} {c : Coroutine}
    (hc : s.coroutines.get? id = some c)
    (hstop : ∀ loop, c = .stopping loop → s.coroutines.get? loop = none) :
    (s.endCoroutine id).Owned := by
  have hget : ∀ j d, (s.endCoroutine id).coroutines.get? j = some d →
      s.coroutines.get? j = some d := by
    intro j d hj
    rw [get?_endCoroutine] at hj
    split at hj
    next => cases hj
    next => exact hj
  refine ⟨fun j d hj => h.fresh j d (hget j d hj), h.freshCancelled, h.freshTask,
    fun j d htask hj => h.task j d htask (hget j d hj),
    fun j d hj => h.loop j d (hget j d hj), ?_⟩
  intro j d hcancelled hj
  obtain ⟨hloop, k, hk⟩ := h.awaited j d hcancelled (hget j d hj)
  refine ⟨hloop, k, ?_⟩
  rw [get?_endCoroutine]
  split
  next heq =>
    subst heq
    have hdone := hstop j (Option.some.inj (hc.symm.trans hk))
    rw [hget j d hj] at hdone
    cases hdone
  next => exact hk

/-- A call that starts a coroutine of its own. -/
theorem Owned.spawn (h : s.Owned) {c : Coroutine} (hc : c.isLoop = false) :
    Owned { s.setCoroutine s.nextId c with nextId := s.nextId + 1 } := by
  have hget : ∀ j d, (s.setCoroutine s.nextId c).coroutines.get? j = some d →
      j = s.nextId ∧ d = c ∨ s.coroutines.get? j = some d := by
    intro j d hj
    rw [get?_setCoroutine] at hj
    split at hj
    next heq => exact Or.inl ⟨heq, (Option.some.inj hj).symm⟩
    next => exact Or.inr hj
  refine ⟨?_, fun j hj => Nat.lt_succ_of_lt (h.freshCancelled j hj),
    fun j hj => Nat.lt_succ_of_lt (h.freshTask j hj), ?_, ?_, ?_⟩
  · intro j d hj
    rcases hget j d hj with ⟨rfl, -⟩ | hj
    · exact Nat.lt_succ_self s.nextId
    · exact Nat.lt_succ_of_lt (h.fresh j d hj)
  · intro j d htask hj
    rcases hget j d hj with ⟨rfl, -⟩ | hj
    · exact absurd (h.freshTask _ htask) (lt_irrefl _)
    · exact h.task j d htask hj
  · intro j d hj hloop
    rcases hget j d hj with ⟨-, rfl⟩ | hj
    · exact absurd (hc.symm.trans hloop) (by simp)
    · exact h.loop j d hj hloop
  · intro j d hcancelled hj
    rcases hget j d hj with ⟨rfl, -⟩ | hj
    · exact absurd (h.freshCancelled _ hcancelled) (lt_irrefl _)
    · obtain ⟨hloop, k, hk⟩ := h.awaited j d hcancelled hj
      refine ⟨hloop, k, ?_⟩
      dsimp only
      rw [get?_setCoroutine, if_neg (h.fresh k _ hk).ne]
      exact hk

theorem Owned.ensureLoop (h : s.Owned) : s.ensureLoop.Owned := by
  rcases ensureLoop_cases s with ⟨-, -, -, -, heq⟩ | ⟨hdone, heq⟩
  · rw [heq]
    exact h
  · rw [heq]
    have hnotCancelled : s.nextId ∉ s.cancelled := fun hc => lt_irrefl _ (h.freshCancelled _ hc)
    have hget : ∀ j d, (s.setCoroutine s.nextId .created).coroutines.get? j = some d →
        j = s.nextId ∧ d = .created ∨ s.coroutines.get? j = some d ∧ j ≠ s.nextId := by
      intro j d hj
      rw [get?_setCoroutine] at hj
      split at hj
      next heq => exact Or.inl ⟨heq, (Option.some.inj hj).symm⟩
      next hne => exact Or.inr ⟨hj, hne⟩
    refine ⟨?_, fun j hj => Nat.lt_succ_of_lt (h.freshCancelled j hj), ?_, ?_, ?_, ?_⟩
    · intro j d hj
      rcases hget j d hj with ⟨rfl, -⟩ | ⟨hj, -⟩
      · exact Nat.lt_succ_self s.nextId
      · exact Nat.lt_succ_of_lt (h.fresh j d hj)
    · intro j hj
      obtain rfl := Option.some.inj hj
      exact Nat.lt_succ_self s.nextId
    · intro j d htask hj
      obtain rfl := Option.some.inj htask
      rcases hget _ d hj with ⟨-, rfl⟩ | ⟨-, hne⟩
      · exact ⟨rfl, hnotCancelled⟩
      · exact absurd rfl hne
    · intro j d hj hloop
      rcases hget j d hj with ⟨rfl, -⟩ | ⟨hj, -⟩
      · exact Or.inl rfl
      · rcases h.loop j d hj hloop with htask | hcancelled
        · exact absurd (OrderedDict.mem_keys_iff.mpr ⟨d, hj⟩) (hdone j htask)
        · exact Or.inr hcancelled
    · intro j d hcancelled hj
      rcases hget j d hj with ⟨rfl, -⟩ | ⟨hj, -⟩
      · exact absurd hcancelled hnotCancelled
      · obtain ⟨hloop, k, hk⟩ := h.awaited j d hcancelled hj
        refine ⟨hloop, k, ?_⟩
        dsimp only
        rw [get?_setCoroutine, if_neg (h.fresh k _ hk).ne]
        exact hk

theorem Owned.handleDisconnect (h : s.Owned) : s.handleDisconnect.Owned := by
  rcases handleDisconnect_cases s with ⟨-, heq⟩ | ⟨-, -, heq⟩
  · rw [heq]
    exact h
  · rw [heq]
    exact Owned.ensureLoop (h.congr rfl rfl rfl le_rfl)

theorem Owned.wakeupEvent (h : s.Owned) : s.wakeupEvent.2.Owned := by
  rcases wakeupEvent_cases s with heq | ⟨wakeups, heq⟩
  · rw [heq]
    exact h
  · rw [heq]
    exact h.congr rfl rfl rfl (Nat.le_succ _)

theorem Owned.modifyInstance (h : s.Owned) (ib : ℕ) (f : IbInstance → IbInstance) :
    (s.modifyInstance ib f).Owned := by
  obtain ⟨instances, heq, -, -⟩ := modifyInstance_eq s ib f
  rw [heq]
  exact h.congr rfl rfl rfl le_rfl

/-- Some coroutine is of the kind. -/
def Has (s : IbkrLifecycle) (kind : Coroutine → Prop) : Prop :=
  ∃ id c, s.coroutines.get? id = some c ∧ kind c

instance (s : IbkrLifecycle) (kind : Coroutine → Prop) [DecidablePred kind] :
    Decidable (s.Has kind) :=
  decidable_of_iff (∃ c ∈ s.coroutines.values, kind c) (by
    constructor
    · rintro ⟨c, hc, hkind⟩
      obtain ⟨id, hid⟩ := OrderedDict.mem_values_iff.mp hc
      exact ⟨id, c, hid, hkind⟩
    · rintro ⟨id, c, hc, hkind⟩
      exact ⟨c, OrderedDict.mem_values_iff.mpr ⟨id, hc⟩, hkind⟩)

theorem Has.setCoroutine {kind : Coroutine → Prop} (h : s.Has kind) {id : ℕ} {c' : Coroutine}
    (hc : ∀ c, s.coroutines.get? id = some c → kind c → kind c') :
    (s.setCoroutine id c').Has kind := by
  obtain ⟨j, c, hj, hkind⟩ := h
  by_cases heq : j = id
  · subst heq
    exact ⟨j, c', by rw [get?_setCoroutine, if_pos rfl], hc c hj hkind⟩
  · exact ⟨j, c, by rw [get?_setCoroutine, if_neg heq]; exact hj, hkind⟩

theorem Has.endCoroutine {kind : Coroutine → Prop} (h : s.Has kind) {id : ℕ}
    (hc : ∀ c, s.coroutines.get? id = some c → ¬ kind c) : (s.endCoroutine id).Has kind := by
  obtain ⟨j, c, hj, hkind⟩ := h
  refine ⟨j, c, ?_, hkind⟩
  rw [get?_endCoroutine]
  split
  next heq =>
    subst heq
    exact absurd hkind (hc c hj)
  next => exact hj

/-- A reconnect loop is live. -/
def LoopLive (s : IbkrLifecycle) : Prop := s.Has fun c => c.isLoop = true

/-- A `disconnect()` is in progress. -/
def DisconnectInFlight (s : IbkrLifecycle) : Prop := s.Has fun c => c.isDisconnect = true

instance (s : IbkrLifecycle) : Decidable s.DisconnectInFlight :=
  inferInstanceAs (Decidable (s.Has fun c => c.isDisconnect = true))

/-- RECONNECTING is left to a loop or to a `disconnect()`, and a delay is one of a loop that has
started. -/
structure Tended (s : IbkrLifecycle) : Prop where
  owned : s.Owned
  reconnecting : s.state = .reconnecting →
    s.Has fun c => c.isLoop = true ∨ c.isDisconnect = true
  delay : s.currentBackoffDelay ≠ none → s.Has fun c => c.isLoop = true ∧ c ≠ .created

/-- The new loop takes over the state. -/
theorem Tended.ensureLoop (howned : s.Owned)
    (hdelay : s.currentBackoffDelay ≠ none → s.Has fun c => c.isLoop = true ∧ c ≠ .created) :
    s.ensureLoop.Tended := by
  refine ⟨howned.ensureLoop, fun _ => ?_, ?_⟩
  · rcases ensureLoop_cases s with ⟨id, c, htask, hc, heq⟩ | ⟨-, heq⟩
    · rw [heq]
      exact ⟨id, c, hc, Or.inl (howned.task id c htask hc).1⟩
    · rw [heq]
      refine ⟨s.nextId, .created, ?_, Or.inl rfl⟩
      exact (get?_setCoroutine s s.nextId .created s.nextId).trans (if_pos rfl)
  · rcases ensureLoop_cases s with ⟨id, c, htask, hc, heq⟩ | ⟨-, heq⟩
    · rw [heq]
      exact hdelay
    · rw [heq]
      intro hsome
      refine Has.setCoroutine (hdelay hsome) fun c hc _ => ?_
      exact absurd (howned.fresh _ c hc) (lt_irrefl _)

theorem Tended.handleDisconnect (h : s.Tended) : s.handleDisconnect.Tended := by
  rcases handleDisconnect_cases s with ⟨-, heq⟩ | ⟨-, -, heq⟩
  · rw [heq]
    exact h
  · rw [heq]
    exact Tended.ensureLoop (h.owned.congr rfl rfl rfl le_rfl) h.delay

/-- A loop that is not cancelled goes on with its next delay, or gives up. -/
theorem Tended.nextDelay (h : s.Owned) {id : ℕ} {c : Coroutine}
    (hc : s.coroutines.get? id = some c) (hloop : c.isLoop = true) (delays : List ℚ) :
    (s.nextDelay id delays).Tended := by
  have hnotStop : ∀ loop, c = .stopping loop → s.coroutines.get? loop = none := by
    rintro loop rfl
    cases hloop
  cases delays with
  | nil =>
    refine ⟨(h.endCoroutine hc hnotStop).congr rfl rfl rfl le_rfl, ?_, ?_⟩
    · intro hstate
      cases hstate
    · exact fun hsome => absurd rfl hsome
  | cons delay rest =>
    set s' : IbkrLifecycle := { s with currentBackoffDelay := some delay } with hs'
    have hs'owned : s'.Owned := h.congr rfl rfl rfl le_rfl
    have hcoroutines : s'.wakeupEvent.2.coroutines = s.coroutines := by
      rcases wakeupEvent_cases s' with heq | ⟨wakeups, heq⟩
      · rw [heq]
      · rw [heq]
    have hback : ((s'.wakeupEvent.2).setCoroutine id (.backoff rest s'.wakeupEvent.1)).coroutines.get?
        id = some (.backoff rest s'.wakeupEvent.1) :=
      (get?_setCoroutine _ id _ id).trans (if_pos rfl)
    refine ⟨?_, fun _ => ⟨id, _, hback, Or.inl rfl⟩, fun _ => ⟨id, _, hback, rfl, by simp⟩⟩
    refine hs'owned.wakeupEvent.setCoroutine (c := c) ?_ hloop.symm ?_
    · rw [hcoroutines]
      exact hc
    · rw [hcoroutines]
      exact hnotStop

/-- A loop that is no longer needed ends. -/
theorem Tended.endLoop (h : s.Owned) {id : ℕ} {c : Coroutine}
    (hc : s.coroutines.get? id = some c) (hloop : c.isLoop = true)
    (htended : s.state = .reconnecting →
      (s.endCoroutine id).Has fun c => c.isLoop = true ∨ c.isDisconnect = true) :
    (s.endLoop id).Tended := by
  have hnotStop : ∀ loop, c = .stopping loop → s.coroutines.get? loop = none := by
    rintro loop rfl
    cases hloop
  exact ⟨(h.endCoroutine hc hnotStop).congr rfl rfl rfl le_rfl, htended,
    fun hsome => absurd rfl hsome⟩

/-- A `start()` or `connect()` ends. -/
theorem Tended.endCall (h : s.Tended) {id : ℕ} {c : Coroutine}
    (hc : s.coroutines.get? id = some c) (hloop : c.isLoop = false)
    (hdisconnect : c.isDisconnect = false) : (s.endCoroutine id).Tended := by
  refine ⟨h.owned.endCoroutine hc ?_, fun hstate => ?_, fun hsome => ?_⟩
  · rintro loop rfl
    cases hdisconnect
  · refine Has.endCoroutine (h.reconnecting hstate) fun c' hc' => ?_
    obtain rfl := Option.some.inj (hc.symm.trans hc')
    simp [hloop, hdisconnect]
  · refine Has.endCoroutine (h.delay hsome) fun c' hc' => ?_
    obtain rfl := Option.some.inj (hc.symm.trans hc')
    simp [hloop]

theorem Tended.call (h : s.Tended) {awaiter : Awaiter} (hawaiter : awaiter.isLoop = false) :
    (s.call awaiter).Tended := by
  have hnew : ∀ c, s.coroutines.get? s.nextId = some c → False :=
    fun c hc => lt_irrefl _ (h.owned.fresh _ c hc)
  refine ⟨?_, fun hstate => ?_, fun hsome => ?_⟩
  · exact Owned.congr (h.owned.spawn (c := .connecting awaiter (s.nextId + 1)) hawaiter)
      rfl rfl rfl (Nat.le_succ _)
  · exact Has.setCoroutine (h.reconnecting hstate) fun c hc _ => (hnew c hc).elim
  · exact Has.setCoroutine (h.delay hsome) fun c hc _ => (hnew c hc).elim

/-- An attempt is one of the loop, which goes on. -/
theorem Tended.attempt (h : s.Tended) {id : ℕ} {rest : List ℚ} {wakeup : ℕ}
    (hc : s.coroutines.get? id = some (.backoff rest wakeup)) :
    (s.attempt id rest wakeup).Tended := by
  unfold IbkrLifecycle.attempt
  dsimp only
  split
  next hconnected =>
    refine Tended.endLoop (s := { s with wakeups := s.wakeups.insert wakeup false })
      (h.owned.congr rfl rfl rfl le_rfl) hc rfl ?_
    intro hstate
    rw [hconnected] at hstate
    cases hstate
  next =>
    refine ⟨?_, fun hstate => ?_, fun hsome => ?_⟩
    · exact Owned.congr (h.owned.setCoroutine (b := .connecting (.reconnectLoop rest) s.nextId) hc
        rfl (by simp)) rfl rfl rfl (Nat.le_succ _)
    · exact Has.setCoroutine (h.reconnecting hstate) fun _ _ _ => Or.inl rfl
    · exact Has.setCoroutine (h.delay hsome) fun _ _ _ => ⟨rfl, by simp⟩

theorem Tended.connectRaised (h : s.Tended) {id : ℕ} {c : Coroutine} {awaiter : Awaiter}
    (hc : s.coroutines.get? id = some c) (hloop : c.isLoop = awaiter.isLoop)
    (hdisconnect : c.isDisconnect = false) : (s.connectRaised id awaiter).Tended := by
  cases awaiter with
  | start => exact (h.endCall hc hloop hdisconnect).handleDisconnect
  | connect => exact h.endCall hc hloop hdisconnect
  | reconnectLoop rest => exact Tended.nextDelay h.owned hc hloop rest

theorem Tended.setConnected (h : s.Tended) : Tended { s with state := .connected } := by
  refine ⟨h.owned.congr rfl rfl rfl le_rfl, fun hstate => ?_, h.delay⟩
  cases hstate

theorem Tended.connectSucceeded (h : s.Tended) {id : ℕ} {c : Coroutine} {awaiter : Awaiter}
    (hc : s.coroutines.get? id = some c) (hloop : c.isLoop = awaiter.isLoop)
    (hdisconnect : c.isDisconnect = false) : (s.connectSucceeded id awaiter).Tended := by
  cases awaiter with
  | start => exact (h.endCall hc hloop hdisconnect).setConnected
  | connect => exact (h.endCall hc hloop hdisconnect).setConnected
  | reconnectLoop rest =>
    refine ⟨(h.owned.endCoroutine hc ?_).congr rfl rfl rfl le_rfl, fun hstate => ?_,
      fun hsome => absurd rfl hsome⟩
    · rintro loop rfl
      cases hloop
    · cases hstate

theorem Tended.modifyInstance (h : s.Tended) (ib : ℕ) (f : IbInstance → IbInstance) :
    (s.modifyInstance ib f).Tended := by
  obtain ⟨instances, heq, -, -⟩ := modifyInstance_eq s ib f
  rw [heq]
  exact ⟨h.owned.congr rfl rfl rfl le_rfl, h.reconnecting, h.delay⟩

theorem Tended.streamingFailed (h : s.Tended) {id ib : ℕ} {awaiter : Awaiter}
    (hc : s.coroutines.get? id = some (.streaming awaiter ib)) :
    (s.streamingFailed id awaiter ib).Tended := by
  have hrest : Tended { s with ib := none } :=
    ⟨h.owned.congr rfl rfl rfl le_rfl, h.reconnecting, h.delay⟩
  refine (hrest.modifyInstance ib _).connectRaised (c := .streaming awaiter ib) ?_ rfl rfl
  obtain ⟨instances, heq, -, -⟩ := modifyInstance_eq { s with ib := none } ib
    fun i => { i with registered := false }
  rw [heq]
  exact hc

theorem Tended.connectReturned (h : s.Tended) {id ib : ℕ} {awaiter : Awaiter}
    (hc : s.coroutines.get? id = some (.connecting awaiter ib)) :
    (s.connectReturned id awaiter ib).Tended := by
  have hmodified := h.modifyInstance ib fun i => { i with connected := true, registered := true }
  obtain ⟨instances, heq, -, -⟩ := modifyInstance_eq s ib
    fun i => { i with connected := true, registered := true }
  unfold IbkrLifecycle.connectReturned
  rw [heq] at hmodified ⊢
  refine ⟨?_, fun hstate => ?_, fun hsome => ?_⟩
  · exact Owned.congr (hmodified.owned.setCoroutine (b := .streaming awaiter ib) hc rfl (by simp))
      rfl rfl rfl le_rfl
  · refine Has.setCoroutine (hmodified.reconnecting hstate) fun c' hc' hkind => ?_
    obtain rfl := Option.some.inj (hc.symm.trans hc')
    simpa [Coroutine.isLoop, Coroutine.isDisconnect] using hkind
  · refine Has.setCoroutine (hmodified.delay hsome) fun c' hc' hkind => ?_
    obtain rfl := Option.some.inj (hc.symm.trans hc')
    exact ⟨hkind.1, by simp⟩

theorem Tended.retryNow (h : s.Tended) : s.retryNow.Tended := by
  unfold IbkrLifecycle.retryNow
  split
  next => exact h
  next =>
    have hwoken : ∀ wakeups, Tended { s.wakeupEvent.2 with wakeups := wakeups } := by
      intro wakeups
      rcases wakeupEvent_cases s with heq | ⟨wakeups', heq⟩
      · rw [heq]
        exact ⟨h.owned.congr rfl rfl rfl le_rfl, h.reconnecting, h.delay⟩
      · rw [heq]
        exact ⟨h.owned.congr rfl rfl rfl (Nat.le_succ _), h.reconnecting, h.delay⟩
    dsimp only
    split
    next => exact (hwoken _).handleDisconnect
    next => exact Tended.ensureLoop (hwoken _).owned (hwoken _).delay

/-- `disconnect()` leaves the state to nobody. -/
theorem Tended.teardown (howned : s.Owned)
    (hdelay : s.currentBackoffDelay ≠ none → s.Has fun c => c.isLoop = true ∧ c ≠ .created)
    (emits : Bool) : (s.teardown emits).Tended := by
  have hclosed : (s.closeHeld emits).Owned ∧ ((s.closeHeld emits).currentBackoffDelay ≠ none →
      (s.closeHeld emits).Has fun c => c.isLoop = true ∧ c ≠ .created) := by
    unfold IbkrLifecycle.closeHeld
    split
    next => exact ⟨howned, hdelay⟩
    next ib i _ =>
      obtain ⟨instances, heq, -, -⟩ := modifyInstance_eq s ib fun i => { i with raised := true }
      dsimp only
      rw [heq]
      have hmodified : Owned { s with instances := instances } := howned.congr rfl rfl rfl le_rfl
      split
      next =>
        rcases handleDisconnect_cases { s with instances := instances } with ⟨-, heq⟩ | ⟨-, -, heq⟩
        · rw [heq]
          exact ⟨hmodified, hdelay⟩
        · rw [heq]
          have hloop := Tended.ensureLoop
            (s := { s with instances := instances, state := .reconnecting })
            (howned.congr rfl rfl rfl le_rfl) hdelay
          exact ⟨hloop.owned, hloop.delay⟩
      next => exact ⟨hmodified, hdelay⟩
  refine ⟨hclosed.1.congr rfl rfl rfl le_rfl, fun hstate => ?_, hclosed.2⟩
  cases hstate

theorem Tended.disconnect (h : s.Tended) (pendingWrites emits : Bool) :
    (s.disconnect pendingWrites emits).Tended := by
  have hnew : ∀ c, s.coroutines.get? s.nextId = some c → False :=
    fun c hc => lt_irrefl _ (h.owned.fresh _ c hc)
  unfold IbkrLifecycle.disconnect
  dsimp only
  split
  next loop hfilter =>
    obtain ⟨htask, hlive⟩ := Option.filter_eq_some_iff.mp hfilter
    obtain ⟨c, hc⟩ := OrderedDict.mem_keys_iff.mp (of_decide_eq_true hlive)
    have hget : ∀ j d, (s.setCoroutine s.nextId (.stopping loop)).coroutines.get? j = some d →
        j = s.nextId ∧ d = .stopping loop ∨ s.coroutines.get? j = some d := by
      intro j d hj
      rw [get?_setCoroutine] at hj
      split at hj
      next heq => exact Or.inl ⟨heq, (Option.some.inj hj).symm⟩
      next => exact Or.inr hj
    have hstopping : (s.setCoroutine s.nextId (.stopping loop)).coroutines.get? s.nextId =
        some (.stopping loop) := (get?_setCoroutine s s.nextId _ _).trans (if_pos rfl)
    refine ⟨⟨?_, ?_, ?_, ?_, ?_, ?_⟩, fun _ => ⟨_, _, hstopping, Or.inr rfl⟩, fun hsome => ?_⟩
    · intro j d hj
      rcases hget j d hj with ⟨rfl, -⟩ | hj
      · exact Nat.lt_succ_self s.nextId
      · exact Nat.lt_succ_of_lt (h.owned.fresh j d hj)
    · intro j hj
      rcases List.mem_cons.mp hj with rfl | hj
      · exact Nat.lt_succ_of_lt (h.owned.fresh _ c hc)
      · exact Nat.lt_succ_of_lt (h.owned.freshCancelled j hj)
    · intro j hj
      cases hj
    · intro j d hj
      cases hj
    · intro j d hj hloop
      rcases hget j d hj with ⟨-, rfl⟩ | hj
      · cases hloop
      · rcases h.owned.loop j d hj hloop with htask' | hcancelled
        · obtain rfl := Option.some.inj (htask.symm.trans htask')
          exact Or.inr List.mem_cons_self
        · exact Or.inr (List.mem_cons_of_mem _ hcancelled)
    · intro j d hcancelled hj
      rcases hget j d hj with ⟨rfl, -⟩ | hold
      · rcases List.mem_cons.mp hcancelled with heq | hcancelled
        · exact (hnew c (heq ▸ hc)).elim
        · exact absurd (h.owned.freshCancelled _ hcancelled) (lt_irrefl _)
      · rcases List.mem_cons.mp hcancelled with rfl | hcancelled
        · exact ⟨(h.owned.task j d htask hold).1, s.nextId, hstopping⟩
        · obtain ⟨hloop, k, hk⟩ := h.owned.awaited j d hcancelled hold
          refine ⟨hloop, k, (get?_setCoroutine s s.nextId _ k).trans ?_⟩
          rw [if_neg (h.owned.fresh k _ hk).ne]
          exact hk
    · exact Has.setCoroutine (h.delay hsome) fun c hc _ => (hnew c hc).elim
  next hfilter =>
    -- a reconnect task that is done is forgotten
    have howned : Owned { s with
        disconnecting := true, reconnectTask := none, reconnectWakeup := none } := by
      refine ⟨h.owned.fresh, h.owned.freshCancelled, ?_, ?_, ?_, h.owned.awaited⟩
      · intro j hj
        cases hj
      · intro j d hj
        cases hj
      · intro j d hj hloop
        rcases h.owned.loop j d hj hloop with htask | hcancelled
        · have hnone := Option.filter_eq_none_iff.mp hfilter j htask
          exact absurd (decide_eq_true (OrderedDict.mem_keys_iff.mpr ⟨d, hj⟩)) hnone
        · exact Or.inr hcancelled
    split
    next =>
      refine ⟨howned.spawn (c := .draining) rfl, fun _ => ?_, fun hsome => ?_⟩
      · refine ⟨s.nextId, .draining, ?_, Or.inr rfl⟩
        exact (get?_setCoroutine s s.nextId .draining _).trans (if_pos rfl)
      · exact Has.setCoroutine (h.delay hsome) fun c hc _ => (hnew c hc).elim
    next =>
      have hnext : Owned { s with
          disconnecting := true
          reconnectTask := none
          reconnectWakeup := none
          nextId := s.nextId + 1 } := howned.congr rfl rfl rfl (Nat.le_succ s.nextId)
      exact Tended.teardown hnext h.delay emits

/-- The last turn of a cancelled loop: the `disconnect()` that awaits it is still there. -/
theorem Tended.cancelDelivered (h : s.Tended) {id : ℕ} {c : Coroutine}
    (hc : s.coroutines.get? id = some c) (hcancelled : id ∈ s.cancelled) :
    (s.cancelDelivered id c).Tended := by
  obtain ⟨hloop, d, hd⟩ := h.owned.awaited id c hcancelled hc
  have hnotStop : ∀ loop, c = .stopping loop → s.coroutines.get? loop = none := by
    rintro loop rfl
    cases hloop
  have hawaits : (s.endCoroutine id).Has fun c => c.isLoop = true ∨ c.isDisconnect = true := by
    refine ⟨d, .stopping id, ?_, Or.inr rfl⟩
    rw [get?_endCoroutine, if_neg ?_]
    · exact hd
    · rintro rfl
      obtain rfl := Option.some.inj (hc.symm.trans hd)
      cases hloop
  unfold IbkrLifecycle.cancelDelivered
  split
  next =>
    refine ⟨h.owned.endCoroutine hc hnotStop, fun _ => hawaits, fun hsome => ?_⟩
    refine Has.endCoroutine (h.delay hsome) fun c' hc' => ?_
    obtain rfl := Option.some.inj (hc.symm.trans hc')
    simp
  next rest wakeup =>
    exact Tended.endLoop (s := { s with wakeups := s.wakeups.insert wakeup false })
      (h.owned.congr rfl rfl rfl le_rfl) hc hloop fun _ => hawaits
  next => exact Tended.endLoop h.owned hc hloop fun _ => hawaits

theorem init_tended : init.Tended := by
  refine ⟨⟨?_, ?_, ?_, ?_, ?_, ?_⟩, ?_, ?_⟩
  · intro id c hc
    cases hc
  · intro id hid
    cases hid
  · intro id hid
    cases hid
  · intro id c hid
    cases hid
  · intro id c hc
    cases hc
  · intro id c hid
    cases hid
  · intro hstate
    cases hstate
  · exact fun hsome => absurd rfl hsome

theorem step_tended {delays : List ℚ} {e : LifecycleEvent} (h : s.Tended)
    (hstep : step delays s e = some s') : s'.Tended := by
  cases e with
  | start =>
    obtain rfl := Option.some.inj hstep
    exact h.call rfl
  | connect =>
    obtain rfl := Option.some.inj hstep
    exact h.call rfl
  | retryNow =>
    obtain rfl := Option.some.inj hstep
    exact h.retryNow
  | disconnect pendingWrites emits =>
    obtain rfl := Option.some.inj hstep
    exact h.disconnect pendingWrites emits
  | loopStarts id =>
    simp only [step] at hstep
    split at hstep
    next hrunning =>
      obtain rfl := Option.some.inj hstep
      exact Tended.nextDelay h.owned (running_eq_some.mp hrunning).2 rfl delays
    next => cases hstep
  | backoffOver id =>
    simp only [step] at hstep
    split at hstep
    next rest wakeup hrunning =>
      obtain rfl := Option.some.inj hstep
      exact h.attempt (running_eq_some.mp hrunning).2
    next => cases hstep
  | connectReply id ok =>
    simp only [step] at hstep
    split at hstep
    next awaiter ib hrunning =>
      have hc := (running_eq_some.mp hrunning).2
      split at hstep
      next =>
        split at hstep
        next => cases hstep
        next =>
          obtain rfl := Option.some.inj hstep
          exact h.connectReturned hc
      next =>
        obtain rfl := Option.some.inj hstep
        exact h.connectRaised hc rfl rfl
    next => cases hstep
  | streamingReply id ok =>
    simp only [step] at hstep
    split at hstep
    next awaiter ib hrunning =>
      have hc := (running_eq_some.mp hrunning).2
      split at hstep
      next =>
        obtain rfl := Option.some.inj hstep
        exact h.connectSucceeded hc rfl rfl
      next =>
        obtain rfl := Option.some.inj hstep
        exact h.streamingFailed hc
    next => cases hstep
  | disconnectedEvent ib =>
    simp only [step] at hstep
    split at hstep
    next i hi =>
      split at hstep
      next => cases hstep
      next =>
        have hdropped : Tended { s with
            instances := s.instances.insert ib { i with raised := true } } :=
          ⟨h.owned.congr rfl rfl rfl le_rfl, h.reconnecting, h.delay⟩
        obtain rfl := Option.some.inj hstep
        split
        next => exact hdropped.handleDisconnect
        next => exact hdropped
    next => cases hstep
  | cancelDelivered id =>
    simp only [step] at hstep
    split at hstep
    next c hc =>
      split at hstep
      next hcancelled =>
        obtain rfl := Option.some.inj hstep
        exact h.cancelDelivered hc hcancelled
      next => cases hstep
    next => cases hstep
  | loopAwaited id pendingWrites emits =>
    simp only [step] at hstep
    split at hstep
    next loop hc =>
      split at hstep
      next => cases hstep
      next hdone =>
        have hstop : ∀ l, Coroutine.stopping loop = .stopping l → s.coroutines.get? l = none := by
          rintro l ⟨⟩
          exact OrderedDict.get?_eq_none_iff.mpr hdone
        have howned : Owned { s with reconnectWakeup := none } :=
          h.owned.congr rfl rfl rfl le_rfl
        split at hstep
        next =>
          obtain rfl := Option.some.inj hstep
          refine ⟨howned.setCoroutine (b := .draining) hc rfl hstop, fun _ => ?_, fun hsome => ?_⟩
          · exact ⟨id, .draining, (get?_setCoroutine s id _ id).trans (if_pos rfl), Or.inr rfl⟩
          · refine Has.setCoroutine (h.delay hsome) fun c' hc' hkind => ?_
            obtain rfl := Option.some.inj (hc.symm.trans hc')
            cases hkind.1
        next =>
          obtain rfl := Option.some.inj hstep
          refine Tended.teardown (howned.endCoroutine hc hstop) (fun hsome => ?_) emits
          refine Has.endCoroutine (h.delay hsome) fun c' hc' => ?_
          obtain rfl := Option.some.inj (hc.symm.trans hc')
          simp [Coroutine.isLoop]
    next => cases hstep
  | writesDrained id emits =>
    simp only [step] at hstep
    split at hstep
    next hc =>
      obtain rfl := Option.some.inj hstep
      refine Tended.teardown (h.owned.endCoroutine hc (by simp)) (fun hsome => ?_) emits
      refine Has.endCoroutine (h.delay hsome) fun c' hc' => ?_
      obtain rfl := Option.some.inj (hc.symm.trans hc')
      simp [Coroutine.isLoop]
    next => cases hstep

end IbkrLifecycle

/-- In every state that any interleaving of the calls, the loops and the events reaches with no
`disconnect()` in progress, RECONNECTING has a live reconnect loop; and a backoff delay is shown
only while a loop is live. -/
theorem reconnecting_has_a_loop {delays : List ℚ} {s : IbkrLifecycle}
    (hrun : Reaches (IbkrLifecycle.step delays) (fun _ _ => True) .init s)
    (hidle : ¬ s.DisconnectInFlight) :
    (s.state = .reconnecting → s.LoopLive) ∧ (s.currentBackoffDelay ≠ none → s.LoopLive) := by
  have htended : s.Tended := hrun.invariant IbkrLifecycle.init_tended
    fun _ _ _ h _ hstep => IbkrLifecycle.step_tended h hstep
  constructor
  · intro hstate
    obtain ⟨id, c, hc, hloop | hdisconnect⟩ := htended.reconnecting hstate
    · exact ⟨id, c, hc, hloop⟩
    · exact absurd ⟨id, c, hc, hdisconnect⟩ hidle
  · intro hsome
    obtain ⟨id, c, hc, hloop, -⟩ := htended.delay hsome
    exact ⟨id, c, hc, hloop⟩

/-- A first `start()` without a gateway. -/
theorem failed_start_has_a_loop :
    ∃ s, Reaches (IbkrLifecycle.step [5]) (fun _ _ => True) .init s ∧
      s.state = .reconnecting ∧ s.LoopLive := by
  obtain ⟨s, hrun, hs⟩ := Reaches.exists_of_execute (IbkrLifecycle.step [5]) (fun _ _ => True)
    .init [.start, .connectReply 0 false]
    (fun s => s.state = .reconnecting ∧ ¬ s.DisconnectInFlight) (by decide +kernel)
  obtain ⟨hstate, hidle⟩ := of_decide_eq_true hs
  exact ⟨s, hrun, hstate, (reconnecting_has_a_loop hrun hidle).1 hstate⟩

end PortfolioHub
