import PortfolioHub.IbkrDisconnect

namespace PortfolioHub

/-- The delays left to a loop that has started. -/
def Coroutine.rest? : Coroutine → Option (List ℚ)
  | .backoff rest _ => some rest
  | .connecting (.reconnectLoop rest) _ => some rest
  | .streaming (.reconnectLoop rest) _ => some rest
  | _ => none

theorem Coroutine.isLoop_of_rest {c : Coroutine} {rest : List ℚ} (h : c.rest? = some rest) :
    c.isLoop = true := by
  cases c with
  | backoff rest wakeup => rfl
  | connecting awaiter ib => cases awaiter <;> first | rfl | cases h
  | streaming awaiter ib => cases awaiter <;> first | rfl | cases h
  | created => cases h
  | stopping loop => cases h
  | draining => cases h

theorem Coroutine.rest_of_isLoop {c : Coroutine} (h : c.isLoop = true) (hc : c ≠ .created) :
    ∃ rest, c.rest? = some rest := by
  cases c with
  | backoff rest wakeup => exact ⟨rest, rfl⟩
  | connecting awaiter ib =>
    cases awaiter with
    | reconnectLoop rest => exact ⟨rest, rfl⟩
    | start => cases h
    | connect => cases h
  | streaming awaiter ib =>
    cases awaiter with
    | reconnectLoop rest => exact ⟨rest, rfl⟩
    | start => cases h
    | connect => cases h
  | created => exact absurd rfl hc
  | stopping loop => cases h
  | draining => cases h

def LifecycleEvent.callsDisconnect : LifecycleEvent → Bool
  | .disconnect _ _ => true
  | _ => false

namespace IbkrLifecycle

/-- A `disconnect()` is called only while no other one is in progress. -/
def Single (s : IbkrLifecycle) (e : LifecycleEvent) : Prop :=
  e.callsDisconnect = true → ¬ s.DisconnectInFlight

instance (s : IbkrLifecycle) (e : LifecycleEvent) : Decidable (s.Single e) :=
  inferInstanceAs (Decidable (_ → _))

variable {delays : List ℚ} {s t u : IbkrLifecycle}

/-- The loops that have started wait or try on with the delays they had. -/
structure Keeps (s t : IbkrLifecycle) : Prop where
  disconnecting : t.disconnecting = s.disconnecting
  task : s.disconnecting = true → t.reconnectTask = s.reconnectTask
  delay : t.currentBackoffDelay = s.currentBackoffDelay
  rest : ∀ id c rest, t.coroutines.get? id = some c → c.rest? = some rest →
    ∃ c', s.coroutines.get? id = some c' ∧ c'.rest? = some rest

theorem Keeps.of_eq (hdisconnecting : t.disconnecting = s.disconnecting)
    (htask : t.reconnectTask = s.reconnectTask)
    (hdelay : t.currentBackoffDelay = s.currentBackoffDelay)
    (hcoroutines : t.coroutines = s.coroutines) : s.Keeps t := by
  refine ⟨hdisconnecting, fun _ => htask, hdelay, fun id c rest hc hrest => ⟨c, ?_, hrest⟩⟩
  rwa [← hcoroutines]

theorem Keeps.trans (h : s.Keeps t) (h' : t.Keeps u) : s.Keeps u := by
  refine ⟨h'.disconnecting.trans h.disconnecting, fun hflag => ?_, h'.delay.trans h.delay,
    fun id c rest hc hrest => ?_⟩
  · have hflag' : t.disconnecting = true := h.disconnecting.trans hflag
    exact (h'.task hflag').trans (h.task hflag)
  · obtain ⟨c', hc', hrest'⟩ := h'.rest id c rest hc hrest
    exact h.rest id c' rest hc' hrest'

theorem Keeps.setCoroutine (s : IbkrLifecycle) {id : ℕ} {b : Coroutine}
    (hb : ∀ rest, b.rest? = some rest →
      ∃ c, s.coroutines.get? id = some c ∧ c.rest? = some rest) :
    s.Keeps (s.setCoroutine id b) := by
  refine ⟨rfl, fun _ => rfl, rfl, fun j c rest hc hrest => ?_⟩
  rw [get?_setCoroutine] at hc
  split at hc
  next heq =>
    obtain rfl := Option.some.inj hc
    exact heq ▸ hb rest hrest
  next => exact ⟨c, hc, hrest⟩

theorem Keeps.endCoroutine (s : IbkrLifecycle) (id : ℕ) : s.Keeps (s.endCoroutine id) := by
  refine ⟨rfl, fun _ => rfl, rfl, fun j c rest hc hrest => ?_⟩
  rw [get?_endCoroutine] at hc
  split at hc
  next => cases hc
  next => exact ⟨c, hc, hrest⟩

theorem Keeps.modifyInstance (s : IbkrLifecycle) (ib : ℕ) (f : IbInstance → IbInstance) :
    s.Keeps (s.modifyInstance ib f) := by
  obtain ⟨instances, heq, -, -⟩ := modifyInstance_eq s ib f
  rw [heq]
  exact .of_eq rfl rfl rfl rfl

theorem Keeps.ensureLoop (h : s.disconnecting = false) : s.Keeps s.ensureLoop := by
  rcases ensureLoop_cases s with ⟨-, -, -, -, heq⟩ | ⟨-, heq⟩
  · rw [heq]
    exact .of_eq rfl rfl rfl rfl
  · rw [heq]
    have hset : s.Keeps (s.setCoroutine s.nextId .created) :=
      .setCoroutine s fun rest hrest => by cases hrest
    refine ⟨rfl, fun hflag => ?_, rfl, hset.rest⟩
    rw [h] at hflag
    cases hflag

theorem Keeps.handleDisconnect (s : IbkrLifecycle) : s.Keeps s.handleDisconnect := by
  rcases handleDisconnect_cases s with ⟨-, heq⟩ | ⟨hflag, -, heq⟩
  · rw [heq]
    exact .of_eq rfl rfl rfl rfl
  · rw [heq]
    have hstate : s.Keeps { s with state := .reconnecting } := .of_eq rfl rfl rfl rfl
    exact hstate.trans (.ensureLoop hflag)

theorem Keeps.wakeupEvent (s : IbkrLifecycle) : s.Keeps s.wakeupEvent.2 := by
  rcases wakeupEvent_cases s with heq | ⟨wakeups, heq⟩
  · rw [heq]
    exact .of_eq rfl rfl rfl rfl
  · rw [heq]
    exact .of_eq rfl rfl rfl rfl

theorem Keeps.retryNow (s : IbkrLifecycle) : s.Keeps s.retryNow := by
  unfold IbkrLifecycle.retryNow
  split
  next => exact .of_eq rfl rfl rfl rfl
  next hcalled =>
    have hflag : s.disconnecting = false := by
      push Not at hcalled
      simpa using hcalled.1
    have hwoken : s.Keeps { s.wakeupEvent.2 with
        wakeups := s.wakeupEvent.2.wakeups.insert s.wakeupEvent.1 true } :=
      (Keeps.wakeupEvent s).trans (.of_eq rfl rfl rfl rfl)
    dsimp only
    split
    next => exact hwoken.trans (.handleDisconnect _)
    next =>
      apply hwoken.trans
      apply Keeps.ensureLoop
      exact hwoken.disconnecting.trans hflag

theorem Keeps.beginConnect (s : IbkrLifecycle) {id : ℕ} {awaiter : Awaiter}
    (hrest : ∀ ib rest, (Coroutine.connecting awaiter ib).rest? = some rest →
      ∃ c, s.coroutines.get? id = some c ∧ c.rest? = some rest) :
    s.Keeps (s.beginConnect id awaiter) :=
  (Keeps.setCoroutine s (hrest s.nextId)).trans (.of_eq rfl rfl rfl rfl)

theorem Keeps.call (s : IbkrLifecycle) {awaiter : Awaiter} (h : awaiter.isLoop = false) :
    s.Keeps (s.call awaiter) := by
  have hnext : s.Keeps { s with nextId := s.nextId + 1 } := .of_eq rfl rfl rfl rfl
  apply hnext.trans
  apply Keeps.beginConnect
  intro ib rest hrest
  have hloop := Coroutine.isLoop_of_rest hrest
  rw [Coroutine.isLoop, h] at hloop
  cases hloop

/-- A loop ends, or goes on to its next delay. -/
structure Advances (delays : List ℚ) (id : ℕ) (s t : IbkrLifecycle) : Prop where
  disconnecting : t.disconnecting = s.disconnecting
  task : t.reconnectTask = s.reconnectTask
  loop : ∃ c, s.coroutines.get? id = some c ∧ c.isLoop = true
  rest : ∀ j c rest, t.coroutines.get? j = some c → c.rest? = some rest →
    j ≠ id ∧ s.coroutines.get? j = some c ∨
      ∃ d, t.currentBackoffDelay = some d ∧
        (delays = d :: rest ∨ ∃ c', s.coroutines.get? id = some c' ∧ c'.rest? = some (d :: rest))

theorem Keeps.advances (h : s.Keeps t) (htask : t.reconnectTask = s.reconnectTask)
    (hcoroutines : t.coroutines = s.coroutines) {id : ℕ} (hnext : Advances delays id t u) :
    Advances delays id s u := by
  refine ⟨hnext.disconnecting.trans h.disconnecting, hnext.task.trans htask, ?_, ?_⟩
  · rw [← hcoroutines]
    exact hnext.loop
  · rw [← hcoroutines]
    exact hnext.rest

theorem Advances.endLoop {id : ℕ} {c : Coroutine} (hc : s.coroutines.get? id = some c)
    (hloop : c.isLoop = true) : Advances delays id s (s.endLoop id) := by
  refine ⟨rfl, rfl, ⟨c, hc, hloop⟩, fun j d rest hd hrest => Or.inl ?_⟩
  have hj : (s.endCoroutine id).coroutines.get? j = some d := hd
  rw [get?_endCoroutine] at hj
  split at hj
  next => cases hj
  next hne => exact ⟨hne, hj⟩

theorem Advances.nextDelay {id : ℕ} {c : Coroutine} {rest : List ℚ}
    (hc : s.coroutines.get? id = some c) (hloop : c.isLoop = true)
    (hrest : rest = delays ∨ c.rest? = some rest) : Advances delays id s (s.nextDelay id rest) := by
  cases rest with
  | nil =>
    have hend : Advances delays id s (s.endLoop id) := .endLoop hc hloop
    exact ⟨hend.disconnecting, hend.task, hend.loop, hend.rest⟩
  | cons delay rest =>
    set waiting : IbkrLifecycle := { s with currentBackoffDelay := some delay } with hwaiting
    have hsame : waiting.wakeupEvent.2.coroutines = s.coroutines ∧
        waiting.wakeupEvent.2.reconnectTask = s.reconnectTask ∧
        waiting.wakeupEvent.2.currentBackoffDelay = some delay ∧
        waiting.wakeupEvent.2.disconnecting = s.disconnecting := by
      rcases wakeupEvent_cases waiting with heq | ⟨wakeups, heq⟩
      · rw [heq]
        exact ⟨rfl, rfl, rfl, rfl⟩
      · rw [heq]
        exact ⟨rfl, rfl, rfl, rfl⟩
    obtain ⟨hcoroutines, htask, hdelay, hflag⟩ := hsame
    refine ⟨hflag, htask, ⟨c, hc, hloop⟩, fun j d left hd hleft => ?_⟩
    have hj : (waiting.wakeupEvent.2.setCoroutine id
        (.backoff rest waiting.wakeupEvent.1)).coroutines.get? j = some d := hd
    rw [get?_setCoroutine] at hj
    split at hj
    next =>
      obtain rfl := Option.some.inj hj
      obtain rfl := Option.some.inj hleft
      right
      exact ⟨delay, hdelay, hrest.imp Eq.symm fun h => ⟨c, hc, h⟩⟩
    next hne =>
      left
      rw [hcoroutines] at hj
      exact ⟨hne, hj⟩

/-- What a step that is not a part of a `disconnect()` does to the loops. -/
def Paces (delays : List ℚ) (s t : IbkrLifecycle) : Prop :=
  s.Keeps t ∨ ∃ id, Advances delays id s t

theorem paces_connectRaised {id : ℕ} {c : Coroutine} {awaiter : Awaiter}
    (hc : s.coroutines.get? id = some c) (hloop : c.isLoop = awaiter.isLoop)
    (hrest : ∀ rest, awaiter = .reconnectLoop rest → c.rest? = some rest) :
    Paces delays s (s.connectRaised id awaiter) := by
  cases awaiter with
  | start => exact Or.inl ((Keeps.endCoroutine s id).trans (.handleDisconnect _))
  | connect => exact Or.inl (.endCoroutine s id)
  | reconnectLoop rest =>
    right
    exact ⟨id, .nextDelay hc hloop (Or.inr (hrest rest rfl))⟩

theorem paces_connectSucceeded {id : ℕ} {c : Coroutine} {awaiter : Awaiter}
    (hc : s.coroutines.get? id = some c) (hloop : c.isLoop = awaiter.isLoop) :
    Paces delays s (s.connectSucceeded id awaiter) := by
  cases awaiter with
  | start => exact Or.inl ((Keeps.endCoroutine s id).trans (.of_eq rfl rfl rfl rfl))
  | connect => exact Or.inl ((Keeps.endCoroutine s id).trans (.of_eq rfl rfl rfl rfl))
  | reconnectLoop rest =>
    have hend : Advances delays id s (s.endLoop id) := .endLoop hc hloop
    exact Or.inr ⟨id, hend.disconnecting, hend.task, hend.loop, hend.rest⟩

theorem step_paces (howned : s.Owned) {e : LifecycleEvent} (he : e.disconnects = false)
    (hstep : step delays s e = some t) : Paces delays s t := by
  cases e with
  | start =>
    obtain rfl := Option.some.inj hstep
    exact Or.inl (.call s rfl)
  | connect =>
    obtain rfl := Option.some.inj hstep
    exact Or.inl (.call s rfl)
  | retryNow =>
    obtain rfl := Option.some.inj hstep
    exact Or.inl (.retryNow s)
  | disconnect pendingWrites emits => cases he
  | loopStarts id =>
    simp only [step] at hstep
    split at hstep
    next hrunning =>
      obtain rfl := Option.some.inj hstep
      have hc := (running_eq_some.mp hrunning).2
      exact Or.inr ⟨id, .nextDelay hc rfl (Or.inl rfl)⟩
    next => cases hstep
  | backoffOver id =>
    simp only [step] at hstep
    split at hstep
    next rest wakeup hrunning =>
      obtain rfl := Option.some.inj hstep
      have hc := (running_eq_some.mp hrunning).2
      have hcleared : s.Keeps { s with wakeups := s.wakeups.insert wakeup false } :=
        .of_eq rfl rfl rfl rfl
      unfold attempt
      dsimp only
      split
      next =>
        have hend : Advances delays id { s with wakeups := s.wakeups.insert wakeup false }
            (endLoop { s with wakeups := s.wakeups.insert wakeup false } id) := .endLoop hc rfl
        exact Or.inr ⟨id, hcleared.advances rfl rfl hend⟩
      next =>
        have hdropped : s.Keeps { s with wakeups := s.wakeups.insert wakeup false, ib := none } :=
          .of_eq rfl rfl rfl rfl
        refine Or.inl (hdropped.trans (.beginConnect _ fun ib left hleft => ?_))
        exact ⟨_, hc, hleft⟩
    next => cases hstep
  | connectReply id ok =>
    simp only [step] at hstep
    split at hstep
    next awaiter ib hrunning =>
      have hc := (running_eq_some.mp hrunning).2
      split at hstep
      next =>
        split at hstep
        next => cases hstep
        next =>
          obtain rfl := Option.some.inj hstep
          set opened := s.modifyInstance ib fun i => { i with connected := true, registered := true }
            with hopened
          have hmodified : s.Keeps opened := .modifyInstance s ib _
          have hget : opened.coroutines.get? id = some (.connecting awaiter ib) := by
            obtain ⟨instances, heq, -, -⟩ := modifyInstance_eq s ib
              fun i => { i with connected := true, registered := true }
            rw [hopened, heq]
            exact hc
          have hset : opened.Keeps (opened.setCoroutine id (.streaming awaiter ib)) := by
            apply Keeps.setCoroutine
            intro rest hrest
            refine ⟨_, hget, ?_⟩
            cases awaiter with
            | reconnectLoop left => exact hrest
            | start => cases hrest
            | connect => cases hrest
          exact Or.inl ((hmodified.trans hset).trans (.of_eq rfl rfl rfl rfl))
      next =>
        obtain rfl := Option.some.inj hstep
        refine paces_connectRaised hc rfl fun rest heq => ?_
        subst heq
        rfl
    next => cases hstep
  | streamingReply id ok =>
    simp only [step] at hstep
    split at hstep
    next awaiter ib hrunning =>
      have hc := (running_eq_some.mp hrunning).2
      split at hstep
      next =>
        obtain rfl := Option.some.inj hstep
        exact paces_connectSucceeded hc rfl
      next =>
        obtain rfl := Option.some.inj hstep
        obtain ⟨instances, heq, -, -⟩ := modifyInstance_eq { s with ib := none } ib
          fun i => { i with registered := false }
        unfold streamingFailed
        rw [heq]
        have hkeeps : s.Keeps { s with ib := none, instances := instances } :=
          .of_eq rfl rfl rfl rfl
        have hraised : Paces delays { s with ib := none, instances := instances }
            (connectRaised { s with ib := none, instances := instances } id awaiter) := by
          refine paces_connectRaised hc rfl fun rest heq => ?_
          subst heq
          rfl
        rcases hraised with hkept | ⟨loop, hadvances⟩
        · exact Or.inl (hkeeps.trans hkept)
        · exact Or.inr ⟨loop, hkeeps.advances rfl rfl hadvances⟩
    next => cases hstep
  | disconnectedEvent ib =>
    simp only [step] at hstep
    split at hstep
    next i _ =>
      split at hstep
      next => cases hstep
      next =>
        obtain rfl := Option.some.inj hstep
        have hdropped : s.Keeps { s with
            instances := s.instances.insert ib { i with raised := true } } := .of_eq rfl rfl rfl rfl
        split
        next => exact Or.inl (hdropped.trans (.handleDisconnect _))
        next => exact Or.inl hdropped
    next => cases hstep
  | cancelDelivered id =>
    simp only [step] at hstep
    split at hstep
    next c hc =>
      split at hstep
      next hcancelled =>
        obtain rfl := Option.some.inj hstep
        have hloop := (howned.awaited id c hcancelled hc).1
        unfold cancelDelivered
        split
        next => exact Or.inl (.endCoroutine s id)
        next rest wakeup =>
          have hcleared : s.Keeps { s with wakeups := s.wakeups.insert wakeup false } :=
            .of_eq rfl rfl rfl rfl
          have hend : Advances delays id { s with wakeups := s.wakeups.insert wakeup false }
              (endLoop { s with wakeups := s.wakeups.insert wakeup false } id) := .endLoop hc rfl
          exact Or.inr ⟨id, hcleared.advances rfl rfl hend⟩
        next => exact Or.inr ⟨id, .endLoop hc hloop⟩
      next => cases hstep
    next => cases hstep
  | loopAwaited id pendingWrites emits => cases he
  | writesDrained id emits => cases he

/-- While a `disconnect()` is in progress it is the only one, and new loops are held off. -/
structure Alone (s : IbkrLifecycle) : Prop where
  flag : s.DisconnectInFlight → s.disconnecting = true ∧ s.reconnectTask = none
  unique : ∀ id id' c c', s.coroutines.get? id = some c → s.coroutines.get? id' = some c' →
    c.isDisconnect = true → c'.isDisconnect = true → id = id'

theorem Alone.of_subset (h : s.Alone)
    (hsubset : ∀ id c, t.coroutines.get? id = some c → c.isDisconnect = true →
      ∃ c', s.coroutines.get? id = some c' ∧ c'.isDisconnect = true)
    (hflag : t.DisconnectInFlight → s.disconnecting = true → s.reconnectTask = none →
      t.disconnecting = true ∧ t.reconnectTask = none) : t.Alone := by
  constructor
  · intro ht
    obtain ⟨id, c, hc, hkind⟩ := ht
    obtain ⟨c', hc', hkind'⟩ := hsubset id c hc hkind
    obtain ⟨hup, hnone⟩ := h.flag ⟨id, c', hc', hkind'⟩
    exact hflag ⟨id, c, hc, hkind⟩ hup hnone
  · intro id id' c c' hc hc' hkind hkind'
    obtain ⟨b, hb, hold⟩ := hsubset id c hc hkind
    obtain ⟨b', hb', hold'⟩ := hsubset id' c' hc' hkind'
    exact h.unique id id' b b' hb hb' hold hold'

/-- A `disconnect()` that has begun is the only one where no other one was in progress. -/
theorem Alone.begun (hidle : ¬ s.DisconnectInFlight) {b : Coroutine}
    (hcoroutines : ∀ j, t.coroutines.get? j = if j = s.nextId then some b else s.coroutines.get? j)
    (hup : t.disconnecting = true) (hnone : t.reconnectTask = none) : t.Alone := by
  have hnew : ∀ id c, t.coroutines.get? id = some c → c.isDisconnect = true → id = s.nextId := by
    intro id c hc hkind
    rw [hcoroutines] at hc
    split at hc
    next heq => exact heq
    next => exact absurd ⟨id, c, hc, hkind⟩ hidle
  constructor
  · intro _
    exact ⟨hup, hnone⟩
  · intro id id' c c' hc hc' hkind hkind'
    rw [hnew id c hc hkind, hnew id' c' hc' hkind']

theorem Alone.of_idle (hnone : ∀ id c, t.coroutines.get? id = some c → c.isDisconnect = false) :
    t.Alone := by
  constructor
  · intro ht
    obtain ⟨id, c, hc, hkind⟩ := ht
    rw [hnone id c hc] at hkind
    cases hkind
  · intro id id' c c' hc hc' hkind hkind'
    rw [hnone id c hc] at hkind
    cases hkind

/-- The last part of the only `disconnect()`. -/
theorem Alone.last (h : s.Alone) {id : ℕ} {c : Coroutine} (hc : s.coroutines.get? id = some c)
    (hkind : c.isDisconnect = true) (j : ℕ) (b : Coroutine)
    (hb : (s.endCoroutine id).coroutines.get? j = some b) : b.isDisconnect = false := by
  rw [get?_endCoroutine] at hb
  split at hb
  next => cases hb
  next hne =>
    rw [Bool.eq_false_iff]
    intro hkind'
    exact hne (h.unique j id b c hb hc hkind' hkind)

theorem teardown_paces (h : s.disconnecting = true) (emits : Bool) :
    (s.teardown emits).coroutines = s.coroutines ∧
      (s.teardown emits).currentBackoffDelay = s.currentBackoffDelay := by
  obtain ⟨instances, heq, -⟩ := teardown_eq (Or.inl h) emits
  rw [heq]
  exact ⟨rfl, rfl⟩

/-- A part of a `disconnect()` leaves it the only one, and the loops as they are. -/
theorem step_disconnects_alone (h : s.Alone) {e : LifecycleEvent} (he : e.disconnects = true)
    (hguard : s.Single e) (hstep : step delays s e = some t) :
    t.Alone ∧ t.currentBackoffDelay = s.currentBackoffDelay ∧
      ∀ id c rest, t.coroutines.get? id = some c → c.rest? = some rest →
        s.coroutines.get? id = some c := by
  have hset : ∀ {u : IbkrLifecycle} {id : ℕ} {b : Coroutine}, u.coroutines = s.coroutines →
      b.rest? = none → ∀ j c rest, (u.setCoroutine id b).coroutines.get? j = some c →
        c.rest? = some rest → s.coroutines.get? j = some c := by
    intro u id b hu hb j c rest hc hrest
    rw [get?_setCoroutine, hu] at hc
    split at hc
    next =>
      obtain rfl := Option.some.inj hc
      rw [hb] at hrest
      cases hrest
    next => exact hc
  cases e with
  | disconnect pendingWrites emits =>
    obtain rfl := Option.some.inj hstep
    have hidle : ¬ s.DisconnectInFlight := hguard rfl
    unfold disconnect
    dsimp only
    split
    next loop _ =>
      refine ⟨Alone.begun (b := .stopping loop) hidle (get?_setCoroutine _ _ _) rfl rfl, rfl, ?_⟩
      exact hset (b := .stopping loop) rfl rfl
    next =>
      split
      next =>
        refine ⟨Alone.begun (b := .draining) hidle (get?_setCoroutine _ _ _) rfl rfl, rfl, ?_⟩
        exact hset (b := .draining) rfl rfl
      next =>
        have hpaces := teardown_paces (s := { s with
          disconnecting := true, reconnectTask := none, reconnectWakeup := none,
          nextId := s.nextId + 1 }) rfl emits
        refine ⟨Alone.of_idle fun id c hc => ?_, hpaces.2, fun id c rest hc _ => ?_⟩
        · rw [hpaces.1] at hc
          rw [Bool.eq_false_iff]
          exact fun hkind => hidle ⟨id, c, hc, hkind⟩
        · rwa [hpaces.1] at hc
  | loopAwaited id pendingWrites emits =>
    simp only [step] at hstep
    split at hstep
    next loop hc =>
      have hup := (h.flag ⟨id, _, hc, rfl⟩).1
      split at hstep
      next => cases hstep
      next =>
        split at hstep
        next =>
          obtain rfl := Option.some.inj hstep
          refine ⟨h.of_subset (fun j c hj hkind => ?_) (fun _ hflag hnone => ⟨hflag, hnone⟩), rfl,
            hset (b := .draining) rfl rfl⟩
          rw [get?_setCoroutine] at hj
          split at hj
          next heq => exact ⟨_, heq ▸ hc, rfl⟩
          next => exact ⟨c, hj, hkind⟩
        next =>
          obtain rfl := Option.some.inj hstep
          have hpaces := teardown_paces
            (s := endCoroutine { s with reconnectWakeup := none } id) hup emits
          refine ⟨Alone.of_idle fun j c hj => ?_, hpaces.2, fun j c rest hj _ => ?_⟩
          · rw [hpaces.1] at hj
            exact h.last hc rfl j c hj
          · rw [hpaces.1, get?_endCoroutine] at hj
            split at hj
            next => cases hj
            next => exact hj
    next => cases hstep
  | writesDrained id emits =>
    simp only [step] at hstep
    split at hstep
    next hc =>
      have hup := (h.flag ⟨id, _, hc, rfl⟩).1
      obtain rfl := Option.some.inj hstep
      have hpaces := teardown_paces (s := s.endCoroutine id) hup emits
      refine ⟨Alone.of_idle fun j c hj => ?_, hpaces.2, fun j c rest hj _ => ?_⟩
      · rw [hpaces.1] at hj
        exact h.last hc rfl j c hj
      · rw [hpaces.1, get?_endCoroutine] at hj
        split at hj
        next => cases hj
        next => exact hj
    next => cases hstep
  | _ => cases he

/-- At most one loop is live, one on its last turn included. -/
theorem Alone.one_loop (h : s.Alone) (howned : s.Owned) {id id' : ℕ} {c c' : Coroutine}
    (hc : s.coroutines.get? id = some c) (hc' : s.coroutines.get? id' = some c')
    (hloop : c.isLoop = true) (hloop' : c'.isLoop = true) : id = id' := by
  have hstopped : ∀ {j b}, s.coroutines.get? j = some b → j ∈ s.cancelled →
      ∃ d, s.coroutines.get? d = some (.stopping j) ∧ s.reconnectTask = none := by
    intro j b hb hcancelled
    obtain ⟨-, d, hd⟩ := howned.awaited j b hcancelled hb
    exact ⟨d, hd, (h.flag ⟨d, _, hd, rfl⟩).2⟩
  rcases howned.loop id c hc hloop with htask | hcancelled
  · rcases howned.loop id' c' hc' hloop' with htask' | hcancelled'
    · exact Option.some.inj (htask.symm.trans htask')
    · obtain ⟨-, -, hnone⟩ := hstopped hc' hcancelled'
      rw [htask] at hnone
      cases hnone
  · obtain ⟨d, hd, hnone⟩ := hstopped hc hcancelled
    rcases howned.loop id' c' hc' hloop' with htask' | hcancelled'
    · rw [htask'] at hnone
      cases hnone
    · obtain ⟨d', hd', -⟩ := hstopped hc' hcancelled'
      have heq : d = d' := h.unique d d' _ _ hd hd' rfl rfl
      subst heq
      have hsame := Option.some.inj (hd.symm.trans hd')
      injection hsame

/-- The delay that is shown is the one before the delays a loop has left. -/
structure Paced (delays : List ℚ) (s : IbkrLifecycle) : Prop where
  tended : s.Tended
  alone : s.Alone
  shown : ∀ id c rest, s.coroutines.get? id = some c → c.rest? = some rest →
    ∃ tried d, delays = tried ++ d :: rest ∧ s.currentBackoffDelay = some d

theorem init_paced : init.Paced delays := by
  refine ⟨init_tended, Alone.of_idle fun id c hc => ?_, fun id c rest hc => ?_⟩
  · cases hc
  · cases hc

theorem Paces.flag (h : Paces delays s t) :
    t.disconnecting = s.disconnecting ∧
      (s.disconnecting = true → t.reconnectTask = s.reconnectTask) := by
  rcases h with hkeeps | ⟨id, hadvances⟩
  · exact ⟨hkeeps.disconnecting, hkeeps.task⟩
  · exact ⟨hadvances.disconnecting, fun _ => hadvances.task⟩

/-- Step lemma: outside of a `disconnect()` only the one loop moves on. -/
theorem Paced.shown_of_paces (h : s.Paced delays) (hpaces : Paces delays s t) {id : ℕ}
    {c : Coroutine} {rest : List ℚ} (hc : t.coroutines.get? id = some c)
    (hrest : c.rest? = some rest) :
    ∃ tried d, delays = tried ++ d :: rest ∧ t.currentBackoffDelay = some d := by
  rcases hpaces with hkeeps | ⟨loop, hadvances⟩
  · obtain ⟨c', hc', hrest'⟩ := hkeeps.rest id c rest hc hrest
    obtain ⟨tried, d, hdelays, hshown⟩ := h.shown id c' rest hc' hrest'
    exact ⟨tried, d, hdelays, hkeeps.delay.trans hshown⟩
  · obtain ⟨b, hb, hloop⟩ := hadvances.loop
    rcases hadvances.rest id c rest hc hrest with ⟨hne, hold⟩ | ⟨d, hshown, hfirst | hnext⟩
    · have hsame : id = loop :=
        h.alone.one_loop h.tended.owned hold hb (Coroutine.isLoop_of_rest hrest) hloop
      exact absurd hsame hne
    · exact ⟨[], d, hfirst, hshown⟩
    · obtain ⟨c', hc', hrest'⟩ := hnext
      obtain ⟨tried, last, hdelays, -⟩ := h.shown loop c' _ hc' hrest'
      refine ⟨tried ++ [last], d, ?_, hshown⟩
      rw [hdelays, List.append_assoc, List.singleton_append]

theorem Paced.step {e : LifecycleEvent} (h : s.Paced delays) (hguard : s.Single e)
    (hstep : step delays s e = some t) : t.Paced delays := by
  have htended : t.Tended := step_tended h.tended hstep
  cases he : e.disconnects with
  | true =>
    obtain ⟨halone, hdelay, hloops⟩ := step_disconnects_alone h.alone he hguard hstep
    refine ⟨htended, halone, fun id c rest hc hrest => ?_⟩
    rw [hdelay]
    exact h.shown id c rest (hloops id c rest hc hrest) hrest
  | false =>
    have hpaces := step_paces h.tended.owned he hstep
    have htouches := step_touches he hstep
    refine ⟨htended, h.alone.of_subset (fun id c hc hkind => ?_) ?_, fun id c rest hc hrest =>
      h.shown_of_paces hpaces hc hrest⟩
    · rcases htouches.coroutines id with heq | ⟨-, hnew⟩
      · exact ⟨c, heq ▸ hc, hkind⟩
      · rw [hnew c hc] at hkind
        cases hkind
    · intro _ hup hnone
      exact ⟨hpaces.flag.1.trans hup, (hpaces.flag.2 hup).trans hnone⟩

end IbkrLifecycle

/-- In every interleaving in which no `disconnect()` is called while one is in progress, at most one
reconnect loop is live, and the backoff delay shown is the delay of the schedule that this loop waits
for or has waited for, the delays behind it being the ones the loop has left. -/
theorem backoff_delay_shown {delays : List ℚ} {s : IbkrLifecycle}
    (hrun : Reaches (IbkrLifecycle.step delays) IbkrLifecycle.Single .init s) :
    (∀ id id' c c', s.coroutines.get? id = some c → s.coroutines.get? id' = some c' →
      c.isLoop = true → c'.isLoop = true → id = id') ∧
    ∀ d, s.currentBackoffDelay = some d ↔ ∃ id c tried rest, s.coroutines.get? id = some c ∧
      c.rest? = some rest ∧ delays = tried ++ d :: rest := by
  have hpaced : s.Paced delays := hrun.invariant IbkrLifecycle.init_paced
    fun _ _ _ h hguard hstep => h.step hguard hstep
  refine ⟨fun id id' c c' hc hc' => hpaced.alone.one_loop hpaced.tended.owned hc hc', fun d => ?_⟩
  constructor
  · intro hd
    have hsome : s.currentBackoffDelay ≠ none := by simp [hd]
    obtain ⟨id, c, hc, hloop, hcreated⟩ := hpaced.tended.delay hsome
    obtain ⟨rest, hrest⟩ := Coroutine.rest_of_isLoop hloop hcreated
    obtain ⟨tried, d', hdelays, hshown⟩ := hpaced.shown id c rest hc hrest
    have heq : d = d' := Option.some.inj (hd.symm.trans hshown)
    exact ⟨id, c, tried, rest, hc, hrest, heq ▸ hdelays⟩
  · intro h
    obtain ⟨id, c, tried, rest, hc, hrest, hdelays⟩ := h
    obtain ⟨tried', d', hdelays', hshown⟩ := hpaced.shown id c rest hc hrest
    have hlength : (d :: rest).length = (d' :: rest).length := rfl
    have htails := (List.append_inj' (hdelays.symm.trans hdelays') hlength).2
    have heq : d = d' := (List.cons.inj htails).1
    rw [hshown, heq]

/-- The gateway is down at the start and at the first attempt. -/
theorem second_delay_is_shown :
    ∃ s, Reaches (IbkrLifecycle.step [5, 15, 60]) IbkrLifecycle.Single .init s ∧
      s.currentBackoffDelay = some 15 ∧ ∃ id c tried rest, s.coroutines.get? id = some c ∧
        c.rest? = some rest ∧ [5, 15, 60] = tried ++ 15 :: rest := by
  obtain ⟨s, hrun, hs⟩ := Reaches.exists_of_execute (IbkrLifecycle.step [5, 15, 60])
    IbkrLifecycle.Single .init [.start, .connectReply 0 false, .loopStarts 2, .backoffOver 2,
      .connectReply 2 false] (fun s => s.currentBackoffDelay = some 15) (by decide +kernel)
  have hshown := of_decide_eq_true hs
  exact ⟨s, hrun, hshown, ((backoff_delay_shown hrun).2 15).mp hshown⟩

/-- With a second `disconnect()` and a retry while the first one still waits, the cancelled loop
clears the delay of the new one. -/
theorem overlapping_disconnects_hide_the_delay :
    ∃ s : IbkrLifecycle, Reaches (IbkrLifecycle.step [5]) (fun _ _ => True) .init s ∧
      ¬ s.DisconnectInFlight ∧ s.currentBackoffDelay = none ∧
        s.Has fun c => c.rest? = some [] := by
  obtain ⟨s, hrun, hs⟩ := Reaches.exists_of_execute (IbkrLifecycle.step [5]) (fun _ _ => True)
    .init [.start, .connectReply 0 false, .loopStarts 2, .disconnect false false,
      .disconnect false false, .retryNow, .loopStarts 7, .cancelDelivered 2,
      .loopAwaited 4 false false]
    (fun s => ¬ s.DisconnectInFlight ∧ s.currentBackoffDelay = none ∧
      s.Has fun c => c.rest? = some []) (by decide +kernel)
  exact ⟨s, hrun, of_decide_eq_true hs⟩

end PortfolioHub
