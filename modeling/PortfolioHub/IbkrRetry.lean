import PortfolioHub.MaximalRun
import PortfolioHub.IbkrDisconnect

namespace PortfolioHub

/-- The calls of the adapter's methods. -/
def LifecycleEvent.isCalled : LifecycleEvent → Bool
  | .start => true
  | .connect => true
  | .retryNow => true
  | .disconnect _ _ => true
  | _ => false

/-- An attempt with no delay left behind it. -/
def Coroutine.lastAttempt : Coroutine → Bool
  | .connecting (.reconnectLoop []) _ => true
  | .streaming (.reconnectLoop []) _ => true
  | _ => false

/-- How many more turns a coroutine can lead to before an attempt begins, counting those of a
loop that `start()` may leave behind. -/
def Coroutine.turns : Coroutine → ℕ
  | .created => 3
  | .backoff _ _ => 2
  | .connecting _ _ => 6
  | .streaming _ _ => 5
  | .stopping _ => 1
  | .draining => 1

theorem Coroutine.turns_pos (c : Coroutine) : 0 < c.turns := by
  cases c <;> simp [turns]

namespace IbkrLifecycle

/-- A step without a call. -/
def Unprompted (delays : List ℚ) (s t : IbkrLifecycle) : Prop :=
  ∃ e : LifecycleEvent, e.isCalled = false ∧ step delays s e = some t

/-- A coroutine goes on: its delay runs out, its vendor call returns or raises. -/
def Resumes (delays : List ℚ) (s t : IbkrLifecycle) : Prop :=
  ∃ e : LifecycleEvent, e.subject ≠ none ∧ step delays s e = some t

/-- An attempt is in progress whose instance was made at or after `since`. -/
def AttemptSince (s : IbkrLifecycle) (since : ℕ) : Prop :=
  s.Has fun c => ∃ ib ∈ c.instance?, since ≤ ib

instance (s : IbkrLifecycle) (since : ℕ) : Decidable (s.AttemptSince since) :=
  inferInstanceAs (Decidable (s.Has fun c => ∃ ib ∈ c.instance?, since ≤ ib))

/-- The reconnect loop is in the last attempt of its schedule, or the schedule has none. -/
def Exhausted (delays : List ℚ) (s : IbkrLifecycle) : Prop :=
  delays = [] ∨ ∃ id ∈ s.reconnectTask, ∃ c ∈ s.coroutines.get? id, c.lastAttempt = true

instance (delays : List ℚ) (s : IbkrLifecycle) : Decidable (s.Exhausted delays) :=
  inferInstanceAs (Decidable (delays = [] ∨
    ∃ id ∈ s.reconnectTask, ∃ c ∈ s.coroutines.get? id, c.lastAttempt = true))

/-- An instance can raise its event once, which may create a loop. -/
def potential (s : IbkrLifecycle) : ℕ :=
  s.coroutines.total Coroutine.turns + s.instances.total fun i => if i.raised then 0 else 4

variable {delays : List ℚ} {s t : IbkrLifecycle}

theorem potential_setCoroutine {id : ℕ} {c : Coroutine} (hc : s.coroutines.get? id = some c)
    (b : Coroutine) : (s.setCoroutine id b).potential + c.turns = s.potential + b.turns := by
  have htotal := OrderedDict.total_insert s.coroutines Coroutine.turns id b
  rw [hc] at htotal
  have hold : ((some c).map Coroutine.turns).getD 0 = c.turns := rfl
  unfold potential setCoroutine
  dsimp only
  omega

theorem potential_endCoroutine {id : ℕ} {c : Coroutine} (hc : s.coroutines.get? id = some c) :
    (s.endCoroutine id).potential + c.turns = s.potential := by
  have htotal := OrderedDict.total_filterKeys_ne s.coroutines Coroutine.turns id
  rw [hc] at htotal
  have hold : ((some c).map Coroutine.turns).getD 0 = c.turns := rfl
  unfold potential endCoroutine
  dsimp only
  omega

theorem potential_ensureLoop (s : IbkrLifecycle) : s.ensureLoop.potential ≤ s.potential + 3 := by
  rcases ensureLoop_cases s with ⟨-, -, -, -, heq⟩ | ⟨-, heq⟩
  · rw [heq]
    omega
  · rw [heq]
    have htotal := OrderedDict.total_insert s.coroutines Coroutine.turns s.nextId .created
    have hcreated : Coroutine.created.turns = 3 := rfl
    unfold potential setCoroutine
    dsimp only
    omega

theorem potential_handleDisconnect (s : IbkrLifecycle) :
    s.handleDisconnect.potential ≤ s.potential + 3 := by
  rcases handleDisconnect_cases s with ⟨-, heq⟩ | ⟨-, -, heq⟩
  · rw [heq]
    omega
  · rw [heq]
    exact potential_ensureLoop { s with state := .reconnecting }

theorem potential_nextDelay {id : ℕ} {c : Coroutine} (hc : s.coroutines.get? id = some c)
    (delays : List ℚ) : (s.nextDelay id delays).potential + c.turns ≤ s.potential + 2 := by
  cases delays with
  | nil =>
    have hend : (s.nextDelay id []).potential + c.turns = s.potential :=
      potential_endCoroutine hc
    omega
  | cons delay rest =>
    have hwoken : ∀ wakeup, ({ s with currentBackoffDelay := some delay }.wakeupEvent.2.setCoroutine
        id (.backoff rest wakeup)).potential + c.turns = s.potential + 2 := by
      intro wakeup
      rcases wakeupEvent_cases { s with currentBackoffDelay := some delay } with heq | ⟨wakeups, heq⟩
      · rw [heq]
        exact potential_setCoroutine (s := { s with currentBackoffDelay := some delay }) hc _
      · rw [heq]
        exact potential_setCoroutine (s := { s with
          currentBackoffDelay := some delay
          reconnectWakeup := some s.nextId
          wakeups := wakeups
          nextId := s.nextId + 1 }) hc (.backoff rest wakeup)
    exact (hwoken _).le

theorem potential_connectRaised {id : ℕ} {c : Coroutine} (hc : s.coroutines.get? id = some c)
    (awaiter : Awaiter) : (s.connectRaised id awaiter).potential + c.turns ≤ s.potential + 3 := by
  have hend := potential_endCoroutine hc
  cases awaiter with
  | start =>
    have hhandler := potential_handleDisconnect (s.endCoroutine id)
    unfold connectRaised
    dsimp only
    omega
  | connect =>
    unfold connectRaised
    dsimp only
    omega
  | reconnectLoop rest =>
    have hnext := potential_nextDelay hc rest
    unfold connectRaised
    dsimp only
    omega

theorem potential_modifyInstance (s : IbkrLifecycle) (ib : ℕ) {f : IbInstance → IbInstance}
    (hf : ∀ i, (f i).raised = i.raised) : (s.modifyInstance ib f).potential = s.potential := by
  unfold modifyInstance
  split
  next => rfl
  next i hi =>
    have htotal := OrderedDict.total_insert s.instances
      (fun i => if i.raised then 0 else 4) ib (f i)
    rw [hi] at htotal
    simp only [Option.map_some, Option.getD_some, hf] at htotal
    unfold potential
    dsimp only
    omega

/-- Between the calls and the attempts the adapter makes only so many steps. -/
theorem step_potential {e : LifecycleEvent} (hcalled : e.isCalled = false)
    (hdisconnects : e.disconnects = false) (hwait : ∀ id, e ≠ .backoffOver id)
    (hstep : step delays s e = some t) : t.potential < s.potential := by
  cases e with
  | loopStarts id =>
    simp only [step] at hstep
    split at hstep
    next hrunning =>
      obtain rfl := Option.some.inj hstep
      have hnext := potential_nextDelay (running_eq_some.mp hrunning).2 delays
      have hcreated : Coroutine.created.turns = 3 := rfl
      omega
    next => cases hstep
  | backoffOver id => exact absurd rfl (hwait id)
  | connectReply id ok =>
    simp only [step] at hstep
    split at hstep
    next awaiter ib hrunning =>
      have hc := (running_eq_some.mp hrunning).2
      have hconnecting : (Coroutine.connecting awaiter ib).turns = 6 := rfl
      split at hstep
      next =>
        split at hstep
        next => cases hstep
        next =>
          obtain rfl := Option.some.inj hstep
          have hmodify := potential_modifyInstance s ib
            (f := fun i => { i with connected := true, registered := true }) fun _ => rfl
          obtain ⟨instances, heq, -, -⟩ := modifyInstance_eq s ib fun i =>
            { i with connected := true, registered := true }
          rw [heq] at hmodify
          have hset := potential_setCoroutine (s := { s with instances := instances }) hc
            (.streaming awaiter ib)
          have hstreaming : (Coroutine.streaming awaiter ib).turns = 5 := rfl
          have hreturned : (s.connectReturned id awaiter ib).potential =
              ({ s with instances := instances }.setCoroutine id (.streaming awaiter ib)).potential := by
            unfold connectReturned
            rw [heq]
            rfl
          omega
      next =>
        obtain rfl := Option.some.inj hstep
        have hraised := potential_connectRaised hc awaiter
        omega
    next => cases hstep
  | streamingReply id ok =>
    simp only [step] at hstep
    split at hstep
    next awaiter ib hrunning =>
      have hc := (running_eq_some.mp hrunning).2
      have hstreaming : (Coroutine.streaming awaiter ib).turns = 5 := rfl
      split at hstep
      next =>
        obtain rfl := Option.some.inj hstep
        have hend := potential_endCoroutine hc
        have hsucceeded : (s.connectSucceeded id awaiter).potential =
            (s.endCoroutine id).potential := by
          cases awaiter <;> rfl
        omega
      next =>
        obtain rfl := Option.some.inj hstep
        have hmodify := potential_modifyInstance { s with ib := none } ib
          (f := fun i => { i with registered := false }) fun _ => rfl
        obtain ⟨instances, heq, -, -⟩ := modifyInstance_eq { s with ib := none } ib fun i =>
          { i with registered := false }
        have hsame : potential { s with ib := none } = s.potential := rfl
        rw [heq] at hmodify
        have hraised := potential_connectRaised
          (s := { s with ib := none, instances := instances }) hc awaiter
        unfold streamingFailed
        rw [heq]
        dsimp only at hmodify hsame hraised ⊢
        omega
    next => cases hstep
  | disconnectedEvent ib =>
    simp only [step] at hstep
    split at hstep
    next i hi =>
      split at hstep
      next => cases hstep
      next hraised =>
        have htotal := OrderedDict.total_insert s.instances
          (fun i => if i.raised then 0 else 4) ib { i with raised := true }
        rw [hi] at htotal
        simp only [Option.map_some, Option.getD_some, if_neg hraised, if_true] at htotal
        have hdropped : potential { s with
            instances := s.instances.insert ib { i with raised := true } } + 4 = s.potential := by
          unfold potential
          dsimp only
          omega
        have hhandler := potential_handleDisconnect { s with
          instances := s.instances.insert ib { i with raised := true } }
        obtain rfl := Option.some.inj hstep
        split
        next => omega
        next => omega
    next => cases hstep
  | cancelDelivered id =>
    simp only [step] at hstep
    split at hstep
    next c hc =>
      split at hstep
      next =>
        obtain rfl := Option.some.inj hstep
        have hend := potential_endCoroutine hc
        have hdelivered : (s.cancelDelivered id c).potential = (s.endCoroutine id).potential := by
          cases c <;> rfl
        have hpos := c.turns_pos
        omega
      next => cases hstep
    next => cases hstep
  | _ => simp_all [LifecycleEvent.isCalled, LifecycleEvent.disconnects]

theorem Exhausted.mk {id : ℕ} {c : Coroutine} (htask : s.reconnectTask = some id)
    (hc : s.coroutines.get? id = some c) (hlast : c.lastAttempt = true) : s.Exhausted delays :=
  Or.inr ⟨id, htask, c, hc, hlast⟩

/-- The reconnect loop has an attempt ahead of it. -/
structure Promising (since : ℕ) (s : IbkrLifecycle) : Prop where
  tended : s.Tended
  idle : ¬ s.DisconnectInFlight
  since_le : since ≤ s.nextId
  loop : ∃ id c, s.reconnectTask = some id ∧ s.coroutines.get? id = some c ∧
    c.lastAttempt = false

variable {since : ℕ}

/-- With no `disconnect()` in progress only a call begins one. -/
theorem disconnects_eq_false {e : LifecycleEvent} (hidle : ¬ s.DisconnectInFlight)
    (hcalled : e.isCalled = false) (hstep : step delays s e = some t) : e.disconnects = false := by
  cases e with
  | disconnect pendingWrites emits => cases hcalled
  | loopAwaited id pendingWrites emits =>
    simp only [step] at hstep
    split at hstep
    next loop hc => exact absurd ⟨id, _, hc, rfl⟩ hidle
    next => cases hstep
  | writesDrained id emits =>
    simp only [step] at hstep
    split at hstep
    next hc => exact absurd ⟨id, _, hc, rfl⟩ hidle
    next => cases hstep
  | _ => rfl

theorem nextDelay_cons (id : ℕ) (delay : ℚ) (rest : List ℚ) :
    (s.nextDelay id (delay :: rest)).reconnectTask = s.reconnectTask ∧
      ∃ wakeup, (s.nextDelay id (delay :: rest)).coroutines.get? id =
        some (.backoff rest wakeup) := by
  unfold nextDelay
  dsimp only
  refine ⟨?_, _, (get?_setCoroutine _ id _ id).trans (if_pos rfl)⟩
  rcases wakeupEvent_cases { s with currentBackoffDelay := some delay } with heq | ⟨wakeups, heq⟩
  · rw [heq]
    rfl
  · rw [heq]
    rfl

/-- Behind its wait the loop begins an attempt, unless someone has connected. -/
theorem step_backoffOver {id : ℕ} (hstate : s.state ≠ .connected)
    (hstep : step delays s (.backoffOver id) = some t) (hsince : since ≤ s.nextId) :
    t.AttemptSince since := by
  simp only [step] at hstep
  split at hstep
  next rest wakeup _ =>
    obtain rfl := Option.some.inj hstep
    unfold attempt
    rw [if_neg hstate]
    refine ⟨id, .connecting (.reconnectLoop rest) s.nextId, ?_, s.nextId, rfl, hsince⟩
    exact (get?_setCoroutine s id _ id).trans (if_pos rfl)
  next => cases hstep

/-- The loop's own turn: it waits, attempts, or has connected. -/
theorem Promising.own_turn (h : s.Promising since) (hdelays : delays ≠ [])
    (hstate : s.state ≠ .connected) {e : LifecycleEvent} {id : ℕ} {c : Coroutine}
    (htask : s.reconnectTask = some id) (hc : s.coroutines.get? id = some c)
    (hlast : c.lastAttempt = false) (hsubject : e.subject = some id)
    (hdisconnects : e.disconnects = false) (hstep : step delays s e = some t) :
    (t.state = .connected ∨ t.AttemptSince since) ∨
      ∃ c', t.reconnectTask = some id ∧ t.coroutines.get? id = some c' ∧
        c'.lastAttempt = false := by
  have hwaits : ∀ ds, ds ≠ [] → ∀ s : IbkrLifecycle, s.reconnectTask = some id →
      ∃ c', (s.nextDelay id ds).reconnectTask = some id ∧
        (s.nextDelay id ds).coroutines.get? id = some c' ∧ c'.lastAttempt = false := by
    intro ds hds s htask
    obtain ⟨delay, rest, rfl⟩ := List.exists_cons_of_ne_nil hds
    obtain ⟨hsame, wakeup, hget⟩ := nextDelay_cons (s := s) id delay rest
    exact ⟨_, hsame.trans htask, hget, rfl⟩
  obtain ⟨hloop, hcancelled⟩ := h.tended.owned.task id c htask hc
  cases e with
  | loopStarts j =>
    obtain rfl := Option.some.inj hsubject
    simp only [step] at hstep
    split at hstep
    next =>
      obtain rfl := Option.some.inj hstep
      exact Or.inr (hwaits delays hdelays s htask)
    next => cases hstep
  | backoffOver j => exact Or.inl (Or.inr (step_backoffOver hstate hstep h.since_le))
  | connectReply j ok =>
    obtain rfl := Option.some.inj hsubject
    simp only [step] at hstep
    split at hstep
    next awaiter ib hrunning =>
      obtain rfl := Option.some.inj (hc.symm.trans (running_eq_some.mp hrunning).2)
      cases awaiter with
      | start => cases hloop
      | connect => cases hloop
      | reconnectLoop rest =>
        cases rest with
        | nil => cases hlast
        | cons delay rest =>
          split at hstep
          next =>
            split at hstep
            next => cases hstep
            next =>
              obtain rfl := Option.some.inj hstep
              refine Or.inr ⟨.streaming (.reconnectLoop (delay :: rest)) ib, ?_, ?_, rfl⟩
              · obtain ⟨instances, heq, -, -⟩ := modifyInstance_eq s ib fun i =>
                  { i with connected := true, registered := true }
                unfold connectReturned
                rw [heq]
                exact htask
              · exact (get?_setCoroutine _ j _ j).trans (if_pos rfl)
          next =>
            obtain rfl := Option.some.inj hstep
            exact Or.inr (hwaits (delay :: rest) (List.cons_ne_nil _ _) s htask)
    next => cases hstep
  | streamingReply j ok =>
    obtain rfl := Option.some.inj hsubject
    simp only [step] at hstep
    split at hstep
    next awaiter ib hrunning =>
      obtain rfl := Option.some.inj (hc.symm.trans (running_eq_some.mp hrunning).2)
      cases awaiter with
      | start => cases hloop
      | connect => cases hloop
      | reconnectLoop rest =>
        cases rest with
        | nil => cases hlast
        | cons delay rest =>
          split at hstep
          next =>
            obtain rfl := Option.some.inj hstep
            exact Or.inl (Or.inl rfl)
          next =>
            obtain rfl := Option.some.inj hstep
            refine Or.inr (hwaits (delay :: rest) (List.cons_ne_nil _ _) _ ?_)
            obtain ⟨instances, heq, -, -⟩ := modifyInstance_eq { s with ib := none } ib fun i =>
              { i with registered := false }
            rw [heq]
            exact htask
    next => cases hstep
  | cancelDelivered j =>
    obtain rfl := Option.some.inj hsubject
    simp only [step] at hstep
    split at hstep
    next =>
      split at hstep
      next hin => exact absurd hin hcancelled
      next => cases hstep
    next => cases hstep
  | loopAwaited j pendingWrites emits => cases hdisconnects
  | writesDrained j emits => cases hdisconnects
  | _ => cases hsubject

theorem Promising.step (h : s.Promising since) (hdelays : delays ≠ [])
    (hstate : s.state ≠ .connected) {e : LifecycleEvent} (hcalled : e.isCalled = false)
    (hstep : IbkrLifecycle.step delays s e = some t) :
    (t.state = .connected ∨ t.AttemptSince since) ∨ t.Promising since := by
  have hdisconnects := disconnects_eq_false h.idle hcalled hstep
  have htouches := step_touches hdisconnects hstep
  obtain ⟨id, c, htask, hc, hlast⟩ := h.loop
  have hkeeps : ∀ c', t.reconnectTask = some id → t.coroutines.get? id = some c' →
      c'.lastAttempt = false → t.Promising since := fun c' htask' hc' hlast' =>
    ⟨step_tended h.tended hstep, fun hinFlight => h.idle (htouches.disconnectInFlight hinFlight),
      h.since_le.trans htouches.nextId, id, c', htask', hc', hlast'⟩
  by_cases hsubject : e.subject = some id
  · rcases h.own_turn hdelays hstate htask hc hlast hsubject hdisconnects hstep with
      hgoal | ⟨c', htask', hc', hlast'⟩
    · exact Or.inl hgoal
    · exact Or.inr (hkeeps c' htask' hc' hlast')
  · have hid := h.tended.owned.fresh id c hc
    exact Or.inr (hkeeps c (htouches.task id c htask hc hid hsubject)
      ((htouches.coroutine_eq hid hsubject).trans hc) hlast)

/-- The loop can always go on. -/
theorem Promising.resumes (h : s.Promising since) : ∃ t, Resumes delays s t := by
  obtain ⟨id, c, htask, hc, -⟩ := h.loop
  obtain ⟨hloop, hcancelled⟩ := h.tended.owned.task id c htask hc
  have hrunning := running_eq_some.mpr ⟨hcancelled, hc⟩
  cases c with
  | created =>
    have hstep : IbkrLifecycle.step delays s (.loopStarts id) = some (s.nextDelay id delays) := by
      simp only [IbkrLifecycle.step, hrunning]
    exact ⟨_, _, by simp [LifecycleEvent.subject], hstep⟩
  | backoff rest wakeup =>
    have hstep : IbkrLifecycle.step delays s (.backoffOver id) =
        some (s.attempt id rest wakeup) := by
      simp only [IbkrLifecycle.step, hrunning]
    exact ⟨_, _, by simp [LifecycleEvent.subject], hstep⟩
  | connecting awaiter ib =>
    have hstep : IbkrLifecycle.step delays s (.connectReply id false) =
        some (s.connectRaised id awaiter) := by
      simp only [IbkrLifecycle.step, hrunning, Bool.false_eq_true, if_false]
    exact ⟨_, _, by simp [LifecycleEvent.subject], hstep⟩
  | streaming awaiter ib =>
    have hstep : IbkrLifecycle.step delays s (.streamingReply id false) =
        some (s.streamingFailed id awaiter ib) := by
      simp only [IbkrLifecycle.step, hrunning, Bool.false_eq_true, if_false]
    exact ⟨_, _, by simp [LifecycleEvent.subject], hstep⟩
  | stopping loop => cases hloop
  | draining => cases hloop

/-- The flag is up only while a `disconnect()` is in progress. -/
def Flagged (s : IbkrLifecycle) : Prop := s.disconnecting = true → s.DisconnectInFlight

/-- Outside of `disconnect()` no `disconnect()` is resumed. -/
theorem subject_isDisconnect (howned : s.Owned) {e : LifecycleEvent}
    (he : e.disconnects = false) (hstep : step delays s e = some t) {id : ℕ} {c : Coroutine}
    (hsubject : e.subject = some id) (hc : s.coroutines.get? id = some c) :
    c.isDisconnect = false := by
  have hrunning : ∀ {b}, s.running id = some b → b = c := fun hb =>
    Option.some.inj ((running_eq_some.mp hb).2.symm.trans hc)
  cases e with
  | loopStarts j =>
    obtain rfl := Option.some.inj hsubject
    simp only [step] at hstep
    split at hstep
    next hb =>
      rw [← hrunning hb]
      rfl
    next => cases hstep
  | backoffOver j =>
    obtain rfl := Option.some.inj hsubject
    simp only [step] at hstep
    split at hstep
    next hb =>
      rw [← hrunning hb]
      rfl
    next => cases hstep
  | connectReply j ok =>
    obtain rfl := Option.some.inj hsubject
    simp only [step] at hstep
    split at hstep
    next hb =>
      rw [← hrunning hb]
      rfl
    next => cases hstep
  | streamingReply j ok =>
    obtain rfl := Option.some.inj hsubject
    simp only [step] at hstep
    split at hstep
    next hb =>
      rw [← hrunning hb]
      rfl
    next => cases hstep
  | cancelDelivered j =>
    obtain rfl := Option.some.inj hsubject
    simp only [step, hc] at hstep
    split at hstep
    next hcancelled =>
      have hloop := (howned.awaited j c hcancelled hc).1
      cases c <;> simp_all [Coroutine.isLoop, Coroutine.isDisconnect]
    next => cases hstep
  | loopAwaited j pendingWrites emits => cases he
  | writesDrained j emits => cases he
  | _ => cases hsubject

theorem step_flagged {e : LifecycleEvent} (h : s.Flagged) (howned : s.Owned)
    (hstep : step delays s e = some t) : t.Flagged := by
  have hset : ∀ (u : IbkrLifecycle) id b, b.isDisconnect = true →
      (u.setCoroutine id b).DisconnectInFlight := fun u id b hb =>
    ⟨id, b, (get?_setCoroutine u id b id).trans (if_pos rfl), hb⟩
  cases he : e.disconnects with
  | false =>
    intro hflag
    have htouches := step_touches he hstep
    obtain ⟨id, c, hc, hkind⟩ := h (htouches.disconnecting.symm.trans hflag)
    have hsubject : e.subject ≠ some id := fun hsubject =>
      absurd (subject_isDisconnect howned he hstep hsubject hc) (by simp [hkind])
    exact ⟨id, c, (htouches.coroutine_eq (howned.fresh id c hc) hsubject).trans hc, hkind⟩
  | true =>
    cases e with
    | disconnect pendingWrites emits =>
      obtain rfl := Option.some.inj hstep
      unfold IbkrLifecycle.disconnect
      dsimp only
      split
      next loop _ =>
        obtain ⟨id, c, hc, hkind⟩ := hset s s.nextId (.stopping loop) rfl
        exact fun _ => ⟨id, c, hc, hkind⟩
      next =>
        split
        next => exact fun _ => hset _ _ .draining rfl
        next => exact fun hflag => absurd hflag Bool.false_ne_true
    | loopAwaited id pendingWrites emits =>
      simp only [step] at hstep
      split at hstep
      next =>
        split at hstep
        next => cases hstep
        next =>
          split at hstep
          next =>
            obtain rfl := Option.some.inj hstep
            exact fun _ => hset _ _ .draining rfl
          next =>
            obtain rfl := Option.some.inj hstep
            exact fun hflag => absurd hflag Bool.false_ne_true
      next => cases hstep
    | writesDrained id emits =>
      simp only [step] at hstep
      split at hstep
      next =>
        obtain rfl := Option.some.inj hstep
        exact fun hflag => absurd hflag Bool.false_ne_true
      next => cases hstep
    | _ => cases he

/-- A retry that is not refused leaves a live loop with an attempt ahead of it. -/
theorem Promising.retryNow (htended : s.Tended) (hflagged : s.Flagged)
    (hidle : ¬ s.DisconnectInFlight) (hstate : s.state ≠ .connected)
    (hexhausted : ¬ s.Exhausted delays) : s.retryNow.Promising s.retryNow.nextId := by
  have hflag : s.disconnecting = false := Bool.eq_false_iff.mpr fun h => hidle (hflagged h)
  have hturn : s.Turns s.retryNow none := .retryNow s
  have htended' : s.retryNow.Tended := htended.retryNow
  refine ⟨htended', fun h => hidle (hturn.touches.disconnectInFlight h), le_rfl, ?_⟩
  have hensure : ∀ u : IbkrLifecycle, u.coroutines = s.coroutines →
      u.reconnectTask = s.reconnectTask → ∃ id c, u.ensureLoop.reconnectTask = some id ∧
        u.ensureLoop.coroutines.get? id = some c ∧ c.lastAttempt = false := by
    intro u hcoroutines htask
    rcases ensureLoop_cases u with ⟨id, c, hid, hc, heq⟩ | ⟨-, heq⟩
    · rw [heq]
      refine ⟨id, c, hid, hc, Bool.eq_false_iff.mpr fun hlast => hexhausted ?_⟩
      exact .mk (htask.symm.trans hid) (hcoroutines ▸ hc) hlast
    · rw [heq]
      exact ⟨u.nextId, .created, rfl, (get?_setCoroutine u _ _ _).trans (if_pos rfl), rfl⟩
  have hwoken : s.wakeupEvent.2.coroutines = s.coroutines ∧
      s.wakeupEvent.2.reconnectTask = s.reconnectTask ∧
      s.wakeupEvent.2.disconnecting = s.disconnecting ∧ s.wakeupEvent.2.state = s.state := by
    rcases wakeupEvent_cases s with heq | ⟨wakeups, heq⟩
    · rw [heq]
      exact ⟨rfl, rfl, rfl, rfl⟩
    · rw [heq]
      exact ⟨rfl, rfl, rfl, rfl⟩
  obtain ⟨hcoroutines, htask, hdisconnecting, hsame⟩ := hwoken
  unfold IbkrLifecycle.retryNow
  rw [if_neg (by simp [hflag, hstate])]
  dsimp only
  split
  next hdisconnected =>
    rw [IbkrLifecycle.handleDisconnect, if_neg]
    · exact hensure _ hcoroutines htask
    · simp [hdisconnecting, hflag, hsame, hdisconnected]
  next => exact hensure _ hcoroutines htask

/-- With no coroutine left nothing goes on. -/
theorem not_resumes (h : s.coroutines.keys = []) (t : IbkrLifecycle) : ¬ Resumes delays s t := by
  have hnone : ∀ id, s.coroutines.get? id = none := fun id =>
    OrderedDict.get?_eq_none_iff.mpr (by simp [h])
  have hrunning : ∀ id, s.running id = none := by
    intro id
    unfold running
    rw [hnone, ite_self]
  rintro ⟨e, hsubject, hstep⟩
  cases e <;> simp_all [step, LifecycleEvent.subject]

/-- A list of events without a call that ends with no coroutine left is a maximal run. -/
theorem maximalRun_of_trace {guard : IbkrLifecycle → LifecycleEvent → Prop}
    (hguard : ∀ s e, guard s e → e.isCalled = false) {trace : ℕ → IbkrLifecycle}
    (hlast : t.coroutines.keys = [])
    (h : ∀ n, GuardedStep (step delays) guard (trace n) (trace (n + 1)) ∨
      trace n = t ∧ trace (n + 1) = t) :
    MaximalRun (Unprompted delays) (Resumes delays) trace := by
  intro n
  rcases h n with ⟨e, he, hstep⟩ | ⟨hn, hn'⟩
  · exact Or.inl ⟨e, hguard _ e he, hstep⟩
  · refine Or.inr ⟨hn'.trans hn.symm, ?_⟩
    rw [hn]
    exact not_resumes hlast

end IbkrLifecycle

/-- Where the reconnect loop is not in the last attempt of its schedule and the schedule is not
empty, a `retry_now()` outside of CONNECTED and of `disconnect()` is followed, without any further
call, by an attempt that begins after it, unless the adapter is CONNECTED first. -/
theorem retry_is_followed {delays : List ℚ} {s : IbkrLifecycle}
    (hrun : Reaches (IbkrLifecycle.step delays) (fun _ _ => True) .init s)
    (hstate : s.state ≠ .connected) (hidle : ¬ s.DisconnectInFlight)
    (hexhausted : ¬ s.Exhausted delays) {trace : ℕ → IbkrLifecycle}
    (hretry : IbkrLifecycle.step delays s .retryNow = some (trace 0))
    (hlater : MaximalRun (IbkrLifecycle.Unprompted delays) (IbkrLifecycle.Resumes delays) trace) :
    ∃ n, (trace n).state = .connected ∨ (trace n).AttemptSince (trace 0).nextId := by
  have hreached : s.Tended ∧ s.Flagged := by
    refine hrun.invariant (I := fun s => s.Tended ∧ s.Flagged)
      ⟨IbkrLifecycle.init_tended, fun hflag => absurd hflag Bool.false_ne_true⟩ ?_
    rintro s e t ⟨htended, hflagged⟩ - hstep
    exact ⟨IbkrLifecycle.step_tended htended hstep,
      IbkrLifecycle.step_flagged hflagged htended.owned hstep⟩
  have hstart : (trace 0).Promising (trace 0).nextId := by
    rw [← Option.some.inj hretry]
    exact .retryNow hreached.1 hreached.2 hidle hstate hexhausted
  have hdelays : delays ≠ [] := fun hnil => hexhausted (Or.inl hnil)
  have hmust : ∀ u : IbkrLifecycle, u.Promising (trace 0).nextId →
      ¬ (u.state = .connected ∨ u.AttemptSince (trace 0).nextId) →
      ∃ v, IbkrLifecycle.Resumes delays u v := fun u hu _ => hu.resumes
  have hmay : ∀ u v : IbkrLifecycle, u.Promising (trace 0).nextId →
      ¬ (u.state = .connected ∨ u.AttemptSince (trace 0).nextId) →
      IbkrLifecycle.Unprompted delays u v →
      (v.state = .connected ∨ v.AttemptSince (trace 0).nextId) ∨
        v.Promising (trace 0).nextId ∧ v.potential < u.potential := by
    rintro u v hu hgoal ⟨e, hcalled, hstep⟩
    push Not at hgoal
    by_cases hwait : ∃ id, e = .backoffOver id
    · obtain ⟨id, rfl⟩ := hwait
      exact Or.inl (Or.inr (IbkrLifecycle.step_backoffOver hgoal.1 hstep hu.since_le))
    · push Not at hwait
      have hdisconnects := IbkrLifecycle.disconnects_eq_false hu.idle hcalled hstep
      exact (hu.step hdelays hgoal.1 hcalled hstep).imp_right fun hv =>
        ⟨hv, IbkrLifecycle.step_potential hcalled hdisconnects hwait hstep⟩
  exact hlater.meets hmust hmay hstart

/-- A retry in the first wait of a loop. -/
theorem retry_in_the_wait_is_followed :
    ∃ (s : IbkrLifecycle) (trace : ℕ → IbkrLifecycle),
      Reaches (IbkrLifecycle.step [5]) (fun _ _ => True) .init s ∧
      IbkrLifecycle.step [5] s .retryNow = some (trace 0) ∧
      ∃ n, (trace n).state = .connected ∨ (trace n).AttemptSince (trace 0).nextId := by
  obtain ⟨s, hrun, hs⟩ := Reaches.exists_of_execute (IbkrLifecycle.step [5]) (fun _ _ => True)
    .init [.start, .connectReply 0 false, .loopStarts 2]
    (fun s => (s.state ≠ .connected ∧ ¬ s.DisconnectInFlight ∧ ¬ s.Exhausted [5]) ∧
      (execute (restrict (IbkrLifecycle.step [5]) fun _ e => e.isCalled = false) s.retryNow
        [.backoffOver 2, .connectReply 2 false]).any fun t => t.coroutines.keys = [])
    (by decide +kernel)
  obtain ⟨⟨hstate, hidle, hexhausted⟩, hend⟩ := of_decide_eq_true hs
  obtain ⟨t, ht, hlast⟩ := (Option.any_eq_true _ _).mp hend
  obtain ⟨trace, h0, htrace⟩ := MaximalRun.exists_trace ht
  have hretry : IbkrLifecycle.step [5] s .retryNow = some (trace 0) := by rw [h0]; rfl
  exact ⟨s, trace, hrun, hretry, retry_is_followed hrun hstate hidle hexhausted hretry
    (IbkrLifecycle.maximalRun_of_trace (fun _ _ h => h) (of_decide_eq_true hlast) htrace)⟩

/-- A retry during the last attempt: the attempt fails and nothing follows. -/
theorem retry_in_the_last_attempt_is_lost :
    ∃ (s : IbkrLifecycle) (trace : ℕ → IbkrLifecycle),
      Reaches (IbkrLifecycle.step [5]) (fun _ _ => True) .init s ∧
      s.state ≠ .connected ∧ ¬ s.DisconnectInFlight ∧
      IbkrLifecycle.step [5] s .retryNow = some (trace 0) ∧
      MaximalRun (IbkrLifecycle.Unprompted [5]) (IbkrLifecycle.Resumes [5]) trace ∧
      ∀ n, ¬ ((trace n).state = .connected ∨ (trace n).AttemptSince (trace 0).nextId) := by
  obtain ⟨s, hrun, hs⟩ := Reaches.exists_of_execute (IbkrLifecycle.step [5]) (fun _ _ => True)
    .init [.start, .connectReply 0 false, .loopStarts 2, .backoffOver 2]
    (fun s => (s.state ≠ .connected ∧ ¬ s.DisconnectInFlight) ∧
      (execute (restrict (IbkrLifecycle.step [5]) fun t e => e.isCalled = false ∧
        ¬ (t.state = .connected ∨ t.AttemptSince s.retryNow.nextId)) s.retryNow
        [.connectReply 2 false]).any fun t => t.coroutines.keys = [] ∧
          ¬ (t.state = .connected ∨ t.AttemptSince s.retryNow.nextId))
    (by decide +kernel)
  obtain ⟨⟨hstate, hidle⟩, hend⟩ := of_decide_eq_true hs
  obtain ⟨t, ht, hlast⟩ := (Option.any_eq_true _ _).mp hend
  obtain ⟨hlast, hlost⟩ := of_decide_eq_true hlast
  obtain ⟨trace, h0, htrace⟩ := MaximalRun.exists_trace ht
  have hretry : IbkrLifecycle.step [5] s .retryNow = some (trace 0) := by rw [h0]; rfl
  refine ⟨s, trace, hrun, hstate, hidle, hretry,
    IbkrLifecycle.maximalRun_of_trace (fun _ _ h => h.1) hlast htrace, fun n => ?_⟩
  rw [h0]
  rcases htrace n with ⟨e, he, -⟩ | ⟨hn, -⟩
  · exact he.2
  · rw [hn]
    exact hlost

end PortfolioHub
