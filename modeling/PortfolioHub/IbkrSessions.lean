import PortfolioHub.IbkrDisconnect

namespace PortfolioHub

def Coroutine.isConnecting : Coroutine → Bool
  | .connecting _ _ => true
  | _ => false

namespace IbkrLifecycle

/-- No instance is connected and not yet disconnected. -/
def Closed (s : IbkrLifecycle) : Prop := ∀ ib ∈ s.instances.keys, s.aliveInstance ib = false

instance (s : IbkrLifecycle) : Decidable s.Closed :=
  inferInstanceAs (Decidable (∀ ib ∈ s.instances.keys, s.aliveInstance ib = false))

/-- In `connectAsync`, and not cancelled. -/
def connecting (s : IbkrLifecycle) (id : ℕ) : Bool := (s.running id).any Coroutine.isConnecting

/-- Nothing is connected or about to be. -/
def Vacant (s : IbkrLifecycle) : Prop :=
  s.Closed ∧ ∀ id ∈ s.coroutines.keys, s.connecting id = false

instance (s : IbkrLifecycle) : Decidable s.Vacant :=
  inferInstanceAs (Decidable (s.Closed ∧ ∀ id ∈ s.coroutines.keys, s.connecting id = false))

/-- Attempts begin only where nothing is connected or about to be, and `_start_streaming` raises
only when the connection is gone. -/
def Exclusive (s : IbkrLifecycle) : LifecycleEvent → Prop
  | .start => s.Vacant
  | .connect => s.Vacant
  | .backoffOver _ => s.state ≠ .connected → s.Vacant
  | .streamingReply _ ok => ok = false → s.Closed
  | _ => True

instance (s : IbkrLifecycle) : (e : LifecycleEvent) → Decidable (s.Exclusive e)
  | .start => inferInstanceAs (Decidable s.Vacant)
  | .connect => inferInstanceAs (Decidable s.Vacant)
  | .retryNow => inferInstanceAs (Decidable True)
  | .disconnect _ _ => inferInstanceAs (Decidable True)
  | .loopStarts _ => inferInstanceAs (Decidable True)
  | .backoffOver _ => inferInstanceAs (Decidable (s.state ≠ .connected → s.Vacant))
  | .connectReply _ _ => inferInstanceAs (Decidable True)
  | .streamingReply _ ok => inferInstanceAs (Decidable (ok = false → s.Closed))
  | .disconnectedEvent _ => inferInstanceAs (Decidable True)
  | .cancelDelivered _ => inferInstanceAs (Decidable True)
  | .loopAwaited _ _ _ => inferInstanceAs (Decidable True)
  | .writesDrained _ _ => inferInstanceAs (Decidable True)

variable {delays : List ℚ} {s t : IbkrLifecycle}

theorem aliveInstance_iff {ib : ℕ} :
    s.aliveInstance ib = true ↔
      ∃ i, s.instances.get? ib = some i ∧ i.connected = true ∧ i.raised = false := by
  unfold aliveInstance
  cases s.instances.get? ib with
  | none => simp
  | some i => simp [IbInstance.alive]

theorem closed_iff : s.Closed ↔ ∀ ib, ¬ s.aliveInstance ib = true := by
  constructor
  · intro h ib halive
    obtain ⟨i, hi, -⟩ := aliveInstance_iff.mp halive
    have hib : ib ∈ s.instances.keys := OrderedDict.mem_keys_iff.mpr ⟨i, hi⟩
    exact absurd halive (Bool.eq_false_iff.mp (h ib hib))
  · exact fun h ib _ => Bool.eq_false_iff.mpr (h ib)

theorem Closed.of_instances (h : s.Closed) (hinstances : t.instances = s.instances) :
    t.Closed := by
  unfold Closed aliveInstance
  rw [hinstances]
  exact h

theorem connecting_iff {id : ℕ} :
    s.connecting id = true ↔
      id ∉ s.cancelled ∧ ∃ c, s.coroutines.get? id = some c ∧ c.isConnecting = true := by
  unfold connecting
  rw [Option.any_eq_true]
  simp only [running_eq_some, and_assoc, exists_and_left]

theorem Vacant.not_connecting (h : s.Vacant) (id : ℕ) : s.connecting id = false := by
  by_cases hid : id ∈ s.coroutines.keys
  · exact h.2 id hid
  · refine Bool.eq_false_iff.mpr fun hc => ?_
    obtain ⟨-, c, hget, -⟩ := connecting_iff.mp hc
    exact hid (OrderedDict.mem_keys_iff.mpr ⟨c, hget⟩)

theorem Vacant.congr (h : s.Vacant) (hinstances : t.instances = s.instances)
    (hcoroutines : t.coroutines = s.coroutines) (hcancelled : t.cancelled = s.cancelled) :
    t.Vacant := by
  refine ⟨h.1.of_instances hinstances, ?_⟩
  unfold connecting running
  rw [hcoroutines, hcancelled]
  exact h.2

/-- The instance that is alive is the one held, and only one attempt can make one so. -/
structure Sole (s : IbkrLifecycle) : Prop where
  held : ∀ ib, s.aliveInstance ib = true → s.ib = some ib
  connecting : ∀ id, s.connecting id = true →
    s.Closed ∧ ∀ j, s.connecting j = true → j = id
  registered : ∀ ib i, s.instances.get? ib = some i → i.registered = true → i.connected = true

theorem Sole.closed (h : s.Sole) (hib : s.ib = none) : s.Closed := by
  refine closed_iff.mpr fun ib halive => ?_
  exact Option.some_ne_none _ ((h.held ib halive).symm.trans hib)

/-- No instance comes alive or is let go of, and no attempt begins. -/
structure Retains (s t : IbkrLifecycle) : Prop where
  alive : ∀ ib, t.aliveInstance ib = true → s.aliveInstance ib = true
  held : ∀ ib, t.aliveInstance ib = true → s.ib = some ib → t.ib = some ib
  connecting : ∀ id, t.connecting id = true → s.connecting id = true
  registered : ∀ ib i, t.instances.get? ib = some i → i.registered = true →
    ∃ i', s.instances.get? ib = some i' ∧ i'.registered = true ∧ i.connected = i'.connected

theorem Sole.retains (h : s.Sole) (hst : s.Retains t) : t.Sole := by
  refine ⟨fun ib halive => hst.held ib halive (h.held ib (hst.alive ib halive)), ?_, ?_⟩
  · intro id hid
    obtain ⟨hclosed, hone⟩ := h.connecting id (hst.connecting id hid)
    refine ⟨closed_iff.mpr fun ib halive => ?_,
      fun j hj => hone j (hst.connecting j hj)⟩
    exact absurd (hst.alive ib halive) (closed_iff.mp hclosed ib)
  · intro ib i hi hregistered
    obtain ⟨i', hi', hregistered', hconnected⟩ := hst.registered ib i hi hregistered
    exact hconnected.trans (h.registered ib i' hi' hregistered')

/-- Coroutines that end or go on as others leave no new attempt behind. -/
theorem Retains.of_coroutines (hinstances : t.instances = s.instances) (hib : t.ib = s.ib)
    (hcancelled : ∀ id ∈ s.cancelled, id ∈ t.cancelled)
    (hcoroutines : ∀ id c, t.coroutines.get? id = some c → c.isConnecting = true →
      s.coroutines.get? id = some c) : s.Retains t := by
  refine ⟨?_, fun ib _ h => hib.trans h, ?_, ?_⟩
  · unfold aliveInstance
    rw [hinstances]
    exact fun _ h => h
  · intro id hid
    obtain ⟨hnot, c, hget, hc⟩ := connecting_iff.mp hid
    exact connecting_iff.mpr ⟨fun h => hnot (hcancelled id h), c, hcoroutines id c hget hc, hc⟩
  · rw [hinstances]
    exact fun ib i hi hregistered => ⟨i, hi, hregistered, rfl⟩

theorem Turns.retains {subject : Option ℕ} (h : s.Turns t subject) : s.Retains t := by
  refine .of_coroutines h.instances h.ib (fun id hid => h.cancelled ▸ hid) ?_
  intro id c hget hc
  rcases h.coroutines id with heq | ⟨-, hwaits⟩
  · exact heq.symm.trans hget
  · have hcw := hwaits c hget
    cases c with
    | connecting awaiter ib => cases hcw
    | _ => cases hc

theorem Retains.setCoroutine (s : IbkrLifecycle) (id : ℕ) {c : Coroutine}
    (hc : c.isConnecting = false) : s.Retains (s.setCoroutine id c) := by
  refine .of_coroutines rfl rfl (fun _ h => h) fun j d hj hd => ?_
  rw [get?_setCoroutine] at hj
  split at hj
  next =>
    obtain rfl := Option.some.inj hj
    rw [hc] at hd
    cases hd
  next => exact hj

/-- The start of an attempt where nothing is connected or about to be. -/
theorem Vacant.beginConnect (h : s.Vacant) (hsole : s.Sole) (id : ℕ) (awaiter : Awaiter) :
    (s.beginConnect id awaiter).Sole := by
  have hclosed : (s.beginConnect id awaiter).Closed := by
    refine closed_iff.mpr fun ib halive => ?_
    obtain ⟨i, hi, hconnected, hraised⟩ := aliveInstance_iff.mp halive
    have hget := (OrderedDict.get?_insert s.instances s.nextId ib ⟨false, false, false⟩).symm.trans hi
    split at hget
    next =>
      obtain rfl := Option.some.inj hget
      cases hconnected
    next =>
      have halive' := aliveInstance_iff.mpr ⟨i, hget, hconnected, hraised⟩
      exact absurd halive' (closed_iff.mp h.1 ib)
  have hone : ∀ j, (s.beginConnect id awaiter).connecting j = true → j = id := by
    intro j hj
    obtain ⟨hcancelled, c, hget, hc⟩ := connecting_iff.mp hj
    have hget' := (get?_setCoroutine s id (.connecting awaiter s.nextId) j).symm.trans hget
    split at hget'
    next heq => exact heq
    next =>
      have hold := (connecting_iff (s := s)).mpr ⟨hcancelled, c, hget', hc⟩
      exact absurd hold (Bool.eq_false_iff.mp (h.not_connecting j))
  refine ⟨fun ib halive => ?_, fun j hj => ⟨hclosed, fun k hk => ?_⟩, ?_⟩
  · exact absurd halive (closed_iff.mp hclosed ib)
  · exact (hone k hk).trans (hone j hj).symm
  · intro ib i hi hregistered
    have hget := (OrderedDict.get?_insert s.instances s.nextId ib ⟨false, false, false⟩).symm.trans hi
    split at hget
    next =>
      obtain rfl := Option.some.inj hget
      cases hregistered
    next => exact hsole.registered ib i hget hregistered

theorem Sole.congr (h : s.Sole) (hinstances : t.instances = s.instances) (hib : t.ib = s.ib)
    (hcoroutines : t.coroutines = s.coroutines) (hcancelled : t.cancelled = s.cancelled) : t.Sole :=
  h.retains (.of_coroutines hinstances hib (fun _ hid => hcancelled ▸ hid)
    fun _ _ hget _ => hcoroutines ▸ hget)

/-- What a change of one instance keeps: an instance that is alive after it was before, or is the
one changed. -/
theorem aliveInstance_modify {d : OrderedDict ℕ IbInstance} {ib j : ℕ} {f : IbInstance → IbInstance}
    (hd : ∀ k, d.get? k = if k = ib then (s.instances.get? k).map f else s.instances.get? k)
    (hj : aliveInstance { s with instances := d } j = true) : j = ib ∨ s.aliveInstance j = true := by
  obtain ⟨i, hi, hconnected, hraised⟩ := aliveInstance_iff.mp hj
  have hget := (hd j).symm.trans hi
  split at hget
  next heq => exact Or.inl heq
  next => exact Or.inr (aliveInstance_iff.mpr ⟨i, hget, hconnected, hraised⟩)

/-- `connectAsync` returns: the one attempt in progress has its instance connected and held. -/
theorem Sole.connectReturned (h : s.Sole) {id : ℕ} (hid : s.connecting id = true)
    (awaiter : Awaiter) (ib : ℕ) : (s.connectReturned id awaiter ib).Sole := by
  obtain ⟨hclosed, hone⟩ := h.connecting id hid
  unfold IbkrLifecycle.connectReturned
  obtain ⟨instances, heq, -, hget⟩ := modifyInstance_eq s ib fun i =>
    { i with connected := true, registered := true }
  rw [heq]
  refine ⟨fun j halive => ?_, fun j hj => ?_, fun j i hi hreg => ?_⟩
  · rcases aliveInstance_modify hget halive with rfl | hold
    · rfl
    · exact absurd hold (closed_iff.mp hclosed j)
  · obtain ⟨hcancelled, c, hc, hkind⟩ := connecting_iff.mp hj
    have hc' := (get?_setCoroutine s id (.streaming awaiter ib) j).symm.trans hc
    split at hc'
    next =>
      obtain rfl := Option.some.inj hc'
      cases hkind
    next hne =>
      exact absurd (hone j ((connecting_iff (s := s)).mpr ⟨hcancelled, c, hc', hkind⟩)) hne
  · have hi' := (hget j).symm.trans hi
    split at hi'
    next =>
      obtain ⟨i', -, rfl⟩ := Option.map_eq_some_iff.mp hi'
      rfl
    next => exact h.registered j i hi' hreg

/-- An instance that raises its event or is disconnected is no longer alive. -/
theorem Retains.raise {ib : ℕ} {d : OrderedDict ℕ IbInstance}
    (hd : ∀ k, d.get? k = if k = ib then (s.instances.get? k).map (fun i => { i with raised := true })
      else s.instances.get? k) : s.Retains { s with instances := d } := by
  have hsame : ∀ j i, d.get? j = some i → ∃ i', s.instances.get? j = some i' ∧
      i'.registered = i.registered ∧ i.connected = i'.connected ∧ (i.raised = false → i = i') := by
    intro j i hi
    have hi' := (hd j).symm.trans hi
    split at hi'
    next =>
      obtain ⟨i', hget, rfl⟩ := Option.map_eq_some_iff.mp hi'
      exact ⟨i', hget, rfl, rfl, by simp⟩
    next => exact ⟨i, hi', rfl, rfl, fun _ => rfl⟩
  refine ⟨fun j halive => ?_, fun _ _ h => h, fun _ h => h, fun j i hi hregistered => ?_⟩
  · obtain ⟨i, hi, hconnected, hraised⟩ := aliveInstance_iff.mp halive
    obtain ⟨i', hi', -, -, heq⟩ := hsame j i hi
    obtain rfl := heq hraised
    exact aliveInstance_iff.mpr ⟨i, hi', hconnected, hraised⟩
  · obtain ⟨i', hi', hreg, hconnected, -⟩ := hsame j i hi
    exact ⟨i', hi', hreg.trans hregistered, hconnected⟩

/-- `disconnect()` leaves no instance connected. -/
theorem Sole.teardown (h : s.Sole) (emits : Bool) :
    (s.teardown emits).Sole ∧ (s.teardown emits).Closed := by
  have hclosed : ∃ u : IbkrLifecycle, u.Sole ∧ u.Closed ∧ u.Turns (s.closeHeld emits) none := by
    have hrefl : ∀ u : IbkrLifecycle, u.Turns u none := fun u => .of_eq le_rfl rfl rfl rfl rfl rfl rfl
    unfold closeHeld
    split
    next hnone =>
      refine ⟨s, h, closed_iff.mpr fun j halive => ?_, hrefl s⟩
      obtain ⟨i, hi, -⟩ := aliveInstance_iff.mp halive
      rw [h.held j halive] at hnone
      simp [hi] at hnone
    next ib i hheld =>
      obtain ⟨held, hib, hget⟩ := Option.bind_eq_some_iff.mp hheld
      obtain ⟨i', -, hpair⟩ := Option.map_eq_some_iff.mp hget
      obtain ⟨rfl, -⟩ := Prod.mk.inj hpair
      obtain ⟨instances, heq, -, hd⟩ := modifyInstance_eq s held fun i => { i with raised := true }
      have hretains : s.Retains { s with instances := instances } := .raise hd
      have hnone : Closed { s with instances := instances } := by
        refine closed_iff.mpr fun j halive => ?_
        have hj := Option.some.inj ((h.held j (hretains.alive j halive)).symm.trans hib)
        obtain ⟨i₁, hi₁, -, hraised⟩ := aliveInstance_iff.mp halive
        have hclosedHeld := (hd j).symm.trans hi₁
        rw [if_pos hj] at hclosedHeld
        obtain ⟨i₀, -, rfl⟩ := Option.map_eq_some_iff.mp hclosedHeld
        cases hraised
      dsimp only
      rw [heq]
      refine ⟨_, h.retains hretains, hnone, ?_⟩
      split
      next => exact .handleDisconnect _
      next => exact hrefl _
  obtain ⟨u, hu, huclosed, hturns⟩ := hclosed
  have hheldClosed : (s.closeHeld emits).Closed := huclosed.of_instances hturns.instances
  have hheldSole : (s.closeHeld emits).Sole := hu.retains hturns.retains
  have hend : (s.teardown emits).Closed := hheldClosed.of_instances rfl
  refine ⟨⟨fun j halive => ?_, fun j hj => ⟨hend, (hheldSole.connecting j hj).2⟩,
    hheldSole.registered⟩, hend⟩
  exact absurd halive (closed_iff.mp hend j)

/-- `_start_streaming` raises after the connection is gone: nothing is held any more. -/
theorem Sole.streamingFailed (h : s.Sole) (hclosed : s.Closed) (id : ℕ) (awaiter : Awaiter)
    (ib : ℕ) : (s.streamingFailed id awaiter ib).Sole := by
  unfold IbkrLifecycle.streamingFailed
  obtain ⟨instances, heq, -, hd⟩ := modifyInstance_eq { s with ib := none } ib fun i =>
    { i with registered := false }
  rw [heq]
  have hsame : ∀ j i, instances.get? j = some i → ∃ i', s.instances.get? j = some i' ∧
      i.connected = i'.connected ∧ i.raised = i'.raised ∧
        (i.registered = true → i'.registered = true) := by
    intro j i hi
    have hi' := (hd j).symm.trans hi
    split at hi'
    next =>
      obtain ⟨i', hget, rfl⟩ := Option.map_eq_some_iff.mp hi'
      exact ⟨i', hget, rfl, rfl, by simp⟩
    next => exact ⟨i, hi', rfl, rfl, fun h => h⟩
  have hclosed' : Closed { s with ib := none, instances := instances } := by
    refine closed_iff.mpr fun j halive => ?_
    obtain ⟨i, hi, hconnected, hraised⟩ := aliveInstance_iff.mp halive
    obtain ⟨i', hi', hconnected', hraised', -⟩ := hsame j i hi
    have halive' := aliveInstance_iff.mpr
      ⟨i', hi', hconnected'.symm.trans hconnected, hraised'.symm.trans hraised⟩
    exact closed_iff.mp hclosed j halive'
  have hlet : Sole { s with ib := none, instances := instances } := by
    refine ⟨fun j halive => ?_, fun j hj => ⟨hclosed', (h.connecting j hj).2⟩, fun j i hi hreg => ?_⟩
    · exact absurd halive (closed_iff.mp hclosed' j)
    · obtain ⟨i', hi', hconnected, -, hregistered⟩ := hsame j i hi
      exact hconnected.trans (h.registered j i' hi' (hregistered hreg))
  exact hlet.retains (Turns.connectRaised _ id awaiter).retains

theorem init_sole : init.Sole := by
  refine ⟨fun ib halive => ?_, fun id hid => ?_, fun ib i hi _ => ?_⟩
  · cases halive
  · cases hid
  · cases hi

theorem Sole.disconnect (h : s.Sole) (pendingWrites emits : Bool) :
    (s.disconnect pendingWrites emits).Sole := by
  unfold IbkrLifecycle.disconnect
  dsimp only
  split
  next loop _ =>
    have hstopping := h.retains (.setCoroutine s s.nextId (c := .stopping loop) rfl)
    exact hstopping.retains (.of_coroutines rfl rfl (fun _ hid => List.mem_cons_of_mem _ hid)
      fun _ _ hget _ => hget)
  next =>
    have hbegun : Sole { s with
        disconnecting := true
        reconnectTask := none
        reconnectWakeup := none
        nextId := s.nextId + 1 } := h.congr rfl rfl rfl rfl
    split
    next => exact hbegun.retains (.setCoroutine _ _ rfl)
    next => exact (hbegun.teardown emits).1

theorem step_sole {e : LifecycleEvent} (h : s.Sole) (hguard : s.Exclusive e)
    (hstep : step delays s e = some t) : t.Sole := by
  have hcall : s.Vacant → ∀ awaiter, (s.call awaiter).Sole := fun hvacant awaiter =>
    have hnext : Vacant { s with nextId := s.nextId + 1 } := hvacant.congr rfl rfl rfl
    hnext.beginConnect (h.congr rfl rfl rfl rfl) s.nextId awaiter
  cases e with
  | start =>
    obtain rfl := Option.some.inj hstep
    exact hcall hguard .start
  | connect =>
    obtain rfl := Option.some.inj hstep
    exact hcall hguard .connect
  | retryNow =>
    obtain rfl := Option.some.inj hstep
    have hturn : s.Turns s.retryNow none := .retryNow s
    exact h.retains hturn.retains
  | disconnect pendingWrites emits =>
    obtain rfl := Option.some.inj hstep
    exact h.disconnect pendingWrites emits
  | loopStarts id =>
    simp only [step] at hstep
    split at hstep
    next =>
      obtain rfl := Option.some.inj hstep
      exact h.retains (Turns.nextDelay s id delays).retains
    next => cases hstep
  | backoffOver id =>
    simp only [step] at hstep
    split at hstep
    next rest wakeup _ =>
      obtain rfl := Option.some.inj hstep
      have hcleared : Sole { s with wakeups := s.wakeups.insert wakeup false } :=
        h.congr rfl rfl rfl rfl
      unfold attempt
      dsimp only
      split
      next => exact hcleared.retains (Turns.endLoop _ id).retains
      next hstate =>
        have hvacant : Vacant { s with wakeups := s.wakeups.insert wakeup false, ib := none } :=
          (hguard hstate).congr rfl rfl rfl
        have hlet : Sole { s with wakeups := s.wakeups.insert wakeup false, ib := none } := by
          refine ⟨fun j halive => ?_, h.connecting, h.registered⟩
          exact absurd halive (closed_iff.mp hvacant.1 j)
        exact hvacant.beginConnect hlet id (.reconnectLoop rest)
    next => cases hstep
  | connectReply id ok =>
    simp only [step] at hstep
    split at hstep
    next awaiter ib hrunning =>
      split at hstep
      next =>
        split at hstep
        next => cases hstep
        next =>
          obtain rfl := Option.some.inj hstep
          have hc := running_eq_some.mp hrunning
          exact h.connectReturned (connecting_iff.mpr ⟨hc.1, _, hc.2, rfl⟩) awaiter ib
      next =>
        obtain rfl := Option.some.inj hstep
        exact h.retains (Turns.connectRaised s id awaiter).retains
    next => cases hstep
  | streamingReply id ok =>
    simp only [step] at hstep
    split at hstep
    next awaiter ib _ =>
      split at hstep
      next =>
        obtain rfl := Option.some.inj hstep
        exact h.retains (Turns.connectSucceeded s id awaiter).retains
      next hok =>
        obtain rfl := Option.some.inj hstep
        exact h.streamingFailed (hguard (by simpa using hok)) id awaiter ib
    next => cases hstep
  | disconnectedEvent ib =>
    simp only [step] at hstep
    split at hstep
    next i hi =>
      split at hstep
      next => cases hstep
      next =>
        have hdropped : Sole { s with
            instances := s.instances.insert ib { i with raised := true } } := by
          have hget : ∀ k, (s.instances.insert ib { i with raised := true }).get? k =
              if k = ib then (s.instances.get? k).map (fun i => { i with raised := true })
              else s.instances.get? k := by
            intro k
            rw [OrderedDict.get?_insert]
            by_cases hk : k = ib
            · simp [hk, hi]
            · simp [hk]
          exact h.retains (.raise hget)
        obtain rfl := Option.some.inj hstep
        split
        next =>
          have hturn : Turns { s with instances := s.instances.insert ib { i with raised := true } }
              (handleDisconnect { s with
                instances := s.instances.insert ib { i with raised := true } }) none :=
            .handleDisconnect _
          exact hdropped.retains hturn.retains
        next => exact hdropped
    next => cases hstep
  | cancelDelivered id =>
    simp only [step] at hstep
    split at hstep
    next c _ =>
      split at hstep
      next =>
        obtain rfl := Option.some.inj hstep
        exact h.retains (Turns.cancelDelivered s id c).retains
      next => cases hstep
    next => cases hstep
  | loopAwaited id pendingWrites emits =>
    simp only [step] at hstep
    split at hstep
    next loop _ =>
      have hdone : Sole { s with reconnectWakeup := none } := h.congr rfl rfl rfl rfl
      split at hstep
      next => cases hstep
      next =>
        split at hstep
        next =>
          obtain rfl := Option.some.inj hstep
          exact hdone.retains (.setCoroutine _ id rfl)
        next =>
          obtain rfl := Option.some.inj hstep
          exact (Sole.teardown (hdone.retains (Turns.endCoroutine _ id).retains) emits).1
    next => cases hstep
  | writesDrained id emits =>
    simp only [step] at hstep
    split at hstep
    next =>
      obtain rfl := Option.some.inj hstep
      exact (Sole.teardown (h.retains (Turns.endCoroutine s id).retains) emits).1
    next => cases hstep

/-- A `disconnect()` returns behind its last part. -/
theorem Returns.state {e : LifecycleEvent} (hreturns : Returns s t e)
    (hstep : step delays s e = some t) : t.ib = none ∧ t.state = .disconnected := by
  cases e with
  | disconnect pendingWrites emits =>
    obtain rfl := Option.some.inj hstep
    unfold Returns IbkrLifecycle.disconnect at hreturns
    unfold IbkrLifecycle.disconnect
    dsimp only at hreturns ⊢
    split at hreturns
    next loop _ =>
      have hstopping := (get?_setCoroutine s s.nextId (.stopping loop) s.nextId).trans (if_pos rfl)
      exact absurd (hstopping.symm.trans hreturns) (Option.some_ne_none _)
    next =>
      split at hreturns
      next =>
        have hdraining := (get?_setCoroutine s s.nextId .draining s.nextId).trans (if_pos rfl)
        exact absurd (hdraining.symm.trans hreturns) (Option.some_ne_none _)
      next hwrites =>
        rw [if_neg hwrites]
        exact ⟨rfl, rfl⟩
  | loopAwaited id pendingWrites emits =>
    simp only [step] at hstep
    split at hstep
    next loop _ =>
      split at hstep
      next => cases hstep
      next =>
        split at hstep
        next =>
          obtain rfl := Option.some.inj hstep
          have hdraining := (get?_setCoroutine s id .draining id).trans (if_pos rfl)
          exact absurd (hdraining.symm.trans hreturns) (Option.some_ne_none _)
        next =>
          obtain rfl := Option.some.inj hstep
          exact ⟨rfl, rfl⟩
    next => cases hstep
  | writesDrained id emits =>
    simp only [step] at hstep
    split at hstep
    next =>
      obtain rfl := Option.some.inj hstep
      exact ⟨rfl, rfl⟩
    next => cases hstep
  | _ => exact hreturns.elim

/-- At rest with no instance connected no event finds a handler. -/
theorem Quiet.orderly (h : s.Quiet) (hsole : s.Sole) (htended : s.Tended) {e : LifecycleEvent}
    (hcall : ¬ e.IsCall) (hstep : IbkrLifecycle.step delays s e = some t) : s.Orderly e := by
  cases e with
  | start => exact absurd (Or.inl rfl) hcall
  | connect => exact absurd (Or.inr (Or.inl rfl)) hcall
  | retryNow => exact absurd (Or.inr (Or.inr rfl)) hcall
  | disconnect pendingWrites emits =>
    rintro ⟨id, c, hc, hkind⟩
    rcases subsided_iff.mp h.subsided id c hc with hcancelled | hdisconnect
    · have hloop := (htended.owned.awaited id c hcancelled hc).1
      cases c <;> simp_all [Coroutine.isCall, Coroutine.isLoop]
    · cases c <;> simp_all [Coroutine.isCall, Coroutine.isDisconnect]
  | disconnectedEvent ib =>
    intro _ i hi
    simp only [IbkrLifecycle.step, Option.mem_def.mp hi] at hstep
    split at hstep
    next => cases hstep
    next hraised =>
      refine Bool.eq_false_iff.mpr fun hregistered => ?_
      have hconnected := hsole.registered ib i hi hregistered
      exact closed_iff.mp (hsole.closed h.ib) ib
        (aliveInstance_iff.mpr ⟨i, hi, hconnected, Bool.eq_false_iff.mpr hraised⟩)
  | _ => trivial

end IbkrLifecycle

/-- In a run with exclusive attempts at most one instance is connected at a time, none when a
`disconnect()` returns, and none later until the adapter is called, when nothing was left to run. -/
theorem one_session {delays : List ℚ} {s : IbkrLifecycle}
    (hrun : Reaches (IbkrLifecycle.step delays) IbkrLifecycle.Exclusive .init s) :
    (∀ m n, s.aliveInstance m = true → s.aliveInstance n = true → m = n) ∧
      ∀ e t, s.Exclusive e → IbkrLifecycle.step delays s e = some t →
        IbkrLifecycle.Returns s t e → t.Closed ∧
          (t.Subsided → ∀ u, Reaches (IbkrLifecycle.step delays)
            (fun s e => s.Exclusive e ∧ ¬ e.IsCall) t u → u.Closed) := by
  have hsole : s.Sole := hrun.invariant IbkrLifecycle.init_sole
    fun _ _ _ h hguard hstep => IbkrLifecycle.step_sole h hguard hstep
  have htended : s.Tended := hrun.invariant IbkrLifecycle.init_tended
    fun _ _ _ h _ hstep => IbkrLifecycle.step_tended h hstep
  constructor
  · intro m n hm hn
    exact Option.some.inj ((hsole.held m hm).symm.trans (hsole.held n hn))
  · intro e t hguard hstep hreturns
    obtain ⟨hib, hstate⟩ := hreturns.state hstep
    have ht : t.Sole := IbkrLifecycle.step_sole hsole hguard hstep
    refine ⟨ht.closed hib, fun hsubsided u hlater => ?_⟩
    have hrest : u.Sole ∧ u.Tended ∧ u.Quiet := by
      refine hlater.invariant (I := fun v => v.Sole ∧ v.Tended ∧ v.Quiet)
        ⟨ht, IbkrLifecycle.step_tended htended hstep, ⟨hsubsided, hib, hstate⟩⟩ ?_
      rintro v e w ⟨hv, hvt, hvq⟩ ⟨hguard, hcall⟩ hstep
      exact ⟨IbkrLifecycle.step_sole hv hguard hstep, IbkrLifecycle.step_tended hvt hstep,
        (hvq.step hvt (hvq.orderly hv hvt hcall hstep) hcall hstep).1⟩
    exact hrest.1.closed hrest.2.2.ib

/-- A session that drops is replaced by another one, which `disconnect()` closes. -/
theorem reconnect_opens_one_session :
    ∃ s t : IbkrLifecycle, Reaches (IbkrLifecycle.step [5]) IbkrLifecycle.Exclusive .init s ∧
      s.aliveInstance 4 = true ∧ (∀ n, s.aliveInstance n = true → n = 4) ∧
      IbkrLifecycle.step [5] s (.disconnect false true) = some t ∧ t.Closed := by
  obtain ⟨s, hrun, hs⟩ := Reaches.exists_of_execute (IbkrLifecycle.step [5])
    IbkrLifecycle.Exclusive .init [.start, .connectReply 0 true, .streamingReply 0 true,
      .disconnectedEvent 1, .loopStarts 2, .backoffOver 2, .connectReply 2 true,
      .streamingReply 2 true]
    (fun s => s.aliveInstance 4 = true ∧
      (s.disconnect false true).coroutines.get? s.nextId = none) (by decide +kernel)
  obtain ⟨halive, hreturns⟩ := of_decide_eq_true hs
  have hone := one_session hrun
  exact ⟨s, s.disconnect false true, hrun, halive, fun n hn => hone.1 n 4 hn halive, rfl,
    (hone.2 (.disconnect false true) _ trivial rfl hreturns).1⟩

/-- `_start_streaming` raises on an instance that stays connected, and the loop opens another. -/
theorem failed_streaming_leaks_a_session :
    ∃ s, Reaches (IbkrLifecycle.step [5]) (fun _ _ => True) .init s ∧
      s.aliveInstance 1 = true ∧ s.aliveInstance 4 = true := by
  obtain ⟨s, hrun, hs⟩ := Reaches.exists_of_execute (IbkrLifecycle.step [5]) (fun _ _ => True)
    .init [.start, .connectReply 0 true, .streamingReply 0 false, .loopStarts 2, .backoffOver 2,
      .connectReply 2 true]
    (fun s => s.aliveInstance 1 = true ∧ s.aliveInstance 4 = true) (by decide +kernel)
  exact ⟨s, hrun, of_decide_eq_true hs⟩

end PortfolioHub
