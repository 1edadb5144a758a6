import PortfolioHub.IbkrReconnect

namespace PortfolioHub

/-- A running `start()` or `connect()`. -/
def Coroutine.isCall : Coroutine → Bool
  | .connecting awaiter _ => !awaiter.isLoop
  | .streaming awaiter _ => !awaiter.isLoop
  | _ => false

theorem Coroutine.kinds (c : Coroutine) :
    c.isLoop = true ∨ c.isCall = true ∨ c.isDisconnect = true := by
  cases c with
  | created => exact Or.inl rfl
  | backoff rest wakeup => exact Or.inl rfl
  | connecting awaiter ib => cases awaiter <;> simp [isLoop, isCall, Awaiter.isLoop]
  | streaming awaiter ib => cases awaiter <;> simp [isLoop, isCall, Awaiter.isLoop]
  | stopping loop => exact Or.inr (Or.inr rfl)
  | draining => exact Or.inr (Or.inr rfl)

/-- A call that may open a connection. -/
def LifecycleEvent.IsCall (e : LifecycleEvent) : Prop := e = .start ∨ e = .connect ∨ e = .retryNow

instance (e : LifecycleEvent) : Decidable e.IsCall :=
  inferInstanceAs (Decidable (e = .start ∨ e = .connect ∨ e = .retryNow))

namespace IbkrLifecycle

def CallInFlight (s : IbkrLifecycle) : Prop := s.Has fun c => c.isCall = true

instance (s : IbkrLifecycle) : Decidable s.CallInFlight :=
  inferInstanceAs (Decidable (s.Has fun c => c.isCall = true))

/-- Nothing runs any more but calls of `disconnect()` and loops on their last turn. -/
def Subsided (s : IbkrLifecycle) : Prop :=
  ∀ id ∈ s.coroutines.keys, id ∈ s.cancelled ∨
    ((s.coroutines.get? id).map Coroutine.isDisconnect).getD false = true

instance (s : IbkrLifecycle) : Decidable s.Subsided :=
  inferInstanceAs (Decidable (∀ id ∈ s.coroutines.keys, id ∈ s.cancelled ∨
    ((s.coroutines.get? id).map Coroutine.isDisconnect).getD false = true))

theorem subsided_iff {s : IbkrLifecycle} :
    s.Subsided ↔ ∀ id c, s.coroutines.get? id = some c →
      id ∈ s.cancelled ∨ c.isDisconnect = true := by
  constructor
  · intro h id c hc
    simpa [hc] using h id (OrderedDict.mem_keys_iff.mpr ⟨c, hc⟩)
  · intro h id hid
    obtain ⟨c, hc⟩ := OrderedDict.mem_keys_iff.mp hid
    simpa [hc] using h id c hc

/-- At rest: nothing runs, no instance is held and the state is DISCONNECTED. -/
structure Quiet (s : IbkrLifecycle) : Prop where
  subsided : s.Subsided
  ib : s.ib = none
  state : s.state = .disconnected

instance (s : IbkrLifecycle) : Decidable s.Quiet :=
  decidable_of_iff (s.Subsided ∧ s.ib = none ∧ s.state = .disconnected)
    ⟨fun h => ⟨h.1, h.2.1, h.2.2⟩, fun h => ⟨h.subsided, h.ib, h.state⟩⟩

/-- No `start()` or `connect()` overlaps a `disconnect()`; a `retry_now()` that does finds the
flag still up; and at rest no instance that was let go of unclosed raises its event. -/
def Orderly (s : IbkrLifecycle) : LifecycleEvent → Prop
  | .start => ¬ s.DisconnectInFlight
  | .connect => ¬ s.DisconnectInFlight
  | .retryNow => s.DisconnectInFlight → s.disconnecting = true
  | .disconnect _ _ => ¬ s.CallInFlight
  | .disconnectedEvent ib => s.Quiet → ∀ i ∈ s.instances.get? ib, i.registered = false
  | _ => True

instance (s : IbkrLifecycle) : (e : LifecycleEvent) → Decidable (s.Orderly e)
  | .start => inferInstanceAs (Decidable (¬ s.DisconnectInFlight))
  | .connect => inferInstanceAs (Decidable (¬ s.DisconnectInFlight))
  | .retryNow => inferInstanceAs (Decidable (s.DisconnectInFlight → s.disconnecting = true))
  | .disconnect _ _ => inferInstanceAs (Decidable (¬ s.CallInFlight))
  | .loopStarts _ => inferInstanceAs (Decidable True)
  | .backoffOver _ => inferInstanceAs (Decidable True)
  | .connectReply _ _ => inferInstanceAs (Decidable True)
  | .streamingReply _ _ => inferInstanceAs (Decidable True)
  | .disconnectedEvent ib =>
    inferInstanceAs (Decidable (s.Quiet → ∀ i ∈ s.instances.get? ib, i.registered = false))
  | .cancelDelivered _ => inferInstanceAs (Decidable True)
  | .loopAwaited _ _ _ => inferInstanceAs (Decidable True)
  | .writesDrained _ _ => inferInstanceAs (Decidable True)

/-- A `disconnect()` returns in the step. -/
def Returns (s t : IbkrLifecycle) : LifecycleEvent → Prop
  | .disconnect _ _ => t.coroutines.get? s.nextId = none
  | .loopAwaited id _ _ => t.coroutines.get? id = none
  | .writesDrained id _ => t.coroutines.get? id = none
  | _ => False

variable {delays : List ℚ} {s t : IbkrLifecycle}

/-- With the flag up or no instance held, the last part of a `disconnect()` starts nothing. -/
theorem teardown_eq (h : s.disconnecting = true ∨ s.ib = none) (emits : Bool) :
    ∃ instances, s.teardown emits = { s with
      instances := instances, ib := none, state := .disconnected, reconnectWakeup := none,
      disconnecting := false } ∧ instances.keys = s.instances.keys := by
  unfold teardown closeHeld
  split
  next => exact ⟨s.instances, rfl, rfl⟩
  next ib i hheld =>
    obtain ⟨held, hib, -⟩ := Option.bind_eq_some_iff.mp hheld
    have hflag : s.disconnecting = true := h.resolve_right (by simp [hib])
    obtain ⟨instances, heq, hkeys, -⟩ := modifyInstance_eq s ib fun i => { i with raised := true }
    have hhandler : handleDisconnect { s with instances := instances } =
        { s with instances := instances } := if_pos (Or.inl hflag)
    dsimp only
    rw [heq, hhandler, ite_self]
    exact ⟨instances, rfl, hkeys⟩

/-- Nothing new runs and nothing is opened or held; the flag does not drop. -/
structure Still (s t : IbkrLifecycle) : Prop where
  subsided : t.Subsided
  keys : t.instances.keys = s.instances.keys
  ib : t.ib = s.ib
  state : t.state = s.state
  disconnecting : s.disconnecting = true → t.disconnecting = true

theorem Still.quiet (h : s.Still t) (hquiet : s.Quiet) : t.Quiet :=
  ⟨h.subsided, h.ib.trans hquiet.ib, h.state.trans hquiet.state⟩

theorem Subsided.congr (h : s.Subsided) (hcoroutines : t.coroutines = s.coroutines)
    (hcancelled : t.cancelled = s.cancelled) : t.Subsided := by
  unfold Subsided
  rw [hcoroutines, hcancelled]
  exact h

theorem Subsided.endCoroutine (h : s.Subsided) (id : ℕ) : (s.endCoroutine id).Subsided := by
  refine subsided_iff.mpr fun j c hc => ?_
  rw [get?_endCoroutine] at hc
  split at hc
  next => cases hc
  next => exact subsided_iff.mp h j c hc

theorem Subsided.setCoroutine (h : s.Subsided) {id : ℕ} {c : Coroutine}
    (hc : c.isDisconnect = true) : (s.setCoroutine id c).Subsided := by
  refine subsided_iff.mpr fun j d hd => ?_
  rw [get?_setCoroutine] at hd
  split at hd
  next =>
    obtain rfl := Option.some.inj hd
    exact Or.inr hc
  next => exact subsided_iff.mp h j d hd

theorem Subsided.isDisconnect (h : s.Subsided) {id : ℕ} {c : Coroutine}
    (hc : s.running id = some c) : c.isDisconnect = true :=
  have hrunning := running_eq_some.mp hc
  (subsided_iff.mp h id c hrunning.2).resolve_left hrunning.1

/-- Behind its last `await` a `disconnect()` leaves the adapter at rest. -/
theorem Subsided.teardown (h : s.Subsided) (hflag : s.disconnecting = true ∨ s.ib = none)
    (emits : Bool) :
    (s.teardown emits).Quiet ∧ (s.teardown emits).instances.keys = s.instances.keys := by
  obtain ⟨instances, heq, hkeys⟩ := teardown_eq hflag emits
  rw [heq]
  exact ⟨⟨h.congr rfl rfl, rfl, rfl⟩, hkeys⟩

/-- Whatever is not a part of a `disconnect()` does nothing once all loops are cancelled. -/
theorem Subsided.step_still (h : s.Subsided) (hflag : s.disconnecting = true ∨ s.Quiet)
    {e : LifecycleEvent} (hstart : e ≠ .start) (hconnect : e ≠ .connect)
    (hretry : e = .retryNow → s.disconnecting = true) (hguard : s.Orderly e)
    (he : e.disconnects = false) (hstep : step delays s e = some t) : s.Still t := by
  have hsame : s.Still s := ⟨h, rfl, rfl, rfl, fun h => h⟩
  cases e with
  | start => exact absurd rfl hstart
  | connect => exact absurd rfl hconnect
  | retryNow =>
    obtain rfl := Option.some.inj hstep
    have hnoop : s.retryNow = s := if_pos (Or.inl (hretry rfl))
    rw [hnoop]
    exact hsame
  | disconnect pendingWrites emits => cases he
  | loopStarts id =>
    simp only [step] at hstep
    split at hstep
    next hrunning => cases h.isDisconnect hrunning
    next => cases hstep
  | backoffOver id =>
    simp only [step] at hstep
    split at hstep
    next hrunning => cases h.isDisconnect hrunning
    next => cases hstep
  | connectReply id ok =>
    simp only [step] at hstep
    split at hstep
    next hrunning => cases h.isDisconnect hrunning
    next => cases hstep
  | streamingReply id ok =>
    simp only [step] at hstep
    split at hstep
    next hrunning => cases h.isDisconnect hrunning
    next => cases hstep
  | disconnectedEvent ib =>
    simp only [step] at hstep
    split at hstep
    next i hi =>
      split at hstep
      next => cases hstep
      next =>
        have hdropped : s.Still { s with
            instances := s.instances.insert ib { i with raised := true } } :=
          ⟨h.congr rfl rfl, keys_insert_of_get? hi _, rfl, rfl, fun h => h⟩
        obtain rfl := Option.some.inj hstep
        rcases hflag with hup | hquiet
        · have hhandler : handleDisconnect { s with
              instances := s.instances.insert ib { i with raised := true } } =
              { s with instances := s.instances.insert ib { i with raised := true } } :=
            if_pos (Or.inl hup)
          rw [hhandler, ite_self]
          exact hdropped
        · rw [if_neg (by simp [hguard hquiet i hi])]
          exact hdropped
    next => cases hstep
  | cancelDelivered id =>
    simp only [step] at hstep
    split at hstep
    next c hc =>
      split at hstep
      next =>
        have hend := h.endCoroutine id
        obtain rfl := Option.some.inj hstep
        unfold IbkrLifecycle.cancelDelivered
        split
        next => exact ⟨hend, rfl, rfl, rfl, fun h => h⟩
        next => exact ⟨hend.congr rfl rfl, rfl, rfl, rfl, fun h => h⟩
        next => exact ⟨hend.congr rfl rfl, rfl, rfl, rfl, fun h => h⟩
      next => cases hstep
    next => cases hstep
  | loopAwaited id pendingWrites emits => cases he
  | writesDrained id emits => cases he

/-- The first part of a `disconnect()`: the only loop that is not cancelled is. -/
theorem Owned.disconnect (howned : s.Owned) (hcalls : ¬ s.CallInFlight)
    (pendingWrites emits : Bool) :
    s.Still (s.disconnect pendingWrites emits) ∧
        (s.disconnect pendingWrites emits).disconnecting = true ∧
        (s.disconnect pendingWrites emits).coroutines.get? s.nextId ≠ none ∨
      (s.disconnect pendingWrites emits).Quiet ∧
        (s.disconnect pendingWrites emits).instances.keys = s.instances.keys := by
  have hkinds : ∀ id c, s.coroutines.get? id = some c →
      s.reconnectTask = some id ∨ id ∈ s.cancelled ∨ c.isDisconnect = true := by
    intro id c hc
    rcases c.kinds with hloop | hcall | hdisconnect
    · exact (howned.loop id c hc hloop).imp_right Or.inl
    · exact absurd ⟨id, c, hc, hcall⟩ hcalls
    · exact Or.inr (Or.inr hdisconnect)
  unfold IbkrLifecycle.disconnect
  dsimp only
  split
  next loop hfilter =>
    obtain ⟨htask, -⟩ := Option.filter_eq_some_iff.mp hfilter
    refine Or.inl ⟨⟨subsided_iff.mpr fun j c hc => ?_, rfl, rfl, rfl, fun _ => rfl⟩, rfl, ?_⟩
    · have hc' := (get?_setCoroutine s s.nextId (.stopping loop) j).symm.trans hc
      split at hc'
      next =>
        obtain rfl := Option.some.inj hc'
        exact Or.inr rfl
      next =>
        rcases hkinds j c hc' with htask' | hcancelled | hdisconnect
        · obtain rfl := Option.some.inj (htask.symm.trans htask')
          exact Or.inl List.mem_cons_self
        · exact Or.inl (List.mem_cons_of_mem _ hcancelled)
        · exact Or.inr hdisconnect
    · have hstopping := (get?_setCoroutine s s.nextId (.stopping loop) s.nextId).trans (if_pos rfl)
      exact ne_of_eq_of_ne hstopping (Option.some_ne_none _)
  next hfilter =>
    have hsubsided : s.Subsided := by
      refine subsided_iff.mpr fun j c hc => (hkinds j c hc).resolve_left fun htask => ?_
      have hdone := Option.filter_eq_none_iff.mp hfilter j htask
      exact hdone (decide_eq_true (OrderedDict.mem_keys_iff.mpr ⟨c, hc⟩))
    have hbegun : Subsided { s with
        disconnecting := true
        reconnectTask := none
        reconnectWakeup := none
        nextId := s.nextId + 1 } := hsubsided.congr rfl rfl
    split
    next =>
      refine Or.inl ⟨⟨hbegun.setCoroutine rfl, rfl, rfl, rfl, fun _ => rfl⟩, rfl, ?_⟩
      have hdraining := (get?_setCoroutine s s.nextId .draining s.nextId).trans (if_pos rfl)
      exact ne_of_eq_of_ne hdraining (Option.some_ne_none _)
    next => exact Or.inr (hbegun.teardown (Or.inl rfl) emits)

/-- A part of a `disconnect()`: it goes on waiting, or returns and leaves the adapter at rest. -/
theorem step_disconnects (howned : s.Owned) {e : LifecycleEvent} (he : e.disconnects = true)
    (hguard : s.Orderly e) (hsubsided : s.DisconnectInFlight → s.Subsided)
    (hflag : s.DisconnectInFlight → s.disconnecting = true ∨ s.Quiet)
    (hstep : step delays s e = some t) :
    s.Still t ∧ (t.disconnecting = true ∨ t.Quiet) ∧ ¬ Returns s t e ∨
      t.Quiet ∧ t.instances.keys = s.instances.keys := by
  have hheld : s.DisconnectInFlight → s.disconnecting = true ∨ s.ib = none :=
    fun hinFlight => (hflag hinFlight).imp_right Quiet.ib
  cases e with
  | disconnect pendingWrites emits =>
    obtain rfl := Option.some.inj hstep
    rcases howned.disconnect hguard pendingWrites emits with ⟨hstill, hup, hwaits⟩ | hrest
    · exact Or.inl ⟨hstill, Or.inl hup, hwaits⟩
    · exact Or.inr hrest
  | loopAwaited id pendingWrites emits =>
    simp only [step] at hstep
    split at hstep
    next loop hc =>
      have hinFlight : s.DisconnectInFlight := ⟨id, _, hc, rfl⟩
      have hs' : Subsided { s with reconnectWakeup := none } :=
        (hsubsided hinFlight).congr rfl rfl
      split at hstep
      next => cases hstep
      next =>
        split at hstep
        next =>
          obtain rfl := Option.some.inj hstep
          have hstill : s.Still
              (({ s with reconnectWakeup := none } : IbkrLifecycle).setCoroutine id .draining) :=
            ⟨hs'.setCoroutine rfl, rfl, rfl, rfl, fun h => h⟩
          refine Or.inl ⟨hstill, (hflag hinFlight).imp hstill.disconnecting hstill.quiet, ?_⟩
          have hdraining := (get?_setCoroutine s id .draining id).trans (if_pos rfl)
          exact fun hreturns => Option.some_ne_none _ (hdraining.symm.trans hreturns)
        next =>
          obtain rfl := Option.some.inj hstep
          exact Or.inr ((hs'.endCoroutine id).teardown (hheld hinFlight) emits)
    next => cases hstep
  | writesDrained id emits =>
    simp only [step] at hstep
    split at hstep
    next hc =>
      have hinFlight : s.DisconnectInFlight := ⟨id, _, hc, rfl⟩
      obtain rfl := Option.some.inj hstep
      exact Or.inr (((hsubsided hinFlight).endCoroutine id).teardown (hheld hinFlight) emits)
    next => cases hstep
  | _ => cases he

/-- While a `disconnect()` is in progress nothing else runs on, and where its flag is down
another one has left the adapter at rest. -/
structure Settles (s : IbkrLifecycle) : Prop where
  tended : s.Tended
  subsided : s.DisconnectInFlight → s.Subsided
  flag : s.DisconnectInFlight → s.disconnecting = true ∨ s.Quiet

theorem init_settles : init.Settles := by
  refine ⟨init_tended, ?_, ?_⟩
  · rintro ⟨id, c, hc, -⟩
    cases hc
  · rintro ⟨id, c, hc, -⟩
    cases hc

theorem Touches.disconnectInFlight {subject : Option ℕ}
    (h : Touches (fun c => c.isDisconnect = false) s t subject)
    (ht : t.DisconnectInFlight) : s.DisconnectInFlight := by
  obtain ⟨id, c, hc, hkind⟩ := ht
  rcases h.coroutines id with heq | ⟨-, hnew⟩
  · exact ⟨id, c, heq.symm.trans hc, hkind⟩
  · exact absurd (hkind.symm.trans (hnew c hc)) (by simp)

theorem step_settles {e : LifecycleEvent} (h : s.Settles) (hguard : s.Orderly e)
    (hstep : step delays s e = some t) : t.Settles := by
  have hrest : t.DisconnectInFlight → t.Subsided ∧ (t.disconnecting = true ∨ t.Quiet) := by
    intro ht
    cases he : e.disconnects with
    | false =>
      have hs := (step_touches he hstep).disconnectInFlight ht
      have hstill : s.Still t := by
        refine (h.subsided hs).step_still (h.flag hs) ?_ ?_ ?_ hguard he hstep
        · rintro rfl
          exact hguard hs
        · rintro rfl
          exact hguard hs
        · rintro rfl
          exact hguard hs
      exact ⟨hstill.subsided, (h.flag hs).imp hstill.disconnecting hstill.quiet⟩
    | true =>
      rcases step_disconnects h.tended.owned he hguard h.subsided h.flag hstep with
        ⟨hstill, hflag, -⟩ | ⟨hquiet, -⟩
      · exact ⟨hstill.subsided, hflag⟩
      · exact ⟨hquiet.subsided, Or.inr hquiet⟩
  exact ⟨step_tended h.tended hstep, fun ht => (hrest ht).1, fun ht => (hrest ht).2⟩

/-- At rest the adapter stays, until it is called. -/
theorem Quiet.step {e : LifecycleEvent} (h : s.Quiet) (htended : s.Tended) (hguard : s.Orderly e)
    (hcall : ¬ e.IsCall) (hstep : step delays s e = some t) :
    t.Quiet ∧ t.instances.keys = s.instances.keys := by
  unfold LifecycleEvent.IsCall at hcall
  push Not at hcall
  obtain ⟨hstart, hconnect, hretry⟩ := hcall
  cases he : e.disconnects with
  | false =>
    have hstill := h.subsided.step_still (Or.inr h) hstart hconnect (fun h => absurd h hretry)
      hguard he hstep
    exact ⟨hstill.quiet h, hstill.keys⟩
  | true =>
    rcases step_disconnects htended.owned he hguard (fun _ => h.subsided) (fun _ => Or.inr h)
      hstep with ⟨hstill, -, -⟩ | hrest
    · exact ⟨hstill.quiet h, hstill.keys⟩
    · exact hrest

end IbkrLifecycle

/-- In every orderly run, once a `disconnect()` has returned no connection attempt is made and
the adapter does not become CONNECTED until it is called again. -/
theorem disconnect_is_final {delays : List ℚ} {s t u : IbkrLifecycle} {e : LifecycleEvent}
    (hrun : Reaches (IbkrLifecycle.step delays) IbkrLifecycle.Orderly .init s)
    (hguard : s.Orderly e) (hstep : IbkrLifecycle.step delays s e = some t)
    (hreturns : IbkrLifecycle.Returns s t e)
    (hlater : Reaches (IbkrLifecycle.step delays) (fun s e => s.Orderly e ∧ ¬ e.IsCall) t u) :
    u.state ≠ .connected ∧ u.instances.keys = t.instances.keys := by
  have hsettles : s.Settles := hrun.invariant IbkrLifecycle.init_settles
    fun _ _ _ h hguard hstep => IbkrLifecycle.step_settles h hguard hstep
  have hquiet : t.Quiet := by
    have he : e.disconnects = true := by
      cases e with
      | disconnect pendingWrites emits => rfl
      | loopAwaited id pendingWrites emits => rfl
      | writesDrained id emits => rfl
      | _ => exact hreturns.elim
    rcases IbkrLifecycle.step_disconnects hsettles.tended.owned he hguard hsettles.subsided
      hsettles.flag hstep with ⟨-, -, hwaits⟩ | ⟨hquiet, -⟩
    · exact absurd hreturns hwaits
    · exact hquiet
  have hrest : u.Tended ∧ u.Quiet ∧ u.instances.keys = t.instances.keys := by
    refine hlater.invariant (I := fun v => v.Tended ∧ v.Quiet ∧ v.instances.keys = t.instances.keys)
      ⟨IbkrLifecycle.step_tended hsettles.tended hstep, hquiet, rfl⟩ ?_
    rintro v e w ⟨htended, hv, hkeys⟩ ⟨hguard, hcall⟩ hstep
    obtain ⟨hw, hsame⟩ := hv.step htended hguard hcall hstep
    exact ⟨IbkrLifecycle.step_tended htended hstep, hw, hsame.trans hkeys⟩
  obtain ⟨-, hu, hkeys⟩ := hrest
  refine ⟨?_, hkeys⟩
  rw [hu.state]
  decide

/-- A `disconnect()` that cancels a waiting loop; what the failed instance does later is no
matter. -/
theorem disconnect_ends_the_loop :
    ∃ s t u : IbkrLifecycle, Reaches (IbkrLifecycle.step [5]) IbkrLifecycle.Orderly .init s ∧
      IbkrLifecycle.step [5] s (.loopAwaited 4 false true) = some t ∧
      u.state ≠ .connected ∧ u.instances.keys = t.instances.keys := by
  obtain ⟨s, hrun, hs⟩ := Reaches.exists_of_execute (IbkrLifecycle.step [5]) IbkrLifecycle.Orderly
    .init [.start, .connectReply 0 false, .loopStarts 2, .disconnect false true, .cancelDelivered 2]
    (fun s => (IbkrLifecycle.step [5] s (.loopAwaited 4 false true)).any fun t =>
      t.coroutines.get? 4 = none ∧
        (execute (restrict (IbkrLifecycle.step [5]) fun s e => s.Orderly e ∧ ¬ e.IsCall) t
          [.disconnectedEvent 1]).isSome = true) (by decide +kernel)
  obtain ⟨t, hstep, ht⟩ := (Option.any_eq_true _ _).mp hs
  obtain ⟨hreturns, hlater⟩ := of_decide_eq_true ht
  obtain ⟨u, hu⟩ := Option.isSome_iff_exists.mp hlater
  exact ⟨s, t, u, hrun, hstep,
    disconnect_is_final (e := .loopAwaited 4 false true) hrun trivial hstep hreturns
      (Reaches.of_execute hu)⟩

/-- A `start()` that still waits for the gateway when `disconnect()` returns. -/
theorem pending_start_outlives_disconnect :
    ∃ s t u : IbkrLifecycle, Reaches (IbkrLifecycle.step [5]) (fun _ _ => True) .init s ∧
      IbkrLifecycle.step [5] s (.disconnect false false) = some t ∧
      IbkrLifecycle.Returns s t (.disconnect false false) ∧
      Reaches (IbkrLifecycle.step [5]) (fun _ e => ¬ e.IsCall) t u ∧ u.state = .connected := by
  obtain ⟨u, hlater, hu⟩ := Reaches.exists_of_execute (IbkrLifecycle.step [5])
    (fun _ e => ¬ e.IsCall) ((IbkrLifecycle.init.call .start).disconnect false false)
    [.connectReply 0 true, .streamingReply 0 true] (fun u => u.state = .connected)
    (by decide +kernel)
  exact ⟨IbkrLifecycle.init.call .start, _, u, .single ⟨.start, trivial, rfl⟩, rfl, rfl, hlater,
    of_decide_eq_true hu⟩

end PortfolioHub
