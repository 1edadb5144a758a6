import PortfolioHub.IbkrSeed
import PortfolioHub.IbkrSegments

namespace PortfolioHub

def Task.caller : Task → Option Caller
  | .connecting caller _ => some caller
  | .fetching caller _ => some caller
  | .subscribing caller _ _ _ _ => some caller
  | _ => none

namespace IbkrConnection

/-- The task is an attempt of a reconnect loop that has delays left. -/
def goesOn (s : IbkrConnection) (id : ℕ) : Bool :=
  match (s.tasks.get? id).bind Task.caller with
  | some (.reconnectLoop (_ :: _)) => true
  | _ => false

/-- The task is the last attempt of a reconnect loop. -/
def lastAttempt (s : IbkrConnection) (id : ℕ) : Bool :=
  (s.tasks.get? id).bind Task.caller = some (.reconnectLoop [])

/-- The subscription of the row raises. -/
def SubscribeFails (s : IbkrConnection) (p : Position) (subscription : Subscription) : Prop :=
  ¬ (subscription = .noContract ∨ isPermissionGated p.exchange = true) ∧
    (s.ib = none ∨ subscription = .fails)

instance (s : IbkrConnection) (p : Position) (subscription : Subscription) :
    Decidable (s.SubscribeFails p subscription) :=
  inferInstanceAs (Decidable (_ ∧ _))

/-- The step does none of these: `connect()` reaches its end although the held instance is
gone; a loop loses the held instance under CONNECTED and goes on; a schedule runs out under a
live instance that nobody is seeding from; a superseded instance is heard. -/
def Safe (delays : List ℚ) (s : IbkrConnection) : ConnectionEvent → Prop
  | .loopStarts _ => delays = [] → s.heldAlive = true → s.Seeding
  | .connectReply id ok => ok = false → s.lastAttempt id = true → s.heldAlive = true → s.Seeding
  | .positionsReply id reply =>
    match reply with
    | .error _ => s.goesOn id = true → s.state ≠ .connected
    | .ok rows => s.PassesThrough rows → s.heldAlive = true
  | .contractReply id subscription =>
    match s.tasks.get? id with
    | some (.subscribing _ _ p _ rest) =>
      if s.SubscribeFails p subscription then s.goesOn id = true → s.state ≠ .connected
      else s.PassesThrough rest → s.heldAlive = true
    | _ => True
  | .disconnectedEvent ib =>
    s.ib ≠ some ib → ∀ i ∈ s.instances.get? ib, i.registered = true → s.state = .reconnecting
  | _ => True

instance (delays : List ℚ) (s : IbkrConnection) (e : ConnectionEvent) :
    Decidable (s.Safe delays e) := by
  cases e with
  | positionsReply id reply =>
    cases reply <;> (unfold Safe; infer_instance)
  | contractReply id subscription =>
    unfold Safe
    dsimp only
    split <;> infer_instance
  | _ => unfold Safe; infer_instance

/-- With no connect or reconnect step pending the state tells whether the held instance lives. -/
def Agrees (s : IbkrConnection) : Prop :=
  s.tasks.keys = [] → (s.state = .connected ↔ s.heldAlive = true)

/-- The event of an instance that is not held changes nothing the adapter goes by. -/
def Ignores (delays : List ℚ) (s : IbkrConnection) (ib : ℕ) : Prop :=
  ∀ s', s.step delays (.disconnectedEvent ib) = some s' → s.ib ≠ some ib →
    s'.state = s.state ∧ s'.feed = s.feed ∧ s'.reconnectTask = s.reconnectTask

variable {delays : List ℚ} {s s' : IbkrConnection}

theorem Sound.agrees (hs : s.Sound) : s.Agrees := by
  intro hidle
  have hno : ∀ id t, s.tasks.get? id ≠ some t := by
    intro id t ht
    have hkey := OrderedDict.mem_keys_iff.mpr ⟨t, ht⟩
    simp [hidle] at hkey
  refine ⟨hs.kept.connected, fun halive => ?_⟩
  cases hstate : s.state with
  | connected => rfl
  | reconnecting =>
    obtain ⟨id, t, -, ht⟩ := hs.kept.reconnecting hstate
    exact absurd ht (hno id t)
  | disconnected =>
    obtain ⟨id, t, n, ht, -, -⟩ := seeding_iff.mp (hs.kept.disconnected hstate halive)
    exact absurd ht (hno id t)

theorem init_sound (live : LivePositions) : (init live).Sound where
  wired := {
    task_fresh := fun id t ht => by simp [init] at ht
    instance_fresh := fun n i hi => by simp [init] at hi
    reconnect_fresh := fun id hid => by simp [init] at hid
    reconnect_loop := fun id t hid => by simp [init] at hid
    held_registered := fun n hn => by simp [init] at hn
    not_disconnecting := rfl }
  kept := ⟨fun h => by simp [init] at h, fun h => by simp [init] at h,
    fun _ halive => by simp [init, heldAlive] at halive⟩

/-- A new instance is nobody's yet. -/
theorem beginConnect_sound (hw : s.Wired) (hk : s.Kept) {id : ℕ} (hid : id < s.nextId)
    {caller : Caller} (hloop : s.reconnectTask = some id → caller.isLoop = true)
    (hold : s.ib = none ∨ ∀ old, s.tasks.get? id = some old → old.session = none) :
    (s.beginConnect id caller).Sound := by
  have hother : ∀ n i, s.instances.get? n = some i →
      (s.instances.insert s.nextId ⟨false, false, false⟩).get? n = some i := by
    intro n i hi
    rw [OrderedDict.get?_insert_of_ne _ _ (hw.instance_fresh n i hi).ne, hi]
  have hset := hw.setTask (.connecting caller s.nextId) hid hloop
  have hkept : (s.setTask id (.connecting caller s.nextId)).Kept :=
    hk.setTask _ (hold.imp_right fun h old hget => Or.inl (h old hget))
  refine ⟨⟨?_, ?_, ?_, hset.reconnect_loop, ?_, hset.not_disconnecting⟩, ?_⟩
  · exact fun other t ht => Nat.lt_succ_of_lt (hset.task_fresh other t ht)
  · intro n i hi
    rw [beginConnect, OrderedDict.get?_insert] at hi
    split at hi
    next heq => exact heq ▸ Nat.lt_succ_self _
    next => exact Nat.lt_succ_of_lt (hw.instance_fresh n i hi)
  · exact fun other h => Nat.lt_succ_of_lt (hw.reconnect_fresh other h)
  · intro n hn
    obtain ⟨i, hi, hregistered⟩ := hw.held_registered n hn
    exact ⟨i, hother n i hi, hregistered⟩
  · have halive : (s.beginConnect id caller).heldAlive = true → s.heldAlive = true := by
      intro h
      obtain ⟨n, i, hn, hi, hlive⟩ := heldAlive_iff.mp h
      obtain ⟨j, hj, -⟩ := hw.held_registered n hn
      obtain rfl := Option.some.inj ((hother n j hj).symm.trans hi)
      exact heldAlive_iff.mpr ⟨n, j, hn, hj, hlive⟩
    refine ⟨fun h => ?_, hkept.reconnecting, fun h hlive => hkept.disconnected h (halive hlive)⟩
    obtain ⟨n, i, hn, hi, hlive⟩ := heldAlive_iff.mp (hk.connected h)
    exact heldAlive_iff.mpr ⟨n, i, hn, hother n i hi, hlive⟩

theorem retryNow_sound (hs : s.Sound) : s.retryNow.Sound := by
  unfold retryNow
  split
  next => exact hs
  next hstate =>
    obtain ⟨-, -, -, -, hsame, -, -⟩ := wakeupEvent_same s
    dsimp only
    have hw : Wired { s.wakeupEvent.2 with
        wakeups := s.wakeupEvent.2.wakeups.insert s.wakeupEvent.1 true } :=
      hs.wired.wakeupEvent.congr rfl rfl rfl rfl rfl (Nat.le_refl _)
    split
    next hd =>
      refine ⟨hw.handleDisconnect, kept_of_reconnecting (handleDisconnect_reconnecting hw ?_)⟩
      exact fun hr => absurd ((hsame.symm.trans hr).symm.trans hd) (by simp)
    next hd =>
      refine ⟨hw.ensureLoop, kept_of_reconnecting ⟨?_, ensureLoop_runs _⟩⟩
      rw [state_ensureLoop]
      dsimp only
      rw [hsame]
      cases h : s.state with
      | connected => exact absurd (Or.inr h) hstate
      | reconnecting => rfl
      | disconnected => exact absurd h hd

theorem attempt_sound (hs : s.Sound) {id : ℕ} {rest : List ℚ} {wakeup : ℕ}
    (htask : s.tasks.get? id = some (.backoff rest wakeup)) : (s.attempt id rest wakeup).Sound := by
  unfold attempt
  dsimp only
  split
  next hc =>
    exact ⟨(hs.wired.endTask id).congr rfl rfl rfl rfl rfl (Nat.le_refl _),
      kept_of_connected hc (hs.kept.connected hc)⟩
  next hc =>
    have hw : Wired { s with
        wakeups := s.wakeups.insert wakeup false
        ib := none
        feed := { s.feed with streaming := .empty } } :=
      ⟨hs.wired.task_fresh, hs.wired.instance_fresh, hs.wired.reconnect_fresh,
        hs.wired.reconnect_loop, fun n hn => by simp at hn, hs.wired.not_disconnecting⟩
    refine beginConnect_sound hw ⟨fun h => absurd h hc, hs.kept.reconnecting, ?_⟩
      (hs.wired.task_fresh id _ htask) (fun _ => rfl) (Or.inl rfl)
    exact fun _ halive => by simp [heldAlive] at halive

theorem connectReturned_sound (hs : s.Sound) {id : ℕ} {caller : Caller} {ib : ℕ}
    (htask : s.tasks.get? id = some (.connecting caller ib)) {i : IbInstance}
    (hi : s.instances.get? ib = some i) (hraised : i.raised = false) :
    (s.connectReturned id caller ib i).Sound := by
  have hset := hs.wired.setTask (.fetching caller ib) (hs.wired.task_fresh id _ htask)
    fun hid => by
      have hloop := hs.wired.reconnect_loop id (.connecting caller ib) hid htask
      exact hloop
  have halive : (s.connectReturned id caller ib i).heldAlive = true :=
    heldAlive_iff.mpr ⟨ib, { i with connected := true, registered := true }, rfl,
      by simp [connectReturned], by simp [IbInstance.alive, hraised]⟩
  refine ⟨⟨hset.task_fresh, ?_, hset.reconnect_fresh, hset.reconnect_loop, ?_,
    hset.not_disconnecting⟩, ?_⟩
  · intro n j hj
    rw [connectReturned, OrderedDict.get?_insert] at hj
    split at hj
    next heq => exact heq ▸ hs.wired.instance_fresh ib i hi
    next => exact hs.wired.instance_fresh n j hj
  · intro n hn
    obtain rfl := Option.some.inj hn
    exact ⟨{ i with connected := true, registered := true }, by simp [connectReturned], rfl⟩
  · refine ⟨fun _ => halive, fun h => (hs.kept.reconnecting h).setTask id _, fun _ _ => ?_⟩
    exact seeding_iff.mpr ⟨id, .fetching caller ib, ib,
      by simp [connectReturned, setTask], rfl, rfl⟩

theorem disconnectedEvent_sound (hs : s.Sound) {ib : ℕ} {i : IbInstance}
    (hi : s.instances.get? ib = some i) :
    (if i.registered then
        { s with instances := s.instances.insert ib { i with raised := true } }.handleDisconnect
      else { s with instances := s.instances.insert ib { i with raised := true } }).Sound := by
  have hw : Wired { s with instances := s.instances.insert ib { i with raised := true } } := by
    have h := hs.wired.modifyInstance ib (f := fun i => { i with raised := true }) fun _ _ h => h
    rwa [modifyInstance, hi] at h
  split
  next =>
    exact ⟨hw.handleDisconnect,
      kept_of_reconnecting (handleDisconnect_reconnecting hw hs.kept.reconnecting)⟩
  next hregistered =>
    -- the held instance is registered, so it is another one
    have halive : heldAlive { s with instances := s.instances.insert ib { i with raised := true } } =
        s.heldAlive := by
      unfold heldAlive
      dsimp only
      cases hn : s.ib with
      | none => rfl
      | some n =>
        have hne : n ≠ ib := by
          rintro rfl
          obtain ⟨j, hj, hreg⟩ := hs.wired.held_registered n hn
          obtain rfl := Option.some.inj (hi.symm.trans hj)
          exact hregistered hreg
        simp [OrderedDict.get?_insert_of_ne _ _ hne]
    exact ⟨hw, fun h => halive.trans (hs.kept.connected h), hs.kept.reconnecting,
      fun h hlive => hs.kept.disconnected h (halive.symm.trans hlive)⟩

theorem goesOn_of_loop {id : ℕ} {task : Task} (htask : s.tasks.get? id = some task)
    {delays : List ℚ} (hcaller : task.caller = some (.reconnectLoop delays)) (hne : delays ≠ []) :
    s.goesOn id = true := by
  cases delays with
  | nil => exact absurd rfl hne
  | cons delay rest => simp [goesOn, htask, hcaller]

/-- A safe step keeps what every state promises. -/
theorem step_sound (hs : s.Sound) {e : ConnectionEvent} (hsafe : s.Safe delays e)
    (hstep : s.step delays e = some s') : s'.Sound := by
  cases e with
  | start =>
    obtain rfl := Option.some.inj hstep
    have hw : Wired { s with nextId := s.nextId + 1 } :=
      hs.wired.congr rfl rfl rfl rfl rfl (Nat.le_succ _)
    have hk : Kept { s with nextId := s.nextId + 1 } := hs.kept.congr rfl rfl rfl rfl rfl
    refine beginConnect_sound hw hk (Nat.lt_succ_self _) (fun hid => ?_) (Or.inr fun old hget => ?_)
    · exact absurd (hs.wired.reconnect_fresh _ hid) (lt_irrefl _)
    · exact absurd (hs.wired.task_fresh _ old hget) (lt_irrefl _)
  | retryNow =>
    obtain rfl := Option.some.inj hstep
    exact retryNow_sound hs
  | loopStarts id =>
    simp only [step] at hstep
    split at hstep
    next htask =>
      obtain rfl := Option.some.inj hstep
      exact nextDelay_sound hs.wired htask (fun _ => ⟨hs.kept, Or.inr rfl⟩)
        fun hnil halive => ⟨hsafe hnil halive, rfl⟩
    next => simp at hstep
  | backoffOver id =>
    simp only [step] at hstep
    split at hstep
    next rest wakeup htask =>
      obtain rfl := Option.some.inj hstep
      exact attempt_sound hs htask
    next => simp at hstep
  | connectReply id ok =>
    simp only [step] at hstep
    split at hstep
    next caller ib htask =>
      cases ok with
      | true =>
        simp only [if_true] at hstep
        split at hstep
        next i hi =>
          split at hstep
          next => simp at hstep
          next hraised =>
            obtain rfl := Option.some.inj hstep
            exact connectReturned_sound hs htask hi (by simpa using hraised)
        next => simp at hstep
      | false =>
        obtain rfl := Option.some.inj hstep
        refine connectFailed_sound hs.wired hs.kept.reconnecting htask rfl
          (fun _ _ _ => ⟨hs.kept, Or.inr rfl⟩) fun hlast halive => ?_
        exact ⟨hsafe rfl (by simp [lastAttempt, htask, Task.caller, hlast]) halive, rfl⟩
    next => simp at hstep
  | positionsReply id reply =>
    simp only [step] at hstep
    split at hstep
    next caller ib htask =>
      cases reply with
      | error err =>
        obtain rfl := Option.some.inj hstep
        refine streamingFailed_sound hs htask rfl (fun delays hloop hne => ?_) ib
        exact hsafe (goesOn_of_loop htask (congrArg some hloop) hne)
      | ok rows =>
        obtain rfl := Option.some.inj hstep
        exact seedNext_sound hs htask rfl rfl hsafe
    next => simp at hstep
  | contractReply id subscription =>
    simp only [step] at hstep
    split at hstep
    next caller ib p conId rest htask =>
      obtain rfl := Option.some.inj hstep
      simp only [Safe, htask] at hsafe
      unfold contractReturned
      split
      next hnone =>
        rw [if_neg fun h : s.SubscribeFails p subscription => h.1 hnone] at hsafe
        exact seedNext_sound hs htask rfl rfl hsafe
      next hsome =>
        split
        next hfails =>
          rw [if_pos ⟨hsome, hfails⟩] at hsafe
          refine streamingFailed_sound hs htask rfl (fun delays hloop hne => ?_) ib
          exact hsafe (goesOn_of_loop htask (congrArg some hloop) hne)
        next hfine =>
          rw [if_neg fun h : s.SubscribeFails p subscription => hfine h.2] at hsafe
          have hs' : Sound { s with
              feed := { s.feed with streaming := s.feed.streaming.insert conId p } } :=
            ⟨hs.wired.congr rfl rfl rfl rfl rfl (Nat.le_refl _), hs.kept.congr rfl rfl rfl rfl rfl⟩
          exact seedNext_sound hs' htask rfl rfl hsafe
    next => simp at hstep
  | disconnectedEvent ib =>
    simp only [step] at hstep
    split at hstep
    next i hi =>
      obtain rfl := Option.some.inj hstep
      exact disconnectedEvent_sound hs hi
    next => simp at hstep

theorem ignores_of_safe {ib : ℕ} (hsafe : s.Safe delays (.disconnectedEvent ib)) :
    s.Ignores delays ib := by
  intro s' hstep hheld
  simp only [step] at hstep
  split at hstep
  next i hi =>
    obtain rfl := Option.some.inj hstep
    split
    next hregistered =>
      have hstate := hsafe hheld i hi hregistered
      rw [handleDisconnect, if_pos (Or.inr hstate)]
      exact ⟨rfl, rfl, rfl⟩
    next => exact ⟨rfl, rfl, rfl⟩
  next => simp at hstep

/-- In every run of safe steps the state agrees with the held instance whenever nothing is
pending, and superseded instances are not heard. -/
theorem connection_agreement {live : LivePositions}
    (h : Reaches (step delays) (Safe delays) (init live) s) :
    s.Agrees ∧ ∀ ib, s.Safe delays (.disconnectedEvent ib) → s.Ignores delays ib := by
  have hs : s.Sound := h.invariant (I := Sound) (init_sound live)
    fun _ _ _ hs hsafe hstep => step_sound hs hsafe hstep
  exact ⟨hs.agrees, fun _ hsafe => ignores_of_safe hsafe⟩

/-- What a session answers that holds one Apple share. -/
def sampleRows : Except Python.Error (List Position) :=
  (sampleReplies [sampleIbPosition "U1"] []).getPositions sampleView

/-- The first connect fails, the operator retries, and later the gateway restarts. -/
theorem restart_recovers :
    ∃ s, Reaches (step [1, 5]) (Safe [1, 5]) (init .empty) s ∧ s.tasks.keys = [] ∧
      s.ib = some 7 ∧ s.state = .connected ∧ s.heldAlive = true := by
  obtain ⟨s, hs, hp⟩ := Reaches.exists_of_execute (step [1, 5]) (Safe [1, 5]) (init .empty)
    [.start, .connectReply 0 false, .loopStarts 2, .retryNow, .backoffOver 2,
      .connectReply 2 true, .positionsReply 2 sampleRows, .contractReply 2 .ticker,
      .disconnectedEvent 4, .loopStarts 5, .backoffOver 5, .connectReply 5 true,
      .positionsReply 5 sampleRows, .contractReply 5 .ticker]
    (fun s => s.tasks.keys = [] ∧ s.ib = some 7 ∧ s.state = .connected) (by decide +kernel)
  obtain ⟨hidle, hib, hstate⟩ := of_decide_eq_true hp
  exact ⟨s, hs, hidle, hib, hstate, ((connection_agreement hs).1 hidle).mp hstate⟩

/-- The session drops during the contract lookup of the boot: the lookup finds nothing,
`connect()` goes on to CONNECTED, and the reconnect loop leaves it at that. -/
theorem drop_while_seeding_is_overlooked :
    ¬ ∀ (delays : List ℚ) (live : LivePositions) (s : IbkrConnection),
      Reaches (step delays) (fun _ _ => True) (init live) s →
        s.Agrees ∧ ∀ ib, s.Ignores delays ib := by
  intro hall
  obtain ⟨s, hs, hp⟩ := Reaches.exists_of_execute (step [1, 5]) (fun _ _ => True) (init .empty)
    [.start, .connectReply 0 true, .positionsReply 0 sampleRows, .disconnectedEvent 1,
      .contractReply 0 .noContract, .loopStarts 2, .backoffOver 2]
    (fun s => s.tasks.keys = [] ∧ s.state = .connected ∧ s.heldAlive = false)
    (by decide +kernel)
  obtain ⟨hidle, hstate, hdead⟩ := of_decide_eq_true hp
  have halive := ((hall [1, 5] .empty s hs).1 hidle).mp hstate
  simp [hdead] at halive

end IbkrConnection

end PortfolioHub
