import PortfolioHub.StreamUpdates

namespace PortfolioHub

/-- A snapshot or a delta as it was produced: when, and with which rows in the store. -/
structure Emission where
  producedAt : ℚ
  event : SseEvent
  store : LivePositions

/-- The clients of one store, the latest reading of the clock, what each generator has produced,
the latest first, and for one that sleeps when its sleep is over. -/
structure TimedStream where
  stream : StreamState
  clock : ℚ
  emissions : ℕ → List Emission
  wakeAt : ℕ → ℚ

/-- A step, and the time when it is done. -/
structure TimedStep where
  step : StreamStep
  done : ℚ

/-- What the turn of a client has produced; heartbeats are not kept. -/
def Client.produced (c : Client) (live : LivePositions) (done : ℚ) : List Emission :=
  match c.phase with
  | .yielded .heartbeat _ => []
  | .yielded event _ => [⟨done, event, live⟩]
  | .waiting => []
  | .woken => []
  | .throttled => []

namespace TimedStream

def start (live : LivePositions) (clock : ℚ) : TimedStream :=
  ⟨⟨live, .empty⟩, clock, fun _ => [], fun _ => clock⟩

/-- What the client's turn has produced. -/
def produced (stream : StreamState) (client : ℕ) (done : ℚ) : List Emission :=
  (stream.clients.get? client).elim [] fun c => c.produced stream.live done

/-- The end of `sleep(min_interval - elapsed)`, where `elapsed` is taken at the reading `now`. -/
def sleepEnd (config : StreamConfig) (stream : StreamState) (client : ℕ) (now : ℚ) : ℚ :=
  (stream.clients.get? client).elim now fun c => now + (config.minInterval - (now - c.lastEmit))

/-- A generator that connects starts a new record. -/
def next (config : StreamConfig) (t : TimedStream) (e : TimedStep) : Option TimedStream :=
  (t.stream.step config e.step).map fun stream =>
    { stream := stream
      clock := e.done
      emissions := match e.step with
        | .connect client => Function.update t.emissions client (produced stream client e.done)
        | .resume client _ _ | .slept client _ => Function.update t.emissions client
            (produced stream client e.done ++ t.emissions client)
        | .mutate _ | .timeout _ | .close _ => t.emissions
      wakeAt := match e.step with
        | .resume client _ now | .slept client now => Function.update t.wakeAt client
            (sleepEnd config stream client now)
        | .mutate _ | .connect _ | .timeout _ | .close _ => t.wakeAt }

/-- The clock does not run back, and no sleep ends early. -/
def Timely (t : TimedStream) (e : TimedStep) : Prop :=
  match e.step with
  | .resume _ emitted now => t.clock ≤ emitted ∧ emitted ≤ now ∧ now ≤ e.done
  | .slept client now => t.clock ≤ now ∧ t.wakeAt client ≤ now ∧ now ≤ e.done
  | .mutate _ | .connect _ | .timeout _ | .close _ => t.clock ≤ e.done

instance (t : TimedStream) : (e : TimedStep) → Decidable (t.Timely e)
  | ⟨.resume _ _ _, _⟩ => inferInstanceAs (Decidable (_ ∧ _ ∧ _))
  | ⟨.slept _ _, _⟩ => inferInstanceAs (Decidable (_ ∧ _ ∧ _))
  | ⟨.mutate _, _⟩ => inferInstanceAs (Decidable (_ ≤ _))
  | ⟨.connect _, _⟩ => inferInstanceAs (Decidable (_ ≤ _))
  | ⟨.timeout _, _⟩ => inferInstanceAs (Decidable (_ ≤ _))
  | ⟨.close _, _⟩ => inferInstanceAs (Decidable (_ ≤ _))

end TimedStream

namespace Emission

/-- The event carries the rows of the store at the moment it was produced. -/
def Renders (config : StreamConfig) (e : Emission) : Prop :=
  ∃ data, config.renderRows e.store.getAll = .ok data ∧
    (e.event = .snapshot data ∨ e.event = .positions data)

/-- A delta comes an interval after what was produced before it, or later, and shows other
hashes. -/
def Follows (config : StreamConfig) (e before : Emission) : Prop :=
  (∃ data, e.event = .positions data) ∧ before.producedAt + config.minInterval ≤ e.producedAt ∧
    ¬ e.store.hashes.Same before.store.hashes

/-- The record of a generator. -/
structure Recorded (config : StreamConfig) (es : List Emission) : Prop where
  chain : es.IsChain (Follows config)
  renders : ∀ e ∈ es, e.Renders config

end Emission

/-- What a suspended generator has kept of the latest it produced, or will have once it is
resumed: the hashes, and a time that is not before it was produced. -/
def Client.Recalls (config : StreamConfig) (clock wakeAt : ℚ) (c : Client) (latest : Emission) :
    Prop :=
  match c.phase with
  | .yielded .heartbeat captured =>
    captured = latest.store.hashes ∧ latest.producedAt ≤ c.lastEmit
  | .yielded _ captured => captured = latest.store.hashes ∧ latest.producedAt ≤ clock
  | .waiting => c.lastHashes = latest.store.hashes ∧ latest.producedAt ≤ c.lastEmit
  | .woken => c.lastHashes = latest.store.hashes ∧ latest.producedAt ≤ c.lastEmit
  | .throttled => (c.lastHashes = latest.store.hashes ∧ latest.producedAt ≤ c.lastEmit) ∧
      wakeAt = c.lastEmit + config.minInterval

/-- How a turn ends: the generator waits, sleeps, or yields a delta once the interval is over. -/
inductive TurnEnd (config : StreamConfig) (now : ℚ) (live : LivePositions) (c : Client) :
    Client → Prop
  | waits : TurnEnd config now live c { c with phase := .waiting }
  | sleeps : TurnEnd config now live c { c with phase := .throttled }
  | emits {data : String} (hdata : config.renderRows live.getAll = .ok data)
      (hnews : hasNews live c) (hspaced : c.lastEmit + config.minInterval ≤ now) :
      TurnEnd config now live c { c with phase := .yielded (.positions data) live.hashes }

theorem emitPositions_turnEnd {config : StreamConfig} {now : ℚ} {live : LivePositions}
    {c c' : Client} (hnews : hasNews live c) (hspaced : c.lastEmit + config.minInterval ≤ now)
    (h : emitPositions config live c = some c') : TurnEnd config now live c c' := by
  unfold emitPositions at h
  split at h
  next data hdata =>
    obtain rfl := Option.some.inj h
    exact .emits hdata hnews hspaced
  next => cases h

theorem afterWait_turnEnd {config : StreamConfig} {now : ℚ} {live : LivePositions} {c c' : Client}
    (h : afterWait config now live c = some c') : TurnEnd config now live c c' := by
  unfold afterWait at h
  split at h
  next =>
    obtain rfl := Option.some.inj h
    exact .sleeps
  next hspaced =>
    split at h
    next hnews =>
      refine emitPositions_turnEnd hnews ?_ h
      linarith
    next =>
      obtain rfl := Option.some.inj h
      exact .waits

/-- Clearing the event leaves the rows. -/
theorem TurnEnd.of_clear {config : StreamConfig} {now : ℚ} {live : LivePositions} {c c' : Client}
    (h : TurnEnd config now live.clear c c') : TurnEnd config now live c c' := by
  cases h with
  | waits => exact .waits
  | sleeps => exact .sleeps
  | emits hdata hnews hspaced => exact .emits hdata hnews hspaced

theorem loopHead_turnEnd {config : StreamConfig} {now : ℚ} {live : LivePositions} {c c' : Client}
    (h : (loopHead config now live c).2 = some c') : TurnEnd config now live c c' := by
  unfold loopHead at h
  split at h
  next => exact (afterWait_turnEnd h).of_clear
  next =>
    obtain rfl := Option.some.inj h
    exact .waits

theorem afterSleep_turnEnd {config : StreamConfig} {now : ℚ} {live : LivePositions} {c c' : Client}
    (hspaced : c.lastEmit + config.minInterval ≤ now)
    (h : (afterSleep config now live c).2 = some c') : TurnEnd config now live c c' := by
  unfold afterSleep at h
  split at h
  next hnews => exact emitPositions_turnEnd hnews hspaced h
  next => exact loopHead_turnEnd h

theorem loopHead_positions (config : StreamConfig) (now : ℚ) (live : LivePositions) (c : Client) :
    (loopHead config now live c).1.positions = live.positions := by
  unfold loopHead
  split
  next => rfl
  next => rfl

theorem afterSleep_positions (config : StreamConfig) (now : ℚ) (live : LivePositions) (c : Client) :
    (afterSleep config now live c).1.positions = live.positions := by
  unfold afterSleep
  split
  next => rfl
  next => exact loopHead_positions ..

/-- A turn that goes on from what the generator has kept of its latest emission keeps the record,
and the generator recalls the latest of it. -/
theorem TurnEnd.recorded {config : StreamConfig} {now done : ℚ} {live store : LivePositions}
    {c c' : Client} {latest : Emission} {earlier : List Emission}
    (h : TurnEnd config now live c c') (hstore : store.positions = live.positions)
    (hdone : now ≤ done) (hhashes : c.lastHashes = latest.store.hashes)
    (hemit : latest.producedAt ≤ c.lastEmit)
    (hrecorded : Emission.Recorded config (latest :: earlier)) :
    Emission.Recorded config (c'.produced store done ++ latest :: earlier) ∧
      ∃ latest' earlier', c'.produced store done ++ latest :: earlier = latest' :: earlier' ∧
        c'.Recalls config done (now + (config.minInterval - (now - c'.lastEmit))) latest' := by
  cases h with
  | waits => exact ⟨hrecorded, latest, earlier, rfl, hhashes, hemit⟩
  | sleeps =>
    refine ⟨hrecorded, latest, earlier, rfl, ⟨hhashes, hemit⟩, ?_⟩
    ring
  | @emits data hdata hnews hspaced =>
    have hall : store.getAll = live.getAll := congrArg OrderedDict.values hstore
    have hsame : store.hashes = live.hashes := congrArg positionHashes hall
    have hrenders : Emission.Renders config ⟨done, .positions data, store⟩ :=
      ⟨data, hall ▸ hdata, Or.inr rfl⟩
    have hfollows : Emission.Follows config ⟨done, .positions data, store⟩ latest := by
      refine ⟨⟨data, rfl⟩, ?_, ?_⟩
      · dsimp only
        linarith
      · rw [hsame, ← hhashes]
        exact hnews
    refine ⟨⟨List.isChain_cons_cons.mpr ⟨hfollows, hrecorded.chain⟩,
      List.forall_mem_cons.mpr ⟨hrenders, hrecorded.renders⟩⟩, _, _, rfl, hsame.symm, le_rfl⟩

theorem get?_settle (s : StreamState) (client : ℕ) (r : LivePositions × Option Client) (k : ℕ) :
    (s.settle client r).clients.get? k = if k = client then r.2 else s.clients.get? k := by
  unfold StreamState.settle
  cases r.2 with
  | some c => exact OrderedDict.get?_insert ..
  | none =>
    rw [OrderedDict.get?_filterKeys]
    by_cases hk : k = client
    · simp [hk]
    · simp [hk]

theorem live_settle (s : StreamState) (client : ℕ) (r : LivePositions × Option Client) :
    (s.settle client r).live = r.1 := by
  unfold StreamState.settle
  cases r.2 with
  | some c => rfl
  | none => rfl

theorem Client.Recalls.mono {config : StreamConfig} {clock clock' wakeAt : ℚ} {c : Client}
    {latest : Emission} (h : c.Recalls config clock wakeAt latest) (hclock : clock ≤ clock') :
    c.Recalls config clock' wakeAt latest := by
  obtain ⟨lastHashes, lastEmit, phase⟩ := c
  cases phase with
  | yielded event captured =>
    cases event with
    | snapshot data => exact ⟨h.1, h.2.trans hclock⟩
    | positions data => exact ⟨h.1, h.2.trans hclock⟩
    | heartbeat => exact h
  | waiting => exact h
  | woken => exact h
  | throttled => exact h

theorem Client.Recalls.wake {config : StreamConfig} {clock wakeAt : ℚ} {c : Client}
    {latest : Emission} (h : c.Recalls config clock wakeAt latest) :
    (wake c).Recalls config clock wakeAt latest := by
  obtain ⟨lastHashes, lastEmit, phase⟩ := c
  cases phase with
  | yielded event captured => exact h
  | waiting => exact h
  | woken => exact h
  | throttled => exact h

/-- Resumed behind a yield, the generator keeps what it had captured there, and behind an event
the time. -/
theorem Client.Recalls.resumed {config : StreamConfig} {clock wakeAt emitted : ℚ} {c : Client}
    {latest : Emission} {event : SseEvent} {captured : OrderedDict PositionKey String}
    (hphase : c.phase = .yielded event captured)
    (h : c.Recalls config clock wakeAt latest) (hclock : clock ≤ emitted) :
    captured = latest.store.hashes ∧
      latest.producedAt ≤ if event = .heartbeat then c.lastEmit else emitted := by
  unfold Client.Recalls at h
  rw [hphase] at h
  cases event with
  | snapshot data => exact ⟨h.1, h.2.trans hclock⟩
  | positions data => exact ⟨h.1, h.2.trans hclock⟩
  | heartbeat => exact h

/-- What holds whenever the event loop is between two steps: the records are as they should be, and
each generator recalls the latest of its own. -/
structure TimedStream.Sound (config : StreamConfig) (t : TimedStream) : Prop where
  recorded : ∀ client, Emission.Recorded config (t.emissions client)
  recalls : ∀ client c, t.stream.clients.get? client = some c → ∃ latest earlier,
    t.emissions client = latest :: earlier ∧ c.Recalls config t.clock (t.wakeAt client) latest

namespace TimedStream.Sound

variable {config : StreamConfig} {t : TimedStream}

theorem start (live : LivePositions) (clock : ℚ) : (TimedStream.start live clock).Sound config where
  recorded _ := ⟨List.isChain_nil, by simp [TimedStream.start]⟩
  recalls client c hc := by simp [TimedStream.start, OrderedDict.empty, OrderedDict.get?] at hc

/-- The turn of one client leaves the others as they were. -/
theorem turn (ht : t.Sound config) {client : ℕ} {c : Client} {latest : Emission}
    {earlier : List Emission} {r : LivePositions × Option Client} {now done : ℚ}
    (hemissions : t.emissions client = latest :: earlier)
    (hhashes : c.lastHashes = latest.store.hashes) (hemit : latest.producedAt ≤ c.lastEmit)
    (hpositions : r.1.positions = t.stream.live.positions)
    (hturn : ∀ c', r.2 = some c' → TurnEnd config now t.stream.live c c')
    (hclock : t.clock ≤ now) (hdone : now ≤ done) :
    TimedStream.Sound config
      { stream := t.stream.settle client r
        clock := done
        emissions := Function.update t.emissions client
          (produced (t.stream.settle client r) client done ++ t.emissions client)
        wakeAt := Function.update t.wakeAt client
          (sleepEnd config (t.stream.settle client r) client now) } where
  recorded k := by
    dsimp only
    by_cases hk : k = client
    · subst hk
      rw [Function.update_self, produced, get?_settle, if_pos rfl, live_settle]
      cases hr : r.2 with
      | none => exact ht.recorded k
      | some c' =>
        rw [hemissions]
        exact ((hturn c' hr).recorded hpositions hdone hhashes hemit
          (hemissions ▸ ht.recorded k)).1
    · rw [Function.update_of_ne hk]
      exact ht.recorded k
  recalls k c' hc' := by
    dsimp only at hc' ⊢
    rw [get?_settle] at hc'
    split at hc'
    next hk =>
      subst hk
      rw [Function.update_self, Function.update_self, produced, sleepEnd, get?_settle, if_pos rfl,
        live_settle, hc', hemissions]
      exact ((hturn c' hc').recorded hpositions hdone hhashes hemit
        (hemissions ▸ ht.recorded k)).2
    next hk =>
      rw [Function.update_of_ne hk, Function.update_of_ne hk]
      obtain ⟨latest', earlier', hk', hrecalls⟩ := ht.recalls k c' hc'
      exact ⟨latest', earlier', hk', hrecalls.mono (hclock.trans hdone)⟩

theorem mutate (ht : t.Sound config) (m : Mutation) {done : ℚ} (hclock : t.clock ≤ done) :
    TimedStream.Sound config { t with stream := t.stream.mutate m, clock := done } where
  recorded := ht.recorded
  recalls client c hc := by
    obtain ⟨old, hold, hkept⟩ : ∃ old, t.stream.clients.get? client = some old ∧
        (c = old ∨ c = wake old) := by
      dsimp only [StreamState.mutate] at hc
      split at hc
      next =>
        rw [OrderedDict.get?_mapValues] at hc
        obtain ⟨old, hold, rfl⟩ := Option.map_eq_some_iff.mp hc
        exact ⟨old, hold, Or.inr rfl⟩
      next => exact ⟨c, hc, Or.inl rfl⟩
    obtain ⟨latest, earlier, hes, hrecalls⟩ := ht.recalls client old hold
    refine ⟨latest, earlier, hes, ?_⟩
    rcases hkept with rfl | rfl
    · exact hrecalls.mono hclock
    · exact (hrecalls.mono hclock).wake

theorem connect (ht : t.Sound config) {client : ℕ} {done : ℚ} (hclock : t.clock ≤ done)
    (hnew : t.stream.clients.get? client = none) :
    TimedStream.Sound config
      { t with
        stream := t.stream.connect config client
        clock := done
        emissions := Function.update t.emissions client
          (produced (t.stream.connect config client) client done) } := by
  unfold StreamState.connect
  split
  next data hdata =>
    have hproduced : produced ⟨t.stream.live, t.stream.clients.insert client
        ⟨t.stream.live.hashes, 0, .yielded (.snapshot data) t.stream.live.hashes⟩⟩ client done =
          [⟨done, .snapshot data, t.stream.live⟩] := by
      rw [produced, OrderedDict.get?_insert_self]
      rfl
    refine ⟨fun k => ?_, fun k c hc => ?_⟩
    · dsimp only
      by_cases hk : k = client
      · subst hk
        rw [Function.update_self, hproduced]
        exact ⟨List.isChain_singleton _, List.forall_mem_singleton.mpr ⟨data, hdata, Or.inl rfl⟩⟩
      · rw [Function.update_of_ne hk]
        exact ht.recorded k
    · dsimp only at hc ⊢
      rw [OrderedDict.get?_insert] at hc
      split at hc
      next hk =>
        subst hk
        obtain rfl := Option.some.inj hc
        rw [Function.update_self, hproduced]
        exact ⟨_, _, rfl, rfl, le_rfl⟩
      next hk =>
        obtain ⟨latest, earlier, hes, hrecalls⟩ := ht.recalls k c hc
        rw [Function.update_of_ne hk]
        exact ⟨latest, earlier, hes, hrecalls.mono hclock⟩
  next =>
    refine ⟨fun k => ?_, fun k c hc => ?_⟩
    · dsimp only
      by_cases hk : k = client
      · subst hk
        rw [Function.update_self, produced, hnew]
        exact ⟨List.isChain_nil, by simp⟩
      · rw [Function.update_of_ne hk]
        exact ht.recorded k
    · dsimp only at hc ⊢
      have hk : k ≠ client := by
        rintro rfl
        rw [hnew] at hc
        cases hc
      obtain ⟨latest, earlier, hes, hrecalls⟩ := ht.recalls k c hc
      rw [Function.update_of_ne hk]
      exact ⟨latest, earlier, hes, hrecalls.mono hclock⟩

/-- A heartbeat leaves what the generator recalls. -/
theorem timeout (ht : t.Sound config) {client : ℕ} {c : Client} {done : ℚ}
    (hclock : t.clock ≤ done) (hc : t.stream.clients.get? client = some c)
    (hphase : c.phase = .waiting ∨ c.phase = .woken) :
    TimedStream.Sound config
      { t with
        stream := t.stream.settle client
          (t.stream.live, some { c with phase := .yielded .heartbeat c.lastHashes })
        clock := done } where
  recorded := ht.recorded
  recalls k c' hc' := by
    dsimp only at hc' ⊢
    rw [get?_settle] at hc'
    split at hc'
    next hk =>
      subst hk
      obtain rfl := Option.some.inj hc'
      obtain ⟨latest, earlier, hes, hrecalls⟩ := ht.recalls k c hc
      refine ⟨latest, earlier, hes, ?_⟩
      unfold Client.Recalls at hrecalls
      rcases hphase with hphase | hphase
      · rw [hphase] at hrecalls
        exact hrecalls
      · rw [hphase] at hrecalls
        exact hrecalls
    next =>
      obtain ⟨latest, earlier, hes, hrecalls⟩ := ht.recalls k c' hc'
      exact ⟨latest, earlier, hes, hrecalls.mono hclock⟩

theorem close (ht : t.Sound config) (client : ℕ) {done : ℚ} (hclock : t.clock ≤ done) :
    TimedStream.Sound config
      { t with
        stream := ⟨t.stream.live, t.stream.clients.filterKeys (· ≠ client)⟩
        clock := done } where
  recorded := ht.recorded
  recalls k c hc := by
    rw [OrderedDict.get?_filterKeys] at hc
    split at hc
    next =>
      obtain ⟨latest, earlier, hes, hrecalls⟩ := ht.recalls k c hc
      exact ⟨latest, earlier, hes, hrecalls.mono hclock⟩
    next => cases hc

theorem step {t' : TimedStream} {e : TimedStep} (ht : t.Sound config) (htimely : t.Timely e)
    (h : TimedStream.next config t e = some t') : t'.Sound config := by
  obtain ⟨stream, hstep, rfl⟩ := Option.map_eq_some_iff.mp h
  obtain ⟨step, done⟩ := e
  cases step with
  | mutate m =>
    obtain rfl := Option.some.inj hstep
    exact ht.mutate m htimely
  | connect client =>
    simp only [StreamState.step] at hstep
    split at hstep
    next => cases hstep
    next hnew =>
      obtain rfl := Option.some.inj hstep
      exact ht.connect htimely hnew
  | resume client emitted now =>
    obtain ⟨hclock, hemitted, hdone⟩ := htimely
    simp only [StreamState.step] at hstep
    split at hstep
    next c hc =>
      obtain ⟨latest, earlier, hes, hrecalls⟩ := ht.recalls client c hc
      split at hstep
      next event captured hphase =>
        obtain rfl := Option.some.inj hstep
        obtain ⟨hhashes, hemit⟩ := hrecalls.resumed hphase hclock
        exact ht.turn hes hhashes hemit (loopHead_positions ..) (fun c' hc' => loopHead_turnEnd hc')
          (hclock.trans hemitted) hdone
      next hphase =>
        obtain rfl := Option.some.inj hstep
        unfold Client.Recalls at hrecalls
        rw [hphase] at hrecalls
        exact ht.turn hes hrecalls.1 hrecalls.2 rfl (fun c' hc' => (afterWait_turnEnd hc').of_clear)
          (hclock.trans hemitted) hdone
      next => cases hstep
    next => cases hstep
  | slept client now =>
    obtain ⟨hclock, hawake, hdone⟩ := htimely
    simp only [StreamState.step] at hstep
    split at hstep
    next c hc =>
      obtain ⟨latest, earlier, hes, hrecalls⟩ := ht.recalls client c hc
      split at hstep
      next hphase =>
        obtain rfl := Option.some.inj hstep
        unfold Client.Recalls at hrecalls
        rw [hphase] at hrecalls
        obtain ⟨⟨hhashes, hemit⟩, hend⟩ := hrecalls
        exact ht.turn hes hhashes hemit (afterSleep_positions ..)
          (fun c' hc' => afterSleep_turnEnd (hend.symm.trans_le hawake) hc') hclock hdone
      next => cases hstep
    next => cases hstep
  | timeout client =>
    simp only [StreamState.step] at hstep
    split at hstep
    next c hc =>
      split at hstep
      next hphase =>
        obtain rfl := Option.some.inj hstep
        exact ht.timeout htimely hc hphase
      next => cases hstep
    next => cases hstep
  | close client =>
    obtain rfl := Option.some.inj hstep
    exact ht.close client htimely

end TimedStream.Sound

/-- In a run on a clock that does not run back, whose sleeps do not end early, what each generator
produces besides heartbeats carries the store's rows of that moment, and each delta comes at least
an interval after what was produced before it and shows other hashes. -/
theorem deltas_are_paced {config : StreamConfig} {live : LivePositions} {clock : ℚ}
    {t : TimedStream}
    (hrun : Reaches (TimedStream.next config) TimedStream.Timely (.start live clock) t)
    (client : ℕ) :
    (t.emissions client).IsChain (Emission.Follows config) ∧
      ∀ e ∈ t.emissions client, e.Renders config := by
  have hsound : t.Sound config :=
    hrun.invariant (.start live clock) fun _ _ _ ht htimely h => ht.step htimely h
  exact ⟨(hsound.recorded client).chain, (hsound.recorded client).renders⟩

/-- A client that takes up each event at once, and two changes of a share in quick succession. -/
def twoChanges : List TimedStep :=
  [⟨.connect 0, 0⟩, ⟨.resume 0 0 0, 0⟩, ⟨.mutate (.setPosition sampleShare), 1 / 10⟩,
    ⟨.resume 0 (1 / 10) (1 / 10), 1 / 10⟩, ⟨.slept 0 (1 / 2), 1 / 2⟩,
    ⟨.resume 0 (1 / 2) (1 / 2), 1 / 2⟩, ⟨.mutate (.setPosition { sampleShare with lastPrice := 111 }), 3 / 5⟩,
    ⟨.resume 0 (3 / 5) (3 / 5), 3 / 5⟩, ⟨.slept 0 1, 1⟩]

/-- Each change is shown half a second after the event before it. -/
theorem two_changes_are_paced :
    ∃ t, Reaches (TimedStream.next sampleConfig) TimedStream.Timely (.start .empty 0) t ∧
      (t.emissions 0).map (·.producedAt) = [1, 1 / 2, 0] ∧
      (t.emissions 0).IsChain (Emission.Follows sampleConfig) ∧
      ∀ e ∈ t.emissions 0, e.Renders sampleConfig := by
  obtain ⟨t, ht, hp⟩ := Reaches.exists_of_execute (TimedStream.next sampleConfig)
    TimedStream.Timely (.start .empty 0) twoChanges
    (fun t => (t.emissions 0).map (·.producedAt) = [1, 1 / 2, 0]) (by decide +kernel)
  exact ⟨t, ht, of_decide_eq_true hp, deltas_are_paced ht 0⟩

end PortfolioHub
