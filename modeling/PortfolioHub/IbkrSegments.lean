import PortfolioHub.IbkrAgreement

namespace PortfolioHub

namespace IbkrConnection

variable {s : IbkrConnection}

/-- No row is left whose contract has to be looked up. -/
def PassesThrough (s : IbkrConnection) (rows : List Position) : Prop :=
  ∀ p ∈ rows, s.ib = none ∨ Python.parseInt p.nativeKey = none

instance (s : IbkrConnection) (rows : List Position) : Decidable (s.PassesThrough rows) :=
  inferInstanceAs (Decidable (∀ p ∈ rows, _ ∨ _))

structure Sound (s : IbkrConnection) : Prop where
  wired : s.Wired
  kept : s.Kept

theorem Kept.congr {s' : IbkrConnection} (hs : s.Kept) (hstate : s'.state = s.state)
    (htasks : s'.tasks = s.tasks) (hinstances : s'.instances = s.instances)
    (hreconnect : s'.reconnectTask = s.reconnectTask) (hib : s'.ib = s.ib) : s'.Kept := by
  have halive : s'.heldAlive = s.heldAlive := by rw [heldAlive, heldAlive, hib, hinstances]
  refine ⟨?_, ?_, ?_⟩
  · rw [hstate, halive]
    exact hs.connected
  · rw [hstate, LoopRuns, hreconnect, htasks]
    exact hs.reconnecting
  · rw [hstate, halive, Seeding, hib, htasks]
    exact hs.disconnected

theorem Kept.setTask (hs : s.Kept) {id : ℕ} (task : Task)
    (hold : s.ib = none ∨ ∀ old, s.tasks.get? id = some old →
      old.session = none ∨ old.session = task.session) : (s.setTask id task).Kept := by
  refine ⟨hs.connected, fun h => (hs.reconnecting h).setTask id task, fun h halive => ?_⟩
  rcases hold with hnone | hold
  · obtain ⟨n, -, hib, -⟩ := heldAlive_iff.mp halive
    exact absurd (hnone.symm.trans hib) (by simp)
  · exact (hs.disconnected h halive).setTask task hold

theorem wakeupEvent_same (s : IbkrConnection) :
    s.wakeupEvent.2.tasks = s.tasks ∧ s.wakeupEvent.2.instances = s.instances ∧
      s.wakeupEvent.2.reconnectTask = s.reconnectTask ∧ s.wakeupEvent.2.ib = s.ib ∧
      s.wakeupEvent.2.state = s.state ∧ s.wakeupEvent.2.disconnecting = s.disconnecting ∧
      s.nextId ≤ s.wakeupEvent.2.nextId := by
  unfold wakeupEvent
  split
  next => exact ⟨rfl, rfl, rfl, rfl, rfl, rfl, Nat.le_refl _⟩
  next => exact ⟨rfl, rfl, rfl, rfl, rfl, rfl, Nat.le_succ _⟩

theorem Wired.wakeupEvent (hs : s.Wired) : s.wakeupEvent.2.Wired := by
  obtain ⟨htasks, hinstances, hreconnect, hib, -, hdisconnecting, hnext⟩ := wakeupEvent_same s
  exact hs.congr htasks hinstances hreconnect hib hdisconnecting hnext

theorem Kept.wakeupEvent (hs : s.Kept) : s.wakeupEvent.2.Kept := by
  obtain ⟨htasks, hinstances, hreconnect, hib, hstate, -, -⟩ := wakeupEvent_same s
  exact hs.congr hstate htasks hinstances hreconnect hib

/-- The next turn of a reconnect loop, or the end of its schedule. -/
theorem nextDelay_sound (hw : s.Wired) {id : ℕ} {task : Task} (htask : s.tasks.get? id = some task)
    {delays : List ℚ} (hgoes : delays ≠ [] → s.Kept ∧ (s.ib = none ∨ task.session = none))
    (hends : delays = [] → s.heldAlive = true → s.Seeding ∧ task.session = none) :
    (s.nextDelay id delays).Sound := by
  cases delays with
  | nil =>
    refine ⟨(hw.endTask id).congr rfl rfl rfl rfl rfl (Nat.le_refl _), ?_⟩
    refine ⟨fun h => by simp [nextDelay] at h, fun h => by simp [nextDelay] at h, fun _ halive => ?_⟩
    obtain ⟨hseeding, hsession⟩ := hends rfl halive
    exact hseeding.endTask htask hsession
  | cons delay rest =>
    obtain ⟨hkept, hold⟩ := hgoes (by simp)
    have hwaiting : Wired { s with currentBackoffDelay := some delay } :=
      hw.congr rfl rfl rfl rfl rfl (Nat.le_refl _)
    have hkept' : Kept { s with currentBackoffDelay := some delay } :=
      hkept.congr rfl rfl rfl rfl rfl
    obtain ⟨htasks, -, -, hib, -, -, hnext⟩ :=
      wakeupEvent_same { s with currentBackoffDelay := some delay }
    refine ⟨hwaiting.wakeupEvent.setTask _ ?_ fun _ => rfl, hkept'.wakeupEvent.setTask _ ?_⟩
    · exact (hw.task_fresh id task htask).trans_le hnext
    · rw [hib, htasks]
      refine hold.imp_right fun hnone old hget => Or.inl ?_
      obtain rfl := Option.some.inj (htask.symm.trans hget)
      exact hnone

/-- What follows a failed `connect()`. -/
theorem connectFailed_sound (hw : s.Wired) (hruns : s.state = .reconnecting → s.LoopRuns) {id : ℕ}
    {task : Task} (htask : s.tasks.get? id = some task) {caller : Caller}
    (hcaller : task.isLoop = caller.isLoop)
    (hgoes : ∀ delays, caller = .reconnectLoop delays → delays ≠ [] →
      s.Kept ∧ (s.ib = none ∨ task.session = none))
    (hends : caller = .reconnectLoop [] → s.heldAlive = true → s.Seeding ∧ task.session = none) :
    (s.connectFailed id caller).Sound := by
  cases caller with
  | start =>
    have hend := hw.endTask id
    refine ⟨hend.handleDisconnect, kept_of_reconnecting (handleDisconnect_reconnecting hend ?_)⟩
    exact fun h => (hruns h).endTask hw htask hcaller
  | reconnectLoop rest =>
    refine nextDelay_sound hw htask (hgoes rest rfl) ?_
    rintro rfl
    exact hends rfl

theorem connectSucceeded_sound (hw : s.Wired) (halive : s.heldAlive = true) (id : ℕ)
    (caller : Caller) : (s.connectSucceeded id caller).Sound := by
  cases caller with
  | start =>
    exact ⟨(hw.endTask id).congr rfl rfl rfl rfl rfl (Nat.le_refl _), kept_of_connected rfl halive⟩
  | reconnectLoop rest =>
    exact ⟨(hw.endTask id).congr rfl rfl rfl rfl rfl (Nat.le_refl _), kept_of_connected rfl halive⟩

/-- The seeding either reaches the end of `connect()` or is suspended in a lookup. -/
theorem seedNext_cases (s : IbkrConnection) (id : ℕ) (caller : Caller) (ib : ℕ)
    (rows : List Position) :
    ∃ feed, s.PassesThrough rows ∧
        s.seedNext id caller ib rows = { s with feed := feed }.connectSucceeded id caller ∨
      ∃ p conId rest, s.seedNext id caller ib rows =
        { s with feed := feed }.setTask id (.subscribing caller ib p conId rest) := by
  induction rows generalizing s with
  | nil => exact ⟨s.feed, Or.inl ⟨by simp [PassesThrough], rfl⟩⟩
  | cons p rest ih =>
    rw [seedNext]
    dsimp only
    split
    next held conId _ _ => exact ⟨_, Or.inr ⟨p, conId, rest, rfl⟩⟩
    next hlookup =>
      obtain ⟨feed, h⟩ := ih { s with feed := { s.feed with live := s.feed.live.setPosition p } }
      refine ⟨feed, h.imp_left fun hpasses => ⟨?_, hpasses.2⟩⟩
      refine List.forall_mem_cons.mpr ⟨?_, hpasses.1⟩
      cases hib : s.ib with
      | none => exact Or.inl rfl
      | some held =>
        cases hparse : Python.parseInt p.nativeKey with
        | none => exact Or.inr rfl
        | some conId => exact absurd hparse (hlookup held conId hib)

theorem seedNext_sound (hs : s.Sound) {id : ℕ} {task : Task} (htask : s.tasks.get? id = some task)
    {caller : Caller} (hcaller : task.isLoop = caller.isLoop) {ib : ℕ}
    (hsession : task.session = some ib) {rows : List Position}
    (hpasses : s.PassesThrough rows → s.heldAlive = true) :
    (s.seedNext id caller ib rows).Sound := by
  obtain ⟨feed, ⟨hpass, heq⟩ | ⟨p, conId, rest, heq⟩⟩ := seedNext_cases s id caller ib rows
  · rw [heq]
    have hw : Wired { s with feed := feed } := hs.wired.congr rfl rfl rfl rfl rfl (Nat.le_refl _)
    exact connectSucceeded_sound hw (hpasses hpass) id caller
  · rw [heq]
    have hw : Wired { s with feed := feed } := hs.wired.congr rfl rfl rfl rfl rfl (Nat.le_refl _)
    have hk : Kept { s with feed := feed } := hs.kept.congr rfl rfl rfl rfl rfl
    refine ⟨hw.setTask _ (hs.wired.task_fresh id task htask) fun hid => ?_,
      hk.setTask _ (Or.inr ?_)⟩
    · exact hcaller.symm.trans (hs.wired.reconnect_loop id task hid htask)
    · intro old hget
      obtain rfl := Option.some.inj (htask.symm.trans hget)
      exact Or.inr hsession

theorem modifyInstance_same (s : IbkrConnection) (ib : ℕ) (f : IbInstance → IbInstance) :
    (s.modifyInstance ib f).tasks = s.tasks ∧ (s.modifyInstance ib f).state = s.state ∧
      (s.modifyInstance ib f).reconnectTask = s.reconnectTask ∧
      (s.modifyInstance ib f).ib = s.ib ∧
      (s.modifyInstance ib f).disconnecting = s.disconnecting ∧
      (s.modifyInstance ib f).nextId = s.nextId := by
  unfold modifyInstance
  split <;> exact ⟨rfl, rfl, rfl, rfl, rfl, rfl⟩

theorem Wired.modifyInstance (hs : s.Wired) (ib : ℕ) {f : IbInstance → IbInstance}
    (hf : s.ib = some ib → ∀ i, i.registered = true → (f i).registered = true) :
    (s.modifyInstance ib f).Wired := by
  unfold IbkrConnection.modifyInstance
  split
  next => exact hs
  next i hi =>
    refine { hs with instance_fresh := fun n j hj => ?_, held_registered := fun n hn => ?_ }
    · rw [OrderedDict.get?_insert] at hj
      split at hj
      next heq => exact heq ▸ hs.instance_fresh ib i hi
      next => exact hs.instance_fresh n j hj
    · obtain ⟨j, hj, hregistered⟩ := hs.held_registered n hn
      dsimp only
      rw [OrderedDict.get?_insert]
      split
      next heq =>
        subst heq
        obtain rfl := Option.some.inj (hi.symm.trans hj)
        exact ⟨f i, rfl, hf hn i hregistered⟩
      next => exact ⟨j, hj, hregistered⟩

/-- What follows a failed `_start_streaming`: nothing is held any more, so a loop must not go
on under the state CONNECTED. -/
theorem streamingFailed_sound (hs : s.Sound) {id : ℕ} {task : Task}
    (htask : s.tasks.get? id = some task) {caller : Caller} (hcaller : task.isLoop = caller.isLoop)
    (hgoes : ∀ delays, caller = .reconnectLoop delays → delays ≠ [] → s.state ≠ .connected)
    (ib : ℕ) : (s.streamingFailed id caller ib).Sound := by
  have hnone : Wired { s with ib := none } :=
    { hs.wired with held_registered := fun n hn => by simp at hn }
  obtain ⟨htasks, hstate, hreconnect, hib, -, -⟩ :=
    modifyInstance_same { s with ib := none } ib fun i => { i with registered := false }
  have hdead : ({ s with ib := none }.modifyInstance ib fun i =>
      { i with registered := false }).heldAlive = false := by
    rw [heldAlive, hib]
    rfl
  have hruns : s.state = .reconnecting → LoopRuns ({ s with ib := none }.modifyInstance ib fun i =>
      { i with registered := false }) := by
    rw [LoopRuns, hreconnect, htasks]
    exact hs.kept.reconnecting
  refine connectFailed_sound (hnone.modifyInstance ib fun h => by simp at h)
    (fun h => hruns (hstate ▸ h)) (by rwa [htasks]) hcaller (fun delays hloop hne => ?_) ?_
  · refine ⟨⟨fun hc => ?_, fun hr => hruns (hstate ▸ hr), fun _ halive => ?_⟩, Or.inl hib⟩
    · exact absurd (hstate ▸ hc) (hgoes delays hloop hne)
    · simp [hdead] at halive
  · intro _ halive
    simp [hdead] at halive

end IbkrConnection

end PortfolioHub
