import PortfolioHub.IbkrConnection

namespace PortfolioHub

namespace IbkrConnection

/-- The identities are fresh, the reconnect task is a loop, and the held instance reports
its disconnect. -/
structure Wired (s : IbkrConnection) : Prop where
  task_fresh : ∀ id t, s.tasks.get? id = some t → id < s.nextId
  instance_fresh : ∀ n i, s.instances.get? n = some i → n < s.nextId
  reconnect_fresh : ∀ id, s.reconnectTask = some id → id < s.nextId
  reconnect_loop : ∀ id t, s.reconnectTask = some id → s.tasks.get? id = some t → t.isLoop = true
  held_registered : ∀ n, s.ib = some n → ∃ i, s.instances.get? n = some i ∧ i.registered = true
  not_disconnecting : s.disconnecting = false

/-- The reconnect task is running. -/
def LoopRuns (s : IbkrConnection) : Prop :=
  ∃ id t, s.reconnectTask = some id ∧ s.tasks.get? id = some t

/-- A running `_start_streaming` seeds from the held instance. -/
def Seeding (s : IbkrConnection) : Prop :=
  ∃ e ∈ s.tasks.entries, s.ib.isSome = true ∧ e.2.session = s.ib

instance (s : IbkrConnection) : Decidable s.Seeding :=
  inferInstanceAs (Decidable (∃ e ∈ s.tasks.entries, s.ib.isSome = true ∧ e.2.session = s.ib))

/-- What each state promises, also while calls are pending. -/
structure Kept (s : IbkrConnection) : Prop where
  connected : s.state = .connected → s.heldAlive = true
  reconnecting : s.state = .reconnecting → s.LoopRuns
  disconnected : s.state = .disconnected → s.heldAlive = true → s.Seeding

variable {s : IbkrConnection}

theorem heldAlive_iff : s.heldAlive = true ↔
    ∃ n i, s.ib = some n ∧ s.instances.get? n = some i ∧ i.alive = true := by
  unfold heldAlive
  cases hib : s.ib with
  | none => simp
  | some n =>
    cases hi : s.instances.get? n with
    | none => simp [hi]
    | some i => simp [hi]

theorem seeding_iff : s.Seeding ↔
    ∃ id t n, s.tasks.get? id = some t ∧ t.session = some n ∧ s.ib = some n := by
  unfold Seeding
  constructor
  · rintro ⟨⟨id, t⟩, hmem, hsome, hsession⟩
    obtain ⟨n, hn⟩ := Option.isSome_iff_exists.mp hsome
    exact ⟨id, t, n, OrderedDict.get?_eq_some_iff.mpr hmem, hsession.trans hn, hn⟩
  · rintro ⟨id, t, n, hget, hsession, hn⟩
    exact ⟨(id, t), OrderedDict.get?_eq_some_iff.mp hget, by simp [hn], by simp [hsession, hn]⟩

theorem get?_endTask (s : IbkrConnection) (id other : ℕ) :
    (s.endTask id).tasks.get? other = if other = id then none else s.tasks.get? other := by
  rw [endTask, OrderedDict.get?_filterKeys]
  by_cases h : other = id <;> simp [h]

theorem Wired.endTask (hs : s.Wired) (id : ℕ) : (s.endTask id).Wired := by
  have htasks : ∀ other t, (s.endTask id).tasks.get? other = some t →
      s.tasks.get? other = some t := by
    intro other t ht
    rw [get?_endTask] at ht
    split at ht
    next => simp at ht
    next => exact ht
  exact {
    task_fresh := fun other t ht => hs.task_fresh other t (htasks other t ht)
    instance_fresh := hs.instance_fresh
    reconnect_fresh := hs.reconnect_fresh
    reconnect_loop := fun other t hother ht => hs.reconnect_loop other t hother (htasks other t ht)
    held_registered := hs.held_registered
    not_disconnecting := hs.not_disconnecting }

theorem Wired.setTask (hs : s.Wired) {id : ℕ} (task : Task) (hid : id < s.nextId)
    (hloop : s.reconnectTask = some id → task.isLoop = true) : (s.setTask id task).Wired where
  task_fresh := by
    intro other t ht
    rw [IbkrConnection.setTask, OrderedDict.get?_insert] at ht
    split at ht
    next heq => exact heq ▸ hid
    next => exact hs.task_fresh other t ht
  instance_fresh := hs.instance_fresh
  reconnect_fresh := hs.reconnect_fresh
  reconnect_loop := by
    intro other t hother ht
    rw [IbkrConnection.setTask, OrderedDict.get?_insert] at ht
    split at ht
    next heq =>
      obtain rfl := Option.some.inj ht
      exact hloop (heq ▸ hother)
    next => exact hs.reconnect_loop other t hother ht
  held_registered := hs.held_registered
  not_disconnecting := hs.not_disconnecting

theorem LoopRuns.setTask (hs : s.LoopRuns) (id : ℕ) (task : Task) :
    (s.setTask id task).LoopRuns := by
  obtain ⟨loop, t, hloop, ht⟩ := hs
  by_cases h : loop = id
  · exact ⟨loop, task, hloop, by simp [IbkrConnection.setTask, h]⟩
  · exact ⟨loop, t, hloop, by simp [IbkrConnection.setTask, OrderedDict.get?_insert_of_ne, h, ht]⟩

/-- Only the task of a loop can be the reconnect task. -/
theorem LoopRuns.endTask (hs : s.LoopRuns) (hw : s.Wired) {id : ℕ} {task : Task}
    (htask : s.tasks.get? id = some task) (hstart : task.isLoop = false) :
    (s.endTask id).LoopRuns := by
  obtain ⟨loop, t, hloop, ht⟩ := hs
  refine ⟨loop, t, hloop, ?_⟩
  rw [get?_endTask, if_neg]
  · exact ht
  · rintro rfl
    have := hw.reconnect_loop loop task hloop htask
    simp [hstart] at this

/-- A task that does not seed can go on to anything, one that seeds goes on seeding. -/
theorem Seeding.setTask (hs : s.Seeding) {id : ℕ} (task : Task)
    (hold : ∀ old, s.tasks.get? id = some old → old.session = none ∨ old.session = task.session) :
    (s.setTask id task).Seeding := by
  obtain ⟨other, t, n, ht, hn, hib⟩ := seeding_iff.mp hs
  by_cases h : other = id
  · subst h
    refine seeding_iff.mpr ⟨other, task, n, by simp [IbkrConnection.setTask], ?_, hib⟩
    rcases hold t ht with hnone | hsame
    · simp [hn] at hnone
    · rw [← hsame, hn]
  · exact seeding_iff.mpr ⟨other, t, n,
      by simp [IbkrConnection.setTask, OrderedDict.get?_insert_of_ne, h, ht], hn, hib⟩

theorem Seeding.endTask (hs : s.Seeding) {id : ℕ} {old : Task} (hold : s.tasks.get? id = some old)
    (hsession : old.session = none) : (s.endTask id).Seeding := by
  obtain ⟨other, t, n, ht, hn, hib⟩ := seeding_iff.mp hs
  refine seeding_iff.mpr ⟨other, t, n, ?_, hn, hib⟩
  rw [get?_endTask, if_neg]
  · exact ht
  · rintro rfl
    obtain rfl := Option.some.inj (hold.symm.trans ht)
    simp [hn] at hsession

theorem ensureLoop_runs (s : IbkrConnection) : s.ensureLoop.LoopRuns := by
  unfold ensureLoop
  split
  next => exact ⟨s.nextId, .created, rfl, by simp [IbkrConnection.setTask]⟩
  next hdone =>
    simp only [ReconnectDone, not_forall, not_not] at hdone
    obtain ⟨id, hid, hkey⟩ := hdone
    obtain ⟨t, ht⟩ := OrderedDict.mem_keys_iff.mp hkey
    exact ⟨id, t, hid, ht⟩

/-- The invariant reads six fields, and only needs the identities to grow. -/
theorem Wired.congr {s' : IbkrConnection} (hs : s.Wired) (htasks : s'.tasks = s.tasks)
    (hinstances : s'.instances = s.instances) (hreconnect : s'.reconnectTask = s.reconnectTask)
    (hib : s'.ib = s.ib) (hdisconnecting : s'.disconnecting = s.disconnecting)
    (hnext : s.nextId ≤ s'.nextId) : s'.Wired where
  task_fresh := by
    rw [htasks]
    exact fun id t ht => (hs.task_fresh id t ht).trans_le hnext
  instance_fresh := by
    rw [hinstances]
    exact fun n i hi => (hs.instance_fresh n i hi).trans_le hnext
  reconnect_fresh := by
    rw [hreconnect]
    exact fun id hid => (hs.reconnect_fresh id hid).trans_le hnext
  reconnect_loop := by
    rw [hreconnect, htasks]
    exact hs.reconnect_loop
  held_registered := by
    rw [hib, hinstances]
    exact hs.held_registered
  not_disconnecting := hdisconnecting.trans hs.not_disconnecting

theorem Wired.ensureLoop (hs : s.Wired) : s.ensureLoop.Wired := by
  unfold IbkrConnection.ensureLoop
  split
  next =>
    have hnext : Wired { s with nextId := s.nextId + 1 } :=
      hs.congr rfl rfl rfl rfl rfl (Nat.le_succ _)
    have hset := hnext.setTask .created (Nat.lt_succ_self s.nextId) fun _ => rfl
    exact {
      task_fresh := hset.task_fresh
      instance_fresh := hset.instance_fresh
      reconnect_fresh := fun id hid => by
        obtain rfl := Option.some.inj hid
        exact Nat.lt_succ_self _
      reconnect_loop := fun id t hid ht => by
        obtain rfl := Option.some.inj hid
        obtain rfl : Task.created = t := by simpa [IbkrConnection.setTask] using ht
        rfl
      held_registered := hset.held_registered
      not_disconnecting := hset.not_disconnecting }
  next => exact hs

theorem Wired.handleDisconnect (hs : s.Wired) : s.handleDisconnect.Wired := by
  unfold IbkrConnection.handleDisconnect
  split
  next => exact hs
  next =>
    exact Wired.ensureLoop (hs.congr rfl rfl rfl rfl rfl (Nat.le_refl _))

@[simp] theorem state_ensureLoop (s : IbkrConnection) : s.ensureLoop.state = s.state := by
  unfold ensureLoop
  split <;> rfl

/-- Behind the handler a reconnect loop is running. -/
theorem handleDisconnect_reconnecting (hw : s.Wired) (hloop : s.state = .reconnecting → s.LoopRuns) :
    s.handleDisconnect.state = .reconnecting ∧ s.handleDisconnect.LoopRuns := by
  unfold IbkrConnection.handleDisconnect
  rw [hw.not_disconnecting]
  split
  next h =>
    have hstate := h.resolve_left (by simp)
    exact ⟨hstate, hloop hstate⟩
  next => exact ⟨state_ensureLoop _, ensureLoop_runs _⟩

theorem kept_of_reconnecting (h : s.state = .reconnecting ∧ s.LoopRuns) : s.Kept :=
  ⟨fun hc => by simp [h.1] at hc, fun _ => h.2, fun hd => by simp [h.1] at hd⟩

theorem kept_of_connected (hstate : s.state = .connected) (halive : s.heldAlive = true) : s.Kept :=
  ⟨fun _ => halive, fun hr => by simp [hstate] at hr, fun hd => by simp [hstate] at hd⟩

end IbkrConnection

end PortfolioHub
