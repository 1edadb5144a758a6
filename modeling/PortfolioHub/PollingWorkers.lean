import PortfolioHub.PollingLifecycle
import PortfolioHub.Transition

namespace PortfolioHub

/-- What a coroutine is to the others. -/
inductive PollingRole where
  | poll
  /-- A reconnect loop between its attempts. -/
  | loop
  /-- A reconnect loop in `connect()`. -/
  | attempt
  /-- A `start()` or `connect()`. -/
  | connecting
  /-- A `start()` or `connect()` that has failed and closes. -/
  | tail
  | disconnecting
  | reader
deriving DecidableEq, Repr

namespace PollingRole

def isWorker : PollingRole → Bool
  | .poll => true
  | .loop => true
  | .attempt => true
  | _ => false

def isCall : PollingRole → Bool
  | .connecting => true
  | .tail => true
  | .disconnecting => true
  | _ => false

/-- A call that may open a session. -/
def opens : PollingRole → Bool
  | .connecting => true
  | .tail => true
  | _ => false

end PollingRole

/-- The role of whoever runs `connect()` or `disconnect()`. -/
def PollingCall.role (stage : PollingStage) : PollingCall → PollingRole
  | .start => match stage with
    | .failing _ => .tail
    | _ => .connecting
  | .connect => match stage with
    | .failing _ => .tail
    | _ => .connecting
  | .reconnectLoop _ => .attempt
  | .disconnect => .disconnecting

namespace PollingCoroutine

def role : PollingCoroutine → PollingRole
  | .loopCreated => .loop
  | .loopSleeping _ => .loop
  | .running call stage => call.role stage
  | .startFailing _ => .tail
  | .pollSleeping => .poll
  | .pollFetching _ => .poll
  | .reading _ => .reader

/-- The task a coroutine awaits. -/
def awaits : PollingCoroutine → Option ℕ
  | .running _ (.stoppingReconnect task) => some task
  | .running _ (.stoppingPoll task) => some task
  | _ => none

/-- The sessions seen by a fetch that is published when it ends. -/
def seen? : PollingCoroutine → Option (List (Option ℕ))
  | .running _ (.loading observed) => some observed
  | .running _ (.refreshing observed) => some observed
  | .pollSleeping => some []
  | .pollFetching observed => some observed
  | _ => none

end PollingCoroutine

theorem PollingRole.kinds (role : PollingRole) :
    role = .reader ∨ role.isWorker = true ∨ role.isCall = true := by
  cases role <;> simp [PollingRole.isWorker, PollingRole.isCall]

/-- What is left of the roles in a fetch. -/
theorem PollingCoroutine.role_of_seen {c : PollingCoroutine} {observed : List (Option ℕ)}
    (hseen : c.seen? = some observed) :
    c.role = .poll ∨ c.role = .attempt ∨ c.role = .connecting ∨ c.role = .disconnecting := by
  cases c with
  | loopCreated => cases hseen
  | loopSleeping rest => cases hseen
  | running call stage =>
    cases stage with
    | loading observed => cases call <;> simp [PollingCoroutine.role, PollingCall.role]
    | refreshing observed => cases call <;> simp [PollingCoroutine.role, PollingCall.role]
    | _ => cases hseen
  | startFailing invalid => cases hseen
  | pollSleeping => exact Or.inl rfl
  | pollFetching observed => exact Or.inl rfl
  | reading observed => cases hseen

theorem PollingCoroutine.awaits_of_seen {c : PollingCoroutine} {observed : List (Option ℕ)}
    (hseen : c.seen? = some observed) : c.awaits = none := by
  cases c with
  | running call stage => cases stage <;> first | rfl | cases hseen
  | _ => rfl

/-- Everything a fetch has seen is one session, which is still held. -/
def Publication.Whole (p : Publication) : Prop :=
  ∃ n, p.session = some n ∧ ∀ seen ∈ p.observed, seen = some n

namespace PollingAdapter

/-- A live task or call of the role. -/
def Plays (s : PollingAdapter) (id : ℕ) (role : PollingRole) : Prop :=
  ∃ c, s.coroutines.get? id = some c ∧ c.role = role

/-- The field that holds the tasks of the role. -/
def taskOf (s : PollingAdapter) : PollingRole → Option ℕ
  | .poll => s.pollTask
  | _ => s.reconnectTask

/-- At most one worker is live. One that is not cancelled is held by its field; one that is, is
awaited by the call that has cancelled it. Calls of `disconnect()` may overlap; a `start()` or
`connect()` is the only call. -/
structure Tidy (config : PollingConfig) (s : PollingAdapter) : Prop where
  fresh : ∀ id c, s.coroutines.get? id = some c → id < s.nextId
  freshCancelled : ∀ id ∈ s.cancelled, id < s.nextId
  freshTask : ∀ role id, s.taskOf role = some id → id < s.nextId
  one : ∀ i j c d, s.coroutines.get? i = some c → s.coroutines.get? j = some d →
    c.role.isWorker = true → d.role.isWorker = true → i = j
  held : ∀ i c, s.coroutines.get? i = some c → c.role.isWorker = true → i ∉ s.cancelled →
    s.taskOf c.role = some i ∧ c.awaits = none
  awaited : ∀ i c, s.coroutines.get? i = some c → i ∈ s.cancelled →
    c.role.isWorker = true ∧ c.awaits = none ∧
      ∃ k d, s.coroutines.get? k = some d ∧ d.role.isCall = true ∧ d.awaits = some i
  task : ∀ role i c, s.taskOf role = some i → s.coroutines.get? i = some c →
    i ∉ s.cancelled ∧ c.role.isWorker = true ∧ (c.role = .poll ↔ role = .poll)
  quelled : ∀ k d, s.coroutines.get? k = some d →
    d.role = .connecting ∨ d.role = .disconnecting →
      ∀ i c, s.coroutines.get? i = some c → c.role.isWorker = true → i ∈ s.cancelled
  tail : ∀ k d, s.coroutines.get? k = some d → d.role = .tail →
    ∀ i c, s.coroutines.get? i = some c → c.role.isWorker = true →
      c.role = .loop ∧ config.broker = .futu
  refreshes : ∀ i call observed, s.coroutines.get? i = some (.running call (.refreshing observed)) →
    config.broker = .futu
  alone : ∀ i j c d, s.coroutines.get? i = some c → s.coroutines.get? j = some d →
    c.role.opens = true → d.role.isCall = true → i = j
  fetches : ∀ i c observed, s.coroutines.get? i = some c → i ∉ s.cancelled →
    c.seen? = some observed →
      ∃ n, s.session = some ⟨n, true⟩ ∧ ∀ seen ∈ observed, seen = some n
  closes : ∀ i c, s.coroutines.get? i = some c → c.role = .disconnecting →
    c.awaits ≠ none ∨ c = .running .disconnect .closing
  published : ∀ p ∈ s.published, p.Whole

variable {config : PollingConfig} {s t : PollingAdapter}

/-- No call is in flight. -/
def Uncalled (s : PollingAdapter) : Prop :=
  ∀ id c, s.coroutines.get? id = some c → c.role.isCall = false

/-- Nothing is live but calls of `get_positions`. -/
def Idle (s : PollingAdapter) : Prop :=
  ∀ id c, s.coroutines.get? id = some c → c.role = .reader

theorem Idle.uncalled (h : s.Idle) : s.Uncalled := by
  intro id c hc
  rw [h id c hc]
  rfl

theorem Idle.not_worker (h : s.Idle) {id : ℕ} {c : PollingCoroutine}
    (hc : s.coroutines.get? id = some c) : c.role.isWorker ≠ true := by
  rw [h id c hc]
  decide

/-- Where no call is in flight a live worker is not cancelled. -/
theorem Tidy.not_cancelled (h : s.Tidy config) (huncalled : s.Uncalled) {id : ℕ} {c : PollingCoroutine}
    (hc : s.coroutines.get? id = some c) : id ∉ s.cancelled := by
  intro hcancelled
  obtain ⟨-, -, k, d, hd, hcall, -⟩ := h.awaited id c hc hcancelled
  exact absurd (hcall.symm.trans (huncalled k d hd)) (by decide)

/-- With no call in flight and no worker but cancelled ones, nothing is left. -/
theorem Tidy.idle (h : s.Tidy config) (huncalled : s.Uncalled)
    (hworkers : ∀ i c, s.coroutines.get? i = some c → c.role.isWorker = true → i ∈ s.cancelled) :
    s.Idle := by
  intro id c hc
  rcases PollingRole.kinds c.role with hreader | hworker | hcall
  · exact hreader
  · exact absurd (hworkers id c hc hworker) (h.not_cancelled huncalled hc)
  · exact absurd (hcall.symm.trans (huncalled id c hc)) (by decide)

/-- A coroutine that waits for nothing live leaves its suspension. -/
theorem Tidy.resume (h : s.Tidy config) {id : ℕ}
    (hawaits : ∀ c w, s.coroutines.get? id = some c → c.awaits = some w →
      s.coroutines.get? w = none) : (s.resume id).Tidy config := by
  have hget : ∀ {i c}, (s.resume id).coroutines.get? i = some c → s.coroutines.get? i = some c :=
    get?_of_resume
  refine ⟨fun i c hc => h.fresh i c (hget hc), h.freshCancelled, h.freshTask,
    fun i j c d hc hd => h.one i j c d (hget hc) (hget hd), fun i c hc => h.held i c (hget hc),
    ?_, fun role i c htask hc => h.task role i c htask (hget hc),
    fun k d hd hrole i c hc => h.quelled k d (hget hd) hrole i c (hget hc),
    fun k d hd hrole i c hc => h.tail k d (hget hd) hrole i c (hget hc),
    fun i call observed hc => h.refreshes i call observed (hget hc),
    fun i j c d hc hd => h.alone i j c d (hget hc) (hget hd),
    fun i c observed hc => h.fetches i c observed (hget hc), fun i c hc => h.closes i c (hget hc),
    h.published⟩
  intro i c hc hcancelled
  obtain ⟨hworker, hnone, k, d, hd, hcall, hk⟩ := h.awaited i c (hget hc) hcancelled
  refine ⟨hworker, hnone, k, d, ?_, hcall, hk⟩
  rw [get?_resume]
  split
  next heq =>
    subst heq
    exact absurd ((hawaits d i hd hk).symm.trans (hget hc)) (by simp)
  next => exact hd

/-- Fields other than the coroutines change: the tasks are held as before, and the session only
where nothing is fetched. -/
theorem Tidy.congr (h : s.Tidy config) (hcoroutines : t.coroutines.Same s.coroutines)
    (hcancelled : t.cancelled = s.cancelled) (hnext : s.nextId ≤ t.nextId)
    (htask : ∀ role i, t.taskOf role = some i →
      i < t.nextId ∧ (s.taskOf role = some i ∨ s.coroutines.get? i = none))
    (hheld : ∀ i c, s.coroutines.get? i = some c → c.role.isWorker = true → i ∉ s.cancelled →
      t.taskOf c.role = s.taskOf c.role)
    (hfetches : ∀ i c observed, s.coroutines.get? i = some c → i ∉ s.cancelled →
      c.seen? = some observed → t.session = s.session)
    (hpublished : ∀ p ∈ t.published, p.Whole) : t.Tidy config := by
  have hget : ∀ i, t.coroutines.get? i = s.coroutines.get? i := hcoroutines
  refine ⟨?_, ?_, fun role i hi => (htask role i hi).1, ?_, ?_, ?_, ?_, ?_, ?_, ?_, ?_, ?_, ?_,
    hpublished⟩
  · simp only [hget]
    exact fun i c hc => (h.fresh i c hc).trans_le hnext
  · rw [hcancelled]
    exact fun i hi => (h.freshCancelled i hi).trans_le hnext
  · simp only [hget]
    exact h.one
  · simp only [hget, hcancelled]
    intro i c hc hworker hi
    rw [hheld i c hc hworker hi]
    exact h.held i c hc hworker hi
  · simp only [hget, hcancelled]
    exact h.awaited
  · simp only [hget, hcancelled]
    intro role i c hi hc
    rcases (htask role i hi).2 with hold | hnone
    · exact h.task role i c hold hc
    · exact absurd (hc.symm.trans hnone) (by simp)
  · simp only [hget, hcancelled]
    exact h.quelled
  · simp only [hget]
    exact h.tail
  · simp only [hget]
    exact h.refreshes
  · simp only [hget]
    exact h.alone
  · simp only [hget, hcancelled]
    intro i c observed hc hi hseen
    rw [hfetches i c observed hc hi hseen]
    exact h.fetches i c observed hc hi hseen
  · simp only [hget]
    exact h.closes

/-- What may be live beside a coroutine of the role `r`. -/
structure Beside (config : PollingConfig) (r : PollingRole) (cancelled : Prop) (d : PollingRole) : Prop where
  worker : r.isWorker = true → d.isWorker = false
  quelled : r = .connecting ∨ r = .disconnecting → d.isWorker = true → cancelled
  called : r.isWorker = true → ¬ (d = .connecting ∨ d = .disconnecting)
  tail : r = .tail → d.isWorker = true → d = .loop ∧ config.broker = .futu
  tailed : d = .tail → r.isWorker = true → r = .loop ∧ config.broker = .futu
  alone : r.opens = true → d.isCall = false
  opened : r.isCall = true → d.opens = false

theorem Beside.of_reader (r : PollingRole) (cancelled : Prop) : Beside config r cancelled .reader := by
  constructor <;> simp [PollingRole.isWorker, PollingRole.isCall, PollingRole.opens]

theorem Beside.reader (cancelled : Prop) (d : PollingRole) : Beside config .reader cancelled d := by
  constructor <;> simp [PollingRole.isWorker, PollingRole.isCall, PollingRole.opens]

/-- A coroutine that awaits no task is suspended. -/
theorem Tidy.add (h : s.Tidy config) {id : ℕ} {c : PollingCoroutine} (hfresh : id < s.nextId)
    (hcancelled : id ∉ s.cancelled) (hfree : s.coroutines.get? id = none)
    (hawaits : c.awaits = none)
    (hheld : c.role.isWorker = true → s.taskOf c.role = some id)
    (htask : ∀ role, s.taskOf role = some id →
      c.role.isWorker = true ∧ (c.role = .poll ↔ role = .poll))
    (hbeside : ∀ j d, s.coroutines.get? j = some d → Beside config c.role (j ∈ s.cancelled) d.role)
    (hfetches : ∀ observed, c.seen? = some observed →
      ∃ n, s.session = some ⟨n, true⟩ ∧ ∀ seen ∈ observed, seen = some n)
    (hrefreshes : ∀ call observed, c = .running call (.refreshing observed) →
      config.broker = .futu)
    (hcloses : c.role = .disconnecting → c = .running .disconnect .closing) :
    (s.setCoroutine id c).Tidy config := by
  have hget : ∀ {j d}, (s.setCoroutine id c).coroutines.get? j = some d →
      j = id ∧ d = c ∨ s.coroutines.get? j = some d := by
    intro j d hd
    rw [get?_setCoroutine] at hd
    split at hd
    next heq => exact Or.inl ⟨heq, (Option.some.inj hd).symm⟩
    next => exact Or.inr hd
  refine ⟨?_, h.freshCancelled, h.freshTask, ?_, ?_, ?_, ?_, ?_, ?_, ?_, ?_, ?_, ?_, h.published⟩
  · intro i d hd
    rcases hget hd with ⟨rfl, -⟩ | hd
    · exact hfresh
    · exact h.fresh i d hd
  · intro i j d d' hd hd' hworker hworker'
    rcases hget hd with ⟨rfl, rfl⟩ | hold
    · rcases hget hd' with ⟨rfl, -⟩ | hold'
      · rfl
      · exact absurd (hworker'.symm.trans ((hbeside j d' hold').worker hworker)) (by decide)
    · rcases hget hd' with ⟨rfl, rfl⟩ | hold'
      · exact absurd (hworker.symm.trans ((hbeside i d hold).worker hworker')) (by decide)
      · exact h.one i j d d' hold hold' hworker hworker'
  · intro i d hd hworker hi
    rcases hget hd with ⟨rfl, rfl⟩ | hd
    · exact ⟨hheld hworker, hawaits⟩
    · exact h.held i d hd hworker hi
  · intro i d hd hi
    rcases hget hd with ⟨rfl, -⟩ | hd
    · exact absurd hi hcancelled
    · obtain ⟨hworker, hnone, k, d', hd', hcall, hk⟩ := h.awaited i d hd hi
      refine ⟨hworker, hnone, k, d', ?_, hcall, hk⟩
      rw [get?_setCoroutine, if_neg]
      · exact hd'
      · rintro rfl
        exact absurd (hd'.symm.trans hfree) (by simp)
  · intro role i d hi hd
    rcases hget hd with ⟨rfl, rfl⟩ | hd
    · exact ⟨hcancelled, htask role hi⟩
    · exact h.task role i d hi hd
  · intro k d hd hrole i d' hd' hworker
    rcases hget hd with ⟨rfl, rfl⟩ | hold
    · rcases hget hd' with ⟨rfl, rfl⟩ | hold'
      · rcases hrole with hrole | hrole <;> rw [hrole] at hworker <;> cases hworker
      · exact (hbeside i d' hold').quelled hrole hworker
    · rcases hget hd' with ⟨rfl, rfl⟩ | hold'
      · exact absurd hrole ((hbeside k d hold).called hworker)
      · exact h.quelled k d hold hrole i d' hold' hworker
  · intro k d hd hrole i d' hd' hworker
    rcases hget hd with ⟨rfl, rfl⟩ | hold
    · rcases hget hd' with ⟨rfl, rfl⟩ | hold'
      · rw [hrole] at hworker
        cases hworker
      · exact (hbeside i d' hold').tail hrole hworker
    · rcases hget hd' with ⟨rfl, rfl⟩ | hold'
      · exact (hbeside k d hold).tailed hrole hworker
      · exact h.tail k d hold hrole i d' hold' hworker
  · intro i call observed hd
    rcases hget hd with ⟨-, heq⟩ | hd
    · exact hrefreshes call observed heq.symm
    · exact h.refreshes i call observed hd
  · intro i j d d' hd hd' hopens hcall
    rcases hget hd with ⟨rfl, rfl⟩ | hold
    · rcases hget hd' with ⟨rfl, -⟩ | hold'
      · rfl
      · exact absurd (hcall.symm.trans ((hbeside j d' hold').alone hopens)) (by decide)
    · rcases hget hd' with ⟨rfl, rfl⟩ | hold'
      · exact absurd (hopens.symm.trans ((hbeside i d hold).opened hcall)) (by decide)
      · exact h.alone i j d d' hold hold' hopens hcall
  · intro i d observed hd hi hseen
    rcases hget hd with ⟨rfl, rfl⟩ | hd
    · exact hfetches observed hseen
    · exact h.fetches i d observed hd hi hseen
  · intro i d hd hrole
    rcases hget hd with ⟨rfl, rfl⟩ | hd
    · exact Or.inr (hcloses hrole)
    · exact h.closes i d hd hrole

theorem taskOf_of_ne {role : PollingRole} (h : role ≠ .poll) : s.taskOf role = s.reconnectTask := by
  cases role <;> first | rfl | exact absurd rfl h

/-- Whoever runs a call is not suspended, and the field of the reconnect loop holds it just when
it is that loop. -/
structure Caller (s : PollingAdapter) (id : ℕ) (call : PollingCall) : Prop where
  fresh : id < s.nextId
  cancelled : id ∉ s.cancelled
  free : s.coroutines.get? id = none
  poll : s.pollTask ≠ some id
  loop : s.reconnectTask = some id ↔ ∃ rest, call = .reconnectLoop rest

variable {id : ℕ} {call : PollingCall}

theorem Caller.congr (h : s.Caller id call) (hcoroutines : t.coroutines = s.coroutines)
    (hcancelled : t.cancelled = s.cancelled) (hnext : s.nextId ≤ t.nextId)
    (hpoll : t.pollTask = s.pollTask ∨ t.pollTask = none)
    (hloop : t.reconnectTask = s.reconnectTask) : t.Caller id call := by
  refine ⟨h.fresh.trans_le hnext, ?_, ?_, ?_, ?_⟩
  · rw [hcancelled]
    exact h.cancelled
  · rw [hcoroutines]
    exact h.free
  · rcases hpoll with heq | heq
    · rw [heq]
      exact h.poll
    · rw [heq]
      simp
  · rw [hloop]
    exact h.loop

/-- The runner of a call is suspended in it, or back in its loop. -/
theorem Tidy.suspend (h : s.Tidy config) (hcaller : s.Caller id call) {c : PollingCoroutine}
    (hawaits : c.awaits = none)
    (hworker : c.role.isWorker = true ↔ ∃ rest, call = .reconnectLoop rest) (hpoll : c.role ≠ .poll)
    (hbeside : ∀ j d, s.coroutines.get? j = some d → Beside config c.role (j ∈ s.cancelled) d.role)
    (hfetches : ∀ observed, c.seen? = some observed →
      ∃ n, s.session = some ⟨n, true⟩ ∧ ∀ seen ∈ observed, seen = some n)
    (hrefreshes : ∀ call observed, c = .running call (.refreshing observed) →
      config.broker = .futu)
    (hcloses : c.role = .disconnecting → c = .running .disconnect .closing) :
    (s.setCoroutine id c).Tidy config := by
  refine h.add hcaller.fresh hcaller.cancelled hcaller.free hawaits (fun hc => ?_) ?_ hbeside
    hfetches hrefreshes hcloses
  · rw [taskOf_of_ne hpoll]
    exact hcaller.loop.mpr (hworker.mp hc)
  · intro role hrole
    by_cases hp : role = .poll
    · subst hp
      exact absurd hrole hcaller.poll
    · rw [taskOf_of_ne hp] at hrole
      exact ⟨hworker.mpr (hcaller.loop.mp hrole), ⟨fun h => absurd h hpoll, fun h => absurd h hp⟩⟩

/-- A call cancels the one worker that is live and awaits it. -/
theorem Tidy.quell (h : s.Tidy config) (hcaller : s.Caller id call) {w : ℕ} {b c : PollingCoroutine}
    (hb : s.coroutines.get? w = some b) (hworker : b.role.isWorker = true) (hw : w ∉ s.cancelled)
    (hrole : c.role = .connecting ∧ s.Uncalled ∨ c.role = .disconnecting)
    (hawaits : c.awaits = some w) (hseen : c.seen? = none)
    (hopens : ∀ j d, s.coroutines.get? j = some d → d.role.opens = false)
    (hcoroutines : t.coroutines = (s.setCoroutine id c).coroutines)
    (hcancelled : t.cancelled = w :: s.cancelled) (hnext : t.nextId = s.nextId)
    (htask : ∀ role i, t.taskOf role = some i → s.taskOf role = some i ∧ i ≠ w ∧ i ≠ id)
    (hsession : t.session = s.session) (hpublished : t.published = s.published) : t.Tidy config := by
  have hcall : c.role.isCall = true ∧ c.role.isWorker = false ∧ c.role ≠ .tail := by
    rcases hrole with ⟨hrole, -⟩ | hrole <;> rw [hrole] <;> decide
  have hget : ∀ {j d}, t.coroutines.get? j = some d →
      j = id ∧ d = c ∨ s.coroutines.get? j = some d ∧ j ≠ id := by
    intro j d hd
    rw [hcoroutines, get?_setCoroutine] at hd
    split at hd
    next heq => exact Or.inl ⟨heq, (Option.some.inj hd).symm⟩
    next hne => exact Or.inr ⟨hd, hne⟩
  have hold : ∀ {j d}, s.coroutines.get? j = some d → t.coroutines.get? j = some d := by
    intro j d hd
    rw [hcoroutines, get?_setCoroutine, if_neg]
    · exact hd
    · rintro rfl
      exact absurd (hd.symm.trans hcaller.free) (by simp)
  have hself : t.coroutines.get? id = some c := by
    rw [hcoroutines, get?_setCoroutine, if_pos rfl]
  -- every live worker is `w`
  have hone : ∀ {i d}, t.coroutines.get? i = some d → d.role.isWorker = true →
      i = w ∧ s.coroutines.get? i = some d := by
    intro i d hd hdworker
    rcases hget hd with ⟨rfl, rfl⟩ | ⟨hd, -⟩
    · exact absurd (hdworker.symm.trans hcall.2.1) (by decide)
    · exact ⟨h.one i w d b hd hb hdworker hworker, hd⟩
  have hmem : w ∈ t.cancelled := by
    rw [hcancelled]
    exact List.mem_cons_self
  refine ⟨?_, ?_, ?_, ?_, ?_, ?_, ?_, ?_, ?_, ?_, ?_, ?_, ?_, ?_⟩
  · intro i d hd
    rw [hnext]
    rcases hget hd with ⟨rfl, -⟩ | ⟨hd, -⟩
    · exact hcaller.fresh
    · exact h.fresh i d hd
  · rw [hcancelled, hnext]
    intro i hi
    rcases List.mem_cons.mp hi with rfl | hi
    · exact h.fresh i b hb
    · exact h.freshCancelled i hi
  · intro role i hi
    rw [hnext]
    exact h.freshTask role i (htask role i hi).1
  · intro i j d d' hd hd' hdworker hdworker'
    exact (hone hd hdworker).1.trans (hone hd' hdworker').1.symm
  · intro i d hd hdworker hi
    obtain ⟨rfl, -⟩ := hone hd hdworker
    exact absurd hmem hi
  · intro i d hd hi
    rw [hcancelled] at hi
    rcases hget hd with ⟨rfl, rfl⟩ | ⟨hd, -⟩
    · rcases List.mem_cons.mp hi with rfl | hi
      · exact absurd (hb.symm.trans hcaller.free) (by simp)
      · exact absurd hi hcaller.cancelled
    · rcases List.mem_cons.mp hi with rfl | hi
      · obtain rfl := Option.some.inj (hb.symm.trans hd)
        exact ⟨hworker, (h.held i b hb hworker hw).2, id, c, hself, hcall.1, hawaits⟩
      · obtain ⟨hdworker, hnone, k, d', hd', hcalled, hk⟩ := h.awaited i d hd hi
        exact ⟨hdworker, hnone, k, d', hold hd', hcalled, hk⟩
  · intro role i d hi hd
    obtain ⟨hi, hne, hneid⟩ := htask role i hi
    rcases hget hd with ⟨heq, -⟩ | ⟨hd, -⟩
    · exact absurd heq hneid
    · obtain ⟨-, hdworker, -⟩ := h.task role i d hi hd
      exact absurd (h.one i w d b hd hb hdworker hworker) hne
  · intro k d hd hkind i d' hd' hdworker
    obtain ⟨rfl, -⟩ := hone hd' hdworker
    exact hmem
  · intro k d hd hkind
    rcases hget hd with ⟨rfl, rfl⟩ | ⟨hd, -⟩
    · exact absurd hkind hcall.2.2
    · have hopen := hopens k d hd
      rw [hkind] at hopen
      cases hopen
  · intro i call observed hd
    rcases hget hd with ⟨-, rfl⟩ | ⟨hd, -⟩
    · cases hseen
    · exact h.refreshes i call observed hd
  · intro i j d d' hd hd' hdopens hdcall
    rcases hget hd with ⟨rfl, rfl⟩ | ⟨hd, -⟩
    · rcases hget hd' with ⟨rfl, -⟩ | ⟨hd', -⟩
      · rfl
      · rcases hrole with ⟨-, huncalled⟩ | hrole
        · exact absurd (hdcall.symm.trans (huncalled j d' hd')) (by decide)
        · rw [hrole] at hdopens
          cases hdopens
    · exact absurd (hdopens.symm.trans (hopens i d hd)) (by decide)
  · intro i d observed hd hi hdseen
    rcases hget hd with ⟨rfl, rfl⟩ | ⟨hd, -⟩
    · exact absurd (hdseen.symm.trans hseen) (by simp)
    · rw [hsession]
      exact h.fetches i d observed hd (fun h => hi (hcancelled ▸ List.mem_cons_of_mem w h)) hdseen
  · intro i d hd hkind
    rcases hget hd with ⟨rfl, rfl⟩ | ⟨hd, -⟩
    · exact Or.inl (by simp [hawaits])
    · exact h.closes i d hd hkind
  · rw [hpublished]
    exact h.published

/-- No uncancelled fetch is in progress that will be published. -/
def Unfetched (s : PollingAdapter) : Prop :=
  ∀ i c, s.coroutines.get? i = some c → i ∉ s.cancelled → c.seen? = none

/-- Where the uncancelled workers are loops between attempts and no connecting call is live. -/
theorem Tidy.unfetched (h : s.Tidy config)
    (hworkers : ∀ i c, s.coroutines.get? i = some c → i ∉ s.cancelled → c.role.isWorker = true →
      c.role = .loop)
    (hcalls : ∀ i c, s.coroutines.get? i = some c → c.role ≠ .connecting) : s.Unfetched := by
  intro i c hc hi
  cases hseen : c.seen? with
  | none => rfl
  | some observed =>
    rcases PollingCoroutine.role_of_seen hseen with hrole | hrole | hrole | hrole
    · have hloop := hworkers i c hc hi (by rw [hrole]; rfl)
      rw [hrole] at hloop
      cases hloop
    · have hloop := hworkers i c hc hi (by rw [hrole]; rfl)
      rw [hrole] at hloop
      cases hloop
    · exact absurd hrole (hcalls i c hc)
    · rcases h.closes i c hc hrole with hawaits | heq
      · exact absurd (PollingCoroutine.awaits_of_seen hseen) hawaits
      · rw [heq] at hseen
        cases hseen

theorem Idle.unfetched (h : s.Idle) (htidy : s.Tidy config) : s.Unfetched :=
  htidy.unfetched (fun _ _ hc _ hworker => absurd hworker (h.not_worker hc)) fun i c hc => by
    rw [h i c hc]
    decide

/-- The state, the session and the tasks that hold nothing live may change where nothing is
fetched. -/
theorem Tidy.update (h : s.Tidy config) (hunfetched : s.Unfetched)
    (hcoroutines : t.coroutines = s.coroutines) (hcancelled : t.cancelled = s.cancelled)
    (hnext : s.nextId ≤ t.nextId) (hpoll : t.pollTask = s.pollTask)
    (hloop : t.reconnectTask = s.reconnectTask) (hpublished : t.published = s.published) :
    t.Tidy config := by
  have htask : ∀ role, t.taskOf role = s.taskOf role := by
    intro role
    cases role <;> first | exact hpoll | exact hloop
  refine h.congr (hcoroutines ▸ .refl _) hcancelled hnext (fun role i hi => ?_)
    (fun _ _ _ _ _ => htask _)
    (fun i c observed hc hi hseen => ?_) (hpublished ▸ h.published)
  · rw [htask] at hi
    exact ⟨(h.freshTask role i hi).trans_le hnext, Or.inl hi⟩
  · exact absurd (hseen.symm.trans (hunfetched i c hc hi)) (by simp)

theorem enterReconnecting_cases (s : PollingAdapter) (config : PollingConfig) (current : ℕ) :
    (∃ state, s.enterReconnecting config current = { s with state := state }) ∨
      s.ReconnectDone current ∧ s.enterReconnecting config current =
        { s.setCoroutine s.nextId .loopCreated with
          state := .reconnecting, reconnectTask := some s.nextId, nextId := s.nextId + 1 } := by
  unfold enterReconnecting
  split
  next => exact Or.inl ⟨s.state, rfl⟩
  next =>
    split
    next => exact Or.inl ⟨_, rfl⟩
    next =>
      split
      next hdone => exact Or.inr ⟨hdone, rfl⟩
      next => exact Or.inl ⟨_, rfl⟩

/-- A new task where no worker is live: its field held nothing that is. -/
theorem Idle.spawn (h : s.Idle) (htidy : s.Tidy config) {c : PollingCoroutine}
    (hworker : c.role.isWorker = true) (hawaits : c.awaits = none)
    (hcoroutines : t.coroutines = (s.setCoroutine s.nextId c).coroutines)
    (hcancelled : t.cancelled = s.cancelled) (hnext : t.nextId = s.nextId + 1)
    (htask : ∀ role, t.taskOf role =
      if role = .poll ↔ c.role = .poll then some s.nextId else s.taskOf role)
    (hfetches : ∀ observed, c.seen? = some observed →
      ∃ n, t.session = some ⟨n, true⟩ ∧ ∀ seen ∈ observed, seen = some n)
    (hrefreshes : ∀ call observed, c = .running call (.refreshing observed) →
      config.broker = .futu)
    (hpublished : ∀ p ∈ t.published, p.Whole) : t.Tidy config := by
  have hfree : s.coroutines.get? s.nextId = none := by
    cases hget : s.coroutines.get? s.nextId with
    | none => rfl
    | some d => exact absurd (htidy.fresh _ d hget) (lt_irrefl _)
  have hbase : Tidy config { t with coroutines := s.coroutines } := by
    refine htidy.congr (.refl _) hcancelled (hnext ▸ Nat.le_succ _) (fun role i hi => ?_)
      (fun i d hd hdworker => absurd hdworker (h.not_worker hd))
      (fun i d observed hd hi hseen => ?_) hpublished
    · have hi' := (htask role).symm.trans hi
      split at hi'
      next =>
        obtain rfl := Option.some.inj hi'
        exact ⟨hnext ▸ Nat.lt_succ_self _, Or.inr hfree⟩
      next => exact ⟨hnext ▸ Nat.lt_succ_of_lt (htidy.freshTask role i hi'), Or.inl hi'⟩
    · exact absurd (hseen.symm.trans (h.unfetched htidy i d hd hi)) (by simp)
  have hadd : (setCoroutine { t with coroutines := s.coroutines } s.nextId c).Tidy config := by
    refine hbase.add (hnext ▸ Nat.lt_succ_self _) ?_ hfree hawaits (fun _ => ?_) ?_ ?_ hfetches
      hrefreshes ?_
    · intro hmem
      exact absurd (htidy.freshCancelled _ (hcancelled ▸ hmem)) (lt_irrefl _)
    · exact (htask c.role).trans (if_pos Iff.rfl)
    · intro role hrole
      have hrole' := (htask role).symm.trans hrole
      split at hrole'
      next hiff => exact ⟨hworker, hiff.symm⟩
      next => exact absurd (htidy.freshTask role _ hrole') (lt_irrefl _)
    · intro j d hd
      rw [h j d hd]
      exact .of_reader _ _
    · intro hrole
      rw [hrole] at hworker
      cases hworker
  have heq : setCoroutine { t with coroutines := s.coroutines } s.nextId c = t := by
    cases t
    subst hcoroutines
    rfl
  rwa [heq] at hadd

/-- The runner of a `start()` or `connect()` beside nothing but a loop between its attempts; that
of a reconnect loop beside no worker at all. -/
structure Ready (config : PollingConfig) (s : PollingAdapter) (id : ℕ) (call : PollingCall) : Prop where
  tidy : s.Tidy config
  caller : s.Caller id call
  uncalled : s.Uncalled
  workers : ∀ i c, s.coroutines.get? i = some c → c.role.isWorker = true →
    c.role = .loop ∧ config.broker = .futu
  idle : (∃ rest, call = .reconnectLoop rest) → s.Idle

theorem Idle.ready (h : s.Idle) (htidy : s.Tidy config) (hcaller : s.Caller id call) : s.Ready config id call :=
  ⟨htidy, hcaller, h.uncalled, fun _ _ hc hworker => absurd hworker (h.not_worker hc), fun _ => h⟩

theorem Ready.unfetched (h : s.Ready config id call) : s.Unfetched :=
  h.tidy.unfetched (fun i c hc _ hworker => (h.workers i c hc hworker).1) fun i c hc hrole => by
    have hcall := h.uncalled i c hc
    rw [hrole] at hcall
    cases hcall

theorem Ready.update (h : s.Ready config id call) (hcoroutines : t.coroutines = s.coroutines)
    (hcancelled : t.cancelled = s.cancelled) (hnext : s.nextId ≤ t.nextId)
    (hpoll : t.pollTask = s.pollTask) (hloop : t.reconnectTask = s.reconnectTask)
    (hpublished : t.published = s.published) : t.Ready config id call := by
  refine ⟨h.tidy.update h.unfetched hcoroutines hcancelled hnext hpoll hloop hpublished,
    h.caller.congr hcoroutines hcancelled hnext (Or.inl hpoll) hloop, ?_, ?_, ?_⟩
  · unfold Uncalled
    rw [hcoroutines]
    exact h.uncalled
  · rw [hcoroutines]
    exact h.workers
  · unfold Idle
    rw [hcoroutines]
    exact h.idle

theorem Ready.suspend (h : s.Ready config id call) {c : PollingCoroutine} (hawaits : c.awaits = none)
    (hrole : (∃ rest, call = .reconnectLoop rest) ∧ (c.role = .loop ∨ c.role = .attempt) ∨
      (¬ ∃ rest, call = .reconnectLoop rest) ∧ c.role = .tail)
    (hseen : c.seen? = none) : (s.setCoroutine id c).Tidy config := by
  refine h.tidy.suspend h.caller hawaits ?_ ?_ ?_
    (fun observed hobserved => absurd (hobserved.symm.trans hseen) (by simp))
    (fun _ _ heq => ?_) fun hkind => ?_
  · rcases hrole with ⟨hloop, hrole | hrole⟩ | ⟨hnot, hrole⟩
    · simp [hrole, hloop, PollingRole.isWorker]
    · simp [hrole, hloop, PollingRole.isWorker]
    · simp [hrole, hnot, PollingRole.isWorker]
  · rcases hrole with ⟨-, hrole | hrole⟩ | ⟨-, hrole⟩ <;> rw [hrole] <;> decide
  · intro j d hd
    rcases hrole with ⟨hloop, -⟩ | ⟨-, hrole⟩
    · rw [h.idle hloop j d hd]
      exact .of_reader _ _
    · have hcall := h.uncalled j d hd
      have hloop := h.workers j d hd
      rw [hrole]
      constructor <;> revert hcall hloop <;> cases d.role <;>
        simp +contextual [PollingRole.isWorker, PollingRole.isCall, PollingRole.opens]
  · rw [heq] at hseen
    cases hseen
  · rcases hrole with ⟨-, hrole | hrole⟩ | ⟨-, hrole⟩ <;> rw [hrole] at hkind <;> cases hkind

/-- `_enter_reconnecting` creates a loop only where none is live. -/
theorem Tidy.enterReconnecting (h : s.Tidy config) (huncalled : s.Uncalled)
    (hworkers : ∀ i c, s.coroutines.get? i = some c → c.role.isWorker = true → c.role = .loop)
    (current : ℕ) :
    (s.enterReconnecting config current).Tidy config ∧ (s.enterReconnecting config current).Uncalled ∧
      ∀ i c, (s.enterReconnecting config current).coroutines.get? i = some c →
        c.role.isWorker = true → c.role = .loop := by
  rcases enterReconnecting_cases s config current with ⟨state, heq⟩ | ⟨hdone, heq⟩
  · rw [heq]
    refine ⟨h.congr (.refl _) rfl le_rfl (fun role i hi => ⟨h.freshTask role i hi, Or.inl hi⟩)
      (fun _ _ _ _ _ => rfl) (fun _ _ _ _ _ _ => rfl) h.published, huncalled, hworkers⟩
  · have hidle : s.Idle := by
      refine h.idle huncalled fun i c hc hworker => absurd hc ?_
      have hi := h.not_cancelled huncalled hc
      have htask := (h.held i c hc hworker hi).1
      rw [hworkers i c hc hworker] at htask
      exact fun hc => (hdone i htask).2 (OrderedDict.mem_keys_iff.mpr ⟨c, hc⟩)
    rw [heq]
    have hget : ∀ {i c}, (s.setCoroutine s.nextId .loopCreated).coroutines.get? i = some c →
        c.role = .loop ∨ c.role = .reader := by
      intro i c hc
      rw [get?_setCoroutine] at hc
      split at hc
      next =>
        obtain rfl := Option.some.inj hc
        exact Or.inl rfl
      next => exact Or.inr (hidle i c hc)
    refine ⟨hidle.spawn h (c := .loopCreated) rfl rfl rfl rfl rfl ?_ ?_ ?_ h.published, ?_, ?_⟩
    · intro role
      cases role <;> simp [taskOf, PollingCoroutine.role, setCoroutine]
    · intro observed hobserved
      cases hobserved
    · intro call observed heq
      cases heq
    · intro i c hc
      rcases hget hc with hrole | hrole <;> rw [hrole] <;> rfl
    · intro i c hc hworker
      rcases hget hc with hrole | hrole
      · exact hrole
      · rw [hrole] at hworker
        cases hworker

theorem Tidy.setState (h : s.Tidy config) (state : ConnectionState) : Tidy config { s with state := state } :=
  h.congr (.refl _) rfl le_rfl (fun role i hi => ⟨h.freshTask role i hi, Or.inl hi⟩)
    (fun _ _ _ _ _ => rfl) (fun _ _ _ _ _ _ => rfl) h.published

theorem Tidy.nextDelay (h : s.Tidy config) {rest : List ℚ} (hcaller : s.Caller id (.reconnectLoop rest))
    (hbeside : ∀ j d, s.coroutines.get? j = some d → Beside config .loop (j ∈ s.cancelled) d.role) :
    ∀ delays, (s.nextDelay id delays).Tidy config
  | [] => h.setState .disconnected
  | _ :: rest => h.suspend hcaller (c := .loopSleeping rest) rfl
      ⟨fun _ => ⟨_, rfl⟩, fun _ => rfl⟩ (by simp [PollingCoroutine.role]) hbeside
      (fun _ hobserved => by cases hobserved) (fun _ _ heq => by cases heq)
      (fun hrole => by cases hrole)

theorem Ready.startFailed (h : s.Ready config id call) (invalid : Bool) :
    (s.startFailed config id invalid).Tidy config := by
  unfold PollingAdapter.startFailed
  split
  next => exact h.tidy.setState .disconnected
  next =>
    exact (h.tidy.enterReconnecting h.uncalled (fun i c hc hworker => (h.workers i c hc hworker).1)
      id).1

theorem Ready.raised (h : s.Ready config id call) (invalid : Bool) (turn : PollingTurn) :
    (s.raised config id invalid turn call).Tidy config := by
  unfold PollingAdapter.raised
  cases call with
  | start =>
    have hclosed : s.closeSession.Ready config id .start := h.update rfl rfl le_rfl rfl rfl rfl
    dsimp only
    split
    next => exact hclosed.suspend rfl (Or.inr ⟨by simp, rfl⟩) rfl
    next => exact hclosed.startFailed invalid
  | connect => exact h.tidy
  | reconnectLoop rest =>
    dsimp only
    split
    next => exact h.tidy.setState .disconnected
    next =>
      have hstate : Ready config { s with state := .reconnecting } id (.reconnectLoop rest) :=
        h.update rfl rfl le_rfl rfl rfl rfl
      refine hstate.tidy.nextDelay hstate.caller (fun j d hd => ?_) rest
      rw [hstate.idle ⟨rest, rfl⟩ j d hd]
      exact .of_reader _ _
  | disconnect => exact h.tidy

theorem Ready.failureClosed (h : s.Ready config id call) (invalid : Bool) (turn : PollingTurn) :
    (s.failureClosed config id call invalid turn).Tidy config := by
  unfold PollingAdapter.failureClosed
  split
  next => exact h.raised invalid turn
  next =>
    have hstate : Ready config { s with state := .disconnected } id call :=
      h.update rfl rfl le_rfl rfl rfl rfl
    exact hstate.raised invalid turn

theorem Ready.failed (h : s.Ready config id call) (hcall : call ≠ .disconnect) (invalid : Bool)
    (turn : PollingTurn) : (s.failed config id call invalid turn).Tidy config := by
  have hstate : ∀ state, Ready config { s with state := state, session := none } id call := fun _ =>
    h.update rfl rfl le_rfl rfl rfl rfl
  have hfailing : ∀ state, (setCoroutine { s with state := state, session := none } id
      (.running call (.failing invalid))).Tidy config := by
    intro state
    refine (hstate state).suspend rfl ?_ rfl
    cases call with
    | start => exact Or.inr ⟨by simp, rfl⟩
    | connect => exact Or.inr ⟨by simp, rfl⟩
    | reconnectLoop rest => exact Or.inl ⟨⟨rest, rfl⟩, Or.inr rfl⟩
    | disconnect => exact absurd rfl hcall
  have hcloses : ∀ state, Tidy config (if (decide (config.broker = .futu) || s.session.isSome) &&
      turn.closeAwaits then
        setCoroutine { s with state := state, session := none } id (.running call (.failing invalid))
      else PollingAdapter.failureClosed { s with state := state, session := none } config id call invalid turn) := by
    intro state
    split
    next => exact hfailing state
    next => exact (hstate state).failureClosed invalid turn
  unfold PollingAdapter.failed
  by_cases hfutu : config.broker = .futu
  · rw [if_pos hfutu]
    exact hcloses .disconnected
  · rw [if_neg hfutu]
    exact hcloses s.state

/-- Everything seen is the complete session that is held. -/
def Sees (s : PollingAdapter) (observed : List (Option ℕ)) : Prop :=
  ∃ n, s.session = some ⟨n, true⟩ ∧ ∀ seen ∈ observed, seen = some n

theorem Sees.whole {observed : List (Option ℕ)} (h : s.Sees observed) :
    Publication.Whole ⟨observed, s.seen⟩ := by
  obtain ⟨n, hsession, hobserved⟩ := h
  exact ⟨n, by simp [seen, hsession], hobserved⟩

theorem Sees.cons {observed : List (Option ℕ)} (h : s.Sees observed) :
    s.Sees (s.seen :: observed) := by
  obtain ⟨n, hsession, hobserved⟩ := h
  refine ⟨n, hsession, fun o ho => ?_⟩
  rcases List.mem_cons.mp ho with rfl | ho
  · simp [seen, hsession]
  · exact hobserved o ho

theorem Sees.nil {observed : List (Option ℕ)} (h : s.Sees observed) : s.Sees [] := by
  obtain ⟨n, hsession, -⟩ := h
  exact ⟨n, hsession, by simp⟩

/-- The end of `connect()`: the list is whole, and the new poll loop the only worker. -/
theorem Idle.connected (h : s.Idle) (htidy : s.Tidy config) {observed : List (Option ℕ)}
    (hsees : s.Sees observed) : (s.connected config observed).Tidy config := by
  have hpublished : ∀ u : PollingAdapter, u = { s with state := .connected } ∨
      u = { s with state := .connected }.publish observed →
        u.Idle ∧ u.Tidy config ∧ u.Sees [] := by
    rintro u (rfl | rfl)
    · exact ⟨h, htidy.setState .connected, hsees.nil⟩
    · refine ⟨h, ?_, hsees.nil⟩
      refine htidy.congr (.refl _) rfl le_rfl (fun role i hi => ⟨htidy.freshTask role i hi, Or.inl hi⟩)
        (fun _ _ _ _ _ => rfl) (fun _ _ _ _ _ _ => rfl) fun p hp => ?_
      rcases List.mem_cons.mp hp with rfl | hp
      · exact hsees.whole
      · exact htidy.published p hp
  have hpolls : ∀ u : PollingAdapter, u.Idle ∧ u.Tidy config ∧ u.Sees [] → u.startPolling.Tidy config := by
    rintro u ⟨hidle, hu, hsees⟩
    refine hidle.spawn hu (c := .pollSleeping) rfl rfl rfl rfl rfl ?_ ?_ ?_ hu.published
    · intro role
      cases role <;> simp [taskOf, PollingCoroutine.role, startPolling, setCoroutine]
    · rintro observed ⟨⟩
      exact hsees
    · intro call observed heq
      cases heq
  unfold PollingAdapter.connected
  dsimp only
  split
  next =>
    split
    next => exact hpolls _ (hpublished _ (Or.inr rfl))
    next => exact hpolls _ (hpublished _ (Or.inl rfl))
  next =>
    split
    next => exact (hpublished _ (Or.inr rfl)).2.1
    next => exact (hpublished _ (Or.inl rfl)).2.1

/-- An attempt goes on where nothing else is live. -/
theorem Idle.suspend (h : s.Idle) (htidy : s.Tidy config) (hcaller : s.Caller id call)
    (hcall : call ≠ .disconnect) {stage : PollingStage}
    (hstage : stage = .closing ∨ stage = .opening ∨
      (∃ observed, stage = .loading observed ∧ s.Sees observed) ∨
        config.broker = .futu ∧ ∃ observed, stage = .refreshing observed ∧ s.Sees observed) :
    (s.setCoroutine id (.running call stage)).Tidy config := by
  have hrole : ((∃ rest, call = .reconnectLoop rest) ∧ call.role stage = .attempt) ∨
      (¬ ∃ rest, call = .reconnectLoop rest) ∧ call.role stage = .connecting := by
    rcases hstage with rfl | rfl | ⟨observed, rfl, -⟩ | ⟨-, observed, rfl, -⟩ <;>
      cases call <;> simp_all [PollingCall.role]
  refine htidy.suspend hcaller ?_ ?_ ?_ (fun j d hd => ?_) ?_ ?_ ?_
  · rcases hstage with rfl | rfl | ⟨observed, rfl, -⟩ | ⟨-, observed, rfl, -⟩ <;> rfl
  · rcases hrole with ⟨hloop, hrole⟩ | ⟨hloop, hrole⟩
    · simp [PollingCoroutine.role, hrole, hloop, PollingRole.isWorker]
    · simp [PollingCoroutine.role, hrole, hloop, PollingRole.isWorker]
  · rcases hrole with ⟨-, hrole⟩ | ⟨-, hrole⟩ <;> simp [PollingCoroutine.role, hrole]
  · rw [h j d hd]
    exact .of_reader _ _
  · intro observed hobserved
    rcases hstage with rfl | rfl | ⟨observed', rfl, hsees⟩ | ⟨-, observed', rfl, hsees⟩
    · cases hobserved
    · cases hobserved
    · obtain rfl := Option.some.inj hobserved
      exact hsees
    · obtain rfl := Option.some.inj hobserved
      exact hsees
  · intro call' observed heq
    obtain ⟨-, rfl⟩ := PollingCoroutine.running.inj heq
    rcases hstage with hstage | hstage | ⟨observed', hstage, -⟩ | ⟨hfutu, -⟩
    · cases hstage
    · cases hstage
    · cases hstage
    · exact hfutu
  · intro hdisconnecting
    rcases hrole with ⟨-, hrole⟩ | ⟨-, hrole⟩ <;>
      exact absurd (hrole.symm.trans hdisconnecting) (by decide)

theorem Idle.loaded (h : s.Idle) (htidy : s.Tidy config) (hcaller : s.Caller id call)
    (hcall : call ≠ .disconnect) {observed : List (Option ℕ)} (hsees : s.Sees observed)
    (turn : PollingTurn) : (s.loaded config id call observed turn).Tidy config := by
  unfold PollingAdapter.loaded
  split
  next hfutu =>
    split
    next =>
      have hstate : Caller { s with state := .connected } id call :=
        hcaller.congr rfl rfl le_rfl (Or.inl rfl) rfl
      exact Idle.suspend (s := { s with state := .connected }) h (htidy.setState _) hstate hcall
        (Or.inr (Or.inr (Or.inr ⟨hfutu, _, rfl, hsees.nil.cons⟩)))
    next => exact h.connected htidy hsees.nil
  next => exact h.connected htidy hsees

theorem Idle.openSession (h : s.Idle) (htidy : s.Tidy config) (hcaller : s.Caller id call)
    (hcall : call ≠ .disconnect) (turn : PollingTurn) :
    (s.openSession config id call turn).Tidy config := by
  have hheld : ∀ complete, Ready config { s with
      session := some ⟨s.nextId, complete⟩, nextId := s.nextId + 1 } id call := fun _ =>
    (h.ready htidy hcaller).update rfl rfl (Nat.le_succ _) rfl rfl rfl
  unfold PollingAdapter.openSession
  split
  next =>
    split
    next => exact h.suspend htidy hcaller hcall (Or.inr (Or.inl rfl))
    next =>
      have hsees : Sees { s with session := some ⟨s.nextId, true⟩, nextId := s.nextId + 1 }
          [some s.nextId] := ⟨s.nextId, rfl, by simp⟩
      exact Idle.suspend (s := { s with
        session := some ⟨s.nextId, true⟩, nextId := s.nextId + 1 }) h (hheld true).tidy
        (hheld true).caller hcall (Or.inr (Or.inr (Or.inl ⟨_, rfl, hsees⟩)))
  next =>
    split
    next => exact (hheld false).raised _ turn
    next => exact (h.ready htidy hcaller).raised _ turn

end PollingAdapter

end PortfolioHub
