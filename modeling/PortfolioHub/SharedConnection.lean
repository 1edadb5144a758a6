import PortfolioHub.Transition

universe u v w

/-- Where a write stands: handed to the connection, run, and on the disk with what ran before. -/
inductive WriteStage (ρ : Type w) where
  | queued
  | executed (answer : ρ)
  | committed (answer : ρ)
deriving DecidableEq, Repr

structure WriteCall (ω : Type u) (ρ : Type w) where
  write : ω
  stage : WriteStage ρ
  cancelled : Bool
deriving DecidableEq, Repr

/-- What a call has answered, and how many calls there were by then. -/
structure WriteReturn (ρ : Type w) where
  id : ℕ
  answer : ρ
  issued : ℕ
deriving DecidableEq, Repr

/-- One connection that several calls write over: the state on the disk and the state the
connection sees, the calls in flight, and a record of the writes issued, of those that have run
since the disk was opened or before, of those that were rolled back, and of the returns. -/
structure SharedConnection (ω : Type u) (σ : Type v) (ρ : Type w) where
  disk : σ
  view : σ
  calls : OrderedDict ℕ (WriteCall ω ρ)
  issued : List ω
  log : List (ℕ × ω)
  durable : ℕ
  undone : List ℕ
  returned : List (WriteReturn ρ)

inductive ConnectionEvent (ω : Type u) where
  | call (write : ω)
  | execute (id : ℕ)
  | commit (id : ℕ)
  | finish (id : ℕ)
  | cancel (id : ℕ)
  /-- What is awaited raises, or the work of a cancelled call comes to nothing. -/
  | fail (id : ℕ)
  /-- A failure such as a full disk undoes the open transaction: all that has run since the last
  commit. The calls do not notice. -/
  | rollback
  /-- The process ends, and another one opens the disk. -/
  | crash
deriving DecidableEq, Repr

namespace SharedConnection

variable {ω : Type u} {σ : Type v} {ρ : Type w}

def init (disk : σ) : SharedConnection ω σ ρ := ⟨disk, disk, .empty, [], [], 0, [], []⟩

variable (run : ω → σ → Option (σ × ρ))

def drop (s : SharedConnection ω σ ρ) (id : ℕ) : SharedConnection ω σ ρ :=
  { s with calls := s.calls.filterKeys (· ≠ id) }

/-- A write runs in the state the connection sees; one that raises ends its call. -/
def runWrite (s : SharedConnection ω σ ρ) (id : ℕ) (c : WriteCall ω ρ) : SharedConnection ω σ ρ :=
  match run c.write s.view with
  | none => s.drop id
  | some (view, answer) =>
    { s with
      view := view
      calls := s.calls.insert id { c with stage := .executed answer }
      log := s.log ++ [(id, c.write)] }

def step (s : SharedConnection ω σ ρ) : ConnectionEvent ω → Option (SharedConnection ω σ ρ)
  | .call write => some
    { s with
      calls := s.calls.insert s.issued.length ⟨write, .queued, false⟩
      issued := s.issued ++ [write] }
  | .execute id =>
    match s.calls.get? id with
    | some c =>
      match c.stage with
      | .queued => some (s.runWrite run id c)
      | _ => none
    | none => none
  | .commit id =>
    match s.calls.get? id with
    | some c =>
      match c.stage with
      | .executed answer => some
        { s with
          disk := s.view
          calls := s.calls.insert id { c with stage := .committed answer }
          durable := s.log.length }
      | _ => none
    | none => none
  | .finish id =>
    match s.calls.get? id with
    | some c =>
      match c.stage with
      | .committed answer =>
        if c.cancelled then none
        else some { s.drop id with returned := ⟨id, answer, s.issued.length⟩ :: s.returned }
      | _ => none
    | none => none
  | .cancel id =>
    match s.calls.get? id with
    | some c => some { s with calls := s.calls.insert id { c with cancelled := true } }
    | none => none
  | .fail id =>
    match s.calls.get? id with
    | some _ => some (s.drop id)
    | none => none
  | .rollback => some
    { s with
      view := s.disk
      log := s.log.take s.durable
      undone := s.undone ++ (s.log.drop s.durable).map Prod.fst }
  | .crash => some { s with view := s.disk, calls := .empty, log := s.log.take s.durable }

/-- The writes one after the other. -/
def replay (history : List (ℕ × ω)) (disk : σ) : σ :=
  history.foldl (fun state entry => ((run entry.2 state).map Prod.fst).getD state) disk

theorem replay_append (history more : List (ℕ × ω)) (disk : σ) :
    replay run (history ++ more) disk = replay run more (replay run history disk) :=
  List.foldl_append

/-- The write of a call is the `k`-th of a history, and answers there what it answered. -/
structure AnsweredAt (start : σ) (history : List (ℕ × ω)) (id : ℕ) (write : ω) (answer : ρ) (k : ℕ) :
    Prop where
  entry : history[k]? = some (id, write)
  answer : (run write (replay run (history.take k) start)).map Prod.snd = some answer

/-- The stage of a call agrees with what has run. -/
structure CallLogged (start : σ) (s : SharedConnection ω σ ρ) (id : ℕ) (c : WriteCall ω ρ) : Prop where
  write : s.issued[id]? = some c.write
  queued : c.stage = .queued → id ∉ s.log.map Prod.fst ∧ id ∉ s.undone
  executed : ∀ answer, c.stage = .executed answer →
    id ∈ s.undone ∨ ∃ k, AnsweredAt run start s.log id c.write answer k
  committed : ∀ answer, c.stage = .committed answer →
    id ∈ s.undone ∨ ∃ k < s.durable, AnsweredAt run start s.log id c.write answer k

/-- What the record says: the connection sees the writes that have run and were not undone, the disk
has a first part of them, and this part has every call that returned, if it was not undone, with its
answer, ahead of every call issued after the return. -/
structure Logged (start : σ) (s : SharedConnection ω σ ρ) : Prop where
  durable : s.durable ≤ s.log.length
  view : s.view = replay run s.log start
  disk : s.disk = replay run (s.log.take s.durable) start
  once : (s.log.map Prod.fst).Nodup
  issued : ∀ entry ∈ s.log, s.issued[entry.1]? = some entry.2
  calls : ∀ id c, s.calls.get? id = some c → CallLogged run start s id c
  undone : ∀ id ∈ s.undone, id ∉ s.log.map Prod.fst ∧ id < s.issued.length
  returned : ∀ r ∈ s.returned, r.id ∈ s.undone ∨ ∃ write, ∃ k < s.durable,
    AnsweredAt run start s.log r.id write r.answer k ∧
      r.issued ≤ s.issued.length ∧
        ∀ (j : ℕ) entry, s.log[j]? = some entry → r.issued ≤ entry.1 → k < j

variable {run} {start : σ} {s t : SharedConnection ω σ ρ} {id : ℕ} {c : WriteCall ω ρ}

theorem AnsweredAt.lt {history : List (ℕ × ω)} {write : ω} {answer : ρ} {k : ℕ}
    (h : AnsweredAt run start history id write answer k) : k < history.length := by
  obtain ⟨hk, -⟩ := List.getElem?_eq_some_iff.mp h.entry
  exact hk

theorem AnsweredAt.append {history : List (ℕ × ω)} {write : ω} {answer : ρ} {k : ℕ}
    (h : AnsweredAt run start history id write answer k) (more : List (ℕ × ω)) :
    AnsweredAt run start (history ++ more) id write answer k := by
  have hk := h.lt
  refine ⟨?_, ?_⟩
  · rw [List.getElem?_append_left hk]
    exact h.entry
  · rw [List.take_append_of_le_length hk.le]
    exact h.answer

theorem AnsweredAt.take {history : List (ℕ × ω)} {write : ω} {answer : ρ} {k n : ℕ}
    (h : AnsweredAt run start history id write answer k) (hk : k < n) :
    AnsweredAt run start (history.take n) id write answer k := by
  refine ⟨?_, ?_⟩
  · rw [List.getElem?_take_of_lt hk]
    exact h.entry
  · rw [List.take_take, Nat.min_eq_left hk.le]
    exact h.answer

theorem logged_init (start : σ) : Logged run start (init start) := by
  refine ⟨le_refl _, rfl, rfl, List.nodup_nil, ?_, ?_, ?_, ?_⟩
  · intro entry hentry
    cases hentry
  · intro id c hc
    cases hc
  · intro id hid
    cases hid
  · intro r hr
    cases hr

/-- A call after one is put in is this one or an older one of another id. -/
theorem get?_insert_cases {calls : OrderedDict ℕ (WriteCall ω ρ)} {i j : ℕ} {c d : WriteCall ω ρ}
    (h : (calls.insert i c).get? j = some d) : j = i ∧ d = c ∨ j ≠ i ∧ calls.get? j = some d := by
  rw [OrderedDict.get?_insert] at h
  split at h
  next hj => exact Or.inl ⟨hj, (Option.some.inj h).symm⟩
  next hj => exact Or.inr ⟨hj, h⟩

/-- Calls may come and go as long as their stages agree with what has run. -/
theorem Logged.withCalls (h : Logged run start s) {calls : OrderedDict ℕ (WriteCall ω ρ)}
    (hcalls : ∀ id c, calls.get? id = some c → CallLogged run start s id c) :
    Logged run start { s with calls := calls } :=
  ⟨h.durable, h.view, h.disk, h.once, h.issued, fun id c hc =>
    have hlogged := hcalls id c hc
    ⟨hlogged.write, hlogged.queued, hlogged.executed, hlogged.committed⟩, h.undone, h.returned⟩

theorem Logged.drop (h : Logged run start s) (id : ℕ) : Logged run start (s.drop id) := by
  refine h.withCalls fun j c hc => h.calls j c ?_
  rw [OrderedDict.get?_filterKeys] at hc
  split at hc
  next => exact hc
  next => cases hc

/-- A call issued now is ahead of none that has run. -/
theorem Logged.id_lt (h : Logged run start s) {entry : ℕ × ω} (hentry : entry ∈ s.log) :
    entry.1 < s.issued.length := by
  obtain ⟨hlt, -⟩ := List.getElem?_eq_some_iff.mp (h.issued entry hentry)
  exact hlt

theorem Logged.call (h : Logged run start s) (write : ω) : Logged run start
    { s with
      calls := s.calls.insert s.issued.length ⟨write, .queued, false⟩
      issued := s.issued ++ [write] } := by
  have hkeep : ∀ (i : ℕ) w, s.issued[i]? = some w → (s.issued ++ [write])[i]? = some w := by
    intro i w hi
    obtain ⟨hlt, -⟩ := List.getElem?_eq_some_iff.mp hi
    rwa [List.getElem?_append_left hlt]
  have hlonger : s.issued.length ≤ (s.issued ++ [write]).length := by
    rw [List.length_append]
    omega
  refine ⟨h.durable, h.view, h.disk, h.once, fun entry hentry => hkeep _ _ (h.issued entry hentry),
    fun j c hc => ?_, fun j hj => ⟨(h.undone j hj).1, (h.undone j hj).2.trans_le hlonger⟩,
    fun r hr => ?_⟩
  · rcases get?_insert_cases hc with ⟨hj, rfl⟩ | ⟨-, hget⟩
    · subst hj
      refine ⟨by simp, fun _ => ⟨fun hmem => ?_, fun hmem => ?_⟩, fun answer hstage => ?_,
        fun answer hstage => ?_⟩
      · obtain ⟨entry, hentry, hid⟩ := List.mem_map.mp hmem
        have hlt := h.id_lt hentry
        omega
      · exact absurd (h.undone _ hmem).2 (lt_irrefl _)
      · cases hstage
      · cases hstage
    · have hlogged := h.calls j c hget
      exact ⟨hkeep _ _ hlogged.write, hlogged.queued, hlogged.executed, hlogged.committed⟩
  · refine (h.returned r hr).imp_right fun hreturned => ?_
    obtain ⟨w, k, hk, hanswered, hissued, hlater⟩ := hreturned
    exact ⟨w, k, hk, hanswered, hissued.trans hlonger, hlater⟩

theorem CallLogged.append (h : CallLogged run start s id c) {j : ℕ} (hj : j ≠ id) (write : ω)
    {u : SharedConnection ω σ ρ} (hissued : u.issued = s.issued)
    (hlog : u.log = s.log ++ [(j, write)]) (hdurable : u.durable = s.durable)
    (hundone : u.undone = s.undone) : CallLogged run start u id c := by
  refine ⟨by rw [hissued]; exact h.write, fun hqueued => ?_, fun answer hstage => ?_,
    fun answer hstage => ?_⟩
  · obtain ⟨hnot, hkept⟩ := h.queued hqueued
    rw [hlog, List.map_append, List.mem_append, hundone]
    simp [hnot, hj.symm, hkept]
  · rw [hundone]
    refine (h.executed answer hstage).imp_right fun hran => ?_
    obtain ⟨k, hk⟩ := hran
    exact ⟨k, hlog ▸ hk.append _⟩
  · rw [hundone]
    refine (h.committed answer hstage).imp_right fun hran => ?_
    obtain ⟨k, hlt, hk⟩ := hran
    exact ⟨k, hdurable ▸ hlt, hlog ▸ hk.append _⟩

theorem Logged.runWrite (h : Logged run start s) (hc : s.calls.get? id = some c)
    (hqueued : c.stage = .queued) : Logged run start (s.runWrite run id c) := by
  unfold SharedConnection.runWrite
  split
  next => exact h.drop id
  next view answer hrun =>
    have hlogged := h.calls id c hc
    obtain ⟨hnew, hkept⟩ := hlogged.queued hqueued
    have hview : view = replay run (s.log ++ [(id, c.write)]) start := by
      rw [replay_append, ← h.view, replay, List.foldl_cons, List.foldl_nil, hrun]
      rfl
    have hanswered : AnsweredAt run start (s.log ++ [(id, c.write)]) id c.write answer s.log.length := by
      refine ⟨by simp, ?_⟩
      rw [List.take_append_of_le_length (le_refl _), List.take_length, ← h.view, hrun]
      rfl
    have hdurable := h.durable
    refine ⟨?_, hview, ?_, ?_, fun entry hentry => ?_, fun j d hd => ?_, fun j hj => ?_,
      fun r hr => ?_⟩
    · simp only [List.length_append]
      omega
    · simp only [List.take_append_of_le_length h.durable]
      exact h.disk
    · rw [List.map_append]
      refine List.nodup_append.mpr ⟨h.once, List.nodup_singleton _, fun a ha b hb hab => ?_⟩
      obtain rfl : b = id := by simpa using hb
      exact hnew (hab ▸ ha)
    · rcases List.mem_append.mp hentry with hentry | hentry
      · exact h.issued entry hentry
      · obtain rfl : entry = (id, c.write) := by simpa using hentry
        exact hlogged.write
    · rcases get?_insert_cases hd with ⟨hj, rfl⟩ | ⟨hj, hget⟩
      · subst hj
        refine ⟨hlogged.write, fun hstage => ?_, fun answer' hstage => ?_, fun answer' hstage => ?_⟩
        · cases hstage
        · obtain rfl := WriteStage.executed.inj hstage
          exact Or.inr ⟨s.log.length, hanswered⟩
        · cases hstage
      · exact (h.calls j d hget).append (Ne.symm hj) c.write rfl rfl rfl rfl
    · obtain ⟨hnot, hlt⟩ := h.undone j hj
      have hne : j ≠ id := fun heq => hkept (heq ▸ hj)
      refine ⟨?_, hlt⟩
      rw [List.map_append, List.mem_append]
      simp [hnot, hne]
    · refine (h.returned r hr).imp_right fun hreturned => ?_
      obtain ⟨w, k, hk, hanswered', hissued, hlater⟩ := hreturned
      refine ⟨w, k, hk, hanswered'.append _, hissued, fun j entry hentry hle => ?_⟩
      by_cases hj : j < s.log.length
      · have hentry' : (s.log ++ [(id, c.write)])[j]? = some entry := hentry
        rw [List.getElem?_append_left hj] at hentry'
        exact hlater j entry hentry' hle
      · omega

theorem Logged.commit {answer : ρ} (h : Logged run start s) (hc : s.calls.get? id = some c)
    (hstage : c.stage = .executed answer) : Logged run start
      { s with
        disk := s.view
        calls := s.calls.insert id { c with stage := .committed answer }
        durable := s.log.length } := by
  have hdurable := h.durable
  refine ⟨le_refl _, h.view, ?_, h.once, h.issued, fun j d hd => ?_, h.undone, fun r hr => ?_⟩
  · simp only [List.take_length]
    exact h.view
  · have hlogged := h.calls id c hc
    rcases get?_insert_cases hd with ⟨hj, rfl⟩ | ⟨-, hget⟩
    · subst hj
      refine ⟨hlogged.write, fun hstage' => ?_, fun answer' hstage' => ?_, fun answer' hstage' => ?_⟩
      · cases hstage'
      · cases hstage'
      · obtain rfl := WriteStage.committed.inj hstage'
        refine (hlogged.executed answer hstage).imp_right fun hran => ?_
        obtain ⟨k, hk⟩ := hran
        exact ⟨k, hk.lt, hk⟩
    · have hother := h.calls j d hget
      refine ⟨hother.write, hother.queued, hother.executed, fun answer' hstage' => ?_⟩
      refine (hother.committed answer' hstage').imp_right fun hran => ?_
      obtain ⟨k, -, hk⟩ := hran
      exact ⟨k, hk.lt, hk⟩
  · refine (h.returned r hr).imp_right fun hreturned => ?_
    obtain ⟨w, k, -, hrest⟩ := hreturned
    exact ⟨w, k, hrest.1.lt, hrest⟩

theorem Logged.finish {answer : ρ} (h : Logged run start s) (hc : s.calls.get? id = some c)
    (hstage : c.stage = .committed answer) : Logged run start
      { s.drop id with returned := ⟨id, answer, s.issued.length⟩ :: s.returned } := by
  have hdrop := h.drop id
  refine ⟨hdrop.durable, hdrop.view, hdrop.disk, hdrop.once, hdrop.issued, fun j d hd => ?_,
    hdrop.undone, fun r hr => ?_⟩
  · have hlogged := hdrop.calls j d hd
    exact ⟨hlogged.write, hlogged.queued, hlogged.executed, hlogged.committed⟩
  · rcases List.mem_cons.mp hr with rfl | hr
    · refine ((h.calls id c hc).committed answer hstage).imp_right fun hran => ?_
      obtain ⟨k, hk, hanswered⟩ := hran
      refine ⟨c.write, k, hk, hanswered, le_refl _, fun j entry hentry hle => ?_⟩
      have hlt := h.id_lt (List.mem_of_getElem? hentry)
      have hle' : s.issued.length ≤ entry.1 := hle
      omega
    · exact h.returned r hr

theorem Logged.cancel (h : Logged run start s) (hc : s.calls.get? id = some c) : Logged run start
    { s with calls := s.calls.insert id { c with cancelled := true } } := by
  refine h.withCalls fun j d hd => ?_
  rcases get?_insert_cases hd with ⟨hj, rfl⟩ | ⟨-, hget⟩
  · subst hj
    have hlogged := h.calls _ c hc
    exact ⟨hlogged.write, hlogged.queued, hlogged.executed, hlogged.committed⟩
  · exact h.calls j d hget

/-- The connection goes back to the disk: what has run since the last commit is gone. -/
theorem Logged.revert (h : Logged run start s) {calls : OrderedDict ℕ (WriteCall ω ρ)}
    {undone : List ℕ}
    (hcalls : ∀ id c, calls.get? id = some c → CallLogged run start
      { s with view := s.disk, calls := calls, log := s.log.take s.durable, undone := undone } id c)
    (hundone : ∀ id ∈ undone, id ∉ (s.log.take s.durable).map Prod.fst ∧ id < s.issued.length)
    (hmore : ∀ id ∈ s.undone, id ∈ undone) : Logged run start
      { s with view := s.disk, calls := calls, log := s.log.take s.durable, undone := undone } := by
  have hdurable := h.durable
  refine ⟨?_, h.disk, ?_, ?_, fun entry hentry => h.issued entry (List.mem_of_mem_take hentry),
    hcalls, hundone, fun r hr => ?_⟩
  · simp only [List.length_take]
    omega
  · simp only [List.take_take, Nat.min_self]
    exact h.disk
  · exact h.once.sublist ((List.take_sublist _ _).map _)
  · refine (h.returned r hr).imp (hmore r.id) fun hreturned => ?_
    obtain ⟨w, k, hk, hanswered, hissued, hlater⟩ := hreturned
    refine ⟨w, k, hk, hanswered.take hk, hissued, fun j entry hentry => hlater j entry ?_⟩
    have hentry' : (s.log.take s.durable)[j]? = some entry := hentry
    rw [List.getElem?_take] at hentry'
    split at hentry'
    next => exact hentry'
    next => cases hentry'

theorem mem_take_of_mem {history : List (ℕ × ω)} (n : ℕ)
    (h : id ∈ (history.take n).map Prod.fst) : id ∈ history.map Prod.fst :=
  ((List.take_sublist n history).map Prod.fst).subset h

theorem Logged.crash (h : Logged run start s) : Logged run start
    { s with view := s.disk, calls := .empty, log := s.log.take s.durable } :=
  h.revert (fun id c hc => by cases hc)
    (fun id hid => ⟨mt (mem_take_of_mem s.durable) (h.undone id hid).1, (h.undone id hid).2⟩)
    fun _ hid => hid

/-- A write that has run is on the disk or undone. -/
theorem AnsweredAt.kept_or_undone {history : List (ℕ × ω)} {write : ω} {answer : ρ} {k : ℕ}
    (h : AnsweredAt run start history id write answer k) (n : ℕ) :
    id ∈ (history.drop n).map Prod.fst ∨ k < n := by
  by_cases hk : k < n
  · exact Or.inr hk
  · refine Or.inl (List.mem_map.mpr ⟨(id, write), ?_, rfl⟩)
    refine List.mem_of_getElem? (i := k - n) ?_
    rw [List.getElem?_drop, Nat.add_sub_cancel' (Nat.le_of_not_lt hk)]
    exact h.entry

theorem Logged.rollback (h : Logged run start s) : Logged run start
    { s with
      view := s.disk
      log := s.log.take s.durable
      undone := s.undone ++ (s.log.drop s.durable).map Prod.fst } := by
  have hapart : ∀ j ∈ (s.log.drop s.durable).map Prod.fst,
      j ∉ (s.log.take s.durable).map Prod.fst := by
    intro j hj hmem
    have honce := h.once
    rw [← List.take_append_drop s.durable s.log, List.map_append] at honce
    exact (List.nodup_append.mp honce).2.2 j hmem j hj rfl
  refine h.revert (fun j c hc => ?_) (fun j hj => ?_) fun j hj => List.mem_append_left _ hj
  · have hlogged := h.calls j c hc
    refine ⟨hlogged.write, fun hqueued => ?_, fun answer hstage => ?_, fun answer hstage => ?_⟩
    · obtain ⟨hnot, hkept⟩ := hlogged.queued hqueued
      refine ⟨mt (mem_take_of_mem s.durable) hnot, fun hmem => ?_⟩
      rcases List.mem_append.mp hmem with hmem | hmem
      · exact hkept hmem
      · exact hnot (((List.drop_sublist _ _).map _).subset hmem)
    · rcases hlogged.executed answer hstage with hundone | hran
      · exact Or.inl (List.mem_append_left _ hundone)
      · obtain ⟨k, hk⟩ := hran
        rcases hk.kept_or_undone s.durable with hundone | hlt
        · exact Or.inl (List.mem_append_right _ hundone)
        · exact Or.inr ⟨k, hk.take hlt⟩
    · rcases hlogged.committed answer hstage with hundone | hran
      · exact Or.inl (List.mem_append_left _ hundone)
      · obtain ⟨k, hlt, hk⟩ := hran
        exact Or.inr ⟨k, hlt, hk.take hlt⟩
  · rcases List.mem_append.mp hj with hj | hj
    · exact ⟨mt (mem_take_of_mem s.durable) (h.undone j hj).1, (h.undone j hj).2⟩
    · refine ⟨hapart j hj, ?_⟩
      obtain ⟨entry, hentry, rfl⟩ := List.mem_map.mp hj
      exact h.id_lt (List.mem_of_mem_drop hentry)

theorem Logged.step {e : ConnectionEvent ω} (h : Logged run start s) (he : step run s e = some t) :
    Logged run start t := by
  cases e with
  | call write =>
    obtain rfl := Option.some.inj he
    exact h.call write
  | execute id =>
    simp only [SharedConnection.step] at he
    split at he
    next c hc =>
      split at he
      next hqueued =>
        obtain rfl := Option.some.inj he
        exact h.runWrite hc hqueued
      next => cases he
    next => cases he
  | commit id =>
    simp only [SharedConnection.step] at he
    split at he
    next c hc =>
      split at he
      next answer hstage =>
        obtain rfl := Option.some.inj he
        exact h.commit hc hstage
      next => cases he
    next => cases he
  | finish id =>
    simp only [SharedConnection.step] at he
    split at he
    next c hc =>
      split at he
      next answer hstage =>
        split at he
        next => cases he
        next =>
          obtain rfl := Option.some.inj he
          exact h.finish hc hstage
      next => cases he
    next => cases he
  | cancel id =>
    simp only [SharedConnection.step] at he
    split at he
    next c hc =>
      obtain rfl := Option.some.inj he
      exact h.cancel hc
    next => cases he
  | fail id =>
    simp only [SharedConnection.step] at he
    split at he
    next =>
      obtain rfl := Option.some.inj he
      exact h.drop id
    next => cases he
  | rollback =>
    obtain rfl := Option.some.inj he
    exact h.rollback
  | crash =>
    obtain rfl := Option.some.inj he
    exact h.crash

/-- What is on a disk comes of a history: issued writes, each once and none of them undone, that make
up the disk when they run one after the other. -/
structure History (run : ω → σ → Option (σ × ρ)) (start : σ) (s : SharedConnection ω σ ρ)
    (history : List (ℕ × ω)) : Prop where
  disk : s.disk = replay run history start
  once : (history.map Prod.fst).Nodup
  issued : ∀ entry ∈ history, s.issued[entry.1]? = some entry.2
  kept : ∀ entry ∈ history, entry.1 ∉ s.undone
  returned : ∀ r ∈ s.returned, r.id ∉ s.undone →
    ∃ write k, AnsweredAt run start history r.id write r.answer k ∧
      ∀ (j : ℕ) entry, history[j]? = some entry → r.issued ≤ entry.1 → k < j

/-- However calls interleave, fail, are undone, cancelled or cut off, the disk has a serial history
with every call that returned and was not undone. -/
theorem exists_history {guard : SharedConnection ω σ ρ → ConnectionEvent ω → Prop}
    (h : Reaches (SharedConnection.step run) guard (init start) s) :
    ∃ history, History run start s history := by
  have hlogged : Logged run start s := h.invariant (logged_init start) fun _ _ _ hi _ he => hi.step he
  have hcrash := hlogged.crash
  refine ⟨s.log.take s.durable, hlogged.disk, hcrash.once, hcrash.issued, fun entry hentry hmem => ?_,
    fun r hr hkept => ?_⟩
  · exact (hcrash.undone entry.1 hmem).1 (List.mem_map_of_mem hentry)
  · obtain ⟨write, k, -, hanswered, -, hlater⟩ := (hcrash.returned r hr).resolve_left hkept
    exact ⟨write, k, hanswered, hlater⟩

end SharedConnection
