import PortfolioHub.MaximalRun

universe u v w x

/-- What a job does next: it asks a question, or it is done. -/
inductive Turn (κ : Type v) (ρ : Type x) where
  | ask (question : κ)
  | done (result : ρ)
deriving DecidableEq, Repr

/-- A job as a conversation: its first turn, and its turn once a question is answered. -/
structure Conversation (ι : Type u) (κ : Type v) (α : Type w) (ρ : Type x) where
  start : ι → Turn κ ρ
  next : ι → κ → α → Turn κ ρ

namespace Conversation

variable {ι : Type u} {κ : Type v} {α : Type w} {ρ : Type x} (conv : Conversation ι κ α ρ)

/-- No more than `n` questions are left. -/
inductive Within (item : ι) : ℕ → Turn κ ρ → Prop where
  | done (n : ℕ) (result : ρ) : Within item n (.done result)
  | ask {n : ℕ} {question : κ} :
      (∀ answer, Within item n (conv.next item question answer)) → Within item (n + 1) (.ask question)

variable [DecidableEq κ]

/-- Where a turn leads once these questions have been answered. -/
def follow (item : ι) : Turn κ ρ → List (κ × α) → Option (Turn κ ρ)
  | turn, [] => some turn
  | .ask question, (asked, answer) :: rest =>
    if asked = question then follow item (conv.next item question answer) rest else none
  | .done _, _ :: _ => none

variable {conv} {item : ι}

theorem follow_append {turn : Turn κ ρ} {transcript : List (κ × α)} {question : κ} (answer : α)
    (h : conv.follow item turn transcript = some (.ask question)) :
    conv.follow item turn (transcript ++ [(question, answer)]) =
      some (conv.next item question answer) := by
  induction transcript generalizing turn with
  | nil =>
    obtain rfl := Option.some.inj h
    simp [follow]
  | cons entry transcript ih =>
    cases turn with
    | done result => cases h
    | ask asked =>
      rw [follow] at h
      split at h
      next hasked =>
        rw [List.cons_append, follow, if_pos hasked]
        exact ih h
      next => cases h

/-- Every answer uses up a question. -/
theorem Within.follow {n : ℕ} {turn last : Turn κ ρ} {transcript : List (κ × α)}
    (h : conv.Within item n turn) (hfollow : conv.follow item turn transcript = some last) :
    transcript.length ≤ n ∧ conv.Within item (n - transcript.length) last := by
  induction transcript generalizing n turn with
  | nil =>
    obtain rfl := Option.some.inj hfollow
    exact ⟨Nat.zero_le n, h⟩
  | cons entry transcript ih =>
    cases turn with
    | done result => cases hfollow
    | ask asked =>
      rw [Conversation.follow] at hfollow
      split at hfollow
      next =>
        cases h with
        | ask hnext =>
          obtain ⟨hlength, hlast⟩ := ih (hnext entry.2) hfollow
          rw [List.length_cons]
          refine ⟨by omega, ?_⟩
          rwa [Nat.add_sub_add_right]
      next => cases hfollow

end Conversation

/-- A job that waits for a permit, or the turn it is at, with the questions answered so far. -/
structure GatherJob (ι : Type u) (κ : Type v) (α : Type w) (ρ : Type x) where
  item : ι
  transcript : List (κ × α)
  turn : Option (Turn κ ρ)
deriving DecidableEq, Repr

namespace GatherJob

variable {ι : Type u} {κ : Type v} {α : Type w} {ρ : Type x}

def init (item : ι) : GatherJob ι κ α ρ := ⟨item, [], none⟩

def isAsking (job : GatherJob ι κ α ρ) : Bool :=
  match job.turn with
  | some (.ask _) => true
  | _ => false

def result? (job : GatherJob ι κ α ρ) : Option ρ :=
  match job.turn with
  | some (.done result) => some result
  | _ => none

theorem result?_eq_some_iff {job : GatherJob ι κ α ρ} {result : ρ} :
    job.result? = some result ↔ job.turn = some (.done result) := by
  unfold result?
  split
  next found hfound => simp [hfound]
  next hother =>
    constructor
    · intro h
      cases h
    · intro h
      exact absurd h (hother result)

end GatherJob

/-- Jobs that are gathered: each takes a permit, asks its questions and gives the permit back. -/
structure BoundedGather (ι : Type u) (κ : Type v) (α : Type w) (ρ : Type x) where
  jobs : List (GatherJob ι κ α ρ)
deriving DecidableEq, Repr

inductive GatherEvent (α : Type w) where
  | start (k : ℕ)
  | answer (k : ℕ) (answer : α)
deriving DecidableEq, Repr

namespace BoundedGather

variable {ι : Type u} {κ : Type v} {α : Type w} {ρ : Type x}

def init (items : List ι) : BoundedGather ι κ α ρ := ⟨items.map .init⟩

def inFlight (s : BoundedGather ι κ α ρ) : ℕ := s.jobs.countP (·.isAsking)

def Finished (s : BoundedGather ι κ α ρ) : Prop := ∀ job ∈ s.jobs, job.result?.isSome

instance (s : BoundedGather ι κ α ρ) : Decidable s.Finished :=
  inferInstanceAs (Decidable (∀ job ∈ s.jobs, job.result?.isSome = true))

/-- The results in the order of the jobs. -/
def results (s : BoundedGather ι κ α ρ) : List ρ := s.jobs.filterMap (·.result?)

variable (conv : Conversation ι κ α ρ) (permits : ℕ)

def step (s : BoundedGather ι κ α ρ) : GatherEvent α → Option (BoundedGather ι κ α ρ)
  | .start k =>
    match s.jobs[k]? with
    | some job =>
      match job.turn with
      | none =>
        if s.inFlight < permits then
          some ⟨s.jobs.set k { job with turn := some (conv.start job.item) }⟩
        else none
      | some _ => none
    | none => none
  | .answer k answer =>
    match s.jobs[k]? with
    | some job =>
      match job.turn with
      | some (.ask question) => some ⟨s.jobs.set k
          { job with
            transcript := job.transcript ++ [(question, answer)]
            turn := some (conv.next job.item question answer) }⟩
      | _ => none
    | none => none

/-- A job goes on to another state of its own. -/
inductive JobStep (s : BoundedGather ι κ α ρ) (job : GatherJob ι κ α ρ) :
    GatherJob ι κ α ρ → Prop where
  | start : job.turn = none → s.inFlight < permits →
      JobStep s job { job with turn := some (conv.start job.item) }
  | answer (question : κ) (answer : α) : job.turn = some (.ask question) →
      JobStep s job
        { job with
          transcript := job.transcript ++ [(question, answer)]
          turn := some (conv.next job.item question answer) }

variable {conv permits} {s t : BoundedGather ι κ α ρ}

theorem step_cases {e : GatherEvent α} (h : step conv permits s e = some t) :
    ∃ k job next, s.jobs[k]? = some job ∧ JobStep conv permits s job next ∧
      t = ⟨s.jobs.set k next⟩ := by
  cases e with
  | start k =>
    simp only [step] at h
    split at h
    next job hjob =>
      split at h
      next hturn =>
        split at h
        next hpermit =>
          obtain rfl := Option.some.inj h
          exact ⟨k, job, _, hjob, .start hturn hpermit, rfl⟩
        next => cases h
      next => cases h
    next => cases h
  | answer k answer =>
    simp only [step] at h
    split at h
    next job hjob =>
      split at h
      next question hturn =>
        obtain rfl := Option.some.inj h
        exact ⟨k, job, _, hjob, .answer question answer hturn, rfl⟩
      next => cases h
    next => cases h

/-- A sum after one of its terms is replaced. -/
theorem sum_set {l : List ℕ} {k a : ℕ} (b : ℕ) (h : l[k]? = some a) :
    (l.set k b).sum + a = l.sum + b := by
  induction l generalizing k with
  | nil => simp at h
  | cons c l ih =>
    cases k with
    | zero =>
      have hc : c = a := by simpa using h
      simp only [List.set_cons_zero, List.sum_cons]
      omega
    | succ k =>
      have hrest := ih (k := k) (by simpa using h)
      simp only [List.set_cons_succ, List.sum_cons]
      omega

theorem sum_map_set {β : Type*} (f : β → ℕ) {l : List β} {k : ℕ} {a : β} (b : β)
    (h : l[k]? = some a) : ((l.set k b).map f).sum + f a = (l.map f).sum + f b := by
  rw [List.map_set]
  apply sum_set
  rw [List.getElem?_map, h]
  rfl

theorem inFlight_eq (s : BoundedGather ι κ α ρ) :
    s.inFlight = (s.jobs.map fun job => if job.isAsking then 1 else 0).sum := by
  unfold inFlight
  induction s.jobs with
  | nil => rfl
  | cons job jobs ih =>
    rw [List.countP_cons, List.map_cons, List.sum_cons, ih, Nat.add_comm]

theorem JobStep.item {job next : GatherJob ι κ α ρ} (h : JobStep conv permits s job next) :
    next.item = job.item := by
  cases h with
  | start => rfl
  | answer => rfl

/-- Short of the end, a request is in flight and may be answered at will, or a job may start. -/
theorem exists_step (hpermits : 0 < permits) (h : ¬ s.Finished) :
    (∃ k question, (s.jobs[k]?.bind (·.turn)) = some (.ask question) ∧
      ∀ answer, ∃ t, step conv permits s (.answer k answer) = some t) ∨
    s.inFlight = 0 ∧ ∃ k t, step conv permits s (.start k) = some t := by
  by_cases hasking : ∃ job ∈ s.jobs, job.isAsking = true
  · obtain ⟨job, hmem, hasks⟩ := hasking
    obtain ⟨k, hk⟩ := List.mem_iff_getElem?.mp hmem
    unfold GatherJob.isAsking at hasks
    split at hasks
    next question hturn =>
      refine Or.inl ⟨k, question, ?_, fun answer => ?_⟩
      · rw [hk]
        exact hturn
      · exact ⟨_, by simp only [step, hk, hturn]; rfl⟩
    next => cases hasks
  · have hnone : s.inFlight = 0 := by
      refine List.countP_eq_zero.mpr fun job hjob => ?_
      exact fun hasks => hasking ⟨job, hjob, hasks⟩
    refine Or.inr ⟨hnone, ?_⟩
    unfold Finished at h
    push Not at h
    obtain ⟨job, hmem, hresult⟩ := h
    obtain ⟨k, hk⟩ := List.mem_iff_getElem?.mp hmem
    have hturn : job.turn = none := by
      cases hturn : job.turn with
      | none => rfl
      | some turn =>
        cases turn with
        | ask question => exact absurd ⟨job, hmem, by simp [GatherJob.isAsking, hturn]⟩ hasking
        | done result => exact absurd (by simp [GatherJob.result?, hturn]) hresult
    exact ⟨k, _, by simp only [step, hk, hturn, hnone, if_pos hpermits]; rfl⟩

theorem step_of_finished (h : s.Finished) (e : GatherEvent α) : step conv permits s e = none := by
  cases he : step conv permits s e with
  | none => rfl
  | some t =>
    obtain ⟨k, job, next, hjob, hstep, -⟩ := step_cases he
    have hresult := h job (List.mem_of_getElem? hjob)
    cases hstep with
    | start hturn hpermit => simp [GatherJob.result?, hturn] at hresult
    | answer question answer hturn => simp [GatherJob.result?, hturn] at hresult

/-- A run that is played up to the end of all jobs. -/
theorem maximalRun_of_trace {trace : ℕ → BoundedGather ι κ α ρ} (hlast : s.Finished)
    (h : ∀ n, GuardedStep (step conv permits) (fun _ _ => True) (trace n) (trace (n + 1)) ∨
      trace n = s ∧ trace (n + 1) = s) :
    MaximalRun (GuardedStep (step conv permits) fun _ _ => True)
      (GuardedStep (step conv permits) fun _ _ => True) trace := by
  intro n
  rcases h n with hstep | ⟨hn, hrest⟩
  · exact Or.inl hstep
  · refine Or.inr ⟨hrest.trans hn.symm, fun t hstep => ?_⟩
    obtain ⟨e, -, he⟩ := hstep
    rw [hn, step_of_finished hlast e] at he
    cases he

/-- The results of finished jobs, each beside what is read of its job. -/
theorem mem_zip_results {β : Type*} {f : GatherJob ι κ α ρ → β} {jobs : List (GatherJob ι κ α ρ)}
    (h : ∀ job ∈ jobs, job.result?.isSome) {b : β} {result : ρ} :
    (b, result) ∈ (jobs.map f).zip (jobs.filterMap (·.result?)) ↔
      ∃ job ∈ jobs, f job = b ∧ job.result? = some result := by
  induction jobs with
  | nil => simp
  | cons job jobs ih =>
    obtain ⟨hfirst, hrest⟩ := List.forall_mem_cons.mp h
    obtain ⟨first, hresult⟩ := Option.isSome_iff_exists.mp hfirst
    rw [List.map_cons, List.filterMap_cons_some hresult, List.zip_cons_cons, List.mem_cons, ih hrest]
    simp [hresult, Prod.ext_iff, eq_comm]

variable [DecidableEq κ]

/-- A job that waits has asked nothing; another one is where the answers have led it. -/
def JobSound (conv : Conversation ι κ α ρ) (job : GatherJob ι κ α ρ) : Prop :=
  match job.turn with
  | none => job.transcript = []
  | some turn => conv.follow job.item (conv.start job.item) job.transcript = some turn

/-- What holds of the jobs of `items` at any time. -/
structure Sound (conv : Conversation ι κ α ρ) (permits : ℕ) (items : List ι)
    (s : BoundedGather ι κ α ρ) : Prop where
  items : s.jobs.map (·.item) = items
  jobs : ∀ job ∈ s.jobs, JobSound conv job
  inFlight : s.inFlight ≤ permits

theorem sound_init (items : List ι) :
    (init items : BoundedGather ι κ α ρ).Sound conv permits items := by
  refine ⟨?_, ?_, ?_⟩
  · rw [init, List.map_map]
    exact List.map_id items
  · intro job hjob
    obtain ⟨item, -, rfl⟩ := List.mem_map.mp hjob
    rfl
  · have hnone : (init items : BoundedGather ι κ α ρ).inFlight = 0 := by
      refine List.countP_eq_zero.mpr fun job hjob => ?_
      obtain ⟨item, -, rfl⟩ := List.mem_map.mp hjob
      simp [GatherJob.isAsking, GatherJob.init]
    omega

theorem JobStep.sound {job next : GatherJob ι κ α ρ} (h : JobStep conv permits s job next)
    (hsound : JobSound conv job) : JobSound conv next := by
  unfold JobSound at hsound
  cases h with
  | start hturn hpermit =>
    rw [hturn] at hsound
    have hempty : job.transcript = [] := hsound
    simp [JobSound, hempty, Conversation.follow]
  | answer question answer hturn =>
    rw [hturn] at hsound
    exact Conversation.follow_append answer hsound

theorem Sound.step {items : List ι} {e : GatherEvent α} (h : s.Sound conv permits items)
    (he : BoundedGather.step conv permits s e = some t) : t.Sound conv permits items := by
  obtain ⟨k, job, next, hjob, hstep, rfl⟩ := step_cases he
  refine ⟨?_, fun other hother => ?_, ?_⟩
  · rw [List.map_set, hstep.item, ← h.items]
    have hget : (s.jobs.map (·.item))[k]? = some job.item := by
      rw [List.getElem?_map, hjob]
      rfl
    apply List.ext_getElem?
    intro j
    rw [List.getElem?_set]
    split
    next hkj =>
      subst hkj
      split
      next => exact hget.symm
      next hlen => exact (List.getElem?_eq_none (Nat.not_lt.mp hlen)).symm
    next => rfl
  · rcases List.mem_or_eq_of_mem_set hother with hold | rfl
    · exact h.jobs other hold
    · exact hstep.sound (h.jobs job (List.mem_of_getElem? hjob))
  · have hsum := sum_map_set (fun job => if job.isAsking then 1 else 0) next hjob
    have hnext : (if next.isAsking then 1 else 0) ≤ 1 := by
      split
      · omega
      · omega
    have hle := h.inFlight
    rw [← inFlight_eq s, ← inFlight_eq ⟨s.jobs.set k next⟩] at hsum
    cases hstep with
    | start hturn hpermit =>
      have hwaiting : job.isAsking = false := by simp [GatherJob.isAsking, hturn]
      simp only [hwaiting, Bool.false_eq_true, ↓reduceIte, add_zero] at hsum
      omega
    | answer question answer hturn =>
      have hasking : job.isAsking = true := by simp [GatherJob.isAsking, hturn]
      simp only [hasking, ↓reduceIte] at hsum
      omega

/-- The steps a job may still make when it asks `bound` questions at most. -/
def work (bound : ℕ) (job : GatherJob ι κ α ρ) : ℕ :=
  match job.turn with
  | none => bound + 1
  | some (.ask _) => bound - job.transcript.length
  | some (.done _) => 0

def totalWork (bound : ℕ) (s : BoundedGather ι κ α ρ) : ℕ := (s.jobs.map (work bound)).sum

/-- A job that asks has a question left, so every step of a job uses up work. -/
theorem JobStep.work_lt {bound : ℕ} {job next : GatherJob ι κ α ρ}
    (hbound : conv.Within job.item bound (conv.start job.item)) (hsound : JobSound conv job)
    (h : JobStep conv permits s job next) : work bound next < work bound job := by
  cases h with
  | start hturn hpermit =>
    unfold JobSound at hsound
    rw [hturn] at hsound
    have hempty : job.transcript.length = 0 := by
      rw [show job.transcript = [] from hsound]
      rfl
    unfold work
    rw [hturn]
    cases conv.start job.item with
    | ask question =>
      dsimp only
      omega
    | done result => exact Nat.succ_pos bound
  | answer question answer hturn =>
    unfold JobSound at hsound
    rw [hturn] at hsound
    obtain ⟨hlength, hleft⟩ := hbound.follow hsound
    have hpos : 0 < bound - job.transcript.length := by
      cases hzero : bound - job.transcript.length with
      | zero =>
        rw [hzero] at hleft
        cases hleft
      | succ n => exact Nat.succ_pos n
    unfold work
    rw [hturn]
    cases conv.next job.item question answer with
    | ask other =>
      simp only [List.length_append, List.length_cons, List.length_nil]
      omega
    | done result => exact hpos

theorem totalWork_lt {bound : ℕ} {items : List ι} {e : GatherEvent α}
    (hbound : ∀ item ∈ items, conv.Within item bound (conv.start item))
    (h : s.Sound conv permits items) (he : step conv permits s e = some t) :
    totalWork bound t < totalWork bound s := by
  obtain ⟨k, job, next, hjob, hstep, rfl⟩ := step_cases he
  have hmem := List.mem_of_getElem? hjob
  have hitem : job.item ∈ items := by
    rw [← h.items]
    exact List.mem_map_of_mem hmem
  have hsum := sum_map_set (work bound) next hjob
  have hlt := hstep.work_lt (hbound _ hitem) (h.jobs job hmem)
  have hnext : totalWork bound ⟨s.jobs.set k next⟩ = ((s.jobs.set k next).map (work bound)).sum := rfl
  rw [hnext, totalWork]
  omega

section Runs

variable {items : List ι} {bound : ℕ}

theorem reaches_sound {guard : BoundedGather ι κ α ρ → GatherEvent α → Prop}
    (h : Reaches (step conv permits) guard (init items) s) : s.Sound conv permits items :=
  h.invariant (sound_init items) fun _ _ _ hs _ he => hs.step he

/-- The jobs are all done once the requests in flight are answered, in whatever order. -/
theorem finishes {trace : ℕ → BoundedGather ι κ α ρ} (hpermits : 0 < permits)
    (hbound : ∀ item ∈ items, conv.Within item bound (conv.start item))
    (h0 : trace 0 = init items)
    (h : MaximalRun (GuardedStep (step conv permits) fun _ _ => True)
      (GuardedStep (step conv permits) fun _ _ => True) trace) [Nonempty α] :
    ∃ n, (trace n).Finished := by
  have hmust : ∀ s, Sound conv permits items s → ¬ s.Finished →
      ∃ t, GuardedStep (step conv permits) (fun _ _ => True) s t := by
    intro s _ hunfinished
    rcases exists_step hpermits hunfinished with ⟨k, question, -, hanswer⟩ | ⟨-, k, t, hstart⟩
    · obtain ⟨answer⟩ := ‹Nonempty α›
      obtain ⟨t, ht⟩ := hanswer answer
      exact ⟨t, _, trivial, ht⟩
    · exact ⟨t, _, trivial, hstart⟩
  have hmay : ∀ s t, Sound conv permits items s → ¬ s.Finished →
      GuardedStep (step conv permits) (fun _ _ => True) s t →
        t.Finished ∨ Sound conv permits items t ∧ totalWork bound t < totalWork bound s := by
    intro s t hs _ hstep
    obtain ⟨e, -, he⟩ := hstep
    exact Or.inr ⟨hs.step he, totalWork_lt hbound hs he⟩
  exact h.meets hmust hmay (h0 ▸ sound_init items)

end Runs

end BoundedGather
