import PortfolioHub.OrderedDict

universe u v

/-- One step of a machine whose event meets `guard` in the state it fires in. -/
def GuardedStep {σ : Type u} {ε : Type v} (step : σ → ε → Option σ) (guard : σ → ε → Prop)
    (s s' : σ) : Prop :=
  ∃ e, guard s e ∧ step s e = some s'

/-- The states reached by runs all of whose steps meet `guard`. -/
def Reaches {σ : Type u} {ε : Type v} (step : σ → ε → Option σ) (guard : σ → ε → Prop) :
    σ → σ → Prop :=
  Relation.ReflTransGen (GuardedStep step guard)

/-- The state after a list of events, when every one of them is enabled. -/
def execute {σ : Type u} {ε : Type v} (step : σ → ε → Option σ) : σ → List ε → Option σ
  | s, [] => some s
  | s, e :: es => (step s e).bind fun s' => execute step s' es

/-- What each of some events keeps, they keep one after the other. -/
theorem execute_keeps {σ : Type u} {ε : Type v} {step : σ → ε → Option σ} {I : σ → Prop} {s s' : σ}
    {es : List ε} (hstep : ∀ e ∈ es, ∀ s s', I s → step s e = some s' → I s') (h0 : I s)
    (h : execute step s es = some s') : I s' := by
  induction es generalizing s with
  | nil =>
    obtain rfl := Option.some.inj h
    exact h0
  | cons e es ih =>
    obtain ⟨mid, hmid, hrest⟩ := Option.bind_eq_some_iff.mp h
    exact ih (fun later hlater => hstep later (List.mem_cons_of_mem _ hlater))
      (hstep e List.mem_cons_self s mid h0 hmid) hrest

/-- The machine that refuses the events that fail `guard`. -/
def restrict {σ : Type u} {ε : Type v} (step : σ → ε → Option σ) (guard : σ → ε → Prop)
    [∀ s e, Decidable (guard s e)] (s : σ) (e : ε) : Option σ :=
  if guard s e then step s e else none

namespace Reaches

variable {σ : Type u} {ε : Type v} {step : σ → ε → Option σ} {guard : σ → ε → Prop}

/-- What holds at the start and is kept by every guarded step holds of every
state reached. -/
theorem invariant {I : σ → Prop} {init s : σ} (h0 : I init)
    (hstep : ∀ s e s', I s → guard s e → step s e = some s' → I s')
    (h : Reaches step guard init s) : I s := by
  induction h with
  | refl => exact h0
  | tail _ hs ih =>
    obtain ⟨e, hg, he⟩ := hs
    exact hstep _ e _ ih hg he

theorem execute_restrict_cons [∀ s e, Decidable (guard s e)] {init s : σ} {e : ε} {es : List ε} :
    execute (restrict step guard) init (e :: es) = some s ↔
      ∃ mid, guard init e ∧ step init e = some mid ∧
        execute (restrict step guard) mid es = some s := by
  rw [execute, Option.bind_eq_some_iff]
  unfold restrict
  split
  next hg => simp [hg]
  next hg => simp [hg]

/-- A run of enabled events, each of which meets the guard where it fires. -/
theorem of_execute [∀ s e, Decidable (guard s e)] {init s : σ} {es : List ε}
    (h : execute (restrict step guard) init es = some s) : Reaches step guard init s := by
  induction es generalizing init with
  | nil =>
    obtain rfl : init = s := by simpa [execute] using h
    exact Relation.ReflTransGen.refl
  | cons e es ih =>
    obtain ⟨mid, hg, hmid, hrest⟩ := execute_restrict_cons.mp h
    exact Relation.ReflTransGen.head ⟨e, hg, hmid⟩ (ih hrest)

theorem exists_of_execute (step : σ → ε → Option σ) (guard : σ → ε → Prop)
    [∀ s e, Decidable (guard s e)] (init : σ) (es : List ε) (p : σ → Bool)
    (h : (execute (restrict step guard) init es).any p = true) :
    ∃ s, Reaches step guard init s ∧ p s = true := by
  cases hs : execute (restrict step guard) init es with
  | none => simp [hs] at h
  | some s => exact ⟨s, of_execute hs, by simpa [hs] using h⟩

/-- What the start has after no steps, and every guarded step carries to one step more, the
state reached by a run has after as many steps as the run has events. -/
theorem execute_invariant [∀ s e, Decidable (guard s e)] {I : ℕ → σ → Prop} {init s : σ}
    {es : List ε} (h0 : I 0 init)
    (hstep : ∀ n s e s', I n s → guard s e → step s e = some s' → I (n + 1) s')
    (h : execute (restrict step guard) init es = some s) : I es.length s := by
  suffices hrun : ∀ n, I n init → I (n + es.length) s by simpa using hrun 0 h0
  clear h0
  induction es generalizing init with
  | nil =>
    obtain rfl : init = s := by simpa [execute] using h
    intro n hn
    exact hn
  | cons e es ih =>
    obtain ⟨mid, hg, hmid, hrest⟩ := execute_restrict_cons.mp h
    intro n hn
    have hnext := ih hrest (n + 1) (hstep n init e mid hn hg hmid)
    rwa [List.length_cons, Nat.add_comm es.length 1, ← Nat.add_assoc]

end Reaches
