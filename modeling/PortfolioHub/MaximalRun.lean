import PortfolioHub.Transition

universe u v

variable {σ : Type u} {ε : Type v}

/-- A run of `may` steps. It stops only where no `must` step is left, and is at rest from then on. -/
def MaximalRun (may must : σ → σ → Prop) (trace : ℕ → σ) : Prop :=
  ∀ n, may (trace n) (trace (n + 1)) ∨ trace (n + 1) = trace n ∧ ∀ t, ¬ must (trace n) t

namespace MaximalRun

variable {may must : σ → σ → Prop} {trace : ℕ → σ}

theorem tail (h : MaximalRun may must trace) : MaximalRun may must fun n => trace (n + 1) :=
  fun n => h (n + 1)

theorem reaches {step : σ → ε → Option σ} {guard : σ → ε → Prop}
    (h : MaximalRun (GuardedStep step guard) must trace) (n : ℕ) :
    Reaches step guard (trace 0) (trace n) := by
  induction n with
  | zero => exact Relation.ReflTransGen.refl
  | succ n ih =>
    rcases h n with hstep | ⟨hrest, -⟩
    · exact ih.tail hstep
    · rw [hrest]
      exact ih

/-- The goal is met when, short of it, there is always a step to be made, and every step meets
the goal or keeps `I` and uses up some of the potential. -/
theorem meets {I goal : σ → Prop} {potential : σ → ℕ}
    (hmust : ∀ s, I s → ¬ goal s → ∃ t, must s t)
    (hmay : ∀ s t, I s → ¬ goal s → may s t → goal t ∨ I t ∧ potential t < potential s)
    (h : MaximalRun may must trace) (h0 : I (trace 0)) : ∃ n, goal (trace n) := by
  induction hk : potential (trace 0) using Nat.strong_induction_on generalizing trace with
  | h k ih =>
    by_cases hgoal : goal (trace 0)
    · exact ⟨0, hgoal⟩
    rcases h 0 with hstep | ⟨-, hrest⟩
    · rcases hmay _ _ h0 hgoal hstep with hgoal | ⟨hI, hless⟩
      · exact ⟨1, hgoal⟩
      · obtain ⟨n, hn⟩ := ih _ (hk ▸ hless) h.tail hI rfl
        exact ⟨n + 1, hn⟩
    · obtain ⟨t, ht⟩ := hmust _ h0 hgoal
      exact absurd ht (hrest t)

/-- A list of enabled events is played and followed by rest. -/
theorem exists_trace {step : σ → ε → Option σ} {guard : σ → ε → Prop}
    [∀ s e, Decidable (guard s e)] {init last : σ} {es : List ε}
    (h : execute (restrict step guard) init es = some last) :
    ∃ trace : ℕ → σ, trace 0 = init ∧ ∀ n, GuardedStep step guard (trace n) (trace (n + 1)) ∨
      trace n = last ∧ trace (n + 1) = last := by
  induction es generalizing init with
  | nil =>
    obtain rfl : init = last := by simpa [execute] using h
    exact ⟨fun _ => init, rfl, fun _ => Or.inr ⟨rfl, rfl⟩⟩
  | cons e es ih =>
    obtain ⟨mid, hg, hmid, hrest⟩ := Reaches.execute_restrict_cons.mp h
    obtain ⟨trace, h0, htrace⟩ := ih hrest
    refine ⟨fun n => n.casesOn init trace, rfl, fun n => ?_⟩
    cases n with
    | zero => exact Or.inl ⟨e, hg, by simpa [h0] using hmid⟩
    | succ n => exact htrace n

end MaximalRun
