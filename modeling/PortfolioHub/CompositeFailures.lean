import PortfolioHub.AdapterCalls

namespace PortfolioHub

/-- What one child adapter answers to the calls of the composite. -/
structure ChildBroker where
  name : String
  connectionState : Except Python.Error ConnectionState
  positions : Except Python.Error (List Position)
  accountSummary : Except Python.Error (List AccountSummary)
  /-- `none` for an adapter without `retry_now`. -/
  retryNow : Option (Except Python.Error Unit)
  start : Except Python.Error Unit

namespace CompositeBroker

def getPositions (adapters : List ChildBroker) : Except Python.Error (List Position) :=
  gatherRows (adapters.map (·.positions))

def getAccountSummary (adapters : List ChildBroker) : Except Python.Error (List AccountSummary) :=
  gatherRows (adapters.map (·.accountSummary))

/-- `_state_pair`: a state that is not to be had reads as disconnected. -/
def statePair (adapter : ChildBroker) : Except Python.Error (String × ConnectionState) :=
  match adapter.connectionState with
  | .ok state => .ok (adapter.name, state)
  | .error e => if e.isException then .ok (adapter.name, .disconnected) else .error e

def getConnectionStates (adapters : List ChildBroker) :
    Except Python.Error (OrderedDict String ConnectionState) := do
  let pairs ← adapters.mapM statePair
  return OrderedDict.ofList pairs

/-- What `retry_now` awaits of a child. -/
def retryOperation (states : OrderedDict String ConnectionState) (adapter : ChildBroker) :
    Option (Except Python.Error Unit) :=
  match states.get? adapter.name with
  | some .reconnecting => adapter.retryNow
  | some .disconnected => some adapter.start
  | _ => none

/-- The loop over the results of `retry_now`: the first cancellation is raised again. -/
def raiseCancelled : List (Except Python.Error Unit) → Except Python.Error Unit
  | [] => .ok ()
  | .ok () :: results => raiseCancelled results
  | .error e :: results => if e.isException then raiseCancelled results else .error e

def retryNow (adapters : List ChildBroker) : Except Python.Error Unit := do
  let states ← getConnectionStates adapters
  raiseCancelled (adapters.filterMap (retryOperation states))

end CompositeBroker

/-- The rows of the children that answered, in their order. -/
def answered {α : Type} (results : List (Except Python.Error (List α))) : List α :=
  (results.filterMap Except.toOption).flatten

/-- The answers of the children, or the cancellation of one of them. -/
def Gathers {α : Type} (results : List (Except Python.Error (List α)))
    (outcome : Except Python.Error (List α)) : Prop :=
  outcome = .ok (answered results) ∨ outcome = .error .cancelled ∧ .error .cancelled ∈ results

theorem not_isException_iff {e : Python.Error} : e.isException = false ↔ e = .cancelled := by
  cases e <;> simp [Python.Error.isException]

section
variable {α : Type} {results : List (Except Python.Error (List α))}

/-- A child's cancellation stands in the results like rows, and cannot be taken for them. -/
theorem gatherRows_of_cancelled (h : .error .cancelled ∈ results) :
    gatherRows results = .error (.typeError "'CancelledError' object is not iterable") := by
  induction results with
  | nil => simp at h
  | cons result results ih =>
    cases result with
    | ok rows =>
      have hrest : .error .cancelled ∈ results := by simpa using h
      rw [gatherRows, ih hrest]
      rfl
    | error e =>
      rw [gatherRows]
      split
      next hexc =>
        refine ih ((List.mem_cons.mp h).resolve_left fun heq => ?_)
        rw [← Except.error.inj heq] at hexc
        cases hexc
      next => rfl

theorem gatherRows_of_answers (h : .error .cancelled ∉ results) :
    gatherRows results = .ok (answered results) := by
  induction results with
  | nil => rfl
  | cons result results ih =>
    obtain ⟨hfirst, hrest⟩ := List.ne_and_not_mem_of_not_mem_cons h
    cases result with
    | ok rows =>
      rw [gatherRows, ih hrest]
      rfl
    | error e =>
      have hexc : e.isException = true := by
        rw [← Bool.not_eq_false, not_isException_iff]
        rintro rfl
        exact hfirst rfl
      rw [gatherRows, if_pos hexc]
      exact ih hrest

/-- The rows are gathered, or the cancellation is raised, when no child is cancelled. -/
theorem gathers_gatherRows_iff : Gathers results (gatherRows results) ↔ .error .cancelled ∉ results := by
  constructor
  · rintro hgathers hmem
    rw [gatherRows_of_cancelled hmem] at hgathers
    rcases hgathers with hrows | ⟨hraised, -⟩
    · cases hrows
    · cases hraised
  · exact fun h => Or.inl (gatherRows_of_answers h)

end

theorem raiseCancelled_eq (results : List (Except Python.Error Unit)) :
    CompositeBroker.raiseCancelled results =
      if .error .cancelled ∈ results then .error .cancelled else .ok () := by
  induction results with
  | nil => rfl
  | cons result results ih =>
    cases result with
    | ok _ => simpa [CompositeBroker.raiseCancelled] using ih
    | error e =>
      rw [CompositeBroker.raiseCancelled]
      split
      next hexc =>
        have hne : e ≠ .cancelled := by
          rintro rfl
          cases hexc
        simpa [hne.symm] using ih
      next hexc =>
        obtain rfl := not_isException_iff.mp (Bool.not_eq_true _ ▸ hexc)
        simp

theorem statePair_raises {adapter : ChildBroker} {e : Python.Error}
    (h : Python.raised (CompositeBroker.statePair adapter) = some e) : e = .cancelled := by
  unfold CompositeBroker.statePair at h
  split at h
  next => cases h
  next error _ =>
    split at h
    next => cases h
    next hexc =>
      obtain rfl := Option.some.inj h
      exact not_isException_iff.mp (Bool.not_eq_true _ ▸ hexc)

/-- `retry_now` raises nothing but a cancellation. -/
theorem retryNow_raises {adapters : List ChildBroker} {e : Python.Error}
    (h : Python.raised (CompositeBroker.retryNow adapters) = some e) : e = .cancelled := by
  unfold CompositeBroker.retryNow at h
  cases hstates : CompositeBroker.getConnectionStates adapters with
  | error error =>
    rw [hstates] at h
    obtain rfl := Option.some.inj h
    have hraised : Python.raised (adapters.mapM CompositeBroker.statePair) = some error := by
      rw [← Python.raised_bind_pure, ← CompositeBroker.getConnectionStates, hstates]
      rfl
    rw [Python.raised_mapM] at hraised
    obtain ⟨adapter, -, hadapter⟩ := List.exists_of_findSome?_eq_some hraised
    exact statePair_raises hadapter
  | ok states =>
    rw [hstates] at h
    have hresults : Python.raised (CompositeBroker.raiseCancelled
        (adapters.filterMap (CompositeBroker.retryOperation states))) = some e := h
    rw [raiseCancelled_eq] at hresults
    split at hresults
    next => exact (Option.some.inj hresults).symm
    next => cases hresults

/-- When the composite survives the failures of its children: none of them is cancelled. -/
theorem composite_gathers_iff (adapters : List ChildBroker) :
    (Gathers (adapters.map (·.positions)) (CompositeBroker.getPositions adapters) ↔
      ∀ adapter ∈ adapters, adapter.positions ≠ .error .cancelled) ∧
    (Gathers (adapters.map (·.accountSummary)) (CompositeBroker.getAccountSummary adapters) ↔
      ∀ adapter ∈ adapters, adapter.accountSummary ≠ .error .cancelled) := by
  constructor
  · rw [CompositeBroker.getPositions, gathers_gatherRows_iff, List.mem_map]
    simp
  · rw [CompositeBroker.getAccountSummary, gathers_gatherRows_iff, List.mem_map]
    simp

/-- A child that holds no session, with an answer to `get_positions`. -/
def sampleChild (name : String) (positions : Except Python.Error (List Position)) : ChildBroker :=
  ⟨name, .ok .disconnected, positions, .ok [], none, .ok ()⟩

/-- Where one of two children is cancelled, a TypeError comes of it. -/
theorem cancelled_child_is_taken_for_rows : ¬ ∀ adapters : List ChildBroker, adapters ≠ [] →
    Gathers (adapters.map (·.positions)) (CompositeBroker.getPositions adapters) ∧
      Gathers (adapters.map (·.accountSummary)) (CompositeBroker.getAccountSummary adapters) := by
  intro hall
  have hraised : CompositeBroker.getPositions
      [sampleChild "IBKR" (.ok []), sampleChild "Futu" (.error .cancelled)] =
        .error (.typeError "'CancelledError' object is not iterable") := rfl
  have hgathers := (hall [sampleChild "IBKR" (.ok []), sampleChild "Futu" (.error .cancelled)]
    (by simp)).1
  rw [hraised] at hgathers
  rcases hgathers with hrows | ⟨hcancelled, -⟩
  · cases hrows
  · cases hcancelled

end PortfolioHub
