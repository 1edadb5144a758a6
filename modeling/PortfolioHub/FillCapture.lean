import PortfolioHub.FillsReconcile
import PortfolioHub.Transition

namespace PortfolioHub

/-- A run of `reconcile_fills`: before the reply, at the top of the loop, and at an insert. -/
inductive ReconcileRun where
  | requesting
  | looping (fills : List Fill) (newCount : ℕ)
  | inserting (row : FillRow) (fills : List Fill) (newCount : ℕ)

/-- The table that an IBKR adapter shares with the reconcile runs. `captured` counts the
inserts of the live path that wrote a row, `newCounts` holds what the runs returned. -/
structure FillCapture where
  table : FillsTable
  pendingWrites : List FillRow
  runs : List ReconcileRun
  captured : ℕ
  newCounts : List ℕ

/-- What can happen next; an index picks the write or the run that goes on. -/
inductive FillEvent where
  | execDetails (fx : FxView) (fill : Fill)
  | persistFill (i : ℕ)
  | reconcileFills
  | executionsReply (i : ℕ) (reply : Except Python.Error (List Fill))
  | nextFill (i : ℕ) (fx : FxView)
  | insertFill (i : ℕ)

namespace FillCapture

def init (table : FillsTable) : FillCapture := ⟨table, [], [], 0, []⟩

/-- `_on_exec_details`: the row is built at once, its write is left to a task. -/
def onExecDetails (s : FillCapture) (fx : FxView) (fill : Fill) : FillCapture :=
  match buildFillRow "IBKR" fx fill with
  | .error _ => s
  | .ok none => s
  | .ok (some row) => { s with pendingWrites := row :: s.pendingWrites }

/-- `_persist_fill`. -/
def persistFill (s : FillCapture) (i : ℕ) (row : FillRow) : FillCapture :=
  let inserted := insertFill s.table row
  { s with
    table := inserted.1
    pendingWrites := s.pendingWrites.eraseIdx i
    captured := if inserted.2 then s.captured + 1 else s.captured }

/-- A failed request ends the run with the count 0. -/
def executionsReturned (s : FillCapture) (i : ℕ) : Except Python.Error (List Fill) → FillCapture
  | .error _ => { s with runs := s.runs.eraseIdx i, newCounts := 0 :: s.newCounts }
  | .ok fills => { s with runs := .looping fills 0 :: s.runs.eraseIdx i }

/-- The top of the loop; a conversion that raises ends the run without a count. -/
def nextFill (s : FillCapture) (i : ℕ) (fx : FxView) (newCount : ℕ) : List Fill → FillCapture
  | [] => { s with runs := s.runs.eraseIdx i, newCounts := newCount :: s.newCounts }
  | fill :: fills =>
    match buildFillRow "IBKR" fx fill with
    | .error _ => { s with runs := s.runs.eraseIdx i }
    | .ok none => { s with runs := .looping fills newCount :: s.runs.eraseIdx i }
    | .ok (some row) => { s with runs := .inserting row fills newCount :: s.runs.eraseIdx i }

def insertReturned (s : FillCapture) (i : ℕ) (row : FillRow) (fills : List Fill) (newCount : ℕ) :
    FillCapture :=
  let inserted := insertFill s.table row
  { s with
    table := inserted.1
    runs := .looping fills (if inserted.2 then newCount + 1 else newCount) :: s.runs.eraseIdx i }

def step (s : FillCapture) : FillEvent → Option FillCapture
  | .execDetails fx fill => some (s.onExecDetails fx fill)
  | .persistFill i =>
    match s.pendingWrites[i]? with
    | some row => some (s.persistFill i row)
    | none => none
  | .reconcileFills => some { s with runs := .requesting :: s.runs }
  | .executionsReply i reply =>
    match s.runs[i]? with
    | some .requesting => some (s.executionsReturned i reply)
    | _ => none
  | .nextFill i fx =>
    match s.runs[i]? with
    | some (.looping fills newCount) => some (s.nextFill i fx newCount fills)
    | _ => none
  | .insertFill i =>
    match s.runs[i]? with
    | some (.inserting row fills newCount) => some (s.insertReturned i row fills newCount)
    | _ => none

/-- A run that nothing interrupts is the loop of `reconcile_fills`. -/
theorem reconcileLoop_executes (fx : FxView) (fills : List Fill) (newCount : ℕ) (s : FillCapture)
    {rest : List ReconcileRun} (hruns : s.runs = .looping fills newCount :: rest) :
    ∃ events, execute step s events = some
      { s with
        table := (reconcileLoop "IBKR" fx fills s.table newCount).1
        runs := rest
        newCounts := (reconcileLoop "IBKR" fx fills s.table newCount).2.toOption.toList ++
          s.newCounts } := by
  have hhead : s.runs[0]? = some (.looping fills newCount) := by rw [hruns]; rfl
  have herase : s.runs.eraseIdx 0 = rest := by rw [hruns]; rfl
  have hstep : s.step (.nextFill 0 fx) = some (s.nextFill 0 fx newCount fills) := by
    rw [step, hhead]
  induction fills generalizing s newCount with
  | nil =>
    refine ⟨[.nextFill 0 fx], ?_⟩
    rw [execute, hstep, nextFill, herase]
    rfl
  | cons fill fills ih =>
    cases hbuild : buildFillRow "IBKR" fx fill with
    | error e =>
      refine ⟨[.nextFill 0 fx], ?_⟩
      rw [execute, hstep, nextFill, reconcileLoop, hbuild, herase]
      rfl
    | ok row? =>
      cases row? with
      | none =>
        have hnext : s.nextFill 0 fx newCount (fill :: fills) =
            { s with runs := .looping fills newCount :: rest } := by
          rw [nextFill, hbuild, herase]
        obtain ⟨events, hevents⟩ := ih newCount { s with runs := .looping fills newCount :: rest }
          rfl rfl rfl rfl
        refine ⟨.nextFill 0 fx :: events, ?_⟩
        rw [execute, hstep, Option.bind_some, hnext, hevents, reconcileLoop, hbuild]
      | some row =>
        have hnext : s.nextFill 0 fx newCount (fill :: fills) =
            { s with runs := .inserting row fills newCount :: rest } := by
          rw [nextFill, hbuild, herase]
        obtain ⟨events, hevents⟩ := ih
          (if (insertFill s.table row).2 then newCount + 1 else newCount)
          { s with
            table := (insertFill s.table row).1
            runs := .looping fills
              (if (insertFill s.table row).2 then newCount + 1 else newCount) :: rest }
          rfl rfl rfl rfl
        refine ⟨.nextFill 0 fx :: .insertFill 0 :: events, ?_⟩
        rw [execute, hstep, Option.bind_some, hnext, execute]
        refine Eq.trans ?_ (hevents.trans ?_)
        · rfl
        · rw [reconcileLoop, hbuild]

end FillCapture

/-- The quantity, the price and the commission are finite. -/
def Fill.Finite (fill : Fill) : Prop :=
  fill.shares.isFinite = true ∧ fill.price.isFinite = true ∧ fill.commission.isFinite = true

/-- The side and the exchange are known. -/
def Fill.Convertible (fill : Fill) : Prop :=
  (sideMap.lookup fill.side).isSome ∧ KnownExchange fill.primaryExchange

instance (fill : Fill) : Decidable fill.Finite := instDecidableAnd

instance (fill : Fill) : Decidable fill.Convertible := instDecidableAnd

/-- The key of the row that an execution leaves. -/
def Fill.key (fill : Fill) : String × String := ("IBKR", fill.execId)

/-- The executions that an event delivers. -/
def FillEvent.delivered : FillEvent → List Fill
  | .execDetails _ fill => [fill]
  | .executionsReply _ (.ok fills) => fills
  | _ => []

/-- The numbers delivered are finite and no conversion raises. -/
def FillEvent.Clean (s : FillCapture) : FillEvent → Prop
  | .execDetails fx fill => fill.Finite ∧ ¬ RateLookupRaises fx fill
  | .executionsReply _ (.ok fills) => ∀ fill ∈ fills, fill.Finite
  | .nextFill i fx =>
    match s.runs[i]? with
    | some (.looping (fill :: _) _) => ¬ RateLookupRaises fx fill
    | _ => True
  | _ => True

instance (s : FillCapture) (e : FillEvent) : Decidable (FillEvent.Clean s e) := by
  cases e with
  | execDetails fx fill => exact instDecidableAnd
  | executionsReply i reply =>
    cases reply with
    | ok fills => exact List.decidableBAll _ fills
    | error e => exact instDecidableTrue
  | nextFill i fx =>
    unfold FillEvent.Clean
    dsimp only
    split
    next => exact instDecidableNot
    next => exact instDecidableTrue
  | persistFill i => exact instDecidableTrue
  | reconcileFills => exact instDecidableTrue
  | insertFill i => exact instDecidableTrue

end PortfolioHub
