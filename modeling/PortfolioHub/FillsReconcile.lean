import PortfolioHub.Deployment
import PortfolioHub.FillRow

namespace PortfolioHub

/-- `adapter._req_executions()`: only the IBKR adapter has the method. `reply` is
what IBKR answers. -/
def reqExecutions (broker : Broker) (reply : Except Python.Error (List Fill)) :
    Except Python.Error (List Fill) :=
  match broker with
  | .adapter .ibkr => reply
  | .adapter name =>
    .error (.attributeError
      ("'" ++ name.text ++ "Adapter' object has no attribute '_req_executions'"))
  | .composite _ =>
    .error (.attributeError "'CompositeBroker' object has no attribute '_req_executions'")

/-- `adapter.name`. -/
def Broker.name : Broker → String
  | .adapter name => name.text
  | .composite _ => "Composite"

/-- The loop over the fills: the rows written so far stay when one of them raises. -/
def reconcileLoop (broker : String) (fx : FxView) :
    List Fill → FillsTable → ℕ → FillsTable × Except Python.Error ℕ
  | [], table, newCount => (table, .ok newCount)
  | fill :: fills, table, newCount =>
    match buildFillRow broker fx fill with
    | .error e => (table, .error e)
    | .ok none => reconcileLoop broker fx fills table newCount
    | .ok (some row) =>
      let inserted := insertFill table row
      reconcileLoop broker fx fills inserted.1 (if inserted.2 then newCount + 1 else newCount)

/-- The table after the job and what the job returns; `fx` is what the adapter's
`_fx_service` shows. -/
def reconcileFills (broker : Broker) (reply : Except Python.Error (List Fill)) (fx : FxView)
    (table : FillsTable) : FillsTable × Except Python.Error ℕ :=
  match reqExecutions broker reply with
  | .error _ => (table, .ok 0)
  | .ok fills => reconcileLoop broker.name fx fills table 0

/-- The row of a convertible fill. -/
def Converts (broker : String) (fx : FxView) (fill : Fill) (row : FillRow) : Prop :=
  buildFillRow broker fx fill = .ok (some row)

/-- The fills the loop gets to: those before the first whose conversion raises. -/
def fillsReached (fx : FxView) (fills : List Fill) : List Fill :=
  fills.takeWhile fun fill => ¬ RateLookupRaises fx fill

theorem mem_keys_reconcileLoop {broker : String} {fx : FxView} {fills : List Fill}
    {table : FillsTable} {newCount : ℕ} {key : String × String} :
    key ∈ (reconcileLoop broker fx fills table newCount).1.keys ↔
      key ∈ table.keys ∨ ∃ fill ∈ fillsReached fx fills, ∃ row,
        Converts broker fx fill row ∧ row.storable = true ∧ key = row.key := by
  induction fills generalizing table newCount with
  | nil => simp [reconcileLoop, fillsReached]
  | cons fill fills ih =>
    have hraises := buildFillRow_error_iff broker fx fill
    unfold reconcileLoop
    split
    next e he =>
      have hnone : fillsReached fx (fill :: fills) = [] := by
        simp [fillsReached, hraises.mp ⟨e, he⟩]
      simp [hnone]
    next hdrop =>
      have hcons : fillsReached fx (fill :: fills) = fill :: fillsReached fx fills := by
        simp [fillsReached, ← hraises, hdrop]
      rw [ih, hcons]
      simp [Converts, hdrop]
    next row hrow =>
      have hcons : fillsReached fx (fill :: fills) = fill :: fillsReached fx fills := by
        simp [fillsReached, ← hraises, hrow]
      rw [ih, hcons, mem_keys_insertFill]
      simp [Converts, hrow, or_assoc]

/-- A composite broker has no executions request, so the job leaves the table alone. -/
theorem reconcileFills_composite (adapters : List BrokerName)
    (reply : Except Python.Error (List Fill)) (fx : FxView) (table : FillsTable) :
    reconcileFills (.composite adapters) reply fx table = (table, .ok 0) := rfl

theorem buildProductionBroker_with_ibkr {enabled : List BrokerName} {broker : Broker}
    (hibkr : .ibkr ∈ enabled) (h : buildProductionBroker enabled = .ok broker) :
    broker = .adapter .ibkr ∨ ∃ adapters, broker = .composite adapters := by
  unfold buildProductionBroker at h
  split at h
  next => simp at h
  next name hname =>
    have hmem : BrokerName.ibkr ∈ enabledAdapters enabled := by simp [enabledAdapters, hibkr]
    rw [hname] at hmem
    obtain rfl : BrokerName.ibkr = name := by simpa using hmem
    exact Or.inl (Except.ok.inj h).symm
  next => exact Or.inr ⟨_, (Except.ok.inj h).symm⟩

/-- When the job stores every convertible fill: each was stored before, or IBKR is
the only adapter and a fill of the same execution, with a quantity and a price,
comes before the first one whose conversion raises. -/
theorem reconcileFills_complete_iff (raw : Option String) (broker : Broker)
    (hibkr : .ibkr ∈ enabledBrokers raw)
    (hbroker : buildProductionBroker (enabledBrokers raw) = .ok broker)
    (fills : List Fill) (fx : FxView) (table : FillsTable) :
    (∀ fill ∈ fills, ∀ row, Converts "IBKR" fx fill row →
        ("IBKR", fill.execId) ∈ (reconcileFills broker (.ok fills) fx table).1.keys) ↔
      ∀ fill ∈ fills, ∀ row, Converts "IBKR" fx fill row →
        ("IBKR", fill.execId) ∈ table.keys ∨
          broker = .adapter .ibkr ∧ ∃ other ∈ fillsReached fx fills, ∃ row',
            Converts "IBKR" fx other row' ∧ row'.storable = true ∧ other.execId = fill.execId := by
  rcases buildProductionBroker_with_ibkr hibkr hbroker with rfl | ⟨adapters, rfl⟩
  · have hstored : ∀ execId : String,
        ("IBKR", execId) ∈ (reconcileFills (.adapter .ibkr) (.ok fills) fx table).1.keys ↔
          ("IBKR", execId) ∈ table.keys ∨ ∃ other ∈ fillsReached fx fills, ∃ row',
            Converts "IBKR" fx other row' ∧ row'.storable = true ∧ other.execId = execId := by
      intro execId
      have hrun : reconcileFills (.adapter .ibkr) (.ok fills) fx table =
          reconcileLoop "IBKR" fx fills table 0 := rfl
      rw [hrun, mem_keys_reconcileLoop]
      constructor
      · rintro (hold | ⟨other, hmem, row', hrow, hs, hkey⟩)
        · exact Or.inl hold
        · rw [buildFillRow_key hrow] at hkey
          exact Or.inr ⟨other, hmem, row', hrow, hs, (Prod.mk.inj hkey).2.symm⟩
      · rintro (hold | ⟨other, hmem, row', hrow, hs, rfl⟩)
        · exact Or.inl hold
        · exact Or.inr ⟨other, hmem, row', hrow, hs, (buildFillRow_key hrow).symm⟩
    constructor
    · intro h fill hfill row hrow
      rcases (hstored fill.execId).mp (h fill hfill row hrow) with hold | hnew
      · exact Or.inl hold
      · exact Or.inr ⟨rfl, hnew⟩
    · intro h fill hfill row hrow
      rcases h fill hfill row hrow with hold | ⟨-, hnew⟩
      · exact (hstored fill.execId).mpr (Or.inl hold)
      · exact (hstored fill.execId).mpr (Or.inr hnew)
  · rw [reconcileFills_composite]
    constructor
    · exact fun h fill hfill row hrow => Or.inl (h fill hfill row hrow)
    · intro h fill hfill row hrow
      rcases h fill hfill row hrow with hold | ⟨hb, -⟩
      · exact hold
      · exact absurd hb (by simp)

/-- An execution of one US share. -/
def sampleFill : Fill where
  execId := "0000e0d5.6576a53f.01.01"
  acctNumber := "U1"
  side := "BOT"
  shares := 1
  price := 110
  time := 0
  symbol := "AAPL"
  primaryExchange := "NASDAQ"
  currency := "USD"
  secType := "STK"
  conId := 265598
  commission := 1

theorem reconcileFills_complete_alone :
    (reconcileFills (.adapter .ibkr) (.ok [sampleFill]) ⟨none, 0⟩ .empty).2 = .ok 1 ∧
      ∀ fill ∈ [sampleFill], ∀ row, Converts "IBKR" ⟨none, 0⟩ fill row →
        ("IBKR", fill.execId) ∈
          (reconcileFills (.adapter .ibkr) (.ok [sampleFill]) ⟨none, 0⟩ .empty).1.keys := by
  refine ⟨by decide +kernel, ?_⟩
  refine (reconcileFills_complete_iff none (.adapter .ibkr) (by decide +kernel)
    (by decide +kernel) [sampleFill] ⟨none, 0⟩ .empty).mpr ?_
  intro fill hfill row hrow
  obtain rfl : fill = sampleFill := by simpa using hfill
  have hreached : fillsReached ⟨none, 0⟩ [sampleFill] = [sampleFill] := by decide +kernel
  have hstorable : row.storable = true := by
    have hall : ((buildFillRow "IBKR" ⟨none, 0⟩ sampleFill).toOption.join.all
      FillRow.storable) = true := by decide +kernel
    simpa [show buildFillRow "IBKR" ⟨none, 0⟩ sampleFill = .ok (some row) from hrow,
      Except.toOption] using hall
  exact Or.inr ⟨rfl, sampleFill, by simp [hreached], row, hrow, hstorable, rfl⟩

/-- With Futu enabled beside IBKR the job finds no executions request and stores nothing. -/
theorem reconcileFills_composite_stores_nothing :
    ¬ ∀ (raw : Option String) (broker : Broker), .ibkr ∈ enabledBrokers raw →
      buildProductionBroker (enabledBrokers raw) = .ok broker →
        ∀ (fills : List Fill) (fx : FxView) (table : FillsTable),
          ∀ fill ∈ fills, ∀ row, Converts "IBKR" fx fill row →
            ("IBKR", fill.execId) ∈ (reconcileFills broker (.ok fills) fx table).1.keys := by
  intro hall
  have hconv : ∃ row, Converts "IBKR" ⟨none, 0⟩ sampleFill row := by
    have hsome : ((buildFillRow "IBKR" ⟨none, 0⟩ sampleFill).toOption.join).isSome = true := by
      decide +kernel
    unfold Converts
    cases h : buildFillRow "IBKR" ⟨none, 0⟩ sampleFill with
    | error e => simp [h, Except.toOption] at hsome
    | ok row? =>
      cases row? with
      | none => simp [h, Except.toOption] at hsome
      | some row => exact ⟨row, rfl⟩
  obtain ⟨row, hrow⟩ := hconv
  have hmem := hall (some "ibkr,futu") (.composite [.ibkr, .futu]) (by decide +kernel)
    (by decide +kernel) [sampleFill] ⟨none, 0⟩ .empty sampleFill (by simp) row hrow
  rw [reconcileFills_composite] at hmem
  simp [OrderedDict.keys, OrderedDict.empty] at hmem

end PortfolioHub
