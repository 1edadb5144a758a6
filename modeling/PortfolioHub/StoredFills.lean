import PortfolioHub.FillRow
import PortfolioHub.StoredHistory
import PortfolioHub.WindowQuery

namespace PortfolioHub

open Python (UtcDatetime)

/-- The columns of `fills`. The times are moments in a call of `insert_fill`, where `captured_at`
is the time of the call, and in what `get_fills_since` returns; they are texts in the table. -/
structure FillColumns (τ : Type) where
  broker : String
  accountId : String
  executionId : String
  canonicalSymbol : String
  nativeKey : String
  assetClass : String
  side : String
  quantity : Python.Float
  price : Python.Float
  currency : String
  fxRateAtFill : Option Python.Float
  feesNative : Option Python.Float
  feesUsd : Option Python.Float
  filledAt : τ
  capturedAt : τ

namespace FillColumns

/-- The primary key `(broker, execution_id)`. -/
def key {τ : Type} (c : FillColumns τ) : String × String := (c.broker, c.executionId)

/-- No NOT NULL column is bound to a nan. -/
def storable {τ : Type} (c : FillColumns τ) : Bool := !c.quantity.isNan && !c.price.isNan

/-- What the statement binds to the columns. -/
def stored (c : FillColumns UtcDatetime) : FillColumns String :=
  { c with
    fxRateAtFill := nullIfNan c.fxRateAtFill
    feesNative := nullIfNan c.feesNative
    feesUsd := nullIfNan c.feesUsd
    filledAt := c.filledAt.isoformat
    capturedAt := c.capturedAt.isoformat }

/-- The dict of a row. -/
def record (r : FillColumns String) : Except Python.Error (FillColumns UtcDatetime) := do
  let filledAt ← UtcDatetime.fromisoformat r.filledAt
  let capturedAt ← UtcDatetime.fromisoformat r.capturedAt
  return { r with filledAt := filledAt, capturedAt := capturedAt }

/-- The arguments of the call, with the optional ones that are no number left out. -/
def inserted (c : FillColumns UtcDatetime) : FillColumns UtcDatetime :=
  { c with
    fxRateAtFill := nullIfNan c.fxRateAtFill
    feesNative := nullIfNan c.feesNative
    feesUsd := nullIfNan c.feesUsd }

/-- The row of the call in the table of moments. -/
def row (c : FillColumns UtcDatetime) : FillRow :=
  { c with filledAt := c.filledAt.instant }

/-- The row is of the account and was filled at or after the moment. -/
def Inside (c : FillColumns UtcDatetime) (broker accountId : String) (since : UtcDatetime) : Prop :=
  c.broker = broker ∧ c.accountId = accountId ∧ since.instant ≤ c.filledAt.instant

instance (c : FillColumns UtcDatetime) (broker accountId : String) (since : UtcDatetime) :
    Decidable (c.Inside broker accountId since) := inferInstanceAs (Decidable (_ ∧ _ ∧ _))

end FillColumns

/-- The table `fills`, by primary key. -/
abbrev StoredFills := OrderedDict (String × String) (FillColumns String)

/-- An element of what `get_equity_snapshots_since` returns. -/
structure SnapshotRecord where
  snapshotAt : UtcDatetime
  snapshotSession : String
  broker : String
  accountId : String
  baseCurrency : String
  netLiquidationNative : Python.Float
  netLiquidationUsd : Python.Float
  grossPositionValueUsd : Python.Float
  cashUsd : Python.Float
  capturedAt : UtcDatetime

/-- The dict of a row. -/
def StoredSnapshot.record (r : StoredSnapshot) : Except Python.Error SnapshotRecord := do
  let snapshotAt ← UtcDatetime.fromisoformat r.snapshotAt
  let capturedAt ← UtcDatetime.fromisoformat r.capturedAt
  return { r with snapshotAt := snapshotAt, capturedAt := capturedAt }

namespace SnapshotInsert

def record (c : SnapshotInsert) : SnapshotRecord := { c with capturedAt := c.now }

/-- The row is of the account and was taken at or after the moment. -/
def Inside (c : SnapshotInsert) (broker accountId : String) (since : UtcDatetime) : Prop :=
  c.broker = broker ∧ c.accountId = accountId ∧ since.instant ≤ c.snapshotAt.instant

instance (c : SnapshotInsert) (broker accountId : String) (since : UtcDatetime) :
    Decidable (c.Inside broker accountId since) := inferInstanceAs (Decidable (_ ∧ _ ∧ _))

end SnapshotInsert

namespace Store

/-- `INSERT OR IGNORE`. -/
def insertFill (table : StoredFills) (c : FillColumns UtcDatetime) : StoredFills × Bool :=
  table.insertOrIgnore (c.storable = true) c.key c.stored

/-- The table after the calls. -/
def fillsAfter (inserts : List (FillColumns UtcDatetime)) : StoredFills :=
  inserts.foldl (fun table c => (insertFill table c).1) .empty

/-- `get_fills_since`: the rows that are equal in `filled_at` come as they are found. -/
def getFillsSince {table : StoredFills} (scan : Scan table.values) (broker accountId : String)
    (since : UtcDatetime) : Except Python.Error (List (FillColumns UtcDatetime)) :=
  (scan.order.selectOn (fun r => r.broker = broker ∧ r.accountId = accountId ∧
    since.isoformat ≤ r.filledAt) (·.filledAt)).mapM FillColumns.record

/-- `get_equity_snapshots_since`. -/
def getEquitySnapshotsSince {table : StoredTable} (scan : Scan table.values)
    (broker accountId : String) (since : UtcDatetime) : Except Python.Error (List SnapshotRecord) :=
  (scan.order.selectOn (fun r => r.broker = broker ∧ r.accountId = accountId ∧
    since.isoformat ≤ r.snapshotAt) (·.snapshotAt)).mapM StoredSnapshot.record

end Store

/-- The calls that left a fill: for each execution the first that could. -/
def keptFills (inserts : List (FillColumns UtcDatetime)) : List (FillColumns UtcDatetime) :=
  inserts.foldl (OrderedDict.keepNew FillColumns.storable FillColumns.key) []

theorem mem_keptFills {inserts : List (FillColumns UtcDatetime)} {c : FillColumns UtcDatetime} :
    c ∈ keptFills inserts ↔ inserts.find? (fun d => d.storable = true ∧ d.key = c.key) = some c :=
  OrderedDict.mem_foldl_keepNew

theorem values_fillsAfter (inserts : List (FillColumns UtcDatetime)) :
    (Store.fillsAfter inserts).values = (keptFills inserts).map FillColumns.stored := by
  have hentries : (Store.fillsAfter inserts).entries =
      (keptFills inserts).map fun c => (c.key, c.stored) :=
    OrderedDict.entries_foldl_insertOrIgnore rfl
  rw [OrderedDict.values, hentries, List.map_map]
  rfl

/-- The stored texts stand for the table of moments: the same calls leave their rows in it. -/
theorem values_fills_of_moments (inserts : List (FillColumns UtcDatetime)) :
    (inserts.foldl (fun table c => (insertFill table c.row).1) (.empty : FillsTable)).values =
      (keptFills inserts).map fun c => c.row.stored := by
  have hinsert : (fun table c => (insertFill table (FillColumns.row c)).1) =
      fun (table : FillsTable) c =>
        (table.insertOrIgnore (c.storable = true) c.key c.row.stored).1 := by
    funext table c
    rw [insertFill_eq]
    rfl
  have hentries : (inserts.foldl (fun (table : FillsTable) c =>
      (table.insertOrIgnore (c.storable = true) c.key c.row.stored).1) .empty).entries =
        (keptFills inserts).map fun c => (c.key, c.row.stored) :=
    OrderedDict.entries_foldl_insertOrIgnore rfl
  rw [hinsert, OrderedDict.values, hentries, List.map_map]
  rfl

theorem record_stored (c : FillColumns UtcDatetime) : c.stored.record = .ok c.inserted := by
  have hfilled : UtcDatetime.fromisoformat c.stored.filledAt = .ok c.filledAt :=
    UtcDatetime.fromisoformat_isoformat _
  have hcaptured : UtcDatetime.fromisoformat c.stored.capturedAt = .ok c.capturedAt :=
    UtcDatetime.fromisoformat_isoformat _
  rw [FillColumns.record, hfilled, hcaptured]
  rfl

theorem SnapshotInsert.record_stored (c : SnapshotInsert) : c.stored.record = .ok c.record := by
  have hat : UtcDatetime.fromisoformat c.stored.snapshotAt = .ok c.snapshotAt :=
    UtcDatetime.fromisoformat_isoformat _
  have hcaptured : UtcDatetime.fromisoformat c.stored.capturedAt = .ok c.now :=
    UtcDatetime.fromisoformat_isoformat _
  rw [StoredSnapshot.record, hat, hcaptured]
  rfl

theorem getFillsSince_fillsAfter (inserts : List (FillColumns UtcDatetime))
    (scan : Scan (Store.fillsAfter inserts).values) (broker accountId : String)
    (since : UtcDatetime) :
    ∃ records, Store.getFillsSince scan broker accountId since = .ok records ∧
      records.Perm (((keptFills inserts).filter (·.Inside broker accountId since)).map
        FillColumns.inserted) ∧
      records.Pairwise (·.filledAt.instant ≤ ·.filledAt.instant) := by
  refine Python.mapM_selectOn (scan.perm.trans (values_fillsAfter inserts ▸ .rfl)) record_stored
    (fun c => ?_) fun c d => UtcDatetime.isoformat_le_iff
  refine decide_eq_decide.mpr ?_
  exact and_congr_right' (and_congr_right' UtcDatetime.isoformat_le_iff)

theorem getEquitySnapshotsSince_afterInserts (inserts : List SnapshotInsert)
    (scan : Scan (Store.afterInserts inserts).values) (broker accountId : String)
    (since : UtcDatetime) :
    ∃ records, Store.getEquitySnapshotsSince scan broker accountId since = .ok records ∧
      records.Perm (((kept inserts).filter (·.Inside broker accountId since)).map
        SnapshotInsert.record) ∧
      records.Pairwise (·.snapshotAt.instant ≤ ·.snapshotAt.instant) := by
  have hvalues : (Store.afterInserts inserts).values = (kept inserts).map SnapshotInsert.stored := by
    rw [OrderedDict.values, entries_afterInserts, List.map_map]
    rfl
  refine Python.mapM_selectOn (scan.perm.trans (hvalues ▸ .rfl)) SnapshotInsert.record_stored
    (fun c => ?_) fun c d => UtcDatetime.isoformat_le_iff
  refine decide_eq_decide.mpr ?_
  exact and_congr_right' (and_congr_right' UtcDatetime.isoformat_le_iff)

/-- Texts of times sort and read back as the times, so the windows are windows of moments: they
give the stored rows of the account from a moment on, oldest first, with the times inserted. -/
theorem windows_are_of_moments :
    (∀ t u : UtcDatetime, t.isoformat < u.isoformat ↔ t.instant < u.instant) ∧
    (∀ t : UtcDatetime, UtcDatetime.fromisoformat t.isoformat = .ok t) ∧
    (∀ inserts (scan : Scan (Store.fillsAfter inserts).values) broker accountId since,
      ∃ records, Store.getFillsSince scan broker accountId since = .ok records ∧
        records.Perm (((keptFills inserts).filter (·.Inside broker accountId since)).map
          FillColumns.inserted) ∧
        records.Pairwise (·.filledAt.instant ≤ ·.filledAt.instant)) ∧
    ∀ inserts (scan : Scan (Store.afterInserts inserts).values) broker accountId since,
      ∃ records, Store.getEquitySnapshotsSince scan broker accountId since = .ok records ∧
        records.Perm (((kept inserts).filter (·.Inside broker accountId since)).map
          SnapshotInsert.record) ∧
        records.Pairwise (·.snapshotAt.instant ≤ ·.snapshotAt.instant) :=
  ⟨fun _ _ => UtcDatetime.isoformat_lt_iff, UtcDatetime.fromisoformat_isoformat,
    getFillsSince_fillsAfter, getEquitySnapshotsSince_afterInserts⟩

end PortfolioHub
