import PortfolioHub.FxRates
import PortfolioHub.InsertOrIgnore
import PortfolioHub.Symbols

namespace PortfolioHub

/-- What `build_fill_row` reads of a vendor fill. -/
structure Fill where
  execId : String
  acctNumber : String
  side : String
  shares : Python.Float
  price : Python.Float
  time : Instant
  symbol : String
  primaryExchange : String
  currency : String
  secType : String
  conId : ℤ
  commission : Python.Float
deriving DecidableEq, Repr

/-- The arguments of `Store.insert_fill`. -/
structure FillRow where
  broker : String
  accountId : String
  executionId : String
  canonicalSymbol : String
  nativeKey : String
  assetClass : String
  side : String
  quantity : Python.Float
  price : Python.Float
  currency : String
  fxRateAtFill : Option Python.Float
  feesNative : Option Python.Float
  feesUsd : Option Python.Float
  filledAt : Instant
deriving DecidableEq, Repr

/-- The primary key `(broker, execution_id)`. -/
def FillRow.key (row : FillRow) : String × String := (row.broker, row.executionId)

/-- `_SIDE_MAP`. -/
def sideMap : List (String × String) := [("BOT", "BUY"), ("SLD", "SELL")]

/-- The rate a fill records: none for dollars, none without a service or a rate. -/
def fillRate (fx : FxView) (currency : String) : Except Python.Error (Option Python.Float) :=
  if currency = "USD" then .ok none
  else match fx.service with
    | none => .ok none
    | some service => do
      let rate ← service.getRateSync fx.now currency
      return rate.map (·.rate)

/-- `none` drops the fill; the one error that escapes is that of the rate lookup. -/
def buildFillRow (broker : String) (fx : FxView) (fill : Fill) :
    Except Python.Error (Option FillRow) :=
  match sideMap.lookup fill.side with
  | none => .ok none
  | some side =>
    match canonicalSymbol fill.symbol fill.primaryExchange with
    | .error _ => .ok none
    | .ok canonical => do
      let currency := Python.orElse fill.currency "USD"
      let fees := fill.commission
      let rate ← fillRate fx currency
      return some
        { broker := broker
          accountId := fill.acctNumber
          executionId := fill.execId
          canonicalSymbol := canonical
          nativeKey := toString fill.conId
          assetClass := fill.secType
          side := side
          quantity := fill.shares
          price := fill.price
          currency := currency
          fxRateAtFill := rate
          feesNative := some fees
          feesUsd := if currency = "USD" then some fees else rate.map (fees * ·)
          filledAt := fill.time }

/-- The conversion gets as far as the rate lookup, with a currency it rejects. -/
def RateLookupRaises (fx : FxView) (fill : Fill) : Prop :=
  (sideMap.lookup fill.side).isSome ∧ KnownExchange fill.primaryExchange ∧ fx.service.isSome ∧
    Python.orElse fill.currency "USD" ≠ "USD" ∧ Python.orElse fill.currency "USD" ∉ supportedFx

instance (fx : FxView) (fill : Fill) : Decidable (RateLookupRaises fx fill) :=
  inferInstanceAs (Decidable (_ ∧ _))

theorem fillRate_error_iff (fx : FxView) (currency : String) :
    (∃ e, fillRate fx currency = .error e) ↔
      fx.service.isSome ∧ currency ≠ "USD" ∧ currency ∉ supportedFx := by
  unfold fillRate
  by_cases hu : currency = "USD"
  · simp [hu]
  · cases fx.service with
    | none => simp [hu]
    | some service =>
      have hrate := getRateSync_error_iff service fx.now currency
      cases hr : service.getRateSync fx.now currency with
      | error e =>
        rw [hr] at hrate
        simpa [hu, hr, bind, Except.bind] using hrate
      | ok rate =>
        rw [hr] at hrate
        simpa [hu, hr, bind, Except.bind, pure, Except.pure] using hrate

theorem buildFillRow_error_iff (broker : String) (fx : FxView) (fill : Fill) :
    (∃ e, buildFillRow broker fx fill = .error e) ↔ RateLookupRaises fx fill := by
  unfold buildFillRow RateLookupRaises KnownExchange canonicalSymbol
  cases sideMap.lookup fill.side with
  | none => simp
  | some side =>
    cases ibExchangeToSuffix.lookup fill.primaryExchange with
    | none => simp
    | some suffix =>
      have hrate := fillRate_error_iff fx (Python.orElse fill.currency "USD")
      cases hr : fillRate fx (Python.orElse fill.currency "USD") with
      | error e =>
        rw [hr] at hrate
        simpa [hr, bind, Except.bind] using hrate
      | ok rate =>
        rw [hr] at hrate
        simpa [hr, bind, Except.bind, pure, Except.pure] using hrate

theorem buildFillRow_key {broker : String} {fx : FxView} {fill : Fill} {row : FillRow}
    (h : buildFillRow broker fx fill = .ok (some row)) : row.key = (broker, fill.execId) := by
  unfold buildFillRow at h
  split at h
  next => simp at h
  next =>
    split at h
    next => simp at h
    next =>
      obtain ⟨rate, -, h⟩ := Python.bind_eq_ok.mp h
      obtain rfl := Option.some.inj (Python.pure_eq_ok.mp h)
      rfl

/-- The table `fills`, by primary key. -/
abbrev FillsTable := OrderedDict (String × String) FillRow

/-- SQLite binds a nan as NULL. -/
def nullIfNan (x : Option Python.Float) : Option Python.Float :=
  x.bind fun v => if v.isNan then none else some v

/-- The NOT NULL columns of the row have a value. -/
def FillRow.storable (row : FillRow) : Bool := !row.quantity.isNan && !row.price.isNan

/-- `INSERT OR IGNORE`: a row that breaks a constraint is skipped. -/
def insertFill (table : FillsTable) (row : FillRow) : FillsTable × Bool :=
  if row.storable ∧ row.key ∉ table.keys then
    (table.insert row.key
      { row with
        fxRateAtFill := nullIfNan row.fxRateAtFill
        feesNative := nullIfNan row.feesNative
        feesUsd := nullIfNan row.feesUsd }, true)
  else (table, false)

/-- What the table keeps of the row. -/
def FillRow.stored (row : FillRow) : FillRow :=
  { row with
    fxRateAtFill := nullIfNan row.fxRateAtFill
    feesNative := nullIfNan row.feesNative
    feesUsd := nullIfNan row.feesUsd }

theorem insertFill_eq (table : FillsTable) (row : FillRow) :
    insertFill table row = table.insertOrIgnore (row.storable = true) row.key row.stored := by
  unfold insertFill OrderedDict.insertOrIgnore
  split
  next => rfl
  next => rfl

theorem get?_insertFill (table : FillsTable) (row : FillRow) (key : String × String) :
    (insertFill table row).1.get? key =
      (table.get? key).or (if row.storable ∧ row.key = key then some row.stored else none) := by
  rw [insertFill_eq]
  exact table.get?_insertOrIgnore _ row.key row.stored key

theorem mem_keys_insertFill {table : FillsTable} {row : FillRow} {key : String × String} :
    key ∈ (insertFill table row).1.keys ↔
      key ∈ table.keys ∨ row.storable = true ∧ key = row.key := by
  rw [insertFill_eq]
  exact table.mem_keys_insertOrIgnore _ row.key row.stored

theorem length_keys_insertFill (table : FillsTable) (row : FillRow) :
    (insertFill table row).1.keys.length =
      table.keys.length + if (insertFill table row).2 then 1 else 0 := by
  rw [insertFill_eq]
  exact table.length_keys_insertOrIgnore _ row.key row.stored

end PortfolioHub
