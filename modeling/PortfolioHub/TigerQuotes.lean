import PortfolioHub.TigerFetch

namespace PortfolioHub

/-- A record of the quote batch with the market of the instrument it is about, which the
record's own columns do not give. -/
structure TigerBrief where
  market : String
  record : TigerQuote
deriving DecidableEq, Repr

/-- The text the record is indexed under. -/
def TigerBrief.symbol (brief : TigerBrief) : String :=
  Python.strip (brief.record.symbol.strOr "")

def TigerRow.market (row : TigerRow) : String :=
  Python.upper ((attr row.contract (·.market)).textOr "")

/-- The symbols `_fetch_positions` asks quotes for. -/
def tigerSymbols (rows : List (String × TigerRow)) : List String :=
  (rows.map fun row => row.2.symbol).filter (· ≠ "")

def quoteBatches (symbols : List String) : List (List String) :=
  (OrderedDict.ofList (symbols.map fun symbol => (symbol, ()))).keys.toChunks 50

/-- `TigerReplies.quoteBatch`, on records that carry their market. -/
def briefBatch (briefs : List String → Except Python.Error (List TigerBrief))
    (found : OrderedDict String TigerBrief) (batch : List String) :
    Except Python.Error (OrderedDict String TigerBrief) :=
  match briefs batch with
  | .error e => if e.isException then .ok found else .error e
  | .ok records => .ok (found.update
      ((records.map fun brief => (brief.symbol, brief)).filter (·.1 ≠ "")))

def briefsBySymbol (briefs : List String → Except Python.Error (List TigerBrief))
    (symbols : List String) : Except Python.Error (OrderedDict String TigerBrief) :=
  (quoteBatches symbols).foldlM (briefBatch briefs) .empty

/-- The records of the batches that answer, in the order they come. -/
def returnedBriefs (briefs : List String → Except Python.Error (List TigerBrief))
    (batches : List (List String)) : List TigerBrief :=
  batches.flatMap fun batch =>
    match briefs batch with
    | .ok records => records
    | .error _ => []

/-- The record that came last under a symbol text. -/
def lastReturned (returned : List TigerBrief) (symbol : String) : Option TigerBrief :=
  returned.reverse.find? fun brief => brief.symbol = symbol

/-- The row's contract, market, quantity and account are ones the adapter maps; which quotes
there are plays no part. -/
def TigerRow.Mapped (markets : List String) (accountId : String) (row : TigerRow) : Prop :=
  row.contract ≠ none ∧ ¬ (markets ≠ [] ∧ row.market ≠ "" ∧ row.market ∉ markets) ∧
    row.quantity.safeFloat ≠ 0 ∧
    ¬ (row.account.textOr "" ≠ "" ∧ row.account.textOr "" ≠ accountId) ∧
    ∃ normalised, tigerNormaliseContractSymbol row.symbol row.market
      ((attr row.contract (·.primaryExchange)).textOr "") = .ok normalised

/-- `p` is the position of the row, priced with `quote`: its last price, over the row's mark
where there is none, and its previous close. -/
structure PricedBy (fx : FxView) (markets : List String) (found : OrderedDict String TigerBrief)
    (row : String × TigerRow) (p : Position) (quote : Option TigerBrief) : Prop where
  built : tigerPositionFromRow fx markets row.1 row.2 (found.mapValues (·.record)) = .ok (some p)
  quoted : quote = found.get? row.2.symbol
  lastPrice : p.lastPrice = row.2.lastPrice (quote.map (·.record))
  previousClose : p.previousClose = firstFloat [attr (quote.map (·.record)) (·.preClose),
    attr (quote.map (·.record)) (·.adjPreClose)]

/-- Every row is priced with a record for its own market and symbol, and no two rows of one
symbol text on two markets share one. -/
structure OwnQuotes (fx : FxView) (markets : List String) (found : OrderedDict String TigerBrief)
    (rows : List (String × TigerRow)) : Prop where
  own : ∀ row ∈ rows, ∀ p brief, PricedBy fx markets found row p (some brief) →
    brief.market = row.2.market ∧ brief.symbol = row.2.symbol
  apart : ∀ row ∈ rows, ∀ other ∈ rows, row.2.symbol = other.2.symbol →
    row.2.market ≠ other.2.market → ∀ p q brief, PricedBy fx markets found row p (some brief) →
      PricedBy fx markets found other q (some brief) → False

variable {briefs : List String → Except Python.Error (List TigerBrief)}

theorem quoteBatch_eq {r : TigerReplies}
    (hbriefs : ∀ batch, r.stockBriefs batch = (briefs batch).map (List.map TigerBrief.record))
    (found : OrderedDict String TigerBrief) (batch : List String) :
    r.quoteBatch (found.mapValues (·.record)) batch =
      (briefBatch briefs found batch).map (·.mapValues (·.record)) := by
  unfold TigerReplies.quoteBatch briefBatch
  rw [hbriefs]
  cases briefs batch with
  | error e =>
    by_cases he : e.isException = true
    · simp [Except.map, he]
    · simp [Except.map, he]
  | ok records =>
    have hpairs : ((records.map TigerBrief.record).map fun record =>
        (Python.strip (record.symbol.strOr ""), record)).filter (·.1 ≠ "") =
        ((records.map fun brief => (brief.symbol, brief)).filter (·.1 ≠ "")).map
          fun e => (e.1, e.2.record) := by
      rw [List.map_map, List.filter_map, List.filter_map, List.map_map]
      rfl
    have hupdate := OrderedDict.mapValues_update found TigerBrief.record
      ((records.map fun brief => (brief.symbol, brief)).filter (·.1 ≠ ""))
    rw [← hpairs] at hupdate
    exact congrArg Except.ok hupdate.symm

/-- The adapter's table is the table of the marked records, less their markets. -/
theorem quotesBySymbol_eq {r : TigerReplies}
    (hbriefs : ∀ batch, r.stockBriefs batch = (briefs batch).map (List.map TigerBrief.record))
    (symbols : List String) :
    r.quotesBySymbol symbols = (briefsBySymbol briefs symbols).map (·.mapValues (·.record)) :=
  Python.foldlM_map (quoteBatch_eq hbriefs) (quoteBatches symbols) .empty

theorem lastReturned_append (earlier later : List TigerBrief) (symbol : String) :
    lastReturned (earlier ++ later) symbol =
      (lastReturned later symbol).or (lastReturned earlier symbol) := by
  unfold lastReturned
  rw [List.reverse_append, List.find?_append]

theorem returnedBriefs_cons (batch : List String) (batches : List (List String)) :
    returnedBriefs briefs (batch :: batches) =
      returnedBriefs briefs [batch] ++ returnedBriefs briefs batches := by
  simp [returnedBriefs]

theorem lastReturned_symbol {returned : List TigerBrief} {symbol : String} {brief : TigerBrief}
    (h : lastReturned returned symbol = some brief) : brief.symbol = symbol := by
  simpa using List.find?_some h

/-- A batch leaves the last of its records under a symbol, and the old one where it has none. -/
theorem get?_briefBatch {found next : OrderedDict String TigerBrief} {batch : List String}
    (h : briefBatch briefs found batch = .ok next) {symbol : String} (hsymbol : symbol ≠ "") :
    next.get? symbol =
      (lastReturned (returnedBriefs briefs [batch]) symbol).or (found.get? symbol) := by
  unfold briefBatch at h
  cases hbatch : briefs batch with
  | error e =>
    have hnone : returnedBriefs briefs [batch] = [] := by simp [returnedBriefs, hbatch]
    rw [hbatch] at h
    dsimp only at h
    split at h
    next =>
      obtain rfl := Except.ok.inj h
      rw [hnone]
      rfl
    next => simp at h
  | ok records =>
    have hall : returnedBriefs briefs [batch] = records := by simp [returnedBriefs, hbatch]
    rw [hbatch] at h
    obtain rfl := Except.ok.inj h
    have hlookup : ((records.map fun brief => (brief.symbol, brief)).filter
        (·.1 ≠ "")).reverse.lookup symbol = lastReturned records symbol := by
      rw [List.filter_map, ← List.map_reverse, OrderedDict.lookup_indexed, ← List.filter_reverse,
        List.find?_filter, lastReturned]
      refine congrArg (records.reverse.find? ·) (funext fun brief => ?_)
      by_cases hb : brief.symbol = symbol
      · simp [hb, hsymbol]
      · simp [hb]
    rw [OrderedDict.get?_update, hall, hlookup]

/-- The table holds under each symbol the record that came last under it. -/
theorem get?_briefsBySymbol {symbols : List String} {found : OrderedDict String TigerBrief}
    (h : briefsBySymbol briefs symbols = .ok found) {symbol : String} (hsymbol : symbol ≠ "") :
    found.get? symbol = lastReturned (returnedBriefs briefs (quoteBatches symbols)) symbol := by
  have hrun : ∀ (batches : List (List String)) (d : OrderedDict String TigerBrief),
      batches.foldlM (briefBatch briefs) d = .ok found → found.get? symbol =
        (lastReturned (returnedBriefs briefs batches) symbol).or (d.get? symbol) := by
    intro batches
    induction batches with
    | nil =>
      intro d hd
      obtain rfl := Python.pure_eq_ok.mp hd
      rfl
    | cons batch batches ih =>
      intro d hd
      rw [List.foldlM_cons] at hd
      obtain ⟨next, hnext, hd⟩ := Python.bind_eq_ok.mp hd
      rw [returnedBriefs_cons, lastReturned_append, Option.or_assoc, ih next hd,
        get?_briefBatch hnext hsymbol]
  have hfound := hrun (quoteBatches symbols) .empty h
  rwa [OrderedDict.get?_empty, Option.or_none] at hfound

/-- Whether a row maps to a position is decided by the row alone. -/
theorem mapped_iff {fx : FxView} {markets : List String} {accountId : String} {row : TigerRow}
    {quotes : OrderedDict String TigerQuote} :
    (∃ p, tigerPositionFromRow fx markets accountId row quotes = .ok (some p)) ↔
      row.Mapped markets accountId := by
  unfold TigerRow.Mapped tigerPositionFromRow TigerRow.symbol TigerRow.market
  cases hcontract : row.contract with
  | none => simp
  | some contract =>
    dsimp only
    simp only [attr, Option.map_some, Option.getD_some]
    split
    next hmarket => simp [hmarket]
    next hmarket =>
      split
      next hquantity => simp [hquantity]
      next hquantity =>
        split
        next haccount => simp [haccount]
        next haccount =>
          cases hnorm : tigerNormaliseContractSymbol (contract.symbol.textOr "")
              (Python.upper (contract.market.textOr ""))
              (contract.primaryExchange.textOr "") with
          | error e => simp [bind, Except.bind]
          | ok normalised => simp [bind, Except.bind, pure, Except.pure, hmarket, hquantity, haccount]

theorem TigerRow.Mapped.symbol_ne {markets : List String} {accountId : String} {row : TigerRow}
    (h : row.Mapped markets accountId) : row.symbol ≠ "" := by
  obtain ⟨-, -, -, -, normalised, hnorm⟩ := h
  intro hsymbol
  have hstrip : Python.strip "" = "" := by decide
  simp [tigerNormaliseContractSymbol, hsymbol, hstrip] at hnorm

/-- A row that is mapped is priced with what the table holds under its symbol text. -/
theorem pricedBy_of_built {fx : FxView} {markets : List String}
    {found : OrderedDict String TigerBrief} {row : String × TigerRow} {p : Position}
    (h : tigerPositionFromRow fx markets row.1 row.2 (found.mapValues (·.record)) = .ok (some p)) :
    PricedBy fx markets found row p (found.get? row.2.symbol) := by
  have hcarries := tigerPositionFromRow_carries h
  rw [OrderedDict.get?_mapValues] at hcarries
  exact ⟨h, rfl, hcarries.lastPrice, hcarries.previousClose⟩

/-- The stock rows of a fetch are the rows that map, each with its record of the table. -/
theorem mem_tigerStockPositions_iff {fx : FxView} {settings : TigerSettings}
    {rows : List (String × TigerRow)} {found : OrderedDict String TigerBrief} {p : Position} :
    p ∈ tigerStockPositions fx settings rows (found.mapValues (·.record)) ↔
      ∃ row ∈ rows, ∃ quote, PricedBy fx settings.markets found row p quote := by
  unfold tigerStockPositions
  rw [List.mem_filterMap]
  constructor
  · rintro ⟨row, hrow, hp⟩
    split at hp
    next position hposition =>
      obtain rfl := hp
      exact ⟨row, hrow, _, pricedBy_of_built hposition⟩
    next => simp at hp
  · rintro ⟨row, hrow, quote, hp⟩
    exact ⟨row, hrow, by rw [hp.built]⟩

/-- What a fetch gives is the priced rows of the accounts and their cash rows. -/
theorem fetchPositions_priced {fx : FxView} {settings : TigerSettings} {r : TigerReplies}
    (hbriefs : ∀ batch, r.stockBriefs batch = (briefs batch).map (List.map TigerBrief.record))
    {accounts : List TigerAccountRef} {positions : List Position}
    (h : r.fetchPositions fx settings accounts = .ok positions) :
    ∃ accountRows found cash, accounts.mapM r.positionRows = .ok accountRows ∧
      briefsBySymbol briefs (tigerSymbols accountRows.flatten) = .ok found ∧
      positions = tigerStockPositions fx settings accountRows.flatten
        (found.mapValues (·.record)) ++ cash := by
  obtain ⟨accountRows, haccounts, h⟩ := Python.bind_eq_ok.mp h
  obtain ⟨quotes, hquotes, h⟩ := Python.bind_eq_ok.mp h
  obtain ⟨snapshots, -, h⟩ := Python.bind_eq_ok.mp h
  obtain rfl := Python.pure_eq_ok.mp h
  have hsame := (quotesBySymbol_eq hbriefs (tigerSymbols accountRows.flatten)).symm.trans hquotes
  cases hfound : briefsBySymbol briefs (tigerSymbols accountRows.flatten) with
  | error e => simp [hfound, Except.map] at hsame
  | ok found =>
    rw [hfound] at hsame
    obtain rfl := Except.ok.inj hsame
    exact ⟨accountRows, found, _, haccounts, hfound, rfl⟩

/-- The table is keyed by the bare symbol text: rows are priced with their own market's
records exactly where the last record that came under their text is for that market. -/
theorem tiger_rows_have_own_quotes_iff (fx : FxView) (settings : TigerSettings) {r : TigerReplies}
    (hbriefs : ∀ batch, r.stockBriefs batch = (briefs batch).map (List.map TigerBrief.record))
    {rows : List (String × TigerRow)} {quotes : OrderedDict String TigerQuote}
    (hquotes : r.quotesBySymbol (tigerSymbols rows) = .ok quotes) :
    ∃ found, briefsBySymbol briefs (tigerSymbols rows) = .ok found ∧
      quotes = found.mapValues (·.record) ∧
      (OwnQuotes fx settings.markets found rows ↔
        ∀ row ∈ rows, row.2.Mapped settings.markets row.1 → ∀ brief,
          lastReturned (returnedBriefs briefs (quoteBatches (tigerSymbols rows))) row.2.symbol =
            some brief → brief.market = row.2.market) := by
  have hsame := (quotesBySymbol_eq hbriefs (tigerSymbols rows)).symm.trans hquotes
  cases hfound : briefsBySymbol briefs (tigerSymbols rows) with
  | error e => simp [hfound, Except.map] at hsame
  | ok found =>
    rw [hfound] at hsame
    obtain rfl := Except.ok.inj hsame
    refine ⟨found, rfl, rfl, fun h row hrow hmapped brief hlast => ?_,
      fun h => ⟨fun row hrow p brief hp => ?_,
        fun row hrow other hother _ hmarket p q brief hp hq => ?_⟩⟩
    · obtain ⟨p, hp⟩ : ∃ p, tigerPositionFromRow fx settings.markets row.1 row.2
          (found.mapValues (·.record)) = .ok (some p) := mapped_iff.mpr hmapped
      have hprice := pricedBy_of_built hp
      rw [get?_briefsBySymbol hfound hmapped.symbol_ne, hlast] at hprice
      exact (h.own row hrow p brief hprice).1
    · have hmapped := mapped_iff.mp ⟨p, hp.built⟩
      have hlast := hp.quoted
      rw [get?_briefsBySymbol hfound hmapped.symbol_ne] at hlast
      exact ⟨h row hrow hmapped brief hlast.symm, lastReturned_symbol hlast.symm⟩
    · have hmapped := mapped_iff.mp ⟨p, hp.built⟩
      have hmapped' := mapped_iff.mp ⟨q, hq.built⟩
      have hlast := hp.quoted
      have hlast' := hq.quoted
      rw [get?_briefsBySymbol hfound hmapped.symbol_ne] at hlast
      rw [get?_briefsBySymbol hfound hmapped'.symbol_ne] at hlast'
      exact hmarket ((h row hrow hmapped brief hlast.symm).symm.trans
        (h other hother hmapped' brief hlast'.symm))

/-- A holding of 100 BHP in a market. -/
def bhpRow (market currency : String) (price : ℕ) : TigerRow where
  contract := some ⟨.text "BHP", .text market, .missing, .text currency, .missing, .missing⟩
  account := .missing
  quantity := .number 100
  marketPrice := .number price
  marketValue := .missing
  averageCost := .missing
  averageCostByAverage := .missing
  averageCostOfCarry := .missing
  unrealizedPnl := .missing

def bhpRows : List (String × TigerRow) := [("T1", bhpRow "US" "USD" 56), ("T1", bhpRow "AU" "AUD" 43)]

/-- The one record the vendor returns for the text BHP, New York's. -/
def bhpBrief : TigerBrief := ⟨"US", ⟨.text "BHP", .number 55, .number 55, .number 54, .missing⟩⟩

def bhpReplies : TigerReplies where
  positions := fun _ => .ok (bhpRows.map (·.2))
  stockBriefs := fun _ => .ok [bhpBrief.record]
  primeAssets := fun _ => .ok none
  globalAssets := fun _ => .ok none

theorem sydney_row_mapped : (bhpRow "AU" "AUD" 43).Mapped [] "T1" :=
  ⟨by decide, by decide, by decide, by decide, ("BHP", "BHP.AU", "ASX"), by decide⟩

theorem bhp_quotes_returned : bhpReplies.quotesBySymbol (tigerSymbols bhpRows) =
    .ok ((OrderedDict.empty.insert "BHP" bhpBrief).mapValues (·.record)) := rfl

theorem own_quotes_of_bhp : ∃ found, briefsBySymbol (fun _ => .ok [bhpBrief])
      (tigerSymbols bhpRows) = .ok found ∧
    (OrderedDict.empty.insert "BHP" bhpBrief).mapValues (·.record) =
      found.mapValues (·.record) ∧
    (OwnQuotes sampleView [] found bhpRows ↔
      ∀ row ∈ bhpRows, row.2.Mapped [] row.1 → ∀ brief,
        lastReturned (returnedBriefs (fun _ => .ok [bhpBrief])
          (quoteBatches (tigerSymbols bhpRows))) row.2.symbol = some brief →
            brief.market = row.2.market) :=
  tiger_rows_have_own_quotes_iff sampleView ⟨"USD", []⟩ (r := bhpReplies) (fun _ => rfl)
    bhp_quotes_returned

/-- BHP held in Sydney is valued at New York's price. -/
theorem sydney_row_is_priced_in_new_york :
    bhpReplies.quotesBySymbol (tigerSymbols bhpRows) =
        .ok ((OrderedDict.empty.insert "BHP" bhpBrief).mapValues (·.record)) ∧
      (bhpReplies.fetchPositions sampleView ⟨"USD", []⟩ [⟨"T1", "STANDARD"⟩]).map
        (·.map fun p => (p.canonicalSymbol, p.lastPrice)) = .ok [("BHP.US", 55), ("BHP.AU", 55)] ∧
      ¬ OwnQuotes sampleView [] (OrderedDict.empty.insert "BHP" bhpBrief) bhpRows := by
  refine ⟨bhp_quotes_returned, by rfl, fun h => ?_⟩
  obtain ⟨p, hp⟩ : ∃ p, tigerPositionFromRow sampleView [] "T1" (bhpRow "AU" "AUD" 43)
      ((OrderedDict.empty.insert "BHP" bhpBrief).mapValues (·.record)) = .ok (some p) :=
    mapped_iff.mpr sydney_row_mapped
  have hown := h.own ("T1", bhpRow "AU" "AUD" 43) (by simp [bhpRows]) p bhpBrief
    (pricedBy_of_built hp)
  exact absurd hown.1 (by decide)

end PortfolioHub
