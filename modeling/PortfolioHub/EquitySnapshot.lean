import PortfolioHub.IbkrSummary
import PortfolioHub.InsertOrIgnore

namespace PortfolioHub

/-- A second of the clock, which counts microseconds. -/
def second : ℤ := 1000000

/-- The arguments of `Store.insert_equity_snapshot`. -/
structure EquityRow where
  snapshotAt : Instant
  snapshotSession : String
  broker : String
  accountId : String
  baseCurrency : String
  netLiquidationNative : Python.Float
  netLiquidationUsd : Python.Float
  grossPositionValueUsd : Python.Float
  cashUsd : Python.Float
deriving DecidableEq, Repr

/-- The primary key `(snapshot_at, snapshot_session, broker, account_id)`. -/
abbrev EquityKey := Instant × String × String × String

def EquityRow.key (row : EquityRow) : EquityKey :=
  (row.snapshotAt, row.snapshotSession, row.broker, row.accountId)

/-- The instant is aware by its type; an empty session raises. -/
def buildEquitySnapshotRow (account : AccountSummary) (snapshotAt : Instant)
    (snapshotSession : String) : Except Python.Error EquityRow :=
  if snapshotSession = "" then .error (.valueError "snapshot_session must be non-empty")
  else .ok
    { snapshotAt := snapshotAt
      snapshotSession := snapshotSession
      broker := account.broker
      accountId := account.accountId
      baseCurrency := account.baseCurrency
      netLiquidationNative := account.netLiquidationNative
      netLiquidationUsd := account.netLiquidationUsd
      grossPositionValueUsd := account.grossPositionValueUsd
      cashUsd := account.cashUsd }

/-- No NOT NULL column is bound to a nan, which SQLite takes as NULL. -/
def EquityRow.storable (row : EquityRow) : Bool :=
  !row.netLiquidationNative.isNan && !row.netLiquidationUsd.isNan &&
    !row.grossPositionValueUsd.isNan && !row.cashUsd.isNan

abbrev EquityTable := OrderedDict EquityKey EquityRow

/-- `INSERT OR IGNORE`. -/
def insertEquitySnapshot (table : EquityTable) (row : EquityRow) : EquityTable × Bool :=
  if row.storable ∧ row.key ∉ table.keys then (table.insert row.key row, true) else (table, false)

/-- The loop over the summaries; one that fails is skipped. -/
def captureLoop (snapshotAt : Instant) (session : String) :
    List AccountSummary → EquityTable → ℕ → EquityTable × ℕ
  | [], table, inserted => (table, inserted)
  | s :: summaries, table, inserted =>
    match buildEquitySnapshotRow s snapshotAt session with
    | .error _ => captureLoop snapshotAt session summaries table inserted
    | .ok row =>
      let result := insertEquitySnapshot table row
      captureLoop snapshotAt session summaries result.1
        (if result.2 then inserted + 1 else inserted)

/-- `_capture_snapshot`: a failed summary query inserts nothing. -/
def captureSnapshot (summaries : Except Python.Error (List AccountSummary)) (ibExchange : String)
    (snapshotAt : Instant) (table : EquityTable) : EquityTable × ℕ :=
  match summaries with
  | .error _ => (table, 0)
  | .ok summaries => captureLoop snapshotAt (ibExchange ++ "_CLOSE") summaries table 0

/-- The row a summary gives under a session that is not empty. -/
def AccountSummary.equityRow (s : AccountSummary) (snapshotAt : Instant) (session : String) :
    EquityRow :=
  ⟨snapshotAt, session, s.broker, s.accountId, s.baseCurrency, s.netLiquidationNative,
    s.netLiquidationUsd, s.grossPositionValueUsd, s.cashUsd⟩

theorem get?_insertEquitySnapshot (table : EquityTable) (row : EquityRow) (k : EquityKey) :
    (insertEquitySnapshot table row).1.get? k =
      (table.get? k).or (if row.storable ∧ row.key = k then some row else none) := by
  have heq : insertEquitySnapshot table row =
      table.insertOrIgnore (row.storable = true) row.key row := by
    unfold insertEquitySnapshot OrderedDict.insertOrIgnore
    split
    next => rfl
    next => rfl
  rw [heq]
  exact table.get?_insertOrIgnore _ row.key row k

/-- A run keeps what the table has and adds, for every other key, the first row of the
key that can be stored. -/
theorem get?_captureLoop {snapshotAt : Instant} {session : String} (hsession : session ≠ "")
    (summaries : List AccountSummary) (table : EquityTable) (inserted : ℕ) (k : EquityKey) :
    (captureLoop snapshotAt session summaries table inserted).1.get? k =
      (table.get? k).or ((summaries.map (·.equityRow snapshotAt session)).find? fun row =>
        row.storable ∧ row.key = k) := by
  induction summaries generalizing table inserted with
  | nil => simp [captureLoop]
  | cons s summaries ih =>
    have hbuild : buildEquitySnapshotRow s snapshotAt session =
        .ok (s.equityRow snapshotAt session) := by
      rw [buildEquitySnapshotRow, if_neg hsession]
      rfl
    rw [captureLoop, hbuild]
    dsimp only
    rw [ih, get?_insertEquitySnapshot, List.map_cons, List.find?_cons, Option.or_assoc]
    by_cases hrow : (s.equityRow snapshotAt session).storable = true ∧
        (s.equityRow snapshotAt session).key = k
    · simp [hrow]
    · simp [hrow]

theorem closeSession_ne_empty (ibExchange : String) : ibExchange ++ "_CLOSE" ≠ "" := by
  intro h
  have := congrArg String.length h
  simp at this

/-- The linked accounts that a run of the summaries can leave a row of. -/
def recordedAccounts (summaries : Except Python.Error (List AccountSummary)) :
    List (String × String) :=
  ((summaries.toOption.getD []).filter fun s => (s.equityRow 0 "").storable).map fun s =>
    (s.broker, s.accountId)

/-- A run adds the rows of its own moment and session, one for each account it records. -/
theorem mem_keys_captureSnapshot (summaries : Except Python.Error (List AccountSummary))
    (ibExchange : String) (snapshotAt : Instant) (table : EquityTable) (k : EquityKey) :
    k ∈ (captureSnapshot summaries ibExchange snapshotAt table).1.keys ↔
      k ∈ table.keys ∨ ∃ account ∈ recordedAccounts summaries,
        (snapshotAt, ibExchange ++ "_CLOSE", account) = k := by
  cases summaries with
  | error error => simp [captureSnapshot, recordedAccounts, Except.toOption]
  | ok summaries =>
    have hrecorded : recordedAccounts (.ok summaries) =
        (summaries.filter fun s => (s.equityRow 0 "").storable).map fun s =>
          (s.broker, s.accountId) := rfl
    rw [captureSnapshot, OrderedDict.mem_keys_iff,
      get?_captureLoop (closeSession_ne_empty ibExchange), hrecorded]
    constructor
    · rintro ⟨row, hrow⟩
      rcases Option.or_eq_some_iff.mp hrow with hold | ⟨-, hfind⟩
      · exact Or.inl (OrderedDict.mem_keys_iff.mpr ⟨row, hold⟩)
      · obtain ⟨s, hs, rfl⟩ := List.mem_map.mp (List.mem_of_find?_eq_some hfind)
        have hkey := List.find?_some hfind
        obtain ⟨hstorable, rfl⟩ := of_decide_eq_true hkey
        exact Or.inr ⟨_, List.mem_map_of_mem (List.mem_filter.mpr ⟨hs, hstorable⟩), rfl⟩
    · rintro (hold | ⟨account, haccount, rfl⟩)
      · obtain ⟨row, hrow⟩ := OrderedDict.mem_keys_iff.mp hold
        exact ⟨row, by rw [hrow]; rfl⟩
      · obtain ⟨s, hs, rfl⟩ := List.mem_map.mp haccount
        obtain ⟨hs, hstorable⟩ := List.mem_filter.mp hs
        by_contra hnone
        obtain ⟨-, hfind⟩ := Option.or_eq_none_iff.mp (Option.eq_none_iff_forall_ne_some.mpr
          fun row hrow => hnone ⟨row, hrow⟩)
        have hrow := List.mem_map_of_mem (f := (·.equityRow snapshotAt (ibExchange ++ "_CLOSE"))) hs
        exact absurd (decide_eq_true ⟨hstorable, rfl⟩) (List.find?_eq_none.mp hfind _ hrow)

/-- The account's net liquidation was reported, its text is a number, and there is a
rate for its currency. -/
def SummaryReply.Reports (fx : FxView) (reply : SummaryReply) (account : String) : Prop :=
  ∃ rows value currency amount, reply.rows = .ok rows ∧
    (byAccountTag rows).get? (account, "NetLiquidation") = some (value, currency) ∧
    Python.parseFloat value = some amount ∧
    (currency = "USD" ∨ ∃ service rate, fx.service = some service ∧
      service.getRateSync fx.now currency = .ok (some rate))

/-- The figure is the reported one at an available rate. -/
def SummaryReply.Honest (fx : FxView) (reply : SummaryReply) (account : String)
    (figure : Python.Float) : Prop :=
  ∃ rows value currency amount, reply.rows = .ok rows ∧
    (byAccountTag rows).get? (account, "NetLiquidation") = some (value, currency) ∧
    Python.parseFloat value = some amount ∧
    (currency = "USD" ∧ figure = amount ∨ currency ≠ "USD" ∧ ∃ service rate,
      fx.service = some service ∧ service.getRateSync fx.now currency = .ok (some rate) ∧
      figure = amount * rate.rate)

theorem honest_iff_reports (fx : FxView) (reply : SummaryReply) (account : String) :
    reply.Honest fx account (reply.tagUsd fx account "NetLiquidation") ↔
      reply.Reports fx account := by
  constructor
  · rintro ⟨rows, value, currency, amount, hrows, htag, hparse, hrate⟩
    refine ⟨rows, value, currency, amount, hrows, htag, hparse, ?_⟩
    rcases hrate with ⟨husd, -⟩ | ⟨-, service, rate, hservice, hget, -⟩
    · exact Or.inl husd
    · exact Or.inr ⟨service, rate, hservice, hget⟩
  · rintro ⟨rows, value, currency, amount, hrows, htag, hparse, hrate⟩
    have hreceived : reply.tag account "NetLiquidation" = (value, currency) := by
      rw [SummaryReply.tag, SummaryReply.received, hrows]
      simp [htag]
    have hsafe : Python.safeFloat value = amount := by simp [Python.safeFloat, hparse]
    refine ⟨rows, value, currency, amount, hrows, htag, hparse, ?_⟩
    rw [SummaryReply.tagUsd, hreceived]
    by_cases husd : currency = "USD"
    · exact Or.inl ⟨husd, by simp [ibkrToUsd, husd, hsafe]⟩
    · obtain ⟨service, rate, hservice, hget⟩ := hrate.resolve_left husd
      exact Or.inr ⟨husd, service, rate, hservice, hget, by
        simp [ibkrToUsd, husd, hservice, hget, hsafe]⟩

/-- The account's row passes the constraints of the table. -/
def SummaryReply.Storable (fx : FxView) (reply : SummaryReply) (snapshotAt : Instant)
    (session account : String) : Prop :=
  ((reply.accountSummary fx account).equityRow snapshotAt session).storable = true

instance (fx : FxView) (reply : SummaryReply) (snapshotAt : Instant) (session account : String) :
    Decidable (reply.Storable fx snapshotAt session account) :=
  inferInstanceAs (Decidable (_ = true))

/-- The summaries of all adapters: those of IBKR stand among those of the others. -/
def withOthers (fx : FxView) (reply : SummaryReply) (before after : List AccountSummary) :
    List AccountSummary :=
  before ++ ibkrAccountSummaries fx (some reply) ++ after

theorem accountSummary_mem_withOthers (fx : FxView) {reply : SummaryReply} {account : String}
    (haccount : account ∈ reply.accounts) (before after : List AccountSummary) :
    reply.accountSummary fx account ∈ withOthers fx reply before after := by
  apply List.mem_append_left
  apply List.mem_append_right
  exact List.mem_map_of_mem haccount

/-- A summary of the broker IBKR is the adapter's own. -/
theorem of_mem_withOthers {fx : FxView} {reply : SummaryReply} {before after : List AccountSummary}
    (hothers : ∀ s ∈ before ++ after, s.broker ≠ "IBKR") {s : AccountSummary}
    (hs : s ∈ withOthers fx reply before after) (hbroker : s.broker = "IBKR") :
    ∃ account ∈ reply.accounts, s = reply.accountSummary fx account := by
  rcases List.mem_append.mp hs with hs | hs
  · rcases List.mem_append.mp hs with hs | hs
    · exact absurd hbroker (hothers s (List.mem_append_left _ hs))
    · obtain ⟨account, haccount, rfl⟩ := List.mem_map.mp hs
      exact ⟨account, haccount, rfl⟩
  · exact absurd hbroker (hothers s (List.mem_append_right _ hs))

/-- A new row of the broker IBKR is the row of a linked account. -/
theorem recorded_row {fx : FxView} {reply : SummaryReply} {before after : List AccountSummary}
    (hothers : ∀ s ∈ before ++ after, s.broker ≠ "IBKR") {snapshotAt : Instant} {session : String}
    (hsession : session ≠ "") {table : EquityTable} {inserted : ℕ} {k : EquityKey} {row : EquityRow}
    (hget : (captureLoop snapshotAt session (withOthers fx reply before after) table
      inserted).1.get? k = some row)
    (hnew : table.get? k = none) (hbroker : row.broker = "IBKR") :
    ∃ account ∈ reply.accounts,
      row = (reply.accountSummary fx account).equityRow snapshotAt session ∧
        row.storable = true ∧ row.key = k := by
  rw [get?_captureLoop hsession, hnew, Option.none_or] at hget
  have hfound : row.storable = true ∧ row.key = k := by simpa using List.find?_some hget
  obtain ⟨s, hs, hrow⟩ := List.mem_map.mp (List.mem_of_find?_eq_some hget)
  have hsbroker : s.broker = "IBKR" := by
    rw [← hrow] at hbroker
    exact hbroker
  obtain ⟨account, haccount, rfl⟩ := of_mem_withOthers hothers hs hsbroker
  exact ⟨account, haccount, hrow.symm, hfound⟩

/-- A linked account whose row is new and can be stored gets it. -/
theorem account_is_recorded {fx : FxView} {reply : SummaryReply}
    {before after : List AccountSummary} (hothers : ∀ s ∈ before ++ after, s.broker ≠ "IBKR")
    {snapshotAt : Instant} {session : String} (hsession : session ≠ "") {table : EquityTable}
    {account : String} (inserted : ℕ) (haccount : account ∈ reply.accounts)
    (hnew : table.get? (snapshotAt, session, "IBKR", account) = none)
    (hstorable : reply.Storable fx snapshotAt session account) :
    (captureLoop snapshotAt session (withOthers fx reply before after) table inserted).1.get?
        (snapshotAt, session, "IBKR", account) =
      some ((reply.accountSummary fx account).equityRow snapshotAt session) := by
  have hmem := List.mem_map_of_mem (f := (·.equityRow snapshotAt session))
    (accountSummary_mem_withOthers fx haccount before after)
  cases hget : (captureLoop snapshotAt session (withOthers fx reply before after) table
      inserted).1.get? (snapshotAt, session, "IBKR", account) with
  | none =>
    rw [get?_captureLoop hsession, hnew, Option.none_or] at hget
    exact absurd (decide_eq_true ⟨hstorable, rfl⟩) (List.find?_eq_none.mp hget _ hmem)
  | some row =>
    have hkey : row.key = (snapshotAt, session, "IBKR", account) := by
      rw [get?_captureLoop hsession, hnew, Option.none_or] at hget
      have hfound := List.find?_some hget
      simp only [decide_eq_true_eq] at hfound
      exact hfound.2
    have hbroker : row.broker = "IBKR" := congrArg (fun k : EquityKey => k.2.2.1) hkey
    obtain ⟨other, -, hrow, -, -⟩ := recorded_row hothers hsession hget hnew hbroker
    rw [hrow] at hkey ⊢
    have hother : other = account := congrArg (fun k : EquityKey => k.2.2.2) hkey
    rw [hother]

/-- When a snapshot run records honest figures only, with the IBKR adapter alone or among
others: each account whose row is new and can be stored was reported with a rate. -/
theorem captureSnapshot_honest_iff (fx : FxView) (reply : SummaryReply)
    {before after : List AccountSummary} (hothers : ∀ s ∈ before ++ after, s.broker ≠ "IBKR")
    (ibExchange : String) (snapshotAt : Instant) (table : EquityTable) :
    (∀ k row, (captureSnapshot (.ok (before ++ ibkrAccountSummaries fx (some reply) ++ after))
        ibExchange snapshotAt table).1.get? k = some row → table.get? k = none →
          row.broker = "IBKR" → reply.Honest fx row.accountId row.netLiquidationUsd) ↔
      ∀ account ∈ reply.accounts,
        (snapshotAt, ibExchange ++ "_CLOSE", "IBKR", account) ∉ table.keys →
          reply.Storable fx snapshotAt (ibExchange ++ "_CLOSE") account →
            reply.Reports fx account := by
  have hsession := closeSession_ne_empty ibExchange
  constructor
  · intro h account haccount hnew hstorable
    have hnone := OrderedDict.get?_eq_none_iff.mpr hnew
    have hget := account_is_recorded hothers hsession 0 haccount hnone hstorable
    exact (honest_iff_reports fx reply account).mp (h _ _ hget hnone rfl)
  · intro h k row hget hnone hbroker
    obtain ⟨account, haccount, hrow, hstorable, hkey⟩ :=
      recorded_row hothers hsession hget hnone hbroker
    rw [hrow] at hstorable hkey ⊢
    refine (honest_iff_reports fx reply account).mpr (h account haccount ?_ hstorable)
    rw [← hkey] at hnone
    exact OrderedDict.get?_eq_none_iff.mp hnone

/-- A query that raises for the linked account U1. -/
def failedReply : SummaryReply := ⟨["U1"], .error (.vendor "not connected")⟩

def sampleReply : SummaryReply := ⟨["U1"], .ok [⟨"U1", "NetLiquidation", "1000.5", "USD"⟩]⟩

theorem reported_account_is_recorded_honestly :
    (captureSnapshot (.ok (ibkrAccountSummaries sampleView (some sampleReply))) "NYSE" 0 .empty
      ).1.keys = [(0, "NYSE_CLOSE", "IBKR", "U1")] ∧
    ∀ k row, (captureSnapshot (.ok ([] ++ ibkrAccountSummaries sampleView (some sampleReply) ++ []))
        "NYSE" 0 .empty).1.get? k = some row → (OrderedDict.empty : EquityTable).get? k = none →
          row.broker = "IBKR" → sampleReply.Honest sampleView row.accountId row.netLiquidationUsd := by
  refine ⟨by decide +kernel, ?_⟩
  refine (captureSnapshot_honest_iff sampleView sampleReply (by simp) "NYSE" 0 .empty).mpr ?_
  intro account haccount _ _
  have haccounts : sampleReply.accounts = ["U1"] := by decide +kernel
  obtain rfl : account = "U1" := by simpa [haccounts] using haccount
  exact ⟨_, "1000.5", "USD", .finite (10005 / 10), rfl, by decide +kernel, by decide +kernel,
    Or.inl rfl⟩

/-- A failed query leaves the linked account with a row of no dollars. -/
theorem failed_query_records_zero :
    ¬ ∀ (fx : FxView) (reply : SummaryReply) (before after : List AccountSummary)
      (ibExchange : String) (snapshotAt : Instant) (table : EquityTable),
      (∀ s ∈ before ++ after, s.broker ≠ "IBKR") →
        ∀ k row, (captureSnapshot (.ok (before ++ ibkrAccountSummaries fx (some reply) ++ after))
          ibExchange snapshotAt table).1.get? k = some row → table.get? k = none →
            row.broker = "IBKR" → reply.Honest fx row.accountId row.netLiquidationUsd := by
  intro hall
  have hinserted : ((captureSnapshot (.ok ([] ++ ibkrAccountSummaries sampleView (some failedReply)
      ++ [])) "NYSE" 0 .empty).1.get? (0, "NYSE_CLOSE", "IBKR", "U1")).any
        (fun row => row.broker = "IBKR" ∧ row.netLiquidationUsd = 0) = true := by decide +kernel
  cases hrow : (captureSnapshot (.ok ([] ++ ibkrAccountSummaries sampleView (some failedReply)
      ++ [])) "NYSE" 0 .empty).1.get? (0, "NYSE_CLOSE", "IBKR", "U1") with
  | none =>
    rw [hrow] at hinserted
    cases hinserted
  | some row =>
    have hbroker : row.broker = "IBKR" := by
      rw [hrow, Option.any_some, decide_eq_true_eq] at hinserted
      exact hinserted.1
    obtain ⟨rows, -, -, -, hrows, -⟩ := hall sampleView failedReply [] [] "NYSE" 0 .empty (by simp)
      _ row hrow (by simp) hbroker
    simp [failedReply] at hrows

end PortfolioHub
