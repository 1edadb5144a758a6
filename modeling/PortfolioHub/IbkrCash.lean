import PortfolioHub.IbkrRows

namespace PortfolioHub

/-- The cash that the account summary reports of an account: its last row with the tag counts. -/
def totalCashValue (summary : List SummaryRow) (account : String) : Option Python.Float :=
  (summary.reverse.find? fun row => row.tag = "TotalCashValue" ∧ row.account = account).map
    fun row => Python.safeFloat row.value

/-- The CASH rows of the positions reply. -/
def reportedCash (ibPositions : List IbPosition) : List IbPosition :=
  ibPositions.filter (·.contract.secType = "CASH")

/-- The account is known once the summary has a row of it. -/
theorem mem_summaryAccounts {managed : List String} {rows : List SummaryRow} {account : String} :
    account ∈ summaryAccounts managed rows ↔
      account ∈ managed ∨ account ≠ "" ∧ ∃ row ∈ rows, row.account = account := by
  unfold summaryAccounts
  induction rows generalizing managed with
  | nil => simp
  | cons row rows ih =>
    rw [List.foldl_cons, ih, List.exists_mem_cons_iff]
    split
    next hnew =>
      rw [List.mem_append, List.mem_singleton]
      constructor
      · rintro ((hold | rfl) | ⟨hne, hlater⟩)
        · exact Or.inl hold
        · exact Or.inr ⟨hnew.1, Or.inl rfl⟩
        · exact Or.inr ⟨hne, Or.inr hlater⟩
      · rintro (hold | ⟨hne, rfl | hlater⟩)
        · exact Or.inl (Or.inl hold)
        · exact Or.inl (Or.inr rfl)
        · exact Or.inr ⟨hne, hlater⟩
    next hold =>
      constructor
      · exact Or.imp_right fun hlater => ⟨hlater.1, Or.inr hlater.2⟩
      · rintro (hmanaged | ⟨hne, rfl | hlater⟩)
        · exact Or.inl hmanaged
        · exact Or.inl (not_not.mp fun hnew => hold ⟨hne, hnew⟩)
        · exact Or.inr ⟨hne, hlater⟩

/-- A cash value as it is read of its row. -/
def cashValue (row : SummaryRow) : AccountCashValue :=
  ⟨row.account, Python.orElse row.currency "USD", Python.safeFloat row.value⟩

/-- The last row with the tag is kept of an account. -/
theorem get?_byAccount (summary : List SummaryRow) {account : String} (haccount : account ≠ "") :
    (OrderedDict.ofList ((summary.filter fun row => row.tag = "TotalCashValue" ∧
        row.account ≠ "").map fun row => (row.account, cashValue row))).get? account =
      (summary.reverse.find? fun row => row.tag = "TotalCashValue" ∧ row.account = account).map
        cashValue := by
  have hindexed : (summary.filter fun row => row.tag = "TotalCashValue" ∧
      row.account ≠ "").map (fun row => (row.account, cashValue row)) =
        ((summary.filter fun row => row.tag = "TotalCashValue" ∧ row.account ≠ "").map
          cashValue).map fun cash => (cash.accountId, cash) := by
    rw [List.map_map]
    rfl
  rw [OrderedDict.get?_ofList, hindexed, ← List.map_reverse, OrderedDict.lookup_indexed,
    ← List.map_reverse, ← List.filter_reverse, List.find?_map, List.find?_filter]
  refine congrArg (Option.map cashValue) (List.find?_congr fun row _ => ?_)
  rw [decide_eq_decide, Function.comp_apply, decide_eq_true_eq, decide_eq_true_eq]
  constructor
  · exact fun h => ⟨h.1.1, h.2⟩
  · rintro ⟨htag, rfl⟩
    exact ⟨⟨htag, haccount⟩, rfl⟩

/-- What the adapter reads of an account is what the summary reports of it. -/
theorem exists_accountCashValue {managed : List String} {summary : List SummaryRow}
    {account : String} (haccount : account ≠ "") {amount : Python.Float}
    (h : totalCashValue summary account = some amount) :
    ∃ cash ∈ accountCashValues managed (.ok summary),
      cash.accountId = account ∧ cash.amount = amount := by
  obtain ⟨row, hrow, hamount⟩ := Option.map_eq_some_iff.mp h
  have hfound := List.find?_some hrow
  simp only [decide_eq_true_eq] at hfound
  have hmem : row ∈ summary := List.mem_reverse.mp (List.mem_of_find?_eq_some hrow)
  have hget := get?_byAccount summary haccount
  rw [hrow] at hget
  have hknown : account ∈ summaryAccounts managed summary :=
    mem_summaryAccounts.mpr (Or.inr ⟨haccount, row, hmem, hfound.2⟩)
  have hvalue : (cashValue row).amount = amount := by simp only [cashValue, hamount]
  exact ⟨cashValue row, List.mem_filterMap.mpr ⟨account, hknown, hget⟩, hfound.2, hvalue⟩

/-- The rows of `get_positions`: the stocks, the balances of the positions reply, and those of the
account summary that are filled in behind them. -/
theorem getPositions_parts {fx : FxView} {r : IbReplies} {ibPositions : List IbPosition}
    {rows : List Position} (hpositions : r.positions = .ok ibPositions)
    (h : r.getPositions fx = .ok rows) :
    ∃ stockRows : List Position, (∀ p ∈ stockRows, p.assetClass = .stk) ∧
      rows = stockRows ++ (reportedCash ibPositions).map (buildCashPosition fx) ++
        r.missingAccountCashPositions fx
          (stockRows ++ (reportedCash ibPositions).map (buildCashPosition fx)) := by
  obtain ⟨_, hpos, h⟩ := Python.bind_eq_ok.mp h
  obtain rfl := Except.ok.inj (hpositions.symm.trans hpos)
  dsimp only at h
  split at h
  next hempty =>
    obtain rfl := Python.pure_eq_ok.mp h
    have hcash : reportedCash ibPositions = [] := hempty.2
    exact ⟨[], by simp, by rw [hcash]; rfl⟩
  next =>
    obtain ⟨quotes, -, h⟩ := Python.bind_eq_ok.mp h
    obtain ⟨stockRows, hstock, h⟩ := Python.bind_eq_ok.mp h
    obtain rfl := Python.pure_eq_ok.mp h
    refine ⟨stockRows, fun p hp => ?_, rfl⟩
    obtain ⟨_, -, _, -, rfl⟩ := mem_buildStockRows hstock hp
    rfl

/-- The cash rows of an account before any is filled in are those of the positions reply. -/
theorem exists_cash_row_iff {fx : FxView} {stockRows : List Position}
    (hstock : ∀ p ∈ stockRows, p.assetClass = .stk) {ibPositions : List IbPosition}
    {P : Position → Prop} :
    (∃ p ∈ stockRows ++ (reportedCash ibPositions).map (buildCashPosition fx),
        p.assetClass = .cash ∧ P p) ↔
      ∃ ibPos ∈ reportedCash ibPositions, P (buildCashPosition fx ibPos) := by
  constructor
  · rintro ⟨p, hp, hcash, h⟩
    rcases List.mem_append.mp hp with hp | hp
    · rw [hstock p hp] at hcash
      cases hcash
    · obtain ⟨ibPos, hmem, rfl⟩ := List.mem_map.mp hp
      exact ⟨ibPos, hmem, h⟩
  · rintro ⟨ibPos, hmem, h⟩
    exact ⟨_, List.mem_append_right _ (List.mem_map_of_mem hmem), rfl, h⟩

/-- A balance is filled in for an account of which none was reported. -/
theorem mem_missingAccountCashPositions_iff {fx : FxView} {r : IbReplies}
    {stockRows : List Position} (hstock : ∀ p ∈ stockRows, p.assetClass = .stk)
    {ibPositions : List IbPosition} {p : Position} :
    p ∈ r.missingAccountCashPositions fx
        (stockRows ++ (reportedCash ibPositions).map (buildCashPosition fx)) ↔
      ∃ cash ∈ accountCashValues r.managedAccounts r.summary,
        (¬ ∃ ibPos ∈ reportedCash ibPositions, ibPos.account = cash.accountId) ∧
          cash.amount ≠ 0 ∧ p = buildAccountCashPosition fx cash := by
  unfold IbReplies.missingAccountCashPositions
  simp only [List.mem_map, List.mem_filter, decide_eq_true_eq, exists_cash_row_iff hstock]
  constructor
  · rintro ⟨cash, ⟨hmem, hnone, hne⟩, rfl⟩
    exact ⟨cash, hmem, hnone, hne, rfl⟩
  · rintro ⟨cash, hmem, hnone, hne, rfl⟩
    exact ⟨cash, ⟨hmem, hnone, hne⟩, rfl⟩

/-- The account has a cash row for which the condition holds. -/
def HasCash (rows : List Position) (account : String) (P : Python.Float → Prop) : Prop :=
  ∃ p ∈ rows, p.assetClass = .cash ∧ p.accountId = account ∧ P p.quantity

/-- The cash rows of an account are those reported with its positions, and where there is none
those filled in. -/
theorem hasCash_iff {fx : FxView} {r : IbReplies} {stockRows : List Position}
    (hstock : ∀ p ∈ stockRows, p.assetClass = .stk) {ibPositions : List IbPosition}
    {account : String} {P : Python.Float → Prop} :
    HasCash (stockRows ++ (reportedCash ibPositions).map (buildCashPosition fx) ++
        r.missingAccountCashPositions fx
          (stockRows ++ (reportedCash ibPositions).map (buildCashPosition fx))) account P ↔
      (∃ ibPos ∈ reportedCash ibPositions, ibPos.account = account ∧ P ibPos.position) ∨
        (¬ ∃ ibPos ∈ reportedCash ibPositions, ibPos.account = account) ∧
          ∃ cash ∈ accountCashValues r.managedAccounts r.summary,
            cash.accountId = account ∧ cash.amount ≠ 0 ∧ P cash.amount := by
  have hout := @exists_cash_row_iff fx stockRows hstock ibPositions
    fun p => p.accountId = account ∧ P p.quantity
  constructor
  · rintro ⟨p, hp, hclass, haccount, hP⟩
    rcases List.mem_append.mp hp with hp | hp
    · exact Or.inl (hout.mp ⟨p, hp, hclass, haccount, hP⟩)
    · obtain ⟨cash, hmem, hnone, hne, rfl⟩ := (mem_missingAccountCashPositions_iff hstock).mp hp
      obtain rfl : cash.accountId = account := haccount
      exact Or.inr ⟨hnone, cash, hmem, rfl, hne, hP⟩
  · rintro (hreported | ⟨hnone, cash, hmem, rfl, hne, hP⟩)
    · obtain ⟨p, hp, hclass, haccount, hP⟩ := hout.mpr hreported
      exact ⟨p, List.mem_append_left _ hp, hclass, haccount, hP⟩
    · have hfilled : buildAccountCashPosition fx cash ∈ r.missingAccountCashPositions fx
          (stockRows ++ (reportedCash ibPositions).map (buildCashPosition fx)) :=
        (mem_missingAccountCashPositions_iff hstock).mpr ⟨cash, hmem, hnone, hne, rfl⟩
      exact ⟨_, List.mem_append_right _ hfilled, rfl, rfl, hP⟩

/-- Cash is complete: an account with cash in the summary has a cash row. It has one with a balance
just when a balance was reported with its positions, or no cash row was. No row is filled in for
an account with reported cash rows. -/
theorem cash_is_complete (fx : FxView) (r : IbReplies) {ibPositions : List IbPosition}
    {summary : List SummaryRow} {rows : List Position}
    (hpositions : r.positions = .ok ibPositions) (hsummary : r.summary = .ok summary)
    (h : r.getPositions fx = .ok rows) :
    (∀ account ≠ "", ∀ amount, totalCashValue summary account = some amount → amount ≠ 0 →
      HasCash rows account (fun _ => True) ∧
      (HasCash rows account (· ≠ 0) ↔
        (∃ ibPos ∈ reportedCash ibPositions, ibPos.account = account ∧ ibPos.position ≠ 0) ∨
          ¬ ∃ ibPos ∈ reportedCash ibPositions, ibPos.account = account)) ∧
    ∃ stockRows backfilled : List Position, (∀ p ∈ stockRows, p.assetClass = .stk) ∧
      rows = stockRows ++ (reportedCash ibPositions).map (buildCashPosition fx) ++ backfilled ∧
      (∀ p ∈ backfilled, ∃ cash ∈ accountCashValues r.managedAccounts (.ok summary),
        p = buildAccountCashPosition fx cash) ∧
      ∀ ibPos ∈ reportedCash ibPositions, ∀ p ∈ backfilled, p.accountId ≠ ibPos.account := by
  obtain ⟨stockRows, hstock, rfl⟩ := getPositions_parts hpositions h
  refine ⟨fun account haccount amount htotal hne => ?_, stockRows, _, hstock, rfl, ?_, ?_⟩
  · obtain ⟨cash, hmem, hsame, rfl⟩ :=
      @exists_accountCashValue r.managedAccounts summary account haccount amount htotal
    rw [← hsummary] at hmem
    rw [hasCash_iff hstock, hasCash_iff hstock]
    refine ⟨?_, or_congr_right (and_iff_left ⟨cash, hmem, hsame, hne, hne⟩)⟩
    by_cases hreported : ∃ ibPos ∈ reportedCash ibPositions, ibPos.account = account
    · obtain ⟨ibPos, hibPos, haccount⟩ := hreported
      exact Or.inl ⟨ibPos, hibPos, haccount, trivial⟩
    · exact Or.inr ⟨hreported, cash, hmem, hsame, hne, trivial⟩
  · intro p hp
    obtain ⟨cash, hmem, -, -, rfl⟩ := (mem_missingAccountCashPositions_iff hstock).mp hp
    exact ⟨cash, hsummary ▸ hmem, rfl⟩
  · intro ibPos hmem p hp hsame
    obtain ⟨cash, -, hnone, -, rfl⟩ := (mem_missingAccountCashPositions_iff hstock).mp hp
    exact hnone ⟨ibPos, hmem, hsame.symm⟩

/-- Two accounts with 100 dollars each in the summary. The positions report an empty dollar balance
of the first one. -/
def emptyBalanceReplies : IbReplies where
  positions := .ok [⟨"U1", ⟨0, "USD", "CASH", "", "", "USD"⟩, 0, 1⟩]
  portfolio := []
  listingCache := fun _ => none
  nameCache := fun _ => none
  details := fun _ => .ok none
  tickers := .ok fun conId => ⟨conId, none, none, none, 1⟩
  previousCloses := fun _ => none
  managedAccounts := ["U1", "U2"]
  summary := .ok [⟨"U1", "TotalCashValue", "100", "USD"⟩, ⟨"U2", "TotalCashValue", "100", "USD"⟩]

theorem emptyBalanceReplies_rows :
    ∃ rows, emptyBalanceReplies.getPositions sampleView = .ok rows ∧
      ∀ p ∈ rows, p.accountId = "U1" → p.quantity = 0 := by
  have hall : (emptyBalanceReplies.getPositions sampleView).toOption.map (fun rows =>
      rows.all fun p => p.accountId = "U1" → p.quantity = 0) = some true := by decide +kernel
  cases hrows : emptyBalanceReplies.getPositions sampleView with
  | error e =>
    rw [hrows] at hall
    cases hall
  | ok rows =>
    rw [hrows] at hall
    refine ⟨rows, rfl, fun p hp => ?_⟩
    exact of_decide_eq_true (List.all_eq_true.mp (Option.some.inj hall) p hp)

/-- The second account gets a row of its cash. -/
theorem unreported_cash_is_filled_in :
    ∃ rows, emptyBalanceReplies.getPositions sampleView = .ok rows ∧ HasCash rows "U2" (· ≠ 0) := by
  obtain ⟨rows, hrows, -⟩ := emptyBalanceReplies_rows
  obtain ⟨hcash, -⟩ := cash_is_complete sampleView emptyBalanceReplies rfl rfl hrows
  refine ⟨rows, hrows, (hcash "U2" (by decide) 100 (by decide +kernel) (by decide)).2.mpr ?_⟩
  exact Or.inr (by decide)

/-- The first account keeps its empty balance alone. -/
theorem empty_balance_hides_the_cash :
    ¬ ∀ (fx : FxView) (r : IbReplies) (summary : List SummaryRow) (rows : List Position),
      r.summary = .ok summary → r.getPositions fx = .ok rows →
        ∀ account ≠ "", ∀ amount, totalCashValue summary account = some amount → amount ≠ 0 →
          HasCash rows account (· ≠ 0) := by
  intro hall
  obtain ⟨rows, hrows, hempty⟩ := emptyBalanceReplies_rows
  obtain ⟨p, hp, -, haccount, hne⟩ := hall sampleView emptyBalanceReplies _ rows rfl hrows "U1"
    (by decide) 100 (by decide +kernel) (by decide)
  exact hne (hempty p hp haccount)

end PortfolioHub
