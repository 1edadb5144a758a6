import PortfolioHub.AdapterCalls
import PortfolioHub.EquitySnapshot

namespace PortfolioHub

/-- The rows that share a moment and a session. -/
structure EquityGroup where
  snapshotAt : Instant
  session : String
  entries : List (EquityKey × EquityRow)

/-- The WHERE clause; `none` is every account. -/
def historyEntries (table : EquityTable) (since : Instant) (accountId : Option String) :
    List (EquityKey × EquityRow) :=
  table.entries.filter fun e => since ≤ e.1.1 ∧ ∀ a ∈ accountId, e.1.2.2.2 = a

/-- The moment and the session of a row. -/
def groupKey (e : EquityKey × EquityRow) : Instant × String := (e.1.1, e.1.2.1)

/-- `ORDER BY snapshot_at ASC, snapshot_session ASC`. -/
def HistoryOrder (a b : Instant × String) : Prop := a.1 < b.1 ∨ a.1 = b.1 ∧ a.2 ≤ b.2

instance : DecidableRel HistoryOrder := fun _ _ => instDecidableOr

/-- `GROUP BY snapshot_at, snapshot_session`, in order. -/
def equityGroups (table : EquityTable) (since : Instant) (accountId : Option String) :
    List EquityGroup :=
  (((historyEntries table since accountId).map groupKey).dedup.insertionSort HistoryOrder).map
    fun key => ⟨key.1, key.2, (historyEntries table since accountId).filter (groupKey · = key)⟩

/-- A point of the curve. -/
structure HistoryPoint where
  snapshotAt : Instant
  netLiquidationUsd : Python.Float
deriving DecidableEq, Repr

/-- `SUM(net_liquidation_usd)`. -/
def EquityGroup.sumUsd (g : EquityGroup) : Python.Float :=
  (g.entries.map fun e => e.2.netLiquidationUsd).foldr (· + ·) 0

/-- SQLite reads a sum that is no number as NULL, which `float` refuses. -/
def EquityGroup.point (g : EquityGroup) : Except Python.Error HistoryPoint :=
  if g.sumUsd.isNan then
    .error (.typeError "float() argument must be a string or a real number, not 'NoneType'")
  else .ok ⟨g.snapshotAt, g.sumUsd⟩

/-- `_utcnow() - timedelta(days=days)`. -/
def historySince (now : Instant) (days : ℤ) : Instant := now - days * (86400 * second)

/-- `Store.get_equity_history`. -/
def getEquityHistory (table : EquityTable) (now : Instant) (days : ℤ) (accountId : Option String) :
    Except Python.Error (List HistoryPoint) :=
  (equityGroups table (historySince now days) accountId).mapM EquityGroup.point

/-- The linked accounts that a point sums over. -/
def EquityGroup.accounts (g : EquityGroup) : List (String × String) := g.entries.map (·.1.2.2)

/-- The point counts each of the accounts once, and no other. -/
def EquityGroup.SumsOver (g : EquityGroup) (linked : List (String × String)) : Prop :=
  g.accounts.Nodup ∧ ∀ account, account ∈ g.accounts ↔ account ∈ linked

/-- A scheduled snapshot: the exchange that closes, when, and what the adapters answer then. -/
structure ScheduledSnapshot where
  ibExchange : String
  snapshotAt : Instant
  fx : FxView
  adapters : Adapters

/-- The snapshots of a run, from an empty table. -/
def recordSnapshots (broker : Broker) (snapshots : List ScheduledSnapshot) : EquityTable :=
  snapshots.foldl (fun table c => (captureSnapshot (broker.getAccountSummary c.fx c.adapters)
    c.ibExchange c.snapshotAt table).1) .empty

namespace ScheduledSnapshot

/-- The two are of one moment and one session. -/
def SamePoint (c c' : ScheduledSnapshot) : Prop :=
  c'.snapshotAt = c.snapshotAt ∧ c'.ibExchange = c.ibExchange

/-- None of the children is cancelled, and one of them answers with figures for the account
that can be stored. -/
def Answers (names : List BrokerName) (c : ScheduledSnapshot) (account : String × String) : Prop :=
  (∀ name ∈ names, ∀ e, Python.raised ((c.adapters.get name).getAccountSummary c.fx) = some e →
    e.isException = true) ∧
  ∃ name ∈ names, account ∈ recordedAccounts ((c.adapters.get name).getAccountSummary c.fx)

end ScheduledSnapshot

theorem raised_eq_some {α : Type} {r : Except Python.Error α} {e : Python.Error} :
    Python.raised r = some e ↔ r = .error e := by
  cases r with
  | ok a => simp [Python.raised]
  | error error => simp [Python.raised]

/-- The gathered rows are there when no child is cancelled, and are those of the children that
answered. -/
theorem gatherRows_eq_ok_iff {α : Type} {results : List (Except Python.Error (List α))} :
    (∃ rows, gatherRows results = .ok rows) ↔
      ∀ e, .error e ∈ results → e.isException = true := by
  induction results with
  | nil => simp [gatherRows]
  | cons result results ih =>
    cases result with
    | ok found =>
      simp only [List.mem_cons, reduceCtorEq, false_or]
      rw [← ih]
      constructor
      · rintro ⟨rows, h⟩
        obtain ⟨rest, hrest, -⟩ := Python.bind_eq_ok.mp h
        exact ⟨rest, hrest⟩
      · rintro ⟨rest, hrest⟩
        exact ⟨found ++ rest, by rw [gatherRows, hrest]; rfl⟩
    | error e =>
      unfold gatherRows
      split
      next hexc =>
        rw [ih]
        simp only [List.mem_cons, Except.error.injEq, forall_eq_or_imp]
        exact ⟨fun h => ⟨hexc, h⟩, fun h => h.2⟩
      next hexc =>
        refine iff_of_false (by simp) fun h => hexc (h e List.mem_cons_self)

theorem mem_gatherRows {α : Type} {results : List (Except Python.Error (List α))}
    {rows : List α} (h : gatherRows results = .ok rows) (a : α) :
    a ∈ rows ↔ ∃ found, .ok found ∈ results ∧ a ∈ found := by
  induction results generalizing rows with
  | nil =>
    obtain rfl := Except.ok.inj h
    simp
  | cons result results ih =>
    cases result with
    | ok found =>
      obtain ⟨rest, hrest, hrows⟩ := Python.bind_eq_ok.mp h
      obtain rfl := Python.pure_eq_ok.mp hrows
      rw [List.mem_append, ih hrest]
      simp
    | error e =>
      unfold gatherRows at h
      split at h
      next => simp [ih h]
      next => cases h

/-- What a snapshot over a composite broker records. -/
theorem mem_recordedAccounts_iff (names : List BrokerName) (c : ScheduledSnapshot)
    (account : String × String) :
    account ∈ recordedAccounts ((Broker.composite names).getAccountSummary c.fx c.adapters) ↔
      c.Answers names account := by
  have hchild : ∀ e, .error e ∈ names.map (fun name => (c.adapters.get name).getAccountSummary c.fx) ↔
      ∃ name ∈ names, Python.raised ((c.adapters.get name).getAccountSummary c.fx) = some e := by
    intro e
    simp only [List.mem_map, raised_eq_some]
  unfold ScheduledSnapshot.Answers
  rw [Broker.getAccountSummary]
  cases hrows : gatherRows
      (names.map fun name => (c.adapters.get name).getAccountSummary c.fx) with
  | error error =>
    refine iff_of_false (by simp [recordedAccounts, Except.toOption]) ?_
    rintro ⟨hexc, -⟩
    obtain ⟨rows, hok⟩ := gatherRows_eq_ok_iff.mpr fun e he => by
      obtain ⟨name, hname, hraised⟩ := (hchild e).mp he
      exact hexc name hname e hraised
    rw [hok] at hrows
    cases hrows
  | ok rows =>
    have hexc : ∀ name ∈ names, ∀ e,
        Python.raised ((c.adapters.get name).getAccountSummary c.fx) = some e →
          e.isException = true :=
      fun name hname e he => gatherRows_eq_ok_iff.mp ⟨rows, hrows⟩ e ((hchild e).mpr ⟨name, hname, he⟩)
    have hmem := mem_gatherRows hrows
    simp only [recordedAccounts, Except.toOption, Option.getD_some, List.mem_map, List.mem_filter]
    constructor
    · rintro ⟨s, ⟨hs, hstorable⟩, rfl⟩
      obtain ⟨found, hfound, hs⟩ := (hmem s).mp hs
      obtain ⟨name, hname, hanswer⟩ := List.mem_map.mp hfound
      refine ⟨hexc, name, hname, s, ⟨?_, hstorable⟩, rfl⟩
      rw [hanswer]
      exact hs
    · rintro ⟨-, name, hname, s, ⟨hs, hstorable⟩, rfl⟩
      refine ⟨s, ⟨?_, hstorable⟩, rfl⟩
      cases hanswer : (c.adapters.get name).getAccountSummary c.fx with
      | error e => simp [hanswer] at hs
      | ok found =>
        rw [hanswer] at hs
        exact (hmem s).mpr ⟨found, List.mem_map.mpr ⟨name, hname, hanswer⟩, hs⟩

theorem mem_keys_recordSnapshots (broker : Broker) (snapshots : List ScheduledSnapshot)
    (k : EquityKey) :
    k ∈ (recordSnapshots broker snapshots).keys ↔ ∃ c ∈ snapshots,
      ∃ account ∈ recordedAccounts (broker.getAccountSummary c.fx c.adapters),
        (c.snapshotAt, c.ibExchange ++ "_CLOSE", account) = k := by
  have hfold : ∀ table : EquityTable,
      k ∈ (snapshots.foldl (fun table c => (captureSnapshot
        (broker.getAccountSummary c.fx c.adapters) c.ibExchange c.snapshotAt table).1) table).keys ↔
      k ∈ table.keys ∨ ∃ c ∈ snapshots,
        ∃ account ∈ recordedAccounts (broker.getAccountSummary c.fx c.adapters),
          (c.snapshotAt, c.ibExchange ++ "_CLOSE", account) = k := by
    induction snapshots with
    | nil => simp
    | cons c snapshots ih =>
      intro table
      rw [List.foldl_cons, ih, mem_keys_captureSnapshot, or_assoc]
      simp only [List.mem_cons, exists_eq_or_imp]
  rw [recordSnapshots, hfold]
  simp [OrderedDict.keys, OrderedDict.empty]

theorem mem_historyEntries {table : EquityTable} {since : Instant} {e : EquityKey × EquityRow} :
    e ∈ historyEntries table since none ↔ e ∈ table.entries ∧ since ≤ e.1.1 := by
  simp [historyEntries]

/-- There is a group for every moment and session of a row in the window. -/
theorem mem_equityGroups {table : EquityTable} {since : Instant} {g : EquityGroup} :
    g ∈ equityGroups table since none ↔ ∃ k ∈ table.keys, since ≤ k.1 ∧
      g = ⟨k.1, k.2.1, (historyEntries table since none).filter (groupKey · = (k.1, k.2.1))⟩ := by
  unfold equityGroups
  rw [List.mem_map]
  constructor
  · rintro ⟨key, hkey, rfl⟩
    obtain ⟨e, he, rfl⟩ := List.mem_map.mp (List.mem_dedup.mp ((List.mem_insertionSort _).mp hkey))
    obtain ⟨hentry, hsince⟩ := mem_historyEntries.mp he
    exact ⟨e.1, List.mem_map_of_mem hentry, hsince, rfl⟩
  · rintro ⟨k, hk, hsince, rfl⟩
    obtain ⟨e, hentry, rfl⟩ := List.mem_map.mp hk
    have he := mem_historyEntries.mpr ⟨hentry, hsince⟩
    exact ⟨groupKey e, (List.mem_insertionSort _).mpr (List.mem_dedup.mpr (List.mem_map_of_mem he)), rfl⟩

theorem mem_group_accounts {table : EquityTable} {since t : Instant} {session : String}
    (account : String × String) :
    account ∈ ((historyEntries table since none).filter (groupKey · = (t, session))).map (·.1.2.2) ↔
      (t, session, account) ∈ table.keys ∧ since ≤ t := by
  constructor
  · intro h
    obtain ⟨e, he, rfl⟩ := List.mem_map.mp h
    obtain ⟨he, hgroup⟩ := List.mem_filter.mp he
    obtain ⟨hentry, hsince⟩ := mem_historyEntries.mp he
    obtain ⟨rfl, rfl⟩ := Prod.mk.inj (of_decide_eq_true hgroup)
    exact ⟨List.mem_map_of_mem hentry, hsince⟩
  · rintro ⟨hk, hsince⟩
    obtain ⟨e, hentry, heq⟩ := List.mem_map.mp hk
    refine List.mem_map.mpr ⟨e, List.mem_filter.mpr ⟨mem_historyEntries.mpr ⟨hentry, ?_⟩, ?_⟩, ?_⟩
    · rw [heq]
      exact hsince
    · simp [groupKey, heq]
    · rw [heq]

/-- The key of a row tells its account apart from the others of its group. -/
theorem nodup_group_accounts (table : EquityTable) (since t : Instant) (session : String) :
    (((historyEntries table since none).filter (groupKey · = (t, session))).map
      (·.1.2.2)).Nodup := by
  have hsub : ((historyEntries table since none).filter (groupKey · = (t, session))).Sublist
      table.entries := List.filter_sublist.trans List.filter_sublist
  have hkeys := table.nodup.sublist (hsub.map Prod.fst)
  refine (List.nodup_map_iff_inj_on (List.Nodup.of_map _ hkeys)).mpr ?_
  intro e he e' he' heq
  refine List.inj_on_of_nodup_map hkeys he he' ?_
  have hgroup := of_decide_eq_true (List.mem_filter.mp he).2
  have hgroup' := of_decide_eq_true (List.mem_filter.mp he').2
  obtain ⟨ht, hs⟩ := Prod.mk.inj (hgroup.trans hgroup'.symm)
  exact Prod.ext ht (Prod.ext hs heq)

theorem closeSession_inj {ibExchange ibExchange' : String}
    (h : ibExchange ++ "_CLOSE" = ibExchange' ++ "_CLOSE") : ibExchange = ibExchange' := by
  have hchars := congrArg String.toList h
  rw [String.toList_append, String.toList_append] at hchars
  exact String.toList_inj.mp (List.append_cancel_right hchars)

/-- When the points of the curve are comparable: whenever something was recorded for a moment
and session, so was every linked account. -/
theorem points_sum_over_linked_iff (names : List BrokerName) {linked : List (String × String)}
    {snapshots : List ScheduledSnapshot}
    (hlinked : ∀ c ∈ snapshots, ∀ account, c.Answers names account → account ∈ linked)
    (now : Instant) (days : ℤ) :
    (∀ g ∈ equityGroups (recordSnapshots (.composite names) snapshots) (historySince now days) none,
        g.SumsOver linked) ↔
      ∀ c ∈ snapshots, historySince now days ≤ c.snapshotAt →
        (∃ account, c.Answers names account) → ∀ account ∈ linked,
          ∃ c' ∈ snapshots, c.SamePoint c' ∧ c'.Answers names account := by
  constructor
  · rintro h c hc hsince ⟨found, hfound⟩ account haccount
    have hkey : (c.snapshotAt, c.ibExchange ++ "_CLOSE", found) ∈
        (recordSnapshots (.composite names) snapshots).keys :=
      (mem_keys_recordSnapshots _ _ _).mpr
        ⟨c, hc, found, (mem_recordedAccounts_iff names c found).mpr hfound, rfl⟩
    have hsums := h _ (mem_equityGroups.mpr ⟨_, hkey, hsince, rfl⟩)
    have hmem := (mem_group_accounts account).mp ((hsums.2 account).mpr haccount)
    obtain ⟨c', hc', account', haccount', heq⟩ := (mem_keys_recordSnapshots _ _ _).mp hmem.1
    obtain ⟨hat, hrest⟩ := Prod.mk.inj heq
    obtain ⟨hsession, rfl⟩ := Prod.mk.inj hrest
    exact ⟨c', hc', ⟨hat, closeSession_inj hsession⟩,
      (mem_recordedAccounts_iff names c' account').mp haccount'⟩
  · intro h g hg
    obtain ⟨k, hk, hsince, rfl⟩ := mem_equityGroups.mp hg
    refine ⟨nodup_group_accounts .., fun account => ?_⟩
    obtain ⟨c, hc, found, hfound, rfl⟩ := (mem_keys_recordSnapshots _ _ _).mp hk
    rw [mem_recordedAccounts_iff] at hfound
    refine (mem_group_accounts account).trans ⟨?_, fun haccount => ⟨?_, hsince⟩⟩
    · rintro ⟨hkey, -⟩
      obtain ⟨c', hc', account', haccount', heq⟩ := (mem_keys_recordSnapshots _ _ _).mp hkey
      obtain ⟨-, rfl⟩ := Prod.mk.inj (Prod.mk.inj heq).2
      exact hlinked c' hc' account' ((mem_recordedAccounts_iff names c' account').mp haccount')
    · obtain ⟨c', hc', ⟨hat, hexchange⟩, hanswer⟩ := h c hc hsince ⟨found, hfound⟩ account haccount
      refine (mem_keys_recordSnapshots _ _ _).mpr
        ⟨c', hc', account, (mem_recordedAccounts_iff names c' account).mpr hanswer, ?_⟩
      rw [hat, hexchange]

/-- Longbridge is connected with 500 dollars; IBKR is connected where it has a session. -/
def snapshotAdapters (session : Option IbkrSession) : Adapters where
  get
    | .ibkr => .ibkr (if session.isSome then .connected else .reconnecting) session
    | .futu => .futu .disconnected [] ⟨fun _ _ => .ok none, fun _ => .ok none⟩
        ⟨fun _ _ => .ok none, fun _ => .ok none⟩
    | .longbridge => .longbridge .connected ⟨"Longbridge", "", "USD"⟩
        ⟨.ok [], fun _ => .ok [], fun _ => .ok [], .ok []⟩
        ⟨.ok [], fun _ => .ok [], fun _ => .ok [],
          .ok [⟨.text "USD", .number 500, .number 500, .number 0, []⟩]⟩
    | .tiger => .tiger .disconnected ⟨"USD", []⟩ []
        ⟨fun _ => .ok [], fun _ => .ok [], fun _ => .ok none, fun _ => .ok none⟩
        ⟨fun _ => .ok [], fun _ => .ok [], fun _ => .ok none, fun _ => .ok none⟩
  name_get name := by cases name <;> rfl

def snapshotSession : IbkrSession :=
  ⟨{ positions := .ok [], portfolio := [], listingCache := fun _ => none
     nameCache := fun _ => none, details := fun _ => .ok none
     tickers := .ok fun conId => ⟨conId, none, none, none, 1⟩
     previousCloses := fun _ => none, managedAccounts := ["U1"], summary := .ok [] }, sampleReply⟩

/-- A close of New York, with IBKR there or not. -/
def sampleSnapshot (day : ℤ) (session : Option IbkrSession) : ScheduledSnapshot :=
  ⟨"NYSE", day * (86400 * second), sampleView, snapshotAdapters session⟩

def sampleLinked : List (String × String) := [("IBKR", "U1"), ("Longbridge", "Longbridge")]

theorem connected_days_are_comparable :
    (getEquityHistory (recordSnapshots (.composite [.ibkr, .longbridge])
        [sampleSnapshot 1 (some snapshotSession), sampleSnapshot 2 (some snapshotSession)])
      0 60 none).toOption.map (·.length) = some 2 ∧
    ∀ g ∈ equityGroups (recordSnapshots (.composite [.ibkr, .longbridge])
        [sampleSnapshot 1 (some snapshotSession), sampleSnapshot 2 (some snapshotSession)])
      (historySince 0 60) none, g.SumsOver sampleLinked := by
  have hrecorded : ∀ c ∈ [sampleSnapshot 1 (some snapshotSession),
      sampleSnapshot 2 (some snapshotSession)],
      recordedAccounts ((Broker.composite [.ibkr, .longbridge]).getAccountSummary c.fx c.adapters) =
        sampleLinked := by decide +kernel
  refine ⟨by decide +kernel, (points_sum_over_linked_iff [.ibkr, .longbridge] ?_ 0 60).mpr ?_⟩
  · intro c hc account hanswer
    rw [← hrecorded c hc]
    exact (mem_recordedAccounts_iff _ c account).mpr hanswer
  · intro c hc _ _ account haccount
    refine ⟨c, hc, ⟨rfl, rfl⟩, (mem_recordedAccounts_iff _ c account).mp ?_⟩
    rw [hrecorded c hc]
    exact haccount

/-- On the second day IBKR reconnects, and the point of that day sums over Longbridge alone. -/
theorem dropped_child_is_missing_from_the_point :
    ¬ ∀ (names : List BrokerName) (linked : List (String × String))
      (snapshots : List ScheduledSnapshot),
      (∀ c ∈ snapshots, ∀ account, c.Answers names account → account ∈ linked) →
        ∀ now days, ∀ g ∈ equityGroups (recordSnapshots (.composite names) snapshots)
          (historySince now days) none, g.SumsOver linked := by
  intro h
  have hrecorded : ∀ c ∈ [sampleSnapshot 1 (some snapshotSession), sampleSnapshot 2 none],
      ∀ account ∈ recordedAccounts
        ((Broker.composite [.ibkr, .longbridge]).getAccountSummary c.fx c.adapters),
      account ∈ sampleLinked := by decide +kernel
  have hpoints := h [.ibkr, .longbridge] sampleLinked
    [sampleSnapshot 1 (some snapshotSession), sampleSnapshot 2 none]
    (fun c hc account hanswer =>
      hrecorded c hc account ((mem_recordedAccounts_iff _ c account).mpr hanswer)) 0 60
  have hlone : ∃ g ∈ equityGroups (recordSnapshots (.composite [.ibkr, .longbridge])
      [sampleSnapshot 1 (some snapshotSession), sampleSnapshot 2 none]) (historySince 0 60) none,
      g.accounts = [("Longbridge", "Longbridge")] := by decide +kernel
  obtain ⟨g, hg, haccounts⟩ := hlone
  have hibkr := ((hpoints g hg).2 ("IBKR", "U1")).mpr (by decide)
  rw [haccounts] at hibkr
  exact absurd hibkr (by decide)

end PortfolioHub
