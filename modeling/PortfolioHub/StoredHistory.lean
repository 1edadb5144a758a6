import PortfolioHub.EquityHistory
import PortfolioHub.Grouping
import PortfolioHub.InsertOrIgnore
import PortfolioHub.Timestamps
import PortfolioHub.TotalSigns

namespace PortfolioHub

open Python (UtcDatetime)

/-- The arguments of `insert_equity_snapshot`, and the time of the call. -/
structure SnapshotInsert where
  snapshotAt : UtcDatetime
  snapshotSession : String
  broker : String
  accountId : String
  baseCurrency : String
  netLiquidationNative : Python.Float
  netLiquidationUsd : Python.Float
  grossPositionValueUsd : Python.Float
  cashUsd : Python.Float
  now : UtcDatetime

/-- A row of `equity_snapshots`. -/
structure StoredSnapshot where
  snapshotAt : String
  snapshotSession : String
  broker : String
  accountId : String
  baseCurrency : String
  netLiquidationNative : Python.Float
  netLiquidationUsd : Python.Float
  grossPositionValueUsd : Python.Float
  cashUsd : Python.Float
  capturedAt : String

namespace SnapshotInsert

/-- The moment and the session of a point. -/
def group (c : SnapshotInsert) : UtcDatetime ×ₗ String := toLex (c.snapshotAt, c.snapshotSession)

def account (c : SnapshotInsert) : String × String := (c.broker, c.accountId)

def key (c : SnapshotInsert) : (UtcDatetime ×ₗ String) × String × String := (c.group, c.account)

/-- What the statement binds to the columns. -/
def stored (c : SnapshotInsert) : StoredSnapshot where
  snapshotAt := c.snapshotAt.isoformat
  snapshotSession := c.snapshotSession
  broker := c.broker
  accountId := c.accountId
  baseCurrency := c.baseCurrency
  netLiquidationNative := c.netLiquidationNative
  netLiquidationUsd := c.netLiquidationUsd
  grossPositionValueUsd := c.grossPositionValueUsd
  cashUsd := c.cashUsd
  capturedAt := c.now.isoformat

structure Finite (c : SnapshotInsert) : Prop where
  netLiquidationNative : c.netLiquidationNative.isFinite = true
  netLiquidationUsd : c.netLiquidationUsd.isFinite = true
  grossPositionValueUsd : c.grossPositionValueUsd.isFinite = true
  cashUsd : c.cashUsd.isFinite = true

end SnapshotInsert

namespace StoredSnapshot

def key (row : StoredSnapshot) : String × String × String × String :=
  (row.snapshotAt, row.snapshotSession, row.broker, row.accountId)

/-- A nan is bound as NULL, which no column takes. -/
def storable (row : StoredSnapshot) : Bool :=
  !row.netLiquidationNative.isNan && !row.netLiquidationUsd.isNan &&
    !row.grossPositionValueUsd.isNan && !row.cashUsd.isNan

def group (row : StoredSnapshot) : String ×ₗ String := toLex (row.snapshotAt, row.snapshotSession)

end StoredSnapshot

abbrev StoredTable := OrderedDict (String × String × String × String) StoredSnapshot

/-- SQLite's `SUM` over a REAL column: the rows of a group are taken in the order they are found in,
and their doubles added, which may round and overflow; but numbers do not add up to a nan. -/
structure RealSum where
  scan : List StoredSnapshot → List StoredSnapshot
  perm : ∀ rows, (scan rows).Perm rows
  total : List Python.Float → Python.Float
  notNan : ∀ xs, (∀ x ∈ xs, x.isFinite = true) → (total xs).isNan = false

/-- `SUM(net_liquidation_usd)`. -/
def RealSum.ofRows (S : RealSum) (rows : List StoredSnapshot) : Python.Float :=
  S.total ((S.scan rows).map (·.netLiquidationUsd))

/-- The sum without rounding. -/
def exactSum : RealSum where
  scan rows := rows
  perm _ := .rfl
  total := sum
  notNan xs h := by
    rw [sum_eq_finite h]
    rfl

/-- An element of what `get_equity_history` returns. -/
structure HistoryElement where
  snapshotAt : UtcDatetime
  netLiquidationUsd : Python.Float
deriving DecidableEq

namespace Store

/-- `INSERT OR IGNORE`. -/
def insertEquitySnapshot (table : StoredTable) (c : SnapshotInsert) : StoredTable × Bool :=
  table.insertOrIgnore (c.stored.storable = true) c.stored.key c.stored

/-- The table after the calls. -/
def afterInserts (inserts : List SnapshotInsert) : StoredTable :=
  inserts.foldl (fun table c => (insertEquitySnapshot table c).1) .empty

/-- The WHERE clause; `none` is every account. -/
def historyRows (table : StoredTable) (since : String) (accountId : Option String) :
    List StoredSnapshot :=
  table.values.filter fun row => (∀ a ∈ accountId, row.accountId = a) ∧ since ≤ row.snapshotAt

/-- `float(SUM(net_liquidation_usd))`: a sum that is no number is NULL. -/
def sumUsd (S : RealSum) (rows : List StoredSnapshot) : Except Python.Error Python.Float :=
  if (S.ofRows rows).isNan then
    .error (.typeError "float() argument must be a string or a real number, not 'NoneType'")
  else .ok (S.ofRows rows)

/-- `get_equity_history`, where `since` is `_utcnow() - timedelta(days=days)`. -/
def getEquityHistory (S : RealSum) (table : StoredTable) (since : UtcDatetime)
    (accountId : Option String) : Except Python.Error (List HistoryElement) :=
  ((historyRows table since.isoformat accountId).groupOn StoredSnapshot.group).mapM fun g => do
    let snapshotAt ← UtcDatetime.fromisoformat (ofLex g.1).1
    let usd ← sumUsd S g.2
    return ⟨snapshotAt, usd⟩

end Store

/-- A moment as it is stored. -/
def storedGroup (k : UtcDatetime ×ₗ String) : String ×ₗ String :=
  toLex ((ofLex k).1.isoformat, (ofLex k).2)

theorem storedGroup_strictMono : StrictMono storedGroup := by
  intro k k' h
  rw [storedGroup, storedGroup, Prod.Lex.toLex_lt_toLex]
  rcases Prod.Lex.lt_iff.mp h with hlt | ⟨hsame, hlt⟩
  · exact Or.inl (UtcDatetime.isoformat_strictMono hlt)
  · exact Or.inr ⟨congrArg UtcDatetime.isoformat hsame, hlt⟩

theorem stored_group (c : SnapshotInsert) : c.stored.group = storedGroup c.group := rfl

/-- The stored keys tell apart what the calls' keys do. -/
theorem stored_key_eq_iff {c d : SnapshotInsert} : c.stored.key = d.stored.key ↔ c.key = d.key := by
  constructor
  · intro h
    obtain ⟨hat, hrest⟩ := Prod.mk.inj h
    obtain ⟨hsession, haccount⟩ := Prod.mk.inj hrest
    have hat := UtcDatetime.isoformat_injective hat
    exact Prod.ext (congrArg toLex (Prod.ext hat hsession)) haccount
  · intro h
    obtain ⟨hgroup, haccount⟩ := Prod.mk.inj h
    obtain ⟨hat, hsession⟩ := Prod.mk.inj (toLex.injective hgroup)
    exact Prod.ext (congrArg UtcDatetime.isoformat hat) (Prod.ext hsession haccount)

theorem SnapshotInsert.Finite.storable {c : SnapshotInsert} (h : c.Finite) :
    c.stored.storable = true := by
  have hnan : ∀ {x : Python.Float}, x.isFinite = true → x.isNan = false := by
    intro x hx
    obtain ⟨q, rfl⟩ := Python.Float.isFinite_iff.mp hx
    rfl
  have hn : c.stored.netLiquidationNative.isNan = false := hnan h.netLiquidationNative
  have hu : c.stored.netLiquidationUsd.isNan = false := hnan h.netLiquidationUsd
  have hg : c.stored.grossPositionValueUsd.isNan = false := hnan h.grossPositionValueUsd
  have hc : c.stored.cashUsd.isNan = false := hnan h.cashUsd
  rw [StoredSnapshot.storable, hn, hu, hg, hc]
  rfl

/-- The calls that left a row: for each key the first that could. -/
def keep (kept : List SnapshotInsert) (c : SnapshotInsert) : List SnapshotInsert :=
  if c.stored.storable = true ∧ c.key ∉ kept.map (·.key) then kept ++ [c] else kept

def kept (inserts : List SnapshotInsert) : List SnapshotInsert := inserts.foldl keep []

/-- A table that gets the rows of calls one by one, each where its key is new, holds the calls that
were kept, in their order. -/
theorem entries_foldl {κ α : Type} [DecidableEq κ] {entry : SnapshotInsert → κ × α}
    (insert : OrderedDict κ α → SnapshotInsert → OrderedDict κ α)
    (hinsert : ∀ {table : OrderedDict κ α} {rows : List SnapshotInsert},
      table.entries = rows.map entry → ∀ c, (insert table c).entries = (keep rows c).map entry)
    {inserts : List SnapshotInsert} {table : OrderedDict κ α} {rows : List SnapshotInsert}
    (h : table.entries = rows.map entry) :
    (inserts.foldl insert table).entries = (inserts.foldl keep rows).map entry := by
  induction inserts generalizing table rows with
  | nil => exact h
  | cons c inserts ih => exact ih (hinsert h c)

theorem entries_afterInserts (inserts : List SnapshotInsert) :
    (Store.afterInserts inserts).entries = (kept inserts).map fun c => (c.stored.key, c.stored) := by
  refine entries_foldl _ (fun h c => ?_) rfl
  rw [Store.insertEquitySnapshot, OrderedDict.entries_insertOrIgnore h]
  simp only [keep, List.mem_map, stored_key_eq_iff]

theorem kept_eq (inserts : List SnapshotInsert) :
    kept inserts = inserts.foldl (OrderedDict.keepNew (·.stored.storable) (·.key)) [] := by
  have hkeep : keep = OrderedDict.keepNew (·.stored.storable) (·.key) := by
    funext rows c
    by_cases hnew : c.stored.storable = true ∧ c.key ∉ rows.map (·.key)
    · exact (if_pos hnew).trans (if_pos hnew).symm
    · exact (if_neg hnew).trans (if_neg hnew).symm
  rw [kept, hkeep]

theorem nodup_kept (inserts : List SnapshotInsert) : ((kept inserts).map (·.key)).Nodup := by
  rw [kept_eq]
  exact OrderedDict.nodup_foldl_keepNew inserts List.nodup_nil

theorem mem_kept {inserts : List SnapshotInsert} {c : SnapshotInsert} :
    c ∈ kept inserts ↔
      inserts.find? (fun d => d.stored.storable = true ∧ d.key = c.key) = some c := by
  rw [kept_eq]
  exact OrderedDict.mem_foldl_keepNew

theorem mem_of_mem_kept {inserts : List SnapshotInsert} {c : SnapshotInsert}
    (h : c ∈ kept inserts) : c ∈ inserts := List.mem_of_find?_eq_some (mem_kept.mp h)

/-- Of calls with finite values, the first for each key is kept, and no other. -/
theorem mem_kept_iff {inserts : List SnapshotInsert} (h : ∀ c ∈ inserts, c.Finite)
    {c : SnapshotInsert} : c ∈ kept inserts ↔ inserts.find? (·.key = c.key) = some c := by
  have hfind : (inserts.find? fun d => d.stored.storable = true ∧ d.key = c.key) =
      inserts.find? (·.key = c.key) :=
    List.find?_congr fun d hd => by simp [(h d hd).storable]
  rw [mem_kept, hfind]

/-- Something is kept for each key that a call was made for. -/
theorem exists_kept {inserts : List SnapshotInsert} (h : ∀ c ∈ inserts, c.Finite)
    {c : SnapshotInsert} (hc : c ∈ inserts) : ∃ d ∈ kept inserts, d.key = c.key := by
  obtain ⟨d, hd⟩ := Option.isSome_iff_exists.mp
    (List.find?_isSome.mpr ⟨c, hc, decide_eq_true rfl⟩ : (inserts.find? (·.key = c.key)).isSome)
  have hkey : d.key = c.key := by simpa using List.find?_some hd
  exact ⟨d, (mem_kept_iff h).mpr (hkey ▸ hd), hkey⟩

/-- What is kept from a moment on, of an account where one is asked for. -/
def window (inserts : List SnapshotInsert) (since : UtcDatetime) (accountId : Option String) :
    List SnapshotInsert :=
  (kept inserts).filter fun c => (∀ a ∈ accountId, c.accountId = a) ∧ since ≤ c.snapshotAt

theorem historyRows_afterInserts (inserts : List SnapshotInsert) (since : UtcDatetime)
    (accountId : Option String) :
    Store.historyRows (Store.afterInserts inserts) since.isoformat accountId =
      (window inserts since accountId).map SnapshotInsert.stored := by
  rw [Store.historyRows, OrderedDict.values, entries_afterInserts, List.map_map, List.filter_map]
  refine congrArg (List.map _) (List.filter_congr fun c _ => ?_)
  have hsince : since.isoformat ≤ c.snapshotAt.isoformat ↔ since ≤ c.snapshotAt :=
    UtcDatetime.isoformat_strictMono.le_iff_le
  simp [SnapshotInsert.stored, hsince]

/-- The sum of a point. -/
def RealSum.usd (S : RealSum) (rows : List SnapshotInsert) : Python.Float :=
  S.ofRows (rows.map SnapshotInsert.stored)

/-- Nothing is rounded in the sum of these rows. -/
def RealSum.Exact (S : RealSum) (rows : List SnapshotInsert) : Prop :=
  S.usd rows = .finite (rows.map (·.netLiquidationUsd.value)).sum

theorem sumUsd_stored (S : RealSum) {rows : List SnapshotInsert} (h : ∀ c ∈ rows, c.Finite) :
    Store.sumUsd S (rows.map SnapshotInsert.stored) = .ok (S.usd rows) := by
  have hnan : (S.usd rows).isNan = false := by
    refine S.notNan _ fun x hx => ?_
    obtain ⟨row, hrow, rfl⟩ := List.mem_map.mp hx
    obtain ⟨c, hc, rfl⟩ := List.mem_map.mp ((S.perm _).mem_iff.mp hrow)
    exact (h c hc).netLiquidationUsd
  unfold RealSum.usd at hnan ⊢
  rw [Store.sumUsd, hnan]
  rfl

/-- The history is that of the kept calls, grouped by moment and session. -/
theorem getEquityHistory_afterInserts (S : RealSum) {inserts : List SnapshotInsert}
    (h : ∀ c ∈ inserts, c.Finite) (since : UtcDatetime) (accountId : Option String) :
    Store.getEquityHistory S (Store.afterInserts inserts) since accountId =
      .ok (((window inserts since accountId).groupOn (·.group)).map fun g =>
        ⟨(ofLex g.1).1, S.usd g.2⟩) := by
  have hwrite : ((window inserts since accountId).map SnapshotInsert.stored).groupOn
      StoredSnapshot.group = ((window inserts since accountId).groupOn (·.group)).map fun g =>
        (storedGroup g.1, g.2.map SnapshotInsert.stored) :=
    List.groupOn_map storedGroup_strictMono stored_group _
  rw [Store.getEquityHistory, historyRows_afterInserts, hwrite, Python.mapM_eq_ok,
    List.forall₂_map_left_iff, List.forall₂_map_right_iff, List.forall₂_same]
  intro g hg
  have hat : UtcDatetime.fromisoformat (ofLex (storedGroup g.1)).1 = .ok (ofLex g.1).1 :=
    UtcDatetime.fromisoformat_isoformat _
  have hfinite : ∀ c ∈ g.2, c.Finite := fun c hc =>
    h c (mem_of_mem_kept (List.mem_of_mem_filter ((List.mem_group_iff hg).mp hc).1))
  rw [hat, sumUsd_stored S hfinite]
  rfl

theorem exactSum_usd {rows : List SnapshotInsert} (h : ∀ c ∈ rows, c.Finite) :
    exactSum.usd rows = .finite (rows.map (·.netLiquidationUsd.value)).sum := by
  have hfinite : ∀ x ∈ (rows.map SnapshotInsert.stored).map (·.netLiquidationUsd),
      x.isFinite = true := by
    intro x hx
    rw [List.map_map] at hx
    obtain ⟨c, hc, rfl⟩ := List.mem_map.mp hx
    exact (h c hc).netLiquidationUsd
  have hsum : exactSum.usd rows = .finite
      (((rows.map SnapshotInsert.stored).map (·.netLiquidationUsd)).map (·.value)).sum :=
    sum_eq_finite hfinite
  rw [hsum, List.map_map, List.map_map]
  rfl

/-- The value of the first call for the moment, session and account. -/
def firstUsd (inserts : List SnapshotInsert) (k : UtcDatetime ×ₗ String)
    (account : String × String) : ℚ :=
  (inserts.find? (·.key = (k, account))).elim 0 (·.netLiquidationUsd.value)

/-- The accounts that calls were made for. -/
def accounts (inserts : List SnapshotInsert) : Finset (String × String) :=
  (inserts.map (·.account)).toFinset

/-- The first values of all accounts of a moment and session. -/
def totalUsd (inserts : List SnapshotInsert) (k : UtcDatetime ×ₗ String) : ℚ :=
  ∑ account ∈ accounts inserts, firstUsd inserts k account

/-- An account for which no call was made counts nothing. -/
theorem firstUsd_of_absent {inserts : List SnapshotInsert} {k : UtcDatetime ×ₗ String}
    {account : String × String} (h : ¬ ∃ c ∈ inserts, c.group = k ∧ c.account = account) :
    firstUsd inserts k account = 0 := by
  have hnone : inserts.find? (·.key = (k, account)) = none :=
    List.find?_eq_none.mpr fun c hc hkey =>
      h ⟨c, hc, Prod.mk.inj (of_decide_eq_true hkey)⟩
  rw [firstUsd, hnone]
  rfl

theorem firstUsd_of_mem_kept {inserts : List SnapshotInsert} (h : ∀ c ∈ inserts, c.Finite)
    {c : SnapshotInsert} (hc : c ∈ kept inserts) :
    firstUsd inserts c.group c.account = c.netLiquidationUsd.value := by
  have hfind : inserts.find? (·.key = (c.group, c.account)) = some c := (mem_kept_iff h).mp hc
  rw [firstUsd, hfind]
  rfl

/-- A group of kept calls sums the first values of its accounts, once each. -/
theorem sum_group {inserts : List SnapshotInsert} (h : ∀ c ∈ inserts, c.Finite)
    {p : String × String → Prop} [DecidablePred p] {k : UtcDatetime ×ₗ String}
    {rows : List SnapshotInsert} (hsub : rows.Sublist (kept inserts))
    (hrows : ∀ c, c ∈ rows ↔ c ∈ kept inserts ∧ c.group = k ∧ p c.account) :
    (rows.map (·.netLiquidationUsd.value)).sum =
      ∑ account ∈ accounts inserts with p account, firstUsd inserts k account := by
  have hnodup : (rows.map (·.account)).Nodup := by
    have hkeys := (nodup_kept inserts).sublist (hsub.map (·.key))
    refine (List.nodup_map_iff_inj_on (List.Nodup.of_map _ hkeys)).mpr ?_
    intro c hc d hd hsame
    have hgroup := ((hrows c).mp hc).2.1.trans ((hrows d).mp hd).2.1.symm
    exact List.inj_on_of_nodup_map hkeys hc hd (Prod.ext hgroup hsame)
  have hvalues : rows.map (·.netLiquidationUsd.value) =
      (rows.map (·.account)).map (firstUsd inserts k) := by
    rw [List.map_map]
    refine List.map_congr_left fun c hc => ?_
    obtain ⟨hkept, rfl, -⟩ := (hrows c).mp hc
    exact (firstUsd_of_mem_kept h hkept).symm
  rw [hvalues, ← List.sum_toFinset _ hnodup]
  refine Finset.sum_subset ?_ fun account haccount hnot => ?_
  · intro account haccount
    obtain ⟨c, hc, rfl⟩ := List.mem_map.mp (List.mem_toFinset.mp haccount)
    obtain ⟨hkept, -, hp⟩ := (hrows c).mp hc
    exact Finset.mem_filter.mpr
      ⟨List.mem_toFinset.mpr (List.mem_map_of_mem (mem_of_mem_kept hkept)), hp⟩
  · refine firstUsd_of_absent ?_
    rintro ⟨c, hc, rfl, rfl⟩
    obtain ⟨d, hd, hkey⟩ := exists_kept h hc
    obtain ⟨hgroup, hsame⟩ := Prod.mk.inj hkey
    rw [← hsame] at haccount hnot
    exact hnot (List.mem_toFinset.mpr (List.mem_map_of_mem
      ((hrows d).mpr ⟨hd, hgroup, (Finset.mem_filter.mp haccount).2⟩)))

theorem mem_window {inserts : List SnapshotInsert} {since : UtcDatetime} {accountId : Option String}
    {c : SnapshotInsert} : c ∈ window inserts since accountId ↔
      c ∈ kept inserts ∧ (∀ a ∈ accountId, c.accountId = a) ∧ since ≤ c.snapshotAt := by
  simp [window, List.mem_filter]

/-- The points of one account id are those of all accounts for which it has a call. -/
theorem groupKeys_window_account {inserts : List SnapshotInsert} (h : ∀ c ∈ inserts, c.Finite)
    (since : UtcDatetime) (accountId : String) :
    (window inserts since (some accountId)).groupKeys (·.group) =
      ((window inserts since none).groupKeys (·.group)).filter
        fun k => ∃ c ∈ inserts, c.group = k ∧ c.accountId = accountId := by
  have hsub : window inserts since (some accountId) =
      (window inserts since none).filter fun c => c.accountId = accountId := by
    simp [window, List.filter_filter]
  rw [hsub, List.groupKeys_filter]
  refine List.filter_congr fun k hk => decide_eq_decide.mpr ?_
  obtain ⟨shown, hshown, rfl⟩ := List.mem_groupKeys.mp hk
  have hsince : since ≤ shown.snapshotAt := (mem_window.mp hshown).2.2
  constructor
  · rintro ⟨c, hc, haccount, hgroup⟩
    exact ⟨c, mem_of_mem_kept (mem_window.mp hc).1, hgroup, of_decide_eq_true haccount⟩
  · rintro ⟨c, hc, hgroup, haccount⟩
    obtain ⟨d, hd, hkey⟩ := exists_kept h hc
    obtain ⟨hsame, hother⟩ := Prod.mk.inj hkey
    have hat : d.snapshotAt = shown.snapshotAt :=
      (Prod.mk.inj (toLex.injective (hsame.trans hgroup))).1
    exact ⟨d, mem_window.mpr ⟨hd, by simp, hat.symm ▸ hsince⟩,
      decide_eq_true ((Prod.mk.inj hother).2.trans haccount), hsame.trans hgroup⟩

/-- The first calls for the accounts of a moment and session, in the order they were made. -/
def firsts (inserts : List SnapshotInsert) (k : UtcDatetime ×ₗ String) : List SnapshotInsert :=
  (kept inserts).filter fun c => c.group = k

def ofAccount (rows : List SnapshotInsert) (accountId : String) : List SnapshotInsert :=
  rows.filter fun c => c.accountId = accountId

theorem mem_firsts {inserts : List SnapshotInsert} (h : ∀ c ∈ inserts, c.Finite)
    {k : UtcDatetime ×ₗ String} {c : SnapshotInsert} :
    c ∈ firsts inserts k ↔ c.group = k ∧ inserts.find? (·.key = c.key) = some c := by
  rw [firsts, List.mem_filter, mem_kept_iff h, decide_eq_true_eq]
  exact and_comm

theorem nodup_firsts (inserts : List SnapshotInsert) (k : UtcDatetime ×ₗ String) :
    ((firsts inserts k).map (·.account)).Nodup := by
  have hsub : (firsts inserts k).Sublist (kept inserts) := List.filter_sublist
  have hkeys := (nodup_kept inserts).sublist (hsub.map (·.key))
  refine (List.nodup_map_iff_inj_on (List.Nodup.of_map _ hkeys)).mpr ?_
  intro c hc d hd hsame
  have hgroup : c.group = d.group :=
    (of_decide_eq_true (List.mem_filter.mp hc).2).trans (of_decide_eq_true (List.mem_filter.mp hd).2).symm
  exact List.inj_on_of_nodup_map hkeys hc hd (Prod.ext hgroup hsame)

/-- The rows of a point in a window are the first calls for it, of an account where one is asked for. -/
theorem window_group {inserts : List SnapshotInsert} {since : UtcDatetime} {accountId : Option String}
    {g : (UtcDatetime ×ₗ String) × List SnapshotInsert}
    (hg : g ∈ (window inserts since accountId).groupOn (·.group)) :
    g.2 = (firsts inserts g.1).filter fun c => ∀ a ∈ accountId, c.accountId = a := by
  obtain ⟨k, hk, rfl⟩ := List.mem_map.mp hg
  obtain ⟨shown, hshown, rfl⟩ := List.mem_groupKeys.mp hk
  have hsince : since ≤ shown.snapshotAt := (mem_window.mp hshown).2.2
  dsimp only
  rw [window, firsts, List.filter_filter, List.filter_filter]
  refine List.filter_congr fun c _ => ?_
  by_cases hgroup : c.group = shown.group
  · have hat : c.snapshotAt = shown.snapshotAt := (Prod.mk.inj (toLex.injective hgroup)).1
    simp [hgroup, hat, hsince]
  · simp [hgroup]

/-- The history of a window: each of its points sums the first calls for it. -/
theorem history_of_window (S : RealSum) {inserts : List SnapshotInsert}
    (h : ∀ c ∈ inserts, c.Finite) (since : UtcDatetime) (accountId : Option String) :
    Store.getEquityHistory S (Store.afterInserts inserts) since accountId =
      .ok (((window inserts since accountId).groupKeys (·.group)).map fun k => ⟨(ofLex k).1,
        S.usd ((firsts inserts k).filter fun c => ∀ a ∈ accountId, c.accountId = a)⟩) := by
  have hmap : ((window inserts since accountId).groupOn (·.group)).map (fun g =>
      HistoryElement.mk (ofLex g.1).1 (S.usd g.2)) =
        ((window inserts since accountId).groupOn (·.group)).map fun g => ⟨(ofLex g.1).1,
          S.usd ((firsts inserts g.1).filter fun c => ∀ a ∈ accountId, c.accountId = a)⟩ :=
    List.map_congr_left fun g hg => by rw [window_group hg]
  rw [getEquityHistory_afterInserts S h, hmap, List.groupOn, List.map_map]
  rfl

/-- Without rounding, the points of a history have the first values of its accounts. -/
theorem points_of_window {inserts : List SnapshotInsert} (h : ∀ c ∈ inserts, c.Finite)
    (since : UtcDatetime) (accountId : Option String) :
    Store.getEquityHistory exactSum (Store.afterInserts inserts) since accountId =
      .ok (((window inserts since accountId).groupKeys (·.group)).map fun k => ⟨(ofLex k).1,
        .finite (∑ account ∈ accounts inserts with ∀ a ∈ accountId, account.2 = a,
          firstUsd inserts k account)⟩) := by
  rw [history_of_window exactSum h]
  refine congrArg Except.ok (List.map_congr_left fun k _ => ?_)
  have hmem : ∀ c, c ∈ ((firsts inserts k).filter fun c => ∀ a ∈ accountId, c.accountId = a) ↔
      c ∈ kept inserts ∧ c.group = k ∧ ∀ a ∈ accountId, c.account.2 = a := by
    intro c
    rw [firsts, List.mem_filter, List.mem_filter, decide_eq_true_eq, decide_eq_true_eq, and_assoc]
    rfl
  have hsub : ((firsts inserts k).filter fun c => ∀ a ∈ accountId, c.accountId = a).Sublist
      (kept inserts) := List.filter_sublist.trans List.filter_sublist
  have hsum := sum_group (p := fun account => ∀ a ∈ accountId, account.2 = a) h hsub hmem
  rw [exactSum_usd fun c hc => h c (mem_of_mem_kept ((hmem c).mp hc).1), hsum]

/-- A sum over rows goes through their accounts one by one. -/
theorem sum_ofAccount (rows : List SnapshotInsert) :
    (rows.map (·.netLiquidationUsd.value)).sum =
      ∑ a ∈ (rows.map (·.accountId)).toFinset, ((ofAccount rows a).map (·.netLiquidationUsd.value)).sum := by
  have hrows : ∀ ids : Finset String, (∀ c ∈ rows, c.accountId ∈ ids) →
      (rows.map (·.netLiquidationUsd.value)).sum =
        ∑ a ∈ ids, ((ofAccount rows a).map (·.netLiquidationUsd.value)).sum := by
    intro ids
    unfold ofAccount
    induction rows with
    | nil => simp
    | cons c rows ih =>
      intro hids
      obtain ⟨hc, hrest⟩ := List.forall_mem_cons.mp hids
      have hsplit : ∀ a, (((c :: rows).filter fun d => d.accountId = a).map
          (·.netLiquidationUsd.value)).sum = (if c.accountId = a then c.netLiquidationUsd.value else 0) +
            ((rows.filter fun d => d.accountId = a).map (·.netLiquidationUsd.value)).sum := by
        intro a
        by_cases ha : c.accountId = a
        · simp [ha]
        · simp [ha]
      rw [Finset.sum_congr rfl fun a _ => hsplit a, Finset.sum_add_distrib, Finset.sum_ite_eq,
        if_pos hc, ← ih hrest, List.map_cons, List.sum_cons]
  exact hrows _ fun c hc => List.mem_toFinset.mpr (List.mem_map_of_mem hc)

/-- The history of all accounts has one point for each moment and session of a call in the window,
in order, with the sum of the first values of its accounts; the history of an account id sums those
under the id. Both are sums over the same values, so the totals add up wherever SQLite's sums do not
round. -/
theorem history_of_inserts (S : RealSum) {inserts : List SnapshotInsert}
    (h : ∀ c ∈ inserts, c.Finite) (since : UtcDatetime) :
    ∃ keys : List (UtcDatetime ×ₗ String), keys.Nodup ∧
      keys.Pairwise (fun k k' => (ofLex k).1.instant ≤ (ofLex k').1.instant) ∧
      (∀ k, k ∈ keys ↔ since.instant ≤ (ofLex k).1.instant ∧ ∃ c ∈ inserts, c.group = k) ∧
      (∀ k, ((firsts inserts k).map (·.account)).Nodup ∧ ∀ c : SnapshotInsert, c ∈ firsts inserts k ↔
        c.group = k ∧ inserts.find? (·.key = c.key) = some c) ∧
      Store.getEquityHistory S (Store.afterInserts inserts) since none =
        .ok (keys.map fun k => ⟨(ofLex k).1, S.usd (firsts inserts k)⟩) ∧
      (∀ accountId, Store.getEquityHistory S (Store.afterInserts inserts) since (some accountId) =
        .ok ((keys.filter fun k => ∃ c ∈ inserts, c.group = k ∧ c.accountId = accountId).map
          fun k => ⟨(ofLex k).1, S.usd (ofAccount (firsts inserts k) accountId)⟩)) ∧
      ∀ k, let ids := ((firsts inserts k).map (·.accountId)).toFinset
        ((firsts inserts k).map (·.netLiquidationUsd.value)).sum =
          ∑ a ∈ ids, ((ofAccount (firsts inserts k) a).map (·.netLiquidationUsd.value)).sum ∧
        (S.Exact (firsts inserts k) →
          (∀ a ∈ ids, S.Exact (ofAccount (firsts inserts k) a)) →
          S.usd (firsts inserts k) =
            .finite (∑ a ∈ ids, (S.usd (ofAccount (firsts inserts k) a)).value)) := by
  refine ⟨(window inserts since none).groupKeys (·.group), List.nodup_groupKeys .., ?_, fun k => ?_,
    fun k => ⟨nodup_firsts inserts k, fun c => mem_firsts h⟩, ?_, fun accountId => ?_, fun k => ⟨?_, ?_⟩⟩
  · refine (List.pairwise_groupKeys _ _).imp fun {k k'} hle => ?_
    rcases Prod.Lex.le_iff.mp hle with hlt | ⟨hsame, -⟩
    · exact le_of_lt hlt
    · rw [hsame]
  · rw [List.mem_groupKeys]
    constructor
    · rintro ⟨c, hc, rfl⟩
      obtain ⟨hkept, -, hsince⟩ := mem_window.mp hc
      exact ⟨hsince, c, mem_of_mem_kept hkept, rfl⟩
    · rintro ⟨hsince, c, hc, rfl⟩
      obtain ⟨d, hd, hkey⟩ := exists_kept h hc
      have hgroup : d.group = c.group := congrArg Prod.fst hkey
      have hat : d.snapshotAt = c.snapshotAt := (Prod.mk.inj (toLex.injective hgroup)).1
      exact ⟨d, mem_window.mpr ⟨hd, by simp, hat.symm ▸ hsince⟩, hgroup⟩
  · rw [history_of_window S h]
    simp
  · rw [history_of_window S h, groupKeys_window_account h]
    simp [ofAccount, eq_comm]
  · exact sum_ofAccount _
  · intro htotal haccounts
    rw [htotal, sum_ofAccount]
    refine congrArg Python.Float.finite (Finset.sum_congr rfl fun a ha => ?_)
    rw [haccounts a ha]
    rfl

/-- The row of a call, with the moment itself in place of its text. -/
def SnapshotInsert.row (c : SnapshotInsert) : EquityRow where
  snapshotAt := c.snapshotAt.instant
  snapshotSession := c.snapshotSession
  broker := c.broker
  accountId := c.accountId
  baseCurrency := c.baseCurrency
  netLiquidationNative := c.netLiquidationNative
  netLiquidationUsd := c.netLiquidationUsd
  grossPositionValueUsd := c.grossPositionValueUsd
  cashUsd := c.cashUsd

/-- The table of moments after the calls. -/
def rowsAfter (inserts : List SnapshotInsert) : EquityTable :=
  inserts.foldl (fun table c => (insertEquitySnapshot table c.row).1) .empty

/-- The moment and session of a group, as an instant. -/
def instantGroup (k : UtcDatetime ×ₗ String) : Instant × String := ((ofLex k).1.instant, (ofLex k).2)

theorem groupKey_row (c : SnapshotInsert) : groupKey (c.row.key, c.row) = instantGroup c.group := rfl

theorem instantGroup_injective : Function.Injective instantGroup := by
  intro k k' h
  obtain ⟨hat, hsession⟩ := Prod.mk.inj h
  exact ofLex.injective (Prod.ext (UtcDatetime.instant_injective hat) hsession)

theorem historyOrder_iff {k k' : UtcDatetime ×ₗ String} :
    HistoryOrder (instantGroup k) (instantGroup k') ↔ k ≤ k' := by
  rw [Prod.Lex.le_iff]
  refine or_congr Iff.rfl (and_congr_left' ?_)
  exact ⟨fun h => UtcDatetime.instant_injective h, fun h => congrArg UtcDatetime.instant h⟩

theorem row_key_eq_iff {c d : SnapshotInsert} : c.row.key = d.row.key ↔ c.key = d.key := by
  constructor
  · intro h
    obtain ⟨hat, hrest⟩ := Prod.mk.inj h
    obtain ⟨hsession, haccount⟩ := Prod.mk.inj hrest
    have hat := UtcDatetime.instant_injective hat
    exact Prod.ext (congrArg toLex (Prod.ext hat hsession)) haccount
  · intro h
    obtain ⟨hgroup, haccount⟩ := Prod.mk.inj h
    obtain ⟨hat, hsession⟩ := Prod.mk.inj (toLex.injective hgroup)
    exact Prod.ext (congrArg UtcDatetime.instant hat) (Prod.ext hsession haccount)

theorem entries_rowsAfter (inserts : List SnapshotInsert) :
    (rowsAfter inserts).entries = (kept inserts).map fun c => (c.row.key, c.row) := by
  refine entries_foldl (fun table c => (insertEquitySnapshot table c.row).1)
    (fun {table rows} h c => ?_) rfl
  have hinsert : insertEquitySnapshot table c.row =
      table.insertOrIgnore (c.row.storable = true) c.row.key c.row := by
    unfold insertEquitySnapshot OrderedDict.insertOrIgnore
    split <;> rfl
  rw [hinsert, OrderedDict.entries_insertOrIgnore h]
  simp only [keep, List.mem_map, row_key_eq_iff]
  rfl

/-- A sum of finite numbers, taken from the right. -/
theorem foldr_add_eq_finite {xs : List Python.Float} (h : ∀ x ∈ xs, x.isFinite = true) :
    xs.foldr (· + ·) 0 = .finite (xs.map (·.value)).sum := by
  induction xs with
  | nil => exact congrArg Python.Float.finite Nat.cast_zero
  | cons x xs ih =>
    obtain ⟨hx, hrest⟩ := List.forall_mem_cons.mp h
    rw [List.foldr_cons, ih hrest]
    conv_lhs => rw [Python.Float.eq_finite_value hx]
    rfl

/-- The groups of the table of moments are those of the kept calls. -/
theorem equityGroups_rowsAfter (inserts : List SnapshotInsert) (since : UtcDatetime)
    (accountId : Option String) :
    equityGroups (rowsAfter inserts) since.instant accountId =
      ((window inserts since accountId).groupOn (·.group)).map fun g =>
        ⟨(instantGroup g.1).1, (instantGroup g.1).2, g.2.map fun c => (c.row.key, c.row)⟩ := by
  have hentries : historyEntries (rowsAfter inserts) since.instant accountId =
      (window inserts since accountId).map fun c => (c.row.key, c.row) := by
    rw [historyEntries, entries_rowsAfter, List.filter_map]
    refine congrArg (List.map _) (List.filter_congr fun c _ => decide_eq_decide.mpr ?_)
    exact and_comm
  have hgroups := List.groupOn_written instantGroup_injective (fun _ _ => historyOrder_iff.symm)
    groupKey_row (window inserts since accountId)
  have hpairs := congrArg (List.map fun g => EquityGroup.mk g.1.1 g.1.2 g.2) hgroups
  rw [equityGroups, hentries]
  simpa only [List.map_map, Function.comp_def] using hpairs

/-- Without rounding, the history over the stored texts is the history over the moments they stand
for. -/
theorem history_of_moments {inserts : List SnapshotInsert} (h : ∀ c ∈ inserts, c.Finite)
    (since : UtcDatetime) (accountId : Option String) :
    (Store.getEquityHistory exactSum (Store.afterInserts inserts) since accountId).map
        (List.map fun p => ⟨p.snapshotAt.instant, p.netLiquidationUsd⟩) =
      (equityGroups (rowsAfter inserts) since.instant accountId).mapM EquityGroup.point := by
  rw [getEquityHistory_afterInserts exactSum h, equityGroups_rowsAfter, eq_comm, Except.map,
    Python.mapM_eq_ok, List.map_map, List.forall₂_map_left_iff, List.forall₂_map_right_iff,
    List.forall₂_same]
  intro g hg
  have hsum : EquityGroup.sumUsd ⟨(instantGroup g.1).1, (instantGroup g.1).2,
      g.2.map fun c => (c.row.key, c.row)⟩ =
        .finite (g.2.map (·.netLiquidationUsd.value)).sum := by
    rw [EquityGroup.sumUsd, List.map_map, foldr_add_eq_finite, List.map_map]
    · rfl
    · intro x hx
      obtain ⟨c, hc, rfl⟩ := List.mem_map.mp hx
      have hkept := (mem_window.mp ((List.mem_group_iff hg).mp hc).1).1
      exact (h c (mem_of_mem_kept hkept)).netLiquidationUsd
  have htotal : exactSum.usd g.2 = .finite (g.2.map (·.netLiquidationUsd.value)).sum :=
    exactSum_usd fun c hc =>
      h c (mem_of_mem_kept (mem_window.mp ((List.mem_group_iff hg).mp hc).1).1)
  rw [EquityGroup.point, hsum, Function.comp_apply, htotal]
  rfl

/-- Half past one on a day of May, at the microsecond. -/
def sampleMoment (microsecond : ℕ) (h : microsecond < 1000000) : UtcDatetime :=
  ⟨2026, 5, 17, 1, 30, 0, microsecond, by decide, by decide, by decide, by simpa using h⟩

def sampleInsert (at' : UtcDatetime) (broker accountId : String) (usd : ℚ) : SnapshotInsert where
  snapshotAt := at'
  snapshotSession := "HKEX_CLOSE"
  broker := broker
  accountId := accountId
  baseCurrency := "USD"
  netLiquidationNative := .finite usd
  netLiquidationUsd := .finite usd
  grossPositionValueUsd := 0
  cashUsd := 0
  now := at'

/-- A moment with and one without microseconds, two accounts, and a call that is repeated with
another value. -/
def sampleInserts : List SnapshotInsert :=
  [sampleInsert (sampleMoment 1 (by decide)) "IBKR" "U1" 10,
    sampleInsert (sampleMoment 0 (by decide)) "IBKR" "U1" 20,
    sampleInsert (sampleMoment 0 (by decide)) "Tiger" "T1" 5,
    sampleInsert (sampleMoment 0 (by decide)) "IBKR" "U1" 99]

/-- The double nearest to a sum of doubles, ties to even, or an infinity. -/
def nearestDouble (q : ℚ) : Python.Float :=
  if Python.overflowBound ≤ |q| then .inf (q < 0)
  else
    let unit : ℚ := (2 : ℚ) ^ ((q.num.natAbs.log2 : ℤ) - q.den.log2 - 52)
    let magnitude := Decimal.roundHalfEven (|q| / unit) * unit
    .finite (if q < 0 then -magnitude else magnitude)

/-- A sum that rounds once. -/
def nearestSum : RealSum where
  scan rows := rows
  perm _ := .rfl
  total xs :=
    match sum xs with
    | .finite q => nearestDouble q
    | total => total
  notNan xs h := by
    rw [sum_eq_finite h]
    dsimp only
    unfold nearestDouble
    split
    next => rfl
    next => rfl

theorem sample_history :
    ∃ keys : List (UtcDatetime ×ₗ String), keys.Nodup ∧
      (∀ k, k ∈ keys ↔ (sampleMoment 0 (by decide)).instant ≤ (ofLex k).1.instant ∧
        ∃ c ∈ sampleInserts, c.group = k) ∧
      Store.getEquityHistory nearestSum (Store.afterInserts sampleInserts)
          (sampleMoment 0 (by decide)) none =
        .ok (keys.map fun k => ⟨(ofLex k).1, nearestSum.usd (firsts sampleInserts k)⟩) ∧
      nearestSum.usd (firsts sampleInserts
        (toLex (sampleMoment 0 (by decide), "HKEX_CLOSE"))) = 25 := by
  have hfinite : ∀ c ∈ sampleInserts, c.Finite := by
    intro c hc
    simp only [sampleInserts, List.mem_cons, List.not_mem_nil, or_false] at hc
    rcases hc with rfl | rfl | rfl | rfl <;> exact ⟨rfl, rfl, rfl, rfl⟩
  obtain ⟨keys, hnodup, -, hmem, -, hhistory, -⟩ :=
    history_of_inserts nearestSum hfinite (sampleMoment 0 (by decide))
  exact ⟨keys, hnodup, hmem, hhistory, by decide +kernel⟩

/-- The doubles that are read of 0.1 and 0.2. -/
def tenthInserts : List SnapshotInsert :=
  [sampleInsert (sampleMoment 0 (by decide)) "IBKR" "U1" (3602879701896397 / 36028797018963968),
    sampleInsert (sampleMoment 0 (by decide)) "Tiger" "T1" (3602879701896397 / 18014398509481984)]

/-- No double is the sum of the doubles 0.1 and 0.2, so the total of the history is another number. -/
theorem total_of_tenths_is_rounded :
    ¬ ∀ inserts : List SnapshotInsert, (∀ c ∈ inserts, c.Finite) → ∀ since : UtcDatetime,
      ∃ keys : List (UtcDatetime ×ₗ String),
        (∀ k, k ∈ keys ↔ since.instant ≤ (ofLex k).1.instant ∧ ∃ c ∈ inserts, c.group = k) ∧
        Store.getEquityHistory nearestSum (Store.afterInserts inserts) since none =
          .ok (keys.map fun k => ⟨(ofLex k).1, .finite (totalUsd inserts k)⟩) := by
  intro hall
  have hfinite : ∀ c ∈ tenthInserts, c.Finite := by
    intro c hc
    simp only [tenthInserts, List.mem_cons, List.not_mem_nil, or_false] at hc
    rcases hc with rfl | rfl
    · exact ⟨rfl, rfl, rfl, rfl⟩
    · exact ⟨rfl, rfl, rfl, rfl⟩
  obtain ⟨keys, hkeys, hhistory⟩ := hall tenthInserts hfinite (sampleMoment 0 (by decide))
  have hvalues : (Store.getEquityHistory nearestSum (Store.afterInserts tenthInserts)
      (sampleMoment 0 (by decide)) none).toOption.map (List.map (·.netLiquidationUsd)) =
        some [.finite (5404319552844596 / 18014398509481984)] := by decide +kernel
  rw [hhistory] at hvalues
  have htotals := Option.some.inj hvalues
  rw [List.map_map] at htotals
  obtain ⟨k, hk, htotal⟩ := List.mem_map.mp (htotals ▸ List.mem_singleton_self _)
  obtain ⟨-, c, hc, rfl⟩ := (hkeys k).mp hk
  have hsum : ∀ c ∈ tenthInserts,
      totalUsd tenthInserts c.group = 10808639105689191 / 36028797018963968 := by decide +kernel
  have hequal : totalUsd tenthInserts c.group = 5404319552844596 / 18014398509481984 :=
    Python.Float.finite.inj htotal
  rw [hsum c hc] at hequal
  norm_num at hequal

end PortfolioHub
