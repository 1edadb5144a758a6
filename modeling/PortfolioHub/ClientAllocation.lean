import PortfolioHub.ClientTable
import PortfolioHub.Render
import PortfolioHub.Tally

namespace PortfolioHub

/-- `ALLOC_PALETTE`. -/
def allocPalette : List String := [
  "#5b9dff", "#34d399", "#fbbf24", "#f472b6", "#a78bfa", "#fb7185", "#22d3ee", "#84cc16", "#fb923c",
  "#94a3b8"]

/-- What the loop of `buildAllocation` has gathered. -/
structure AllocGroups where
  groups : OrderedDict String Python.Float
  total : Python.Float
  keyFlag : OrderedDict String String

/-- A segment of the bar, its width in percent. -/
structure AllocSegment where
  key : String
  width : Python.Float
  colour : String
deriving DecidableEq, Repr

/-- An item of the legend, its share in whole percents. -/
structure AllocItem where
  key : String
  label : String
  percent : ℤ
  colour : String
deriving DecidableEq, Repr

structure Allocation where
  segments : List AllocSegment
  legend : List AllocItem
deriving DecidableEq, Repr

/-- `Math.round(x)` of a number that is finite. -/
def mathRound (x : Python.Float) : ℤ := ⌊x.value + 1 / 2⌋

namespace ClientRow

def isCash (row : ClientRow) : Bool := row.data.lookup "asset-class" = some "CASH"

/-- The group of a row. -/
def allocKey (row : ClientRow) : String :=
  if row.isCash then "Cash" else Python.orElse ((row.data.lookup "exchange").getD "") "Other"

end ClientRow

/-- A round of the loop; `flagOf` is the text of the row's flag element, where it has one. -/
def AllocGroups.addRow (flagOf : ClientRow → Option String) (a : AllocGroups) (row : ClientRow) :
    AllocGroups :=
  let v := row.numAttr "mv_usd"
  if v ≤ 0 then a
  else {
    groups := a.groups.insert row.allocKey ((a.groups.get? row.allocKey).getD 0 + v)
    total := a.total + v
    keyFlag :=
      if (a.keyFlag.get? row.allocKey).getD "" = "" then
        if row.isCash then a.keyFlag.insert row.allocKey "💵"
        else
          match flagOf row with
          | some text => a.keyFlag.insert row.allocKey (JavaScript.trim text)
          | none => a.keyFlag
      else a.keyFlag }

def allocGroups (flagOf : ClientRow → Option String) (rows : List ClientRow) : AllocGroups :=
  rows.foldl (AllocGroups.addRow flagOf) ⟨.empty, 0, .empty⟩

/-- The groups, the largest first. -/
def AllocGroups.entries (a : AllocGroups) : List (String × Python.Float) :=
  a.groups.entries.insertionSort fun x y => y.2 ≤ x.2

/-- `e[1] / total * 100`. -/
def AllocGroups.pct (a : AllocGroups) (amount : Python.Float) : Python.Float :=
  Python.Float.quot amount a.total * 100

def paletteColour (i : ℕ) : String := (allocPalette[i % allocPalette.length]?).getD ""

/-- `buildAllocation`. -/
def buildAllocation (flagOf : ClientRow → Option String) (rows : List ClientRow) : Allocation :=
  let a := allocGroups flagOf rows
  if a.total ≤ 0 then ⟨[], []⟩
  else {
    segments := a.entries.zipIdx.map fun e => ⟨e.1.1, a.pct e.1.2, paletteColour e.2⟩
    legend := (a.entries.take 8).zipIdx.map fun e =>
      ⟨e.1.1, Python.orElse ((a.keyFlag.get? e.1.1).getD "") e.1.1, mathRound (a.pct e.1.2),
        paletteColour e.2⟩ }

/-- The value of a row in dollars, where it is finite. -/
def ClientRow.amount (row : ClientRow) : ℚ := (row.numAttr "mv_usd").value

/-- The groups and values the bar is made of. -/
def heldAmounts (rows : List ClientRow) : List (String × ℚ) :=
  (rows.map fun row => (row.allocKey, row.amount)).filter fun e => 0 < e.2

theorem finite_le_finite {p q : ℚ} : Python.Float.finite p ≤ .finite q ↔ p ≤ q := by
  change (Python.Float.lt (.finite p) (.finite q) || Python.Float.equal (.finite p) (.finite q)) =
    true ↔ _
  simp [Python.Float.lt, Python.Float.equal, le_iff_lt_or_eq]

theorem finite_le_zero {q : ℚ} : Python.Float.finite q ≤ 0 ↔ q ≤ 0 := by
  have hzero : (0 : Python.Float) = .finite ((0 : ℕ) : ℚ) := rfl
  rw [hzero, finite_le_finite, Nat.cast_zero]

/-- A round over a row with a positive value. -/
theorem addRow_eq (flagOf : ClientRow → Option String) (a : AllocGroups) {row : ClientRow}
    (hvalue : row.numAttr "mv_usd" = .finite row.amount) (hpos : ¬ row.amount ≤ 0) :
    (a.addRow flagOf row).groups = a.groups.insert row.allocKey
        ((a.groups.get? row.allocKey).getD 0 + .finite row.amount) ∧
      (a.addRow flagOf row).total = a.total + .finite row.amount := by
  unfold AllocGroups.addRow
  rw [hvalue]
  dsimp only
  rw [if_neg (mt finite_le_zero.mp hpos)]
  exact ⟨rfl, rfl⟩

/-- The loop gathers the positive amounts by their groups. -/
theorem allocGroups_eq (flagOf : ClientRow → Option String) {rows : List ClientRow}
    (h : ∀ row ∈ rows, (row.numAttr "mv_usd").isFinite = true) :
    (allocGroups flagOf rows).groups =
        (OrderedDict.tally Prod.fst Prod.snd (heldAmounts rows)).mapValues .finite ∧
      (allocGroups flagOf rows).total = .finite ((heldAmounts rows).map Prod.snd).sum := by
  have hfold : ∀ (a : AllocGroups) (d : OrderedDict String ℚ) (t : ℚ),
      a.groups = d.mapValues .finite → a.total = .finite t →
      (rows.foldl (AllocGroups.addRow flagOf) a).groups =
          ((heldAmounts rows).foldl (fun d e => d.addTo e.1 e.2) d).mapValues .finite ∧
        (rows.foldl (AllocGroups.addRow flagOf) a).total =
          .finite (t + ((heldAmounts rows).map Prod.snd).sum) := by
    induction rows with
    | nil => exact fun a d t hgroups htotal => ⟨hgroups, by simpa [heldAmounts] using htotal⟩
    | cons row rows ih =>
      intro a d t hgroups htotal
      obtain ⟨hrow, hrest⟩ := List.forall_mem_cons.mp h
      have hvalue : row.numAttr "mv_usd" = .finite row.amount := Python.Float.eq_finite_value hrow
      rw [List.foldl_cons]
      by_cases hle : row.amount ≤ 0
      · have hskip : a.addRow flagOf row = a := by
          unfold AllocGroups.addRow
          rw [hvalue]
          exact if_pos (finite_le_zero.mpr hle)
        have hheld : heldAmounts (row :: rows) = heldAmounts rows :=
          List.filter_cons_of_neg (by simpa using hle)
        rw [hskip, hheld]
        exact ih hrest a d t hgroups htotal
      · have hheld : heldAmounts (row :: rows) = (row.allocKey, row.amount) :: heldAmounts rows :=
          List.filter_cons_of_pos (by simpa using hle)
        obtain ⟨hnext, hnextTotal⟩ := addRow_eq flagOf a hvalue hle
        have hold : (a.groups.get? row.allocKey).getD 0 =
            .finite ((d.get? row.allocKey).getD 0) := by
          rw [hgroups, OrderedDict.get?_mapValues]
          cases d.get? row.allocKey <;> rfl
        rw [hheld, List.foldl_cons, List.map_cons, List.sum_cons, ← add_assoc]
        refine ih hrest _ _ _ ?_ ?_
        · rw [hnext, hold, OrderedDict.addTo, OrderedDict.mapValues_insert, hgroups]
          rfl
        · rw [hnextTotal, htotal]
          rfl
  obtain ⟨hgroups, htotal⟩ := hfold ⟨.empty, 0, .empty⟩ .empty 0 rfl rfl
  rw [zero_add] at htotal
  exact ⟨hgroups, htotal⟩

/-- Amounts with a positive sum have shares in percent that make up a hundred. -/
theorem sum_shares (amounts : List ℚ) (h : 0 < amounts.sum) :
    (amounts.map fun a => a / amounts.sum * 100).sum = 100 := by
  have hscale : ∀ xs : List ℚ, (xs.map fun a => a / amounts.sum * 100).sum =
      xs.sum / amounts.sum * 100 := by
    intro xs
    induction xs with
    | nil => simp
    | cons x xs ih =>
      rw [List.map_cons, List.sum_cons, ih, List.sum_cons]
      ring
  rw [hscale, div_self h.ne', one_mul]

/-- The shares of the groups of some amounts: of each group its name and its percentage, the largest
first. -/
structure Shares (held shares : List (String × ℚ)) : Prop where
  nodup : (shares.map Prod.fst).Nodup
  keys : ∀ key, key ∈ shares.map Prod.fst ↔ key ∈ held.map Prod.fst
  share : ∀ e ∈ shares, e.2 =
    ((held.filter (·.1 = e.1)).map Prod.snd).sum / (held.map Prod.snd).sum * 100
  sorted : shares.Pairwise fun a b => b.2 ≤ a.2
  whole : (shares.map Prod.snd).sum = 100

theorem Shares.perm {held held' shares : List (String × ℚ)} (h : Shares held shares)
    (hperm : held.Perm held') : Shares held' shares where
  nodup := h.nodup
  keys key := (h.keys key).trans (hperm.map _).mem_iff
  share e he := by
    rw [h.share e he, (hperm.map _).sum_eq, ((hperm.filter _).map _).sum_eq]
  sorted := h.sorted
  whole := h.whole

/-- The groups of the bar and their amounts, the largest first. -/
def sortedTally (held : List (String × ℚ)) : List (String × ℚ) :=
  (OrderedDict.tally Prod.fst Prod.snd held).entries.insertionSort fun x y => y.2 ≤ x.2

theorem shares_sortedTally {held : List (String × ℚ)} (h : 0 < (held.map Prod.snd).sum) :
    Shares held ((sortedTally held).map fun e => (e.1, e.2 / (held.map Prod.snd).sum * 100)) := by
  have hperm : (sortedTally held).Perm (OrderedDict.tally Prod.fst Prod.snd held).entries :=
    List.perm_insertionSort _ _
  have hkeys : ((sortedTally held).map fun e =>
      (e.1, e.2 / (held.map Prod.snd).sum * 100)).map Prod.fst = (sortedTally held).map Prod.fst := by
    rw [List.map_map]
    rfl
  have hsum : ((sortedTally held).map Prod.snd).sum = (held.map Prod.snd).sum :=
    (hperm.map _).sum_eq.trans (OrderedDict.sum_tally ..)
  refine ⟨?_, fun key => ?_, fun e he => ?_, ?_, ?_⟩
  · rw [hkeys]
    exact (hperm.map _).nodup_iff.mpr (OrderedDict.tally ..).nodup
  · rw [hkeys, (hperm.map _).mem_iff]
    exact OrderedDict.mem_keys_tally
  · obtain ⟨g, hg, rfl⟩ := List.mem_map.mp he
    have hget : (OrderedDict.tally Prod.fst Prod.snd held).get? g.1 = some g.2 :=
      OrderedDict.get?_eq_some_iff.mpr (hperm.mem_iff.mp hg)
    have hamount := OrderedDict.getD_tally Prod.fst Prod.snd held g.1
    rw [hget, Option.getD_some] at hamount
    rw [hamount]
  · have htotal : Std.Total fun x y : String × ℚ => y.2 ≤ x.2 := ⟨fun x y => le_total y.2 x.2⟩
    have htrans : IsTrans (String × ℚ) fun x y => y.2 ≤ x.2 := ⟨fun _ _ _ hxy hyz => hyz.trans hxy⟩
    have hsorted : (sortedTally held).Pairwise fun x y => y.2 ≤ x.2 :=
      List.pairwise_insertionSort _ _
    refine List.pairwise_map.mpr (hsorted.imp fun hle => ?_)
    exact mul_le_mul_of_nonneg_right (div_le_div_of_nonneg_right hle h.le) (by norm_num)
  · have hshares := sum_shares ((sortedTally held).map Prod.snd) (hsum ▸ h)
    rw [hsum, List.map_map] at hshares
    rw [List.map_map]
    exact hshares

/-- What the bar of some amounts shows: nothing where there are none, else their shares. -/
def ShowsShares (bar : Allocation) (held : List (String × ℚ)) : Prop :=
  (held = [] → bar = ⟨[], []⟩) ∧ (held ≠ [] → ∃ shares, Shares held shares ∧
    bar.segments.map (fun g => (g.key, g.width)) = shares.map fun e => (e.1, .finite e.2))

theorem buildAllocation_shares (flagOf : ClientRow → Option String) {rows : List ClientRow}
    (h : ∀ row ∈ rows, (row.numAttr "mv_usd").isFinite = true) :
    ShowsShares (buildAllocation flagOf rows) (heldAmounts rows) := by
  obtain ⟨hgroups, htotal⟩ := allocGroups_eq flagOf h
  constructor
  · intro hempty
    unfold buildAllocation
    dsimp only
    rw [htotal, hempty]
    exact if_pos (finite_le_zero.mpr (le_refl 0))
  · intro hheld
    have hpos : 0 < ((heldAmounts rows).map Prod.snd).sum := by
      refine List.sum_pos _ (fun a ha => ?_) (by simpa using hheld)
      obtain ⟨e, he, rfl⟩ := List.mem_map.mp ha
      simpa using (List.mem_filter.mp he).2
    set total := ((heldAmounts rows).map Prod.snd).sum
    have hentries : (allocGroups flagOf rows).entries =
        (sortedTally (heldAmounts rows)).map fun e => (e.1, .finite e.2) := by
      unfold AllocGroups.entries sortedTally
      rw [hgroups]
      exact (List.map_insertionSort (fun x y : String × ℚ => y.2 ≤ x.2)
        (fun x y : String × Python.Float => y.2 ≤ x.2) (fun e => (e.1, .finite e.2)) _
        fun x _ y _ => finite_le_finite.symm).symm
    refine ⟨_, shares_sortedTally hpos, ?_⟩
    unfold buildAllocation
    dsimp only
    rw [htotal, if_neg (mt finite_le_zero.mp (not_le.mpr hpos)), hentries, List.map_map, List.map_map]
    have hpct : ∀ q : ℚ, (allocGroups flagOf rows).pct (.finite q) = .finite (q / total * 100) := by
      intro q
      unfold AllocGroups.pct
      rw [htotal]
      rfl
    have hindex : ∀ es : List (String × Python.Float),
        es.zipIdx.map (fun e => (e.1.1, (allocGroups flagOf rows).pct e.1.2)) =
          es.map fun e => (e.1, (allocGroups flagOf rows).pct e.2) := by
      intro es
      conv_rhs => rw [← List.zipIdx_map_fst 0 es]
      rw [List.map_map]
      rfl
    refine (hindex _).trans ?_
    rw [List.map_map]
    exact List.map_congr_left fun e _ => congrArg (Prod.mk e.1) (hpct e.2)

/-- The group of a position's row. -/
def Position.allocKey (p : Position) : String :=
  if p.assetClass = .cash then "Cash" else Python.orElse p.exchange "Other"

/-- The value the page reads off a row of the position is its value. -/
def Position.ReadsBack (p : Position) : Prop :=
  p.marketValueUsd.isFinite = true ∧ JavaScript.parseFloat p.marketValueUsd.str = p.marketValueUsd

/-- The positive values of some positions, by their groups. -/
def heldValues (positions : List Position) : List (String × ℚ) :=
  (positions.map fun p => (p.allocKey, p.marketValueUsd.value)).filter fun e => 0 < e.2

theorem holdingsRow_data {ctx : RowContext} {p : Position} {row : HoldingsRow}
    (h : holdingsRow ctx p = .ok row) : ∃ country, row.data = dataAttributes p country := by
  obtain ⟨country, -, h⟩ := Python.bind_eq_ok.mp h
  obtain ⟨flag, -, h⟩ := Python.bind_eq_ok.mp h
  obtain ⟨last, -, h⟩ := Python.bind_eq_ok.mp h
  obtain ⟨pnl, -, h⟩ := Python.bind_eq_ok.mp h
  obtain ⟨weight, -, h⟩ := Python.bind_eq_ok.mp h
  obtain rfl := Python.pure_eq_ok.mp h
  exact ⟨country, rfl⟩

/-- The page reads the group and the value of a position off its row. -/
theorem clientRow_reads {p : Position} (h : p.ReadsBack) {country : String} {row : ClientRow}
    (hdata : row.data = dataAttributes p country) :
    row.numAttr "mv_usd" = p.marketValueUsd ∧ row.allocKey = p.allocKey := by
  have hkey : ClientRow.dataKeyAttr "mv_usd" = "mv-usd" := by decide
  have hvalue : row.data.lookup "mv-usd" = some p.marketValueUsd.str := by
    rw [hdata]
    rfl
  have hclass : row.data.lookup "asset-class" = some p.assetClass.text := by
    rw [hdata]
    rfl
  have hexchange : row.data.lookup "exchange" = some p.exchange := by
    rw [hdata]
    rfl
  constructor
  · unfold ClientRow.numAttr
    rw [hkey, hvalue, Option.map_some, Option.getD_some, h.2, JavaScript.orZero, if_neg]
    intro hnan
    have hfinite := h.1
    rw [hnan] at hfinite
    cases hfinite
  · unfold ClientRow.allocKey ClientRow.isCash Position.allocKey
    rw [hclass, hexchange, Option.getD_some]
    cases p.assetClass <;> simp [AssetClass.text]

/-- The values below zero, added up. -/
def shortValue (positions : List Position) : ℚ :=
  ((positions.map fun p => p.marketValueUsd.value).filter (· < 0)).sum

theorem sum_split (xs : List ℚ) : xs.sum = (xs.filter (0 < ·)).sum + (xs.filter (· < 0)).sum := by
  induction xs with
  | nil => simp
  | cons x xs ih =>
    rcases lt_trichotomy x 0 with hx | rfl | hx
    · rw [List.filter_cons_of_neg (by simpa using hx.le), List.filter_cons_of_pos (by simpa using hx),
        List.sum_cons, List.sum_cons, ih]
      ring
    · rw [List.filter_cons_of_neg (by simp), List.filter_cons_of_neg (by simp), List.sum_cons, ih,
        zero_add]
    · rw [List.filter_cons_of_pos (by simpa using hx), List.filter_cons_of_neg (by simpa using hx.le),
        List.sum_cons, List.sum_cons, ih]
      ring

/-- The total of the hero is what the bar adds up and the short values. -/
theorem totals_split {positions : List Position} {totals : Totals}
    (h : computeTotals positions = .ok totals) (hread : ∀ p ∈ positions, p.ReadsBack)
    (hfx : ∀ p ∈ positions, p.fxUnavailable = true → p.marketValueUsd = 0) :
    totals.mvUsd = .finite (((heldValues positions).map Prod.snd).sum + shortValue positions) := by
  have havailable : ∀ ps : List Position,
      (∀ p ∈ ps, p.fxUnavailable = true → p.marketValueUsd = 0) →
      ((ps.filter fun p => !p.fxUnavailable).map fun p => p.marketValueUsd.value).sum =
        (ps.map fun p => p.marketValueUsd.value).sum := by
    intro ps hps
    induction ps with
    | nil => rfl
    | cons p ps ih =>
      obtain ⟨hp, hrest⟩ := List.forall_mem_cons.mp hps
      cases hflag : p.fxUnavailable with
      | true =>
        have hzero : p.marketValueUsd.value = 0 := by
          rw [hp hflag]
          exact Nat.cast_zero
        rw [List.filter_cons_of_neg (by simp [hflag]), ih hrest, List.map_cons, List.sum_cons, hzero,
          zero_add]
      | false =>
        rw [List.filter_cons_of_pos (by simp [hflag]), List.map_cons, List.sum_cons, ih hrest,
          List.map_cons, List.sum_cons]
  have hheld : (heldValues positions).map Prod.snd =
      (positions.map fun p => p.marketValueUsd.value).filter (0 < ·) := by
    rw [heldValues, List.filter_map, List.filter_map, List.map_map]
    rfl
  rw [(computeTotals_parts h).1, sum_eq_finite, List.map_map, shortValue, hheld, ← sum_split,
    ← havailable positions hfx]
  · rfl
  · intro x hx
    obtain ⟨p, hp, rfl⟩ := List.mem_map.mp hx
    exact (hread p (List.mem_of_mem_filter hp)).1

/-- The rows of the table, in whatever order they stand, read as the positions behind them. -/
theorem rows_read {rows : List ClientRow} {payload : List HoldingsRow} {positions : List Position}
    {ctx : RowContext}
    (hcontent : (rows.map ClientRow.content).Perm (payload.map fun row => (row.id, row.data)))
    (hread : ∀ p ∈ positions, p.ReadsBack)
    (hrows : List.Forall₂ (fun p row => holdingsRow ctx p = .ok row) positions payload) :
    (rows.map fun row => (row.allocKey, row.numAttr "mv_usd")).Perm
      (positions.map fun p => (p.allocKey, p.marketValueUsd)) := by
  have hsent : (payload.map fun row =>
      let shown := ClientRow.ofContent (row.id, row.data)
      (shown.allocKey, shown.numAttr "mv_usd")) =
        positions.map fun p => (p.allocKey, p.marketValueUsd) := by
    clear hcontent
    induction hrows with
    | nil => rfl
    | @cons p row positions rows hrow hrows ih =>
      obtain ⟨hp, hrest⟩ := List.forall_mem_cons.mp hread
      obtain ⟨country, hdata⟩ := holdingsRow_data hrow
      have hshown : (ClientRow.ofContent (row.id, row.data)).data = dataAttributes p country := hdata
      obtain ⟨hvalue, hkey⟩ := clientRow_reads hp hshown
      rw [List.map_cons, List.map_cons, ih hrest]
      exact congrArg₂ _ (Prod.ext hkey hvalue) rfl
  have hmap := hcontent.map fun c =>
    ((ClientRow.ofContent c).allocKey, (ClientRow.ofContent c).numAttr "mv_usd")
  rw [List.map_map, List.map_map] at hmap
  exact hsent ▸ hmap

/-- A share of the value, or dollars. -/
def barPosition (exchange : String) (assetClass : AssetClass) (value : ℚ) : Position where
  broker := "IBKR"
  accountId := "U1"
  nativeKey := exchange
  canonicalSymbol := exchange
  nativeSymbol := exchange
  exchange := exchange
  currency := "USD"
  nameEn := ""
  assetClass := assetClass
  quantity := .finite 1
  avgCost := .finite value
  lastPrice := .finite value
  marketValueNative := .finite value
  marketValueUsd := .finite value
  unrealizedPnlNative := 0
  unrealizedPnlUsd := 0

end PortfolioHub
