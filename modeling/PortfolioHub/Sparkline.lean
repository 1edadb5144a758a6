import PortfolioHub.CivilDates
import PortfolioHub.FilterLinks
import PortfolioHub.FormEncoding
import PortfolioHub.StoredHistory
import PortfolioHub.TimeZone

namespace PortfolioHub

open Python (UtcDatetime)

/-- A point of `/api/equity-history`. -/
structure EquityPoint where
  t : String
  v : Python.Float
deriving DecidableEq

/-- JSON has no numbers but finite ones. -/
def HistoryElement.sent (e : HistoryElement) : Except Python.Error EquityPoint :=
  if e.netLiquidationUsd.isFinite then .ok ⟨e.snapshotAt.isoformat, e.netLiquidationUsd⟩
  else .error (.valueError "Out of range float values are not JSON compliant")

/-- `None if account in (None, "", "All") else account`. -/
def accountFilter (account : Option String) : Option String :=
  account.filter fun a => a ≠ "" ∧ a ≠ "All"

/-- `equity_history`, where `store` is missing without the lifespan. The subtraction may leave the
years of a date. -/
def equityHistory (store : Option StoredTable) (now : UtcDatetime) (account : Option String)
    (days : ℤ) : Except Python.Error (List EquityPoint) :=
  match store with
  | none => .ok []
  | some table => do
    let daysClamped := max 1 (min 400 days)
    match UtcDatetime.ofInstant (now.instant - daysClamped * day) with
    | none => .error (.runtimeError "date value out of range")
    | some since =>
      let rows ← Store.getEquityHistory exactSum table since (accountFilter account)
      rows.mapM HistoryElement.sent

/-- `GET /api/equity-history?query`; `parseDays` reads the integer, and `none` is a response that is
not ok. -/
def equityHistoryResponse (parseDays : List Char → Option ℤ) (store : Option StoredTable)
    (now : UtcDatetime) (query : List Char) : Option (List EquityPoint) :=
  let account := (Web.queryParam query "account".toList).map String.ofList
  let days := match Web.queryParam query "days".toList with
    | none => some 60
    | some text => parseDays text
  days.bind fun days => (equityHistory store now account days).toOption

/-- The query of `_fetchSparkData`. -/
def sparkQuery (account : Option (List Char)) : List Char :=
  Web.formQuery (("days".toList, "60".toList) ::
    ((account.filter fun a => a ≠ [] ∧ a ≠ "All".toList).map fun a => ("account".toList, a)).toList)

/-- `Date.parse(d.t)`, in milliseconds, and `d.v`. -/
def EquityPoint.read (p : EquityPoint) : ℤ × ℚ :=
  (((UtcDatetime.fromisoformat p.t).toOption.map fun t => t.instant / 1000).getD 0, p.v.value)

/-- `x.toFixed(1)`, in tenths. -/
def tenths (x : ℚ) : ℤ := if x < 0 then -⌊-x * 10 + 1 / 2⌋ else ⌊x * 10 + 1 / 2⌋

/-- What `_sparkPath` draws: the points in tenths, the corners that close the fill, and the colour. -/
structure SparkPath where
  points : List (ℤ × ℤ)
  corners : List (ℚ × ℚ)
  isUp : Bool
deriving DecidableEq

/-- `x || 1`. -/
def orOne (x : ℚ) : ℚ := if x = 0 then 1 else x

def sparkPath (data : List (ℤ × ℚ)) (w h : ℚ) : SparkPath :=
  let padX : ℚ := 1
  let padY : ℚ := 3
  let first := data.head?.getD (0, 0)
  let last := data.getLast?.getD (0, 0)
  let ys := data.map Prod.snd
  let yMin := ys.min?.getD 0
  let yMax := ys.max?.getD 0
  let xSpan := orOne (last.1 - first.1)
  let ySpan := orOne (yMax - yMin)
  let px (x : ℤ) : ℚ := padX + (x - first.1) / xSpan * (w - 2 * padX)
  let py (y : ℚ) : ℚ := h - padY - (y - yMin) / ySpan * (h - 2 * padY)
  { points := data.map fun d => (tenths (px d.1), tenths (py d.2))
    corners := [((tenths (px last.1) : ℚ) / 10, h), (padX, h)]
    isUp := first.2 ≤ last.2 }

/-- `attachSparkline` with `_renderSpark`, where `search` is `location.search` behind its `?`; without
two points nothing is drawn. -/
def sparkline (response : List Char → Option (List EquityPoint)) (search : List Char) (w h : ℚ) :
    Option SparkPath :=
  let account := (Web.parseQsl search).lookup "account".toList
  let data := ((response (sparkQuery account)).getD []).map EquityPoint.read
  if data.length < 2 then none else some (sparkPath data w h)

theorem tenths_mono {x y : ℚ} (h : x ≤ y) : tenths x ≤ tenths y := by
  unfold tenths
  split_ifs with hx hy hy
  · apply neg_le_neg
    apply Int.floor_le_floor
    linarith
  · have hleft : 0 ≤ ⌊-x * 10 + 1 / 2⌋ := Int.floor_nonneg.mpr (by linarith)
    have hright : 0 ≤ ⌊y * 10 + 1 / 2⌋ := Int.floor_nonneg.mpr (by linarith)
    linarith
  · exact absurd (lt_of_le_of_lt h hy) hx
  · apply Int.floor_le_floor
    linarith

theorem orOne_pos {x : ℚ} (h : 0 ≤ x) : 0 < orOne x := by
  unfold orOne
  split_ifs with hzero
  · norm_num
  · exact lt_of_le_of_ne h (Ne.symm hzero)

/-- The place of a value between the bounds of a span. -/
theorem share_bounds {a low high : ℚ} (hlow : low ≤ a) (hhigh : a ≤ high) :
    0 ≤ (a - low) / orOne (high - low) ∧ (a - low) / orOne (high - low) ≤ 1 := by
  have hpos : 0 < orOne (high - low) := orOne_pos (by linarith)
  constructor
  · apply div_nonneg _ hpos.le
    linarith
  · rw [div_le_one hpos]
    unfold orOne
    split_ifs with hzero
    · linarith
    · linarith

theorem share_mono {a b low high : ℚ} (hab : a ≤ b) (hspan : low ≤ high) :
    (a - low) / orOne (high - low) ≤ (b - low) / orOne (high - low) := by
  have hpos : 0 < orOne (high - low) := orOne_pos (by linarith)
  apply div_le_div_of_nonneg_right _ hpos.le
  linarith

/-- The points lie in the box from left to right in the order of time, the higher value not the lower
on the page; the first one is at the left edge, and the extremes touch the edges. -/
structure Draws (data : List (ℤ × ℚ)) (w h : ℚ) (path : SparkPath) : Prop where
  points : ∃ px : ℤ → ℤ, ∃ py : ℚ → ℤ, path.points = data.map (fun d => (px d.1, py d.2)) ∧
    Monotone px ∧ Antitone py ∧
    (∀ d ∈ data, tenths 1 ≤ px d.1 ∧ px d.1 ≤ tenths (w - 1)) ∧
    (∀ d ∈ data, tenths 3 ≤ py d.2 ∧ py d.2 ≤ tenths (h - 3)) ∧
    (∀ d ∈ data, (∀ e ∈ data, d.1 ≤ e.1) → px d.1 = tenths 1) ∧
    (∀ d ∈ data, ∀ b ∈ data, b.1 < d.1 → (∀ e ∈ data, e.1 ≤ d.1) → px d.1 = tenths (w - 1)) ∧
    (∀ d ∈ data, (∀ e ∈ data, d.2 ≤ e.2) → py d.2 = tenths (h - 3)) ∧
    (∀ d ∈ data, ∀ b ∈ data, b.2 < d.2 → (∀ e ∈ data, e.2 ≤ d.2) → py d.2 = tenths 3)
  up : path.isUp = true ↔ ∀ first ∈ data.head?, ∀ last ∈ data.getLast?, first.2 ≤ last.2

theorem exists_least {ys : List ℚ} (h : ys ≠ []) :
    ∃ m ∈ ys, ys.min?.getD 0 = m ∧ ∀ y ∈ ys, m ≤ y := by
  obtain ⟨m, hm⟩ := Option.isSome_iff_exists.mp (List.isSome_min?_of_ne_nil h)
  obtain ⟨hmem, hle⟩ := List.min?_eq_some_iff.mp hm
  exact ⟨m, hmem, by rw [hm, Option.getD_some], hle⟩

theorem exists_greatest {ys : List ℚ} (h : ys ≠ []) :
    ∃ m ∈ ys, ys.max?.getD 0 = m ∧ ∀ y ∈ ys, y ≤ m := by
  obtain ⟨m, hm⟩ := Option.isSome_iff_exists.mp (List.isSome_max?_of_ne_nil h)
  obtain ⟨hmem, hle⟩ := List.max?_eq_some_iff.mp hm
  exact ⟨m, hmem, by rw [hm, Option.getD_some], hle⟩

theorem ends_of_sorted {data : List (ℤ × ℚ)} (h : data ≠ [])
    (hsorted : data.Pairwise fun d e => d.1 ≤ e.1) :
    ∃ first ∈ data, ∃ last ∈ data, data.head? = some first ∧ data.getLast? = some last ∧
      ∀ d ∈ data, first.1 ≤ d.1 ∧ d.1 ≤ last.1 := by
  obtain ⟨first, rest, rfl⟩ := List.exists_cons_of_ne_nil h
  set last := (first :: rest).getLast h with hlast
  refine ⟨first, List.mem_cons_self, last, List.getLast_mem h, rfl, List.getLast?_eq_some_getLast h,
    fun d hd => ⟨?_, ?_⟩⟩
  · rcases List.mem_cons.mp hd with rfl | hrest
    · exact le_rfl
    · exact (List.pairwise_cons.mp hsorted).1 d hrest
  · have hsplit := List.dropLast_append_getLast h
    rw [← hsplit, List.pairwise_append] at hsorted
    rw [← hsplit] at hd
    rcases List.mem_append.mp hd with hfront | hback
    · exact hsorted.2.2 d hfront last (List.mem_singleton_self _)
    · rw [List.mem_singleton.mp hback]

theorem sparkPath_draws {data : List (ℤ × ℚ)} (h : data ≠ [])
    (hsorted : data.Pairwise fun d e => d.1 ≤ e.1) {w height : ℚ} (hw : 2 ≤ w) (hh : 6 ≤ height) :
    Draws data w height (sparkPath data w height) := by
  obtain ⟨first, hfirst, last, hlast, hhead, hend, hbetween⟩ := ends_of_sorted h hsorted
  have hys : data.map Prod.snd ≠ [] := by simpa using h
  obtain ⟨low, hlow, hmin, hleast⟩ := exists_least hys
  obtain ⟨high, hhigh, hmax, hgreatest⟩ := exists_greatest hys
  have htimes : ((first.1 : ℤ) : ℚ) ≤ (last.1 : ℤ) := by exact_mod_cast (hbetween last hlast).1
  have hvalues : low ≤ high := hleast high hhigh
  have hwide : 0 ≤ w - 2 * 1 := by linarith
  have htall : 0 ≤ height - 2 * 3 := by linarith
  have hy : ∀ d ∈ data, low ≤ d.2 ∧ d.2 ≤ high := fun d hd =>
    ⟨hleast d.2 (List.mem_map_of_mem hd), hgreatest d.2 (List.mem_map_of_mem hd)⟩
  set xShare : ℤ → ℚ := fun x => (x - first.1) / orOne (last.1 - first.1) with hxShare
  set yShare : ℚ → ℚ := fun y => (y - low) / orOne (high - low) with hyShare
  constructor
  · refine ⟨fun x => tenths (1 + xShare x * (w - 2 * 1)),
      fun y => tenths (height - 3 - yShare y * (height - 2 * 3)), ?_, ?_, ?_, ?_, ?_, ?_, ?_, ?_, ?_⟩
    · unfold sparkPath
      dsimp only
      rw [hhead, hend, hmin, hmax, Option.getD_some, Option.getD_some]
    · intro x x' hle
      have hcast : (x : ℚ) ≤ x' := by exact_mod_cast hle
      have hshare := mul_le_mul_of_nonneg_right (share_mono hcast htimes) hwide
      apply tenths_mono
      linarith
    · intro y y' hle
      have hshare := mul_le_mul_of_nonneg_right (share_mono hle hvalues) htall
      apply tenths_mono
      linarith
    · intro d hd
      obtain ⟨hafter, hbefore⟩ := hbetween d hd
      have hfrom : ((first.1 : ℤ) : ℚ) ≤ d.1 := by exact_mod_cast hafter
      have hto : ((d.1 : ℤ) : ℚ) ≤ last.1 := by exact_mod_cast hbefore
      obtain ⟨hzero, hone⟩ := share_bounds hfrom hto
      have hleft := mul_nonneg hzero hwide
      have hright := mul_le_mul_of_nonneg_right hone hwide
      constructor
      · apply tenths_mono
        linarith
      · apply tenths_mono
        linarith
    · intro d hd
      obtain ⟨hzero, hone⟩ := share_bounds (hy d hd).1 (hy d hd).2
      have htop := mul_le_mul_of_nonneg_right hone htall
      have hbottom := mul_nonneg hzero htall
      constructor
      · apply tenths_mono
        linarith
      · apply tenths_mono
        linarith
    · intro d hd hearliest
      have hsame : d.1 = first.1 := le_antisymm (hearliest first hfirst) (hbetween d hd).1
      have hzero : xShare d.1 = 0 := by rw [hxShare, hsame]; simp
      dsimp only
      rw [hzero, zero_mul, add_zero]
    · intro d hd b hb hlt hlatest
      have hsame : d.1 = last.1 := le_antisymm (hbetween d hd).2 (hlatest last hlast)
      have hne : ((last.1 : ℤ) : ℚ) - first.1 ≠ 0 := by
        have hcast : ((first.1 : ℤ) : ℚ) < last.1 := by
          exact_mod_cast lt_of_le_of_lt (hbetween b hb).1 (hsame ▸ hlt)
        linarith
      have hone : xShare d.1 = 1 := by
        rw [hxShare, hsame]
        dsimp only
        rw [orOne, if_neg hne, div_self hne]
      dsimp only
      rw [hone]
      congr 1
      ring
    · intro d hd hlowest
      obtain ⟨e, he, rfl⟩ := List.mem_map.mp hlow
      have hsame : d.2 = e.2 := le_antisymm (hlowest e he) (hy d hd).1
      have hzero : yShare d.2 = 0 := by rw [hyShare, hsame]; simp
      dsimp only
      rw [hzero, zero_mul, sub_zero]
    · intro d hd b hb hlt hhighest
      obtain ⟨e, he, rfl⟩ := List.mem_map.mp hhigh
      have hsame : d.2 = e.2 := le_antisymm (hy d hd).2 (hhighest e he)
      have hne : e.2 - low ≠ 0 := by
        have hbelow := (hy b hb).1
        rw [hsame] at hlt
        linarith
      have hone : yShare d.2 = 1 := by
        rw [hyShare, hsame]
        dsimp only
        rw [orOne, if_neg hne, div_self hne]
      dsimp only
      rw [hone]
      congr 1
      ring
  · unfold sparkPath
    dsimp only
    rw [hhead, hend, Option.getD_some, Option.getD_some, decide_eq_true_eq]
    simp

theorem lookup_eq_head {α β : Type} [BEq α] [LawfulBEq α] [DecidableEq α] (pairs : List (α × β))
    (key : α) :
    pairs.lookup key = ((pairs.filter fun p => p.1 = key).head?).map Prod.snd := by
  induction pairs with
  | nil => rfl
  | cons p pairs ih =>
    obtain ⟨name, value⟩ := p
    by_cases hname : name = key
    · subst hname
      simp
    · have hne : (key == name) = false := beq_eq_false_iff_ne.mpr (Ne.symm hname)
      rw [List.lookup_cons, hne, List.filter_cons_of_neg (by simpa using hname)]
      exact ih

/-- A name that stands once has one first and last value. -/
theorem lookup_reverse_of_unique {α β : Type} [BEq α] [LawfulBEq α] [DecidableEq α]
    {pairs : List (α × β)} {key : α} (h : (pairs.filter fun p => p.1 = key).length ≤ 1) :
    pairs.reverse.lookup key = pairs.lookup key := by
  rw [lookup_eq_head, lookup_eq_head, List.filter_reverse]
  cases hfilter : pairs.filter fun p => p.1 = key with
  | nil => rfl
  | cons p rest =>
    rw [hfilter, List.length_cons] at h
    have hrest : rest = [] := List.eq_nil_of_length_eq_zero (by omega)
    rw [hrest]
    rfl

theorem queryParam_sparkQuery (account : Option (List Char)) :
    Web.queryParam (sparkQuery account) "days".toList = some "60".toList ∧
      Web.queryParam (sparkQuery account) "account".toList =
        account.filter fun a => a ≠ [] ∧ a ≠ "All".toList := by
  rw [Web.queryParam, Web.queryParam, sparkQuery, Web.parseQsl_formQuery]
  cases account.filter fun a => a ≠ [] ∧ a ≠ "All".toList with
  | none => exact ⟨by simp, by simp [List.lookup_cons]⟩
  | some a => exact ⟨by simp [List.lookup_cons], by simp⟩

theorem accountFilter_map (account : Option (List Char)) :
    accountFilter ((account.filter fun a => a ≠ [] ∧ a ≠ "All".toList).map String.ofList) =
      accountFilter (account.map String.ofList) := by
  cases account with
  | none => rfl
  | some a =>
    have hempty : String.ofList a = "" ↔ a = [] := by
      rw [← String.toList_inj, String.toList_ofList]
      rfl
    have hall : String.ofList a = "All" ↔ a = "All".toList := by
      rw [← String.toList_inj, String.toList_ofList]
    by_cases hkept : a ≠ [] ∧ a ≠ "All".toList
    · rw [Option.filter_some, if_pos (by simpa using hkept)]
    · rw [Option.filter_some, if_neg (by simpa using hkept)]
      have hnot : ¬(String.ofList a ≠ "" ∧ String.ofList a ≠ "All") := by
        rwa [ne_eq, ne_eq, hempty, hall]
      simp only [accountFilter, Option.map_some, Option.map_none, Option.filter_none,
        Option.filter_some]
      rw [if_neg (by simpa using hnot)]

/-- A point that is sent is read with its moment and its value. -/
theorem read_sent {e : HistoryElement} {q : ℚ} (h : e.netLiquidationUsd = .finite q) :
    ∃ p, e.sent = .ok p ∧ p.read = (e.snapshotAt.instant / 1000, q) := by
  refine ⟨⟨e.snapshotAt.isoformat, e.netLiquidationUsd⟩, ?_, ?_⟩
  · unfold HistoryElement.sent
    rw [h]
    rfl
  · unfold EquityPoint.read
    dsimp only
    rw [UtcDatetime.fromisoformat_isoformat, h]
    rfl

theorem mapM_sent {κ : Type} (keys : List κ) (moment : κ → UtcDatetime) (value : κ → ℚ) :
    ∃ points, (keys.map fun k => HistoryElement.mk (moment k) (.finite (value k))).mapM
        HistoryElement.sent = .ok points ∧
      points.map EquityPoint.read = keys.map fun k => ((moment k).instant / 1000, value k) := by
  induction keys with
  | nil => exact ⟨[], rfl, rfl⟩
  | cons k keys ih =>
    obtain ⟨points, hpoints, hread⟩ := ih
    obtain ⟨p, hsent, hp⟩ := read_sent (e := ⟨moment k, .finite (value k)⟩) rfl
    refine ⟨p :: points, ?_, ?_⟩
    · rw [List.map_cons, List.mapM_cons, hsent, hpoints]
      rfl
    · rw [List.map_cons, List.map_cons, hp, hread]

/-- The account is one of those that a filter selects. -/
def OfAccount (active accountId : String) : Prop := active = "All" ∨ accountId = active

instance (active accountId : String) : Decidable (OfAccount active accountId) :=
  inferInstanceAs (Decidable (_ ∨ _))

/-- The total of the first values of the selected accounts for a moment and session. -/
def activeUsd (inserts : List SnapshotInsert) (active : String) (k : UtcDatetime ×ₗ String) : ℚ :=
  ∑ account ∈ accounts inserts with OfAccount active account.2, firstUsd inserts k account

theorem accountFilter_known {values : List String} {value : Option String}
    (h : Resolves values value) (accountId : String) :
    (∀ a ∈ accountFilter value, accountId = a) ↔
      OfAccount (if value = some "" then "All" else known values value) accountId := by
  cases value with
  | none => simp [accountFilter, OfAccount, known]
  | some v =>
    rcases h v rfl with rfl | rfl | hmem
    · simp [accountFilter, OfAccount]
    · simp [accountFilter, OfAccount, known]
    · by_cases hempty : v = ""
      · simp [hempty, accountFilter, OfAccount]
      · by_cases hall : v = "All"
        · simp [hall, accountFilter, OfAccount, known]
        · simp [accountFilter, OfAccount, known, hempty, hall, hmem]

/-- The totals that a filter of one account, or of none, leaves. -/
def filteredUsd (inserts : List SnapshotInsert) (accountId : Option String)
    (k : UtcDatetime ×ₗ String) : ℚ :=
  ∑ account ∈ accounts inserts with ∀ a ∈ accountId, account.2 = a, firstUsd inserts k account

/-- The route sends the totals that its account filter leaves. -/
theorem equityHistory_sent {inserts : List SnapshotInsert} (hfinite : ∀ c ∈ inserts, c.Finite)
    {now since : UtcDatetime} (account : Option String) (days : ℤ)
    (hsince : UtcDatetime.ofInstant (now.instant - max 1 (min 400 days) * day) = some since) :
    ∃ points, equityHistory (some (Store.afterInserts inserts)) now account days = .ok points ∧
      points.map EquityPoint.read =
        ((window inserts since (accountFilter account)).groupKeys (·.group)).map
          fun k => ((ofLex k).1.instant / 1000, filteredUsd inserts (accountFilter account) k) := by
  obtain ⟨points, hpoints, hread⟩ := mapM_sent
    ((window inserts since (accountFilter account)).groupKeys (·.group))
    (fun k => (ofLex k).1) (filteredUsd inserts (accountFilter account))
  have hhistory : Store.getEquityHistory exactSum (Store.afterInserts inserts) since (accountFilter account) =
      .ok (((window inserts since (accountFilter account)).groupKeys (·.group)).map fun k =>
        ⟨(ofLex k).1, .finite (filteredUsd inserts (accountFilter account) k)⟩) :=
    points_of_window hfinite since (accountFilter account)
  refine ⟨points, ?_, hread⟩
  unfold equityHistory
  dsimp only
  rw [hsince]
  dsimp only
  rw [hhistory]
  exact hpoints

/-- What the client reads of the response to its request. -/
theorem read_response {parseDays : List Char → Option ℤ} (hparse : parseDays "60".toList = some 60)
    {inserts : List SnapshotInsert} (hfinite : ∀ c ∈ inserts, c.Finite) {now since : UtcDatetime}
    (hsince : UtcDatetime.ofInstant (now.instant - 60 * day) = some since)
    (account : Option (List Char)) :
    ((equityHistoryResponse parseDays (some (Store.afterInserts inserts)) now
        (sparkQuery account)).getD []).map EquityPoint.read =
      ((window inserts since (accountFilter (account.map String.ofList))).groupKeys (·.group)).map
        fun k => ((ofLex k).1.instant / 1000,
          filteredUsd inserts (accountFilter (account.map String.ofList)) k) := by
  obtain ⟨hdays, haccount⟩ := queryParam_sparkQuery account
  obtain ⟨points, hsent, hread⟩ := equityHistory_sent hfinite
    ((account.filter fun a => a ≠ [] ∧ a ≠ "All".toList).map String.ofList) 60 hsince
  have hresponse : equityHistoryResponse parseDays (some (Store.afterInserts inserts)) now
      (sparkQuery account) = some points := by
    unfold equityHistoryResponse
    dsimp only
    rw [hdays, haccount]
    dsimp only
    rw [hparse, Option.bind_some, hsent]
    rfl
  rw [hresponse, Option.getD_some, hread, accountFilter_map]

/-- On a page whose address names at most one account, and none that the page does not know, the
sparkline draws the history of the account that is active: of the moments and sessions of the last
sixty days at which a snapshot of it was taken, each once and in order, the totals of the values that
were taken first. With fewer than two it draws nothing. -/
theorem sparkline_draws_active_account {parseDays : List Char → Option ℤ}
    (hparse : parseDays "60".toList = some 60) {inserts : List SnapshotInsert}
    (hfinite : ∀ c ∈ inserts, c.Finite) {now since : UtcDatetime}
    (hsince : UtcDatetime.ofInstant (now.instant - 60 * day) = some since) {input : IndexInput}
    {search : List Char}
    (hone : ((Web.parseQsl search).filter fun p => p.1 = "account".toList).length ≤ 1)
    (hknown : Resolves input.knownAccounts (IndexQuery.ofParams (Web.parseQsl search)).account)
    {w h : ℚ} (hw : 2 ≤ w) (hh : 6 ≤ h) :
    let active := (input.filters (IndexQuery.ofParams (Web.parseQsl search))).account
    let drawn := sparkline
      (equityHistoryResponse parseDays (some (Store.afterInserts inserts)) now) search w h
    ∃ keys : List (UtcDatetime ×ₗ String), keys.Nodup ∧ keys.Pairwise (· ≤ ·) ∧
      (∀ k, k ∈ keys ↔ since ≤ (ofLex k).1 ∧
        ∃ c ∈ inserts, c.group = k ∧ OfAccount active c.accountId) ∧
      (keys.length < 2 → drawn = none) ∧
      (2 ≤ keys.length → ∃ path, drawn = some path ∧ Draws
        (keys.map fun k => ((ofLex k).1.instant / 1000, activeUsd inserts active k)) w h path) := by
  intro active drawn
  set account := (Web.parseQsl search).lookup "account".toList with haccount
  have hpage : (IndexQuery.ofParams (Web.parseQsl search)).account = account.map String.ofList := by
    rw [haccount, ← lookup_reverse_of_unique hone]
    rfl
  rw [hpage] at hknown
  have hfilter : ∀ accountId, (∀ a ∈ accountFilter (account.map String.ofList), accountId = a) ↔
      OfAccount active accountId := by
    intro accountId
    have hactive : active = if account.map String.ofList = some "" then "All"
        else known input.knownAccounts (account.map String.ofList) := by
      rw [← hpage]
      exact filters_account input _
    rw [hactive]
    exact accountFilter_known hknown accountId
  set rows := window inserts since (accountFilter (account.map String.ofList)) with hrows
  have hdata : ((equityHistoryResponse parseDays (some (Store.afterInserts inserts)) now
      (sparkQuery account)).getD []).map EquityPoint.read = (rows.groupKeys (·.group)).map
        fun k => ((ofLex k).1.instant / 1000, activeUsd inserts active k) := by
    rw [read_response hparse hfinite hsince account]
    simp only [filteredUsd, hfilter]
    rfl
  have hdrawn : drawn = if (rows.groupKeys (·.group)).length < 2 then none else
      some (sparkPath ((rows.groupKeys (·.group)).map
        fun k => ((ofLex k).1.instant / 1000, activeUsd inserts active k)) w h) := by
    have hunfold : drawn = if (((equityHistoryResponse parseDays (some (Store.afterInserts inserts))
        now (sparkQuery account)).getD []).map EquityPoint.read).length < 2 then none
        else some (sparkPath (((equityHistoryResponse parseDays (some (Store.afterInserts inserts))
          now (sparkQuery account)).getD []).map EquityPoint.read) w h) := rfl
    rw [hunfold, hdata, List.length_map]
  refine ⟨rows.groupKeys (·.group), List.nodup_groupKeys .., List.pairwise_groupKeys .., ?_, ?_, ?_⟩
  · intro k
    rw [List.mem_groupKeys]
    constructor
    · intro hk
      obtain ⟨c, hc, hgroup⟩ := hk
      obtain ⟨hkept, hof, hat⟩ := mem_window.mp hc
      refine ⟨hgroup ▸ hat, c, mem_of_mem_kept hkept, hgroup, (hfilter c.accountId).mp fun a ha => ?_⟩
      exact hof a ha
    · intro hk
      obtain ⟨hat, c, hc, hgroup, hof⟩ := hk
      obtain ⟨d, hd, hkey⟩ := exists_kept hfinite hc
      obtain ⟨hsame, hother⟩ := Prod.mk.inj hkey
      have hdgroup : d.group = k := hsame.trans hgroup
      have hdaccount : d.accountId = c.accountId := (Prod.mk.inj hother).2
      refine ⟨d, mem_window.mpr ⟨hd, fun a ha => ?_, ?_⟩, hdgroup⟩
      · exact hdaccount.trans ((hfilter c.accountId).mpr hof a ha)
      · rw [← hdgroup] at hat
        exact hat
  · intro hfew
    rw [hdrawn, if_pos hfew]
  · intro hmany
    refine ⟨_, hdrawn.trans (if_neg (not_lt.mpr hmany)), sparkPath_draws ?_ ?_ hw hh⟩
    · intro hnil
      have hlength := congrArg List.length hnil
      rw [List.length_map, List.length_nil] at hlength
      omega
    · refine List.pairwise_map.mpr ((List.pairwise_groupKeys _ rows).imp fun {k k'} hle => ?_)
      have hat : (ofLex k).1.instant ≤ (ofLex k').1.instant := by
        rcases Prod.Lex.le_iff.mp hle with hlt | ⟨hsame, -⟩
        · exact le_of_lt hlt
        · exact le_of_eq (congrArg UtcDatetime.instant hsame)
      exact Int.ediv_le_ediv (by decide) hat

theorem springHour_fits (month : Fin 12) (day : Fin 28) (hour : Fin 24) :
    (1 ≤ 2026 ∧ 2026 < 10000) ∧ (1 ≤ month.val + 1 ∧ month.val + 1 ≤ 12) ∧
      (1 ≤ day.val + 1 ∧ day.val + 1 ≤ Python.daysInMonth 2026 (month.val + 1)) ∧
        (hour.val < 24 ∧ 0 < 60 ∧ 0 < 60 ∧ 0 < 1000000) := by
  have hlength : ∀ m : Fin 12, 28 ≤ Python.daysInMonth 2026 (m.val + 1) := by decide
  have hmonth := hlength month
  omega

/-- A full hour of 2026, with the months and days counted from 0. -/
def springHour (month : Fin 12) (day : Fin 28) (hour : Fin 24) : UtcDatetime where
  year := 2026
  month := month + 1
  day := day + 1
  hour := hour
  minute := 0
  second := 0
  microsecond := 0
  yearFits := (springHour_fits month day hour).1
  monthFits := (springHour_fits month day hour).2.1
  dayFits := (springHour_fits month day hour).2.2.1
  timeFits := (springHour_fits month day hour).2.2.2

/-- A Friday's close, a Monday's of two accounts, and one that is too old. -/
def sparkInserts : List SnapshotInsert :=
  [sampleInsert (springHour 0 4 8) "IBKR" "U 1" 7, sampleInsert (springHour 4 14 8) "IBKR" "U 1" 10,
    sampleInsert (springHour 4 17 8) "IBKR" "U 1" 20, sampleInsert (springHour 4 17 8) "Tiger" "T1" 5]

def readDays (text : List Char) : Option ℤ := Python.parseInt (.ofList text)

/-- The response on the Tuesday after. -/
def sparkResponse : List Char → Option (List EquityPoint) :=
  equityHistoryResponse readDays (some (Store.afterInserts sparkInserts)) (springHour 4 18 7)

/-- A page that knows one account. -/
def sparkPage : IndexInput := ⟨[], [⟨"IBKR", "U 1", "USD", 20, 0, 0, 0, 0⟩], [.ibkr], closedHours⟩

def sparkSearch : List Char := "broker=IBKR&account=U%201".toList

theorem spark_of_one_account :
    ∃ keys : List (UtcDatetime ×ₗ String), keys.Nodup ∧
      sparkline sparkResponse sparkSearch 220 48 =
        some ⟨[(10, 450), (2190, 30)], [(219, 48), (1, 48)], true⟩ ∧
      Draws (keys.map fun k => ((ofLex k).1.instant / 1000, activeUsd sparkInserts "U 1" k)) 220 48
        ⟨[(10, 450), (2190, 30)], [(219, 48), (1, 48)], true⟩ := by
  have hparse : readDays "60".toList = some 60 := by decide +kernel
  have hfinite : ∀ c ∈ sparkInserts, c.Finite := by
    intro c hc
    simp only [sparkInserts, List.mem_cons, List.not_mem_nil, or_false] at hc
    rcases hc with rfl | rfl | rfl | rfl <;> exact ⟨rfl, rfl, rfl, rfl⟩
  have hsince : UtcDatetime.ofInstant ((springHour 4 18 7).instant - 60 * day) =
      some (springHour 2 19 7) := by decide +kernel
  have hone : ((Web.parseQsl sparkSearch).filter fun p => p.1 = "account".toList).length ≤ 1 := by
    decide +kernel
  have haccount : (IndexQuery.ofParams (Web.parseQsl sparkSearch)).account = some "U 1" := by
    decide +kernel
  have hknown : Resolves sparkPage.knownAccounts
      (IndexQuery.ofParams (Web.parseQsl sparkSearch)).account := by
    intro v hv
    rw [haccount] at hv
    obtain rfl := Option.some.inj hv
    exact Or.inr (Or.inr (by decide))
  have hactive : (sparkPage.filters (IndexQuery.ofParams (Web.parseQsl sparkSearch))).account =
      "U 1" := by decide +kernel
  have hdrawn : sparkline sparkResponse sparkSearch 220 48 =
      some ⟨[(10, 450), (2190, 30)], [(219, 48), (1, 48)], true⟩ := by decide +kernel
  obtain ⟨keys, hnodup, -, -, hfew, hmany⟩ := sparkline_draws_active_account hparse hfinite hsince
    hone hknown (w := 220) (h := 48) (by norm_num) (by norm_num)
  rw [hactive] at hmany
  by_cases hlength : 2 ≤ keys.length
  · obtain ⟨path, hpath, hdraws⟩ := hmany hlength
    obtain rfl := Option.some.inj (hpath.symm.trans hdrawn)
    exact ⟨keys, hnodup, hdrawn, hdraws⟩
  · have hnone := hfew (not_le.mp hlength)
    exact absurd (hnone.symm.trans hdrawn) (by simp)

/-- An address that names two accounts: the page shows the last one, and the sparkline asks for the
first one. -/
theorem repeated_account_is_read_twice :
    (IndexQuery.ofParams (Web.parseQsl "account=U1&account=T1".toList)).account = some "T1" ∧
      Web.queryParam (sparkQuery ((Web.parseQsl "account=U1&account=T1".toList).lookup
        "account".toList)) "account".toList = some "U1".toList := by
  decide +kernel

end PortfolioHub
