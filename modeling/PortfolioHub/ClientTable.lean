import PortfolioHub.JsNumbers
import PortfolioHub.OrderedDict
import PortfolioHub.Transition
import PortfolioHub.WindowQuery

namespace PortfolioHub

inductive SortDir where
  | desc
  | asc
deriving DecidableEq, Repr

/-- A sort state of the page; a missing key or direction is `null`. -/
structure SortState where
  key : Option String
  dir : Option SortDir
deriving DecidableEq, Repr

/-- `DEFAULT_SORT`. -/
def defaultSort : SortState := ⟨some "mv_usd", some .desc⟩

/-- `STRING_SORT_KEYS`. -/
def stringSortKeys : List String := ["country"]

/-- The columns with a sort header. -/
def sortableKeys : List String := ["country", "quantity", "last_price", "mv_native", "mv_usd", "pnl_usd"]

inductive Flash where
  | up
  | down
deriving DecidableEq, Repr

/-- A row in the document: its id, its data attributes, whether it is hidden and its flash class. -/
structure ClientRow where
  id : String
  data : List (String × String)
  hidden : Bool
  flash : Option Flash
deriving DecidableEq, Repr

namespace ClientRow

/-- `dataKeyAttr`, without the `data-` in front. -/
def dataKeyAttr (key : String) : String := .ofList (key.toList.map fun c => if c = '_' then '-' else c)

/-- `numAttr`; an attribute that is missing reads as no number. -/
def numAttr (row : ClientRow) (key : String) : Python.Float :=
  JavaScript.orZero (((row.data.lookup (dataKeyAttr key)).map JavaScript.parseFloat).getD .nan)

/-- `countryOf`: rows without a country come last. -/
def countryOf (row : ClientRow) : String :=
  Python.orElse (Python.upper ((row.data.lookup "country").getD "")) (.singleton (Char.ofNat 0xffff))

/-- The comparison of `applySort` does not put the second row before the first. -/
def Before (key : String) (dir : SortDir) (a b : ClientRow) : Prop :=
  if key ∈ stringSortKeys then
    (match dir with
      | .desc => b.countryOf < a.countryOf
      | .asc => a.countryOf < b.countryOf) ∨
      a.countryOf = b.countryOf ∧ b.numAttr "mv_usd" ≤ a.numAttr "mv_usd"
  else
    match dir with
    | .desc => b.numAttr key ≤ a.numAttr key
    | .asc => a.numAttr key ≤ b.numAttr key

instance (key : String) : (dir : SortDir) → (a b : ClientRow) → Decidable (Before key dir a b)
  | .desc, a, b => inferInstanceAs (Decidable (if key ∈ stringSortKeys then
      b.countryOf < a.countryOf ∨
        a.countryOf = b.countryOf ∧ b.numAttr "mv_usd" ≤ a.numAttr "mv_usd"
      else b.numAttr key ≤ a.numAttr key))
  | .asc, a, b => inferInstanceAs (Decidable (if key ∈ stringSortKeys then
      a.countryOf < b.countryOf ∨
        a.countryOf = b.countryOf ∧ b.numAttr "mv_usd" ≤ a.numAttr "mv_usd"
      else a.numAttr key ≤ b.numAttr key))

/-- The row matches a search, by its name or its symbol. -/
def Matches (row : ClientRow) (text : String) : Prop :=
  let q := Python.lower (JavaScript.trim text)
  q = "" ∨ JavaScript.includes (Python.lower ((row.data.lookup "name-en").getD "")) q = true ∨
    JavaScript.includes (Python.lower ((row.data.lookup "canonical-symbol").getD "")) q = true

instance (row : ClientRow) (text : String) : Decidable (row.Matches text) :=
  inferInstanceAs (Decidable (_ ∨ _ ∨ _))

/-- What the server has rendered of the row. -/
def content (row : ClientRow) : String × List (String × String) := (row.id, row.data)

/-- A row as it is swapped in. -/
def ofContent (c : String × List (String × String)) : ClientRow := ⟨c.1, c.2, false, none⟩

end ClientRow

/-- The page in the browser: the rows of the table, the stored sort (`none` where nothing usable is
stored), the active indicator, the text of the search box and the pending snapshot of prices. Behind
them the content last swapped in, the sort last applied, whether another tab has stored one since,
and whether the handlers have run since content was swapped in. -/
structure ClientTable where
  rows : List ClientRow
  /-- `localStorage` can be read and written. -/
  storage : Bool
  stored : Option SortState
  indicator : Option (String × SortDir)
  query : String
  snapshot : Option (OrderedDict String Python.Float)
  payload : List (String × List (String × String))
  applied : SortState
  overwritten : Bool
  settled : Bool

inductive TableEvent where
  | beforeSwap (target : String)
  /-- New rows in the table. -/
  | rowsSwapped (payload : List (String × List (String × String)))
  /-- A new body, with an empty search box. -/
  | bodySwapped (payload : List (String × List (String × String)))
  | afterSwap
  | click (key : String)
  | search (text : String)
  /-- Another tab stores its sort, or what is stored is cleared. -/
  | storedElsewhere (stored : Option SortState)

namespace ClientTable

def loadSort (s : ClientTable) : SortState :=
  match s.storage, s.stored with
  | true, some state =>
    match state.key with
    | some key => if key = "" then defaultSort else state
    | none => defaultSort
  | _, _ => defaultSort

def saveSort (s : ClientTable) (state : SortState) : ClientTable :=
  if s.storage then { s with stored := some state } else s

/-- `applySort`; without a direction the rows stay as they are. -/
def applySort (s : ClientTable) (state : SortState) : ClientTable :=
  let shown := { s with applied := state, overwritten := false }
  match state.key, state.dir with
  | some key, some dir => { shown with
      indicator := if key ∈ sortableKeys then some (key, dir) else none
      rows := s.rows.insertionSort (ClientRow.Before key dir) }
  | _, _ => { shown with indicator := none }

/-- The next state of the cycle of a column. -/
def nextSort (current : SortState) (key : String) : SortState :=
  if current.key ≠ some key then ⟨some key, some .desc⟩
  else
    match current.dir with
    | some .desc => ⟨some key, some .asc⟩
    | some .asc => ⟨none, none⟩
    | none => ⟨some key, some .desc⟩

def cycleSort (s : ClientTable) (key : String) : ClientTable :=
  let next := nextSort s.loadSort key
  let saved := s.saveSort next
  if next.dir.isSome then saved.applySort next
  else { saved.applySort defaultSort with indicator := none }

def applySearchToRows (s : ClientTable) : ClientTable :=
  { s with rows := s.rows.map fun row => { row with hidden := !decide (row.Matches s.query) } }

/-- `snapshotPricesInto`: the prices by row id. -/
def snapshotPrices (rows : List ClientRow) : OrderedDict String Python.Float :=
  .ofList (rows.map fun row => (row.id, row.numAttr "last_price"))

def captureBeforeSwap (s : ClientTable) (target : String) : ClientTable :=
  if target = "positions-tbody" then { s with snapshot := some (snapshotPrices s.rows) } else s

/-- The flash of a row whose price was `prev` before. -/
def flashOf (prev : Option Python.Float) (next : Python.Float) : Option Flash :=
  match prev with
  | none => none
  | some prev =>
    if prev = 0 ∨ next = 0 ∨ next = prev then none
    else if prev < next then some .up
    else some .down

def flashTickedRows (s : ClientTable) : ClientTable :=
  match s.snapshot with
  | none => s
  | some snap => { s with
      snapshot := none
      rows := s.rows.map fun row =>
        { row with flash := (flashOf (snap.get? row.id) (row.numAttr "last_price")).or row.flash } }

/-- `postSwapRehydrate`, of the rows. -/
def postSwapRehydrate (s : ClientTable) : ClientTable :=
  let flashed := s.flashTickedRows
  { (flashed.applySort flashed.loadSort).applySearchToRows with settled := true }

def step (s : ClientTable) : TableEvent → Option ClientTable
  | .beforeSwap target => some (s.captureBeforeSwap target)
  | .rowsSwapped payload => some
    { s with rows := payload.map .ofContent, payload := payload, settled := false }
  | .bodySwapped payload => some
    { s with rows := payload.map .ofContent, payload := payload, settled := false, query := "" }
  | .afterSwap => some s.postSwapRehydrate
  | .click key => if key ∈ sortableKeys then some (s.cycleSort key) else none
  | .search text => some { s with query := text }.applySearchToRows
  | .storedElsewhere stored => some { s with stored := stored, overwritten := true }

/-- The page is loaded: `onReady`. -/
def onReady (storage : Bool) (stored : Option SortState)
    (payload : List (String × List (String × String))) : ClientTable :=
  let loaded : ClientTable := {
    rows := payload.map .ofContent
    storage := storage
    stored := stored
    indicator := none
    query := ""
    snapshot := none
    payload := payload
    applied := defaultSort
    overwritten := false
    settled := true }
  loaded.applySort loaded.loadSort

end ClientTable

namespace ClientRow

theorem numAttr_ne_nan (row : ClientRow) (key : String) : row.numAttr key ≠ .nan :=
  JavaScript.orZero_ne_nan _

theorem numAttr_le_iff (a b : ClientRow) (key : String) :
    a.numAttr key ≤ b.numAttr key ↔
      JavaScript.rank (a.numAttr key) ≤ JavaScript.rank (b.numAttr key) :=
  JavaScript.le_iff_rank_le (a.numAttr_ne_nan key) (b.numAttr_ne_nan key)

theorem before_total (key : String) (dir : SortDir) (a b : ClientRow) :
    Before key dir a b ∨ Before key dir b a := by
  cases dir <;> simp only [Before, numAttr_le_iff] <;> split
  next =>
    rcases lt_trichotomy a.countryOf b.countryOf with h | h | h
    · exact Or.inr (Or.inl h)
    · exact (le_total _ _).imp (fun hle => Or.inr ⟨h, hle⟩) fun hle => Or.inr ⟨h.symm, hle⟩
    · exact Or.inl (Or.inl h)
  next => exact le_total _ _
  next =>
    rcases lt_trichotomy a.countryOf b.countryOf with h | h | h
    · exact Or.inl (Or.inl h)
    · exact (le_total _ _).imp (fun hle => Or.inr ⟨h, hle⟩) fun hle => Or.inr ⟨h.symm, hle⟩
    · exact Or.inr (Or.inl h)
  next => exact le_total _ _

theorem before_trans {key : String} {dir : SortDir} {a b c : ClientRow} (hab : Before key dir a b)
    (hbc : Before key dir b c) : Before key dir a c := by
  cases dir <;> simp only [Before, numAttr_le_iff] at hab hbc ⊢ <;> split at hab
  next hkey =>
    rw [if_pos hkey] at hbc ⊢
    rcases hab with hab | ⟨hab, hle⟩
    · rcases hbc with hbc | ⟨hbc, -⟩
      · exact Or.inl (hbc.trans hab)
      · exact Or.inl (hbc ▸ hab)
    · rw [hab]
      exact hbc.imp_right fun ⟨hbc, hle'⟩ => ⟨hbc, hle'.trans hle⟩
  next hkey =>
    rw [if_neg hkey] at hbc ⊢
    exact hbc.trans hab
  next hkey =>
    rw [if_pos hkey] at hbc ⊢
    rcases hab with hab | ⟨hab, hle⟩
    · rcases hbc with hbc | ⟨hbc, -⟩
      · exact Or.inl (hab.trans hbc)
      · exact Or.inl (hbc ▸ hab)
    · rw [hab]
      exact hbc.imp_right fun ⟨hbc, hle'⟩ => ⟨hbc, hle'.trans hle⟩
  next hkey =>
    rw [if_neg hkey] at hbc ⊢
    exact hab.trans hbc

/-- The sort puts the rows in the order of its comparison. -/
theorem pairwise_sort (key : String) (dir : SortDir) (rows : List ClientRow) :
    (rows.insertionSort (Before key dir)).Pairwise (Before key dir) := by
  have htotal : Std.Total (Before key dir) := ⟨before_total key dir⟩
  have htrans : IsTrans ClientRow (Before key dir) := ⟨fun _ _ _ => before_trans⟩
  exact List.pairwise_insertionSort _ _

end ClientRow

namespace ClientTable

/-- A sort that goes without an indicator. -/
def Unmarked (state : SortState) : Prop :=
  state = defaultSort ∨ ∀ key dir, state = ⟨some key, some dir⟩ → key ∉ sortableKeys

/-- What the user sees once the handlers have run: the rows in the order of the sort that is
applied, those hidden that do not match the search, an indicator on the column of the sort only. -/
structure Shown (s : ClientTable) : Prop where
  sorted : ∀ key dir, s.applied = ⟨some key, some dir⟩ → s.rows.Pairwise (ClientRow.Before key dir)
  hidden : ∀ row ∈ s.rows, row.hidden = true ↔ ¬ row.Matches s.query
  indicator : ∀ key dir, s.indicator = some (key, dir) → s.applied = ⟨some key, some dir⟩
  unmarked : s.indicator = none → Unmarked s.applied
  stored : s.storage = true → s.overwritten = false → s.applied = s.loadSort

/-- The rows are those of the payload, in some order. -/
structure Kept (s : ClientTable) : Prop where
  content : (s.rows.map ClientRow.content).Perm s.payload
  shown : s.settled = true → s.Shown

variable {s s' : ClientTable}

theorem pairwise_map_hidden {key : String} {dir : SortDir} {rows : List ClientRow}
    (h : rows.Pairwise (ClientRow.Before key dir)) (hidden : ClientRow → Bool) :
    (rows.map fun row => { row with hidden := hidden row }).Pairwise (ClientRow.Before key dir) :=
  List.pairwise_map.mpr h

theorem applySort_eq (s : ClientTable) (state : SortState) :
    (s.applySort state).applied = state ∧ (s.applySort state).rows.Perm s.rows ∧
      ∀ key dir, state = ⟨some key, some dir⟩ →
        (s.applySort state).rows.Pairwise (ClientRow.Before key dir) := by
  obtain ⟨key?, dir?⟩ := state
  cases key? with
  | none => simp [applySort]
  | some key =>
    cases dir? with
    | none => simp [applySort]
    | some dir =>
      refine ⟨rfl, List.perm_insertionSort _ _, fun key' dir' heq => ?_⟩
      obtain ⟨hkey, hdir⟩ := SortState.mk.inj heq
      obtain rfl := Option.some.inj hkey
      obtain rfl := Option.some.inj hdir
      exact ClientRow.pairwise_sort key dir s.rows

/-- The indicator is that of the sort, which has one on the columns of the table. -/
theorem indicator_applySort (s : ClientTable) (state : SortState) :
    (∀ key dir, (s.applySort state).indicator = some (key, dir) → state = ⟨some key, some dir⟩) ∧
      ((s.applySort state).indicator = none → Unmarked state) := by
  obtain ⟨key?, dir?⟩ := state
  cases key? with
  | none => simp [applySort, Unmarked]
  | some key =>
    cases dir? with
    | none => simp [applySort, Unmarked]
    | some dir =>
      simp only [applySort]
      split
      next =>
        refine ⟨fun key' dir' h => ?_, fun h => by cases h⟩
        obtain ⟨rfl, rfl⟩ := Prod.mk.inj (Option.some.inj h)
        rfl
      next hkey =>
        refine ⟨fun key' dir' h => (by cases h), fun _ => Or.inr fun key' dir' heq => ?_⟩
        obtain rfl := Option.some.inj (SortState.mk.inj heq).1
        exact hkey

theorem applySort_unchanged (s : ClientTable) (state : SortState) :
    (s.applySort state).storage = s.storage ∧ (s.applySort state).stored = s.stored ∧
      (s.applySort state).query = s.query ∧ (s.applySort state).payload = s.payload ∧
      (s.applySort state).settled = s.settled ∧ (s.applySort state).snapshot = s.snapshot := by
  obtain ⟨key?, dir?⟩ := state
  cases key? <;> cases dir? <;> exact ⟨rfl, rfl, rfl, rfl, rfl, rfl⟩

theorem loadSort_congr (hstorage : s'.storage = s.storage) (hstored : s'.stored = s.stored) :
    s'.loadSort = s.loadSort := by
  unfold loadSort
  rw [hstorage, hstored]

theorem content_flashTickedRows (s : ClientTable) :
    s.flashTickedRows.rows.map ClientRow.content = s.rows.map ClientRow.content := by
  unfold flashTickedRows
  split
  next => rfl
  next => simp [ClientRow.content, Function.comp_def]

theorem content_applySearchToRows (s : ClientTable) :
    s.applySearchToRows.rows.map ClientRow.content = s.rows.map ClientRow.content := by
  simp [applySearchToRows, ClientRow.content, Function.comp_def]

theorem matches_hidden (row : ClientRow) (hidden : Bool) (text : String) :
    ({ row with hidden := hidden } : ClientRow).Matches text ↔ row.Matches text := Iff.rfl

/-- The search is applied to every row. -/
theorem hidden_applySearchToRows (s : ClientTable) {row : ClientRow}
    (h : row ∈ s.applySearchToRows.rows) : row.hidden = true ↔ ¬ row.Matches s.query := by
  obtain ⟨old, -, hold⟩ := List.mem_map.mp h
  have hhidden : row.hidden = !decide (old.Matches s.query) := by rw [← hold]
  have hmatches := matches_hidden old (!decide (old.Matches s.query)) s.query
  rw [hold] at hmatches
  rw [hhidden, hmatches]
  simp

/-- The state that is applied is one that the page can load again. -/
theorem loadSort_saveSort (h : s.storage = true) {state : SortState}
    (hstate : state.key ≠ some "") :
    (s.saveSort state).loadSort = if state.key.isSome then state else defaultSort := by
  unfold saveSort loadSort
  rw [if_pos h]
  dsimp only
  rw [h]
  dsimp only
  cases hkey : state.key with
  | none => rfl
  | some key =>
    have hne : key ≠ "" := fun heq => hstate (by rw [hkey, heq])
    simp [hne]

theorem saveSort_unchanged (s : ClientTable) (state : SortState) :
    (s.saveSort state).rows = s.rows ∧ (s.saveSort state).storage = s.storage ∧
      (s.saveSort state).query = s.query ∧ (s.saveSort state).payload = s.payload ∧
      (s.saveSort state).settled = s.settled := by
  unfold saveSort
  split <;> exact ⟨rfl, rfl, rfl, rfl, rfl⟩

theorem nextSort_key (current : SortState) (key : String) :
    nextSort current key = ⟨none, none⟩ ∨
      ∃ dir, nextSort current key = ⟨some key, some dir⟩ := by
  unfold nextSort
  split
  next => exact Or.inr ⟨_, rfl⟩
  next =>
    split
    next => exact Or.inr ⟨_, rfl⟩
    next => exact Or.inl rfl
    next => exact Or.inr ⟨_, rfl⟩

theorem Kept.click (h : s.Kept) {key : String} (hkey : key ≠ "") : (s.cycleSort key).Kept := by
  obtain ⟨hrows, hstorage, hquery, hpayload, hsettled⟩ := s.saveSort_unchanged (nextSort s.loadSort key)
  have happly : ∀ state, ((s.saveSort (nextSort s.loadSort key)).applySort state).rows.Perm s.rows :=
    fun state => by
      rw [← hrows]
      exact (applySort_eq _ state).2.1
  have hkept : ∀ state indicator, (∀ key dir, indicator = some (key, dir) →
        state = ⟨some key, some dir⟩) → (indicator = none → Unmarked state) →
      (s.storage = true → (s.saveSort (nextSort s.loadSort key)).loadSort = state) →
      Kept { (s.saveSort (nextSort s.loadSort key)).applySort state with
        indicator := indicator } := by
    intro state indicator hindicator hunmarked hstored
    obtain ⟨happlied, -, hsorted⟩ := applySort_eq (s.saveSort (nextSort s.loadSort key)) state
    obtain ⟨hst, hsd, hq, hp, hse, -⟩ :=
      applySort_unchanged (s.saveSort (nextSort s.loadSort key)) state
    refine ⟨?_, fun hset => ⟨fun k d hk => hsorted k d (happlied.symm.trans hk), fun row hrow => ?_,
      fun k d hk => happlied.trans (hindicator k d hk), fun hnone => ?_,
      fun hstor _ => happlied.trans ?_⟩⟩
    · exact ((happly state).map _).trans (by simpa only [hp, hpayload] using h.content)
    · have hold := (h.shown ((hse.trans hsettled).symm.trans hset)).hidden row
        ((happly state).mem_iff.mp hrow)
      simpa only [hq, hquery] using hold
    · exact happlied.symm ▸ hunmarked hnone
    · have hload : loadSort { (s.saveSort (nextSort s.loadSort key)).applySort state with
            indicator := indicator } = (s.saveSort (nextSort s.loadSort key)).loadSort :=
        loadSort_congr hst hsd
      exact (hstored ((hst.trans hstorage).symm.trans hstor)).symm.trans hload.symm
  unfold cycleSort
  dsimp only
  rcases nextSort_key s.loadSort key with hnext | ⟨dir, hnext⟩
  · -- unset: the default order is applied and its indicator is cleared
    rw [hnext] at hkept ⊢
    refine hkept defaultSort none (fun k d hk => by cases hk) (fun _ => Or.inl rfl) fun hstor => ?_
    rw [loadSort_saveSort hstor (by simp)]
    rfl
  · rw [hnext] at hkept ⊢
    obtain ⟨hindicator, hunmarked⟩ :=
      indicator_applySort (s.saveSort ⟨some key, some dir⟩) ⟨some key, some dir⟩
    refine hkept ⟨some key, some dir⟩ _ hindicator hunmarked fun hstor => ?_
    rw [loadSort_saveSort hstor (by simpa using hkey)]
    rfl

theorem Kept.afterSwap (h : s.Kept) : s.postSwapRehydrate.Kept := by
  have hflashed : s.flashTickedRows.query = s.query ∧ s.flashTickedRows.payload = s.payload := by
    unfold flashTickedRows
    split <;> exact ⟨rfl, rfl⟩
  obtain ⟨happlied, hperm, hsorted⟩ :=
    applySort_eq s.flashTickedRows s.flashTickedRows.loadSort
  obtain ⟨hindicator, hunmarked⟩ :=
    indicator_applySort s.flashTickedRows s.flashTickedRows.loadSort
  obtain ⟨hst, hsd, hq, hp, -, -⟩ :=
    applySort_unchanged s.flashTickedRows s.flashTickedRows.loadSort
  refine ⟨?_, fun _ => ⟨fun key dir hk => ?_, fun row hrow => ?_, fun key dir hk => ?_,
    fun hnone => ?_, fun _ _ => ?_⟩⟩
  · have hcontent := content_applySearchToRows
      (s.flashTickedRows.applySort s.flashTickedRows.loadSort)
    have hsame := (hperm.map ClientRow.content).trans
      ((List.Perm.of_eq s.content_flashTickedRows).trans h.content)
    exact (List.Perm.of_eq hcontent).trans (hsame.trans (List.Perm.of_eq (hp.trans hflashed.2).symm))
  · exact pairwise_map_hidden (hsorted key dir (happlied.symm.trans hk)) _
  · exact hidden_applySearchToRows (s.flashTickedRows.applySort s.flashTickedRows.loadSort) hrow
  · exact happlied.trans (hindicator key dir hk)
  · exact happlied.symm ▸ hunmarked hnone
  · exact happlied.trans (loadSort_congr hst hsd).symm

theorem Kept.search (h : s.Kept) (text : String) :
    ({ s with query := text }.applySearchToRows).Kept := by
  refine ⟨(List.Perm.of_eq (content_applySearchToRows _)).trans h.content, fun hset => ?_⟩
  have hshown := h.shown hset
  exact ⟨fun key dir hk => pairwise_map_hidden (hshown.sorted key dir hk) _,
    fun row hrow => hidden_applySearchToRows { s with query := text } hrow, hshown.indicator,
    hshown.unmarked, hshown.stored⟩

theorem content_ofContent (payload : List (String × List (String × String))) :
    (payload.map ClientRow.ofContent).map ClientRow.content = payload := by
  simp [ClientRow.ofContent, ClientRow.content, Function.comp_def]

theorem Kept.step (h : s.Kept) {e : TableEvent} (hstep : s.step e = some s') : s'.Kept := by
  cases e with
  | beforeSwap target =>
    obtain rfl := Option.some.inj hstep
    unfold captureBeforeSwap
    split
    next => exact ⟨h.content, fun hset => ⟨(h.shown hset).sorted, (h.shown hset).hidden,
        (h.shown hset).indicator, (h.shown hset).unmarked, (h.shown hset).stored⟩⟩
    next => exact h
  | rowsSwapped payload =>
    obtain rfl := Option.some.inj hstep
    exact ⟨List.Perm.of_eq (content_ofContent payload), fun hset => by cases hset⟩
  | bodySwapped payload =>
    obtain rfl := Option.some.inj hstep
    exact ⟨List.Perm.of_eq (content_ofContent payload), fun hset => by cases hset⟩
  | afterSwap =>
    obtain rfl := Option.some.inj hstep
    exact h.afterSwap
  | click key =>
    simp only [ClientTable.step] at hstep
    split at hstep
    next hkey =>
      obtain rfl := Option.some.inj hstep
      refine h.click ?_
      rintro rfl
      exact absurd hkey (by decide)
    next => cases hstep
  | search text =>
    obtain rfl := Option.some.inj hstep
    exact h.search text
  | storedElsewhere stored =>
    obtain rfl := Option.some.inj hstep
    exact ⟨h.content, fun hset => ⟨(h.shown hset).sorted, (h.shown hset).hidden,
      (h.shown hset).indicator, (h.shown hset).unmarked, fun _ hown => by cases hown⟩⟩

theorem kept_onReady (storage : Bool) (stored : Option SortState)
    (payload : List (String × List (String × String))) : (onReady storage stored payload).Kept := by
  have hempty : ∀ row : ClientRow, row.Matches "" := fun row => Or.inl (by decide)
  unfold onReady
  set loaded : ClientTable :=
    ⟨payload.map .ofContent, storage, stored, none, "", none, payload, defaultSort, false, true⟩
  obtain ⟨happlied, hperm, hsorted⟩ := applySort_eq loaded loaded.loadSort
  obtain ⟨hindicator, hunmarked⟩ := indicator_applySort loaded loaded.loadSort
  obtain ⟨hst, hsd, hq, hp, -, -⟩ := applySort_unchanged loaded loaded.loadSort
  refine ⟨?_, fun _ => ⟨fun key dir hk => hsorted key dir (happlied.symm.trans hk), fun row hrow => ?_,
    fun key dir hk => happlied.trans (hindicator key dir hk), fun hnone => ?_, fun _ _ => ?_⟩⟩
  · exact (hperm.map _).trans
      (List.Perm.of_eq ((content_ofContent payload).trans hp.symm))
  · obtain ⟨c, -, rfl⟩ := List.mem_map.mp (hperm.mem_iff.mp hrow)
    rw [hq]
    exact iff_of_false (by simp [ClientRow.ofContent]) (not_not.mpr (hempty _))
  · exact happlied.symm ▸ hunmarked hnone
  · exact happlied.trans (loadSort_congr hst hsd).symm

/-- The last row of the id. -/
def LastWithId (rows : List ClientRow) (id : String) (old : ClientRow) : Prop :=
  ∃ before after, rows = before ++ old :: after ∧ old.id = id ∧ ∀ later ∈ after, later.id ≠ id

/-- The price of an id is that of the last row that has it. -/
theorem get?_snapshotPrices {rows : List ClientRow} {id : String} {price : Python.Float} :
    (snapshotPrices rows).get? id = some price ↔
      ∃ old, LastWithId rows id old ∧ old.numAttr "last_price" = price := by
  rw [snapshotPrices, OrderedDict.get?_ofList, OrderedDict.lookup_reverse_eq_some_iff]
  constructor
  · rintro ⟨before, after, heq, hlast⟩
    obtain ⟨rows', tail, rfl, rfl, htail⟩ := List.map_eq_append_iff.mp heq
    obtain ⟨old, rest, rfl, hold, rfl⟩ := List.map_eq_cons_iff.mp htail
    obtain ⟨rfl, rfl⟩ := Prod.mk.inj hold
    refine ⟨old, ⟨rows', rest, rfl, rfl, fun later hlater hid => hlast ?_⟩, rfl⟩
    rw [List.map_map, ← hid]
    exact List.mem_map_of_mem hlater
  · rintro ⟨old, ⟨before, after, rfl, rfl, hlast⟩, rfl⟩
    refine ⟨_, _, List.map_append, ?_⟩
    rw [List.map_map]
    intro hmem
    obtain ⟨later, hlater, hid⟩ := List.mem_map.mp hmem
    exact hlast later hlater hid

theorem payload_postSwapRehydrate (s : ClientTable) : s.postSwapRehydrate.payload = s.payload := by
  have hflashed : s.flashTickedRows.payload = s.payload := by
    unfold flashTickedRows
    split <;> rfl
  exact (applySort_unchanged _ _).2.2.2.1.trans hflashed

theorem flashOf_eq_up {prev : Option Python.Float} {next : Python.Float}
    (hprev : prev ≠ some .nan) :
    flashOf prev next = some .up ↔ ∃ price, prev = some price ∧ price ≠ 0 ∧ next ≠ 0 ∧
      price < next := by
  cases prev with
  | none => simp [flashOf]
  | some price =>
    have hprice : price ≠ .nan := fun h => hprev (congrArg some h)
    by_cases hskip : price = 0 ∨ next = 0 ∨ next = price
    · have hnot : ¬ (price ≠ 0 ∧ next ≠ 0 ∧ price < next) := by
        rintro ⟨hprice, hnext, hlt⟩
        rcases hskip with h | h | h
        · exact hprice h
        · exact hnext h
        · rw [h] at hlt
          have hself : ∀ x : Python.Float, ¬ x < x := by
            intro x hx
            change Python.Float.lt x x = true at hx
            cases x <;> simp [Python.Float.lt] at hx
          exact hself price hlt
      simp [flashOf, hskip, hnot]
    · have hne := hskip
      push Not at hne
      by_cases hlt : price < next
      · simp [flashOf, hlt, hne]
      · simp [flashOf, hskip, hlt]

theorem flashOf_eq_down {prev : Option Python.Float} {next : Python.Float}
    (hprev : prev ≠ some .nan) (hnan : next ≠ .nan) :
    flashOf prev next = some .down ↔ ∃ price, prev = some price ∧ price ≠ 0 ∧ next ≠ 0 ∧
      next < price := by
  cases prev with
  | none => simp [flashOf]
  | some price =>
    have hprice : price ≠ .nan := fun h => hprev (congrArg some h)
    by_cases hskip : price = 0 ∨ next = 0 ∨ next = price
    · have hnot : ¬ (price ≠ 0 ∧ next ≠ 0 ∧ next < price) := by
        rintro ⟨hzero, hnext, hlt⟩
        rcases hskip with h | h | h
        · exact hzero h
        · exact hnext h
        · rw [h] at hlt
          exact JavaScript.not_lt_of_lt hprice hprice hlt hlt
      simp [flashOf, hskip, hnot]
    · have hne := hskip
      push Not at hne
      by_cases hlt : price < next
      · have hnot := JavaScript.not_lt_of_lt hprice hnan hlt
        simp [flashOf, hskip, hlt, hnot]
      · have hgt := (JavaScript.lt_or_lt_of_ne hprice hnan (Ne.symm hne.2.2)).resolve_left hlt
        simp [flashOf, hlt, hne, hgt]

/-- The handlers keep what the server rendered of a row, and its flash. -/
theorem mem_postSwapRehydrate {row : ClientRow} (h : row ∈ s.postSwapRehydrate.rows) :
    ∃ flashed ∈ s.flashTickedRows.rows, row.id = flashed.id ∧ row.data = flashed.data ∧
      row.flash = flashed.flash := by
  obtain ⟨sorted, hsorted, hrow⟩ := List.mem_map.mp h
  have hflashed := (applySort_eq s.flashTickedRows s.flashTickedRows.loadSort).2.1.mem_iff.mp hsorted
  exact ⟨sorted, hflashed, by rw [← hrow], by rw [← hrow], by rw [← hrow]⟩

/-- Rows that are new flash by the pending snapshot. -/
theorem flash_postSwapRehydrate {snap : OrderedDict String Python.Float}
    (hsnap : s.snapshot = some snap) (hnew : ∀ row ∈ s.rows, row.flash = none) :
    ∀ row ∈ s.postSwapRehydrate.rows,
      row.flash = flashOf (snap.get? row.id) (row.numAttr "last_price") := by
  intro row hrow
  obtain ⟨flashed, hflashed, hid, hdata, hflash⟩ := mem_postSwapRehydrate hrow
  unfold flashTickedRows at hflashed
  rw [hsnap] at hflashed
  obtain ⟨new, hmem, hsame⟩ := List.mem_map.mp hflashed
  have hprice : row.numAttr "last_price" = new.numAttr "last_price" := by
    unfold ClientRow.numAttr
    rw [hdata, ← hsame]
  rw [hflash, hid, hprice, ← hsame, hnew new hmem, Option.or_none]

/-- After a swap that was announced the new rows flash up, and down, where their price was lower, and
higher, on the last row of the same id before; where one of the two prices is missing or zero they do
not. -/
theorem announced_swap_flashes (s : ClientTable) (payload : List (String × List (String × String))) :
    ∃ s', execute step s [.beforeSwap "positions-tbody", .rowsSwapped payload, .afterSwap] = some s' ∧
      (s'.rows.map ClientRow.content).Perm payload ∧ ∀ row ∈ s'.rows,
        (row.flash = some .up ↔ ∃ old, LastWithId s.rows row.id old ∧
          old.numAttr "last_price" ≠ 0 ∧ row.numAttr "last_price" ≠ 0 ∧
          old.numAttr "last_price" < row.numAttr "last_price") ∧
        (row.flash = some .down ↔ ∃ old, LastWithId s.rows row.id old ∧
          old.numAttr "last_price" ≠ 0 ∧ row.numAttr "last_price" ≠ 0 ∧
          row.numAttr "last_price" < old.numAttr "last_price") := by
  have hcapture : s.captureBeforeSwap "positions-tbody" =
      { s with snapshot := some (snapshotPrices s.rows) } := if_pos rfl
  set swapped : ClientTable := { s with
    rows := payload.map .ofContent
    snapshot := some (snapshotPrices s.rows)
    payload := payload
    settled := false } with hswapped
  have hkept : swapped.Kept :=
    ⟨List.Perm.of_eq (content_ofContent payload), fun hset => by cases hset⟩
  refine ⟨swapped.postSwapRehydrate, ?_, ?_, fun row hrow => ?_⟩
  · simp only [execute, step, Option.bind_some, hcapture]
    rfl
  · exact (hkept.afterSwap.content).trans (List.Perm.of_eq (payload_postSwapRehydrate swapped))
  have hflash : row.flash = flashOf ((snapshotPrices s.rows).get? row.id)
      (row.numAttr "last_price") := by
    refine flash_postSwapRehydrate (s := swapped) rfl (fun new hnew => ?_) row hrow
    obtain ⟨c, -, rfl⟩ := List.mem_map.mp hnew
    rfl
  have hnan : (snapshotPrices s.rows).get? row.id ≠ some .nan := by
    intro hsome
    obtain ⟨old, -, hprice⟩ := get?_snapshotPrices.mp hsome
    exact old.numAttr_ne_nan "last_price" hprice
  rw [hflash, flashOf_eq_up hnan, flashOf_eq_down hnan (row.numAttr_ne_nan "last_price")]
  simp only [get?_snapshotPrices]
  constructor
  · constructor
    · rintro ⟨price, ⟨old, hlast, rfl⟩, hrest⟩
      exact ⟨old, hlast, hrest⟩
    · rintro ⟨old, hlast, hrest⟩
      exact ⟨_, ⟨old, hlast, rfl⟩, hrest⟩
  · constructor
    · rintro ⟨price, ⟨old, hlast, rfl⟩, hrest⟩
      exact ⟨old, hlast, hrest⟩
    · rintro ⟨old, hlast, hrest⟩
      exact ⟨_, ⟨old, hlast, rfl⟩, hrest⟩

/-- No snapshot is pending and no row flashes. -/
structure Unflashed (s : ClientTable) : Prop where
  snapshot : s.snapshot = none
  rows : ∀ row ∈ s.rows, row.flash = none

theorem Unflashed.applySort (h : s.Unflashed) (state : SortState) : (s.applySort state).Unflashed :=
  ⟨(s.applySort_unchanged state).2.2.2.2.2.trans h.snapshot,
    fun row hrow => h.rows row ((s.applySort_eq state).2.1.mem_iff.mp hrow)⟩

theorem Unflashed.applySearchToRows (h : s.Unflashed) : s.applySearchToRows.Unflashed := by
  refine ⟨h.snapshot, fun row hrow => ?_⟩
  obtain ⟨old, hold, rfl⟩ := List.mem_map.mp hrow
  exact h.rows old hold

theorem unflashed_ofContent {payload : List (String × List (String × String))} {row : ClientRow}
    (h : row ∈ payload.map ClientRow.ofContent) : row.flash = none := by
  obtain ⟨c, -, rfl⟩ := List.mem_map.mp h
  rfl

/-- Only a swap of the table that is announced takes a snapshot. -/
theorem Unflashed.step {e : TableEvent} (h : s.Unflashed) (he : e ≠ .beforeSwap "positions-tbody")
    (hstep : s.step e = some s') : s'.Unflashed := by
  cases e with
  | beforeSwap target =>
    obtain rfl := Option.some.inj hstep
    have hother : target ≠ "positions-tbody" := fun heq => he (by rw [heq])
    rwa [captureBeforeSwap, if_neg hother]
  | rowsSwapped payload | bodySwapped payload =>
    obtain rfl := Option.some.inj hstep
    exact ⟨h.snapshot, fun row hrow => unflashed_ofContent hrow⟩
  | afterSwap =>
    obtain rfl := Option.some.inj hstep
    have hflashed : s.flashTickedRows = s := by
      unfold flashTickedRows
      rw [h.snapshot]
    unfold postSwapRehydrate
    rw [hflashed]
    have hshown := (h.applySort s.loadSort).applySearchToRows
    exact ⟨hshown.snapshot, hshown.rows⟩
  | click key =>
    simp only [ClientTable.step] at hstep
    split at hstep
    next =>
      obtain rfl := Option.some.inj hstep
      have hsaved : (s.saveSort (nextSort s.loadSort key)).Unflashed := by
        unfold saveSort
        split
        next => exact ⟨h.snapshot, h.rows⟩
        next => exact h
      unfold cycleSort
      dsimp only
      split
      next => exact hsaved.applySort _
      next =>
        have hshown := hsaved.applySort defaultSort
        exact ⟨hshown.snapshot, hshown.rows⟩
    next => cases hstep
  | search text =>
    obtain rfl := Option.some.inj hstep
    have hsearched : Unflashed { s with query := text } := ⟨h.snapshot, h.rows⟩
    exact hsearched.applySearchToRows
  | storedElsewhere stored =>
    obtain rfl := Option.some.inj hstep
    exact ⟨h.snapshot, h.rows⟩

end ClientTable

/-- What happens on the page. A swap raises `htmx:afterSwap` on each of the `elts` elements it puts
in. -/
inductive PageEvent where
  /-- A message of the SSE extension: `snapshot` or `positions`. -/
  | push (payload : List (String × List (String × String))) (elts : ℕ)
  /-- The response to a filter chip. -/
  | filtered (payload : List (String × List (String × String))) (elts : ℕ)
  /-- The response to a poll or a retry of the status badge. -/
  | badge (elts : ℕ)
  /-- The response to its restart button, which is not put in. -/
  | gatewayRestart
  | click (key : String)
  | search (text : String)
  | storedElsewhere (stored : Option SortState)

/-- The events the handlers see. -/
def PageEvent.raised : PageEvent → List TableEvent
  -- `swap` of the extension calls `api.swap`; `htmx:beforeSwap` is raised for responses only
  | .push payload elts => .rowsSwapped payload :: List.replicate elts .afterSwap
  | .filtered payload elts =>
    .beforeSwap "" :: .bodySwapped payload :: List.replicate elts .afterSwap
  | .badge elts => .beforeSwap "ibkr-status" :: List.replicate elts .afterSwap
  | .gatewayRestart => [.beforeSwap ""]
  | .click key => [.click key]
  | .search text => [.search text]
  | .storedElsewhere stored => [.storedElsewhere stored]

namespace ClientTable

def pageStep (s : ClientTable) (e : PageEvent) : Option ClientTable := execute step s e.raised

variable {s s' : ClientTable}

/-- Nothing that happens on the page announces a swap of the table. -/
theorem ne_beforeSwap_of_raised {e : PageEvent} {raised : TableEvent} (h : raised ∈ e.raised) :
    raised ≠ .beforeSwap "positions-tbody" := by
  rintro rfl
  cases e <;> simp [PageEvent.raised] at h

theorem unflashed_onReady (storage : Bool) (stored : Option SortState)
    (payload : List (String × List (String × String))) :
    (onReady storage stored payload).Unflashed :=
  Unflashed.applySort ⟨rfl, fun _ hrow => unflashed_ofContent hrow⟩ _

/-- Whatever is pushed to the page, chosen, clicked and searched on it, no row ever flashes: a push
does not announce its swap. Had it done so, the new rows would flash where their price went up or
down. -/
theorem pushed_ticks_do_not_flash {storage : Bool} {stored : Option SortState}
    {loaded : List (String × List (String × String))} {s : ClientTable}
    (h : Reaches pageStep (fun _ _ => True) (onReady storage stored loaded) s) :
    (∀ row ∈ s.rows, row.flash = none) ∧
      ∀ payload, ∃ s', execute step s
          [.beforeSwap "positions-tbody", .rowsSwapped payload, .afterSwap] = some s' ∧
        (s'.rows.map ClientRow.content).Perm payload ∧ ∀ row ∈ s'.rows,
          (row.flash = some .up ↔ ∃ old, LastWithId s.rows row.id old ∧
            old.numAttr "last_price" ≠ 0 ∧ row.numAttr "last_price" ≠ 0 ∧
            old.numAttr "last_price" < row.numAttr "last_price") ∧
          (row.flash = some .down ↔ ∃ old, LastWithId s.rows row.id old ∧
            old.numAttr "last_price" ≠ 0 ∧ row.numAttr "last_price" ≠ 0 ∧
            row.numAttr "last_price" < old.numAttr "last_price") := by
  have hunflashed : s.Unflashed := h.invariant (unflashed_onReady storage stored loaded)
    fun _ _ _ hi _ he => execute_keeps
      (fun e hmem _ _ hs hstep => hs.step (ne_beforeSwap_of_raised hmem) hstep) hi he
  exact ⟨hunflashed.rows, announced_swap_flashes s⟩

/-- The price of the one row goes up. -/
theorem pushed_rise_does_not_flash :
    ∃ s, Reaches pageStep (fun _ _ => True) (onReady true none [("a", [("last-price", "10.5")])]) s ∧
      s.rows.map (·.numAttr "last_price") = [.finite 12] ∧ ∀ row ∈ s.rows, row.flash = none := by
  obtain ⟨s, hs, hp⟩ := Reaches.exists_of_execute pageStep (fun _ _ => True)
    (onReady true none [("a", [("last-price", "10.5")])])
    [.badge 1, .push [("a", [("last-price", "12.0")])] 3]
    (fun s => s.rows.map (·.numAttr "last_price") = [.finite 12]) (by decide +kernel)
  exact ⟨s, hs, of_decide_eq_true hp, (pushed_ticks_do_not_flash hs).1⟩

end ClientTable

end PortfolioHub
