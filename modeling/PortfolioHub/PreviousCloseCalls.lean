import PortfolioHub.OrderedDict
import PortfolioHub.PythonFloat
import PortfolioHub.Transition

namespace PortfolioHub

/-- A call of `_fetch_previous_closes_cached` that is suspended in the fetch of its misses. A
contract is its id here. -/
structure CloseCall where
  today : ℕ
  contracts : List ℤ
  out : OrderedDict ℤ Python.Float
  misses : List ℤ
  /-- How many of the misses have gone out to the network. -/
  fetched : ℕ
  /-- A fetch has raised, or the call is cancelled. -/
  failed : Bool

/-- What a call has returned. -/
structure CloseReturn where
  today : ℕ
  contracts : List ℤ
  out : OrderedDict ℤ Python.Float

/-- The UTC date, the two caches, the calls in flight, and a record of the fetches, each with its
date, and of the returns. -/
structure CloseCache where
  today : ℕ
  hits : OrderedDict ℤ (ℕ × Python.Float)
  missed : OrderedDict ℤ ℕ
  calls : OrderedDict ℕ CloseCall
  fetches : List (ℤ × ℕ)
  returns : List CloseReturn

inductive CloseEvent where
  | midnight
  | call (id : ℕ) (contracts : List ℤ)
  /-- The next miss of the call passes the semaphore. -/
  | fetch (id : ℕ)
  /-- The gather is done, with what `_fetch_previous_close` returned of each miss. -/
  | finish (id : ℕ) (results : List (Option Python.Float))
  | fail (id : ℕ)

/-- What `_fetch_previous_closes` returns: of the results that are above zero, the last of each
contract. -/
def freshCloses (misses : List ℤ) (results : List (Option Python.Float)) :
    OrderedDict ℤ Python.Float :=
  OrderedDict.ofList ((misses.zip results).filterMap fun result =>
    (result.2.filter fun value => 0 < value).map fun value => (result.1, value))

namespace CloseCache

def init (today : ℕ) : CloseCache := ⟨today, .empty, .empty, .empty, [], []⟩

/-- What the caches say of a contract on a date: a close, or that there is none. -/
def known (s : CloseCache) (date : ℕ) (conId : ℤ) : Option (Option Python.Float) :=
  match (s.hits.get? conId).filter (·.1 = date) with
  | some hit => some (some hit.2)
  | none => if s.missed.get? conId = some date then some none else none

/-- A round of the loop over the contracts: a close is cached, is known not to be there, or is
to be fetched. -/
def lookUpOne (s : CloseCache) (found : OrderedDict ℤ Python.Float × List ℤ) (conId : ℤ) :
    OrderedDict ℤ Python.Float × List ℤ :=
  match s.known s.today conId with
  | some (some value) => (found.1.insert conId value, found.2)
  | some none => found
  | none => (found.1, found.2 ++ [conId])

def lookUp (s : CloseCache) (contracts : List ℤ) : OrderedDict ℤ Python.Float × List ℤ :=
  contracts.foldl s.lookUpOne (.empty, [])

def beginCall (s : CloseCache) (id : ℕ) (contracts : List ℤ) : CloseCache :=
  let found := s.lookUp contracts
  if found.2 = [] then { s with returns := ⟨s.today, contracts, found.1⟩ :: s.returns }
  else { s with calls := s.calls.insert id ⟨s.today, contracts, found.1, found.2, 0, false⟩ }

/-- The loops behind the await: the results go into the caches under the date of the call. -/
def finishCall (s : CloseCache) (id : ℕ) (c : CloseCall) (fresh : OrderedDict ℤ Python.Float) :
    CloseCache :=
  { s with
    hits := s.hits.update (fresh.mapValues fun value => (c.today, value)).entries
    missed := (s.missed.filterKeys fun conId => (fresh.get? conId).isNone).update
      ((c.misses.filter fun conId => (fresh.get? conId).isNone).map fun conId => (conId, c.today))
    calls := s.calls.filterKeys (· ≠ id)
    returns := ⟨c.today, c.contracts, c.out.update fresh.entries⟩ :: s.returns }

def step (s : CloseCache) : CloseEvent → Option CloseCache
  | .midnight => some { s with today := s.today + 1 }
  | .call id contracts =>
    match s.calls.get? id with
    | some _ => none
    | none => some (s.beginCall id contracts)
  | .fetch id =>
    match s.calls.get? id with
    | some c =>
      match c.misses[c.fetched]? with
      | some conId => some
        { s with
          calls := s.calls.insert id { c with fetched := c.fetched + 1 }
          fetches := (conId, s.today) :: s.fetches }
      | none => none
    | none => none
  | .finish id results =>
    match s.calls.get? id with
    | some c =>
      if c.failed = false ∧ c.fetched = c.misses.length ∧ results.length = c.misses.length then
        some (s.finishCall id c (freshCloses c.misses results))
      else none
    | none => none
  | .fail id =>
    match s.calls.get? id with
    | some c => some { s with calls := s.calls.insert id { c with failed := true } }
    | none => none

/-- What a step has to keep to. A call lists a contract that is not cached once, and none that a
call of the same date in flight is to fetch. A fetch goes out on the date its call has read. A
call that has sent one fails on a later date only, and what it stores on a later date replaces
nothing of that date. -/
def KeepsRecord (s : CloseCache) : CloseEvent → Prop
  | .midnight => True
  | .call _ contracts =>
    (contracts.filter fun conId => s.known s.today conId = none).Nodup ∧
      ∀ entry ∈ s.calls.entries, entry.2.failed = false → entry.2.today = s.today →
        ∀ conId ∈ contracts, s.known s.today conId = none → conId ∉ entry.2.misses
  | .fetch id => ∀ c ∈ s.calls.get? id, c.failed = false ∧ c.today = s.today
  | .finish id results => ∀ c ∈ s.calls.get? id, c.today ≠ s.today → ∀ conId ∈ c.misses,
      s.known s.today conId = none ∨
        s.known s.today conId ≠ some none ∧ (freshCloses c.misses results).get? conId = none
  | .fail id => ∀ c ∈ s.calls.get? id, c.fetched = 0 ∨ c.today ≠ s.today

instance (s : CloseCache) : (e : CloseEvent) → Decidable (s.KeepsRecord e)
  | .midnight => inferInstanceAs (Decidable True)
  | .call _ contracts => inferInstanceAs (Decidable
      ((contracts.filter fun conId => s.known s.today conId = none).Nodup ∧
        ∀ entry ∈ s.calls.entries, entry.2.failed = false → entry.2.today = s.today →
          ∀ conId ∈ contracts, s.known s.today conId = none → conId ∉ entry.2.misses))
  | .fetch id => inferInstanceAs (Decidable
      (∀ c ∈ s.calls.get? id, c.failed = false ∧ c.today = s.today))
  | .finish id results => inferInstanceAs (Decidable
      (∀ c ∈ s.calls.get? id, c.today ≠ s.today → ∀ conId ∈ c.misses,
        s.known s.today conId = none ∨
          s.known s.today conId ≠ some none ∧ (freshCloses c.misses results).get? conId = none))
  | .fail id => inferInstanceAs (Decidable
      (∀ c ∈ s.calls.get? id, c.fetched = 0 ∨ c.today ≠ s.today))

/-- Each contract goes out at most once on a date, and the calls of a date return the same close
of it, or all of them none. -/
def FetchedOnce (s : CloseCache) : Prop :=
  s.fetches.Nodup ∧ ∀ r ∈ s.returns, ∀ r' ∈ s.returns, r.today = r'.today →
    ∀ conId ∈ r.contracts, conId ∈ r'.contracts → r.out.get? conId = r'.out.get? conId

/-- An answer for a contract on a date: in the caches, in a return, or of a call in flight. -/
def Answered (s : CloseCache) (date : ℕ) (conId : ℤ) (answer : Option Python.Float) : Prop :=
  s.known date conId = some answer ∨
  (∃ r ∈ s.returns, r.today = date ∧ conId ∈ r.contracts ∧ r.out.get? conId = answer) ∨
  ∃ id c, s.calls.get? id = some c ∧ c.today = date ∧ conId ∈ c.contracts ∧ conId ∉ c.misses ∧
    c.out.get? conId = answer

/-- The contracts to fetch are those that the caches do not know. -/
theorem misses_lookUp (s : CloseCache) (contracts : List ℤ) :
    (s.lookUp contracts).2 = contracts.filter fun conId => s.known s.today conId = none := by
  have hfold : ∀ found : OrderedDict ℤ Python.Float × List ℤ,
      (contracts.foldl s.lookUpOne found).2 =
        found.2 ++ contracts.filter fun conId => s.known s.today conId = none := by
    induction contracts with
    | nil => simp
    | cons head contracts ih =>
      intro found
      rw [List.foldl_cons, ih, List.filter_cons, lookUpOne]
      cases hknown : s.known s.today head with
      | none => simp
      | some answer => cases answer <;> simp
  exact hfold (.empty, [])

/-- The closes found are those the caches hold. -/
theorem get?_lookUp (s : CloseCache) {contracts : List ℤ} {conId : ℤ} (h : conId ∈ contracts) :
    (s.lookUp contracts).1.get? conId = (s.known s.today conId).join := by
  have hfold : ∀ found : OrderedDict ℤ Python.Float × List ℤ,
      (contracts.foldl s.lookUpOne found).1.get? conId =
        (if conId ∈ contracts then (s.known s.today conId).join else none).or
          (found.1.get? conId) := by
    clear h
    induction contracts with
    | nil => simp
    | cons head contracts ih =>
      intro found
      rw [List.foldl_cons, ih, lookUpOne]
      by_cases hhead : conId = head
      · subst hhead
        rw [if_pos List.mem_cons_self]
        cases hknown : s.known s.today conId with
        | none => simp
        | some answer =>
          cases answer with
          | none => simp
          | some value =>
            rw [OrderedDict.get?_insert_self]
            split
            next => rfl
            next => rfl
      · have hmem : conId ∈ head :: contracts ↔ conId ∈ contracts := by simp [hhead]
        simp only [hmem]
        cases hknown : s.known s.today head with
        | none => rfl
        | some answer =>
          cases answer with
          | none => rfl
          | some value => simp [OrderedDict.get?_insert, hhead]
  rw [lookUp, hfold, if_pos h]
  simp

theorem get?_hits_finishCall (s : CloseCache) (id : ℕ) (c : CloseCall)
    (fresh : OrderedDict ℤ Python.Float) (conId : ℤ) :
    (s.finishCall id c fresh).hits.get? conId =
      ((fresh.get? conId).map fun value => (c.today, value)).or (s.hits.get? conId) := by
  rw [finishCall, OrderedDict.get?_update, OrderedDict.lookup_reverse_entries,
    OrderedDict.get?_mapValues]

theorem get?_missed_finishCall (s : CloseCache) (id : ℕ) (c : CloseCall)
    (fresh : OrderedDict ℤ Python.Float) (conId : ℤ) :
    (s.finishCall id c fresh).missed.get? conId =
      if (fresh.get? conId).isSome then none
      else if conId ∈ c.misses then some c.today else s.missed.get? conId := by
  have hlookup : ∀ conIds : List ℤ, (conIds.map fun conId => (conId, c.today)).lookup conId =
      if conId ∈ conIds then some c.today else none := by
    intro conIds
    induction conIds with
    | nil => rfl
    | cons head conIds ih =>
      rw [List.map_cons, OrderedDict.lookup_cons_eq, ih]
      by_cases hhead : conId = head
      · simp [hhead]
      · simp [hhead]
  rw [finishCall, OrderedDict.get?_update, ← List.map_reverse, hlookup, OrderedDict.get?_filterKeys]
  simp only [List.mem_reverse, List.mem_filter]
  cases hfresh : fresh.get? conId with
  | none =>
    by_cases hmem : conId ∈ c.misses
    · simp [hmem]
    · simp [hmem]
  | some value => simp

/-- Under the date of the call its misses have got the answer of the fetch. -/
theorem known_finishCall {s : CloseCache} (id : ℕ) {c : CloseCall}
    (fresh : OrderedDict ℤ Python.Float) {conId : ℤ} (hmem : conId ∈ c.misses)
    (hnone : s.known c.today conId = none) :
    (s.finishCall id c fresh).known c.today conId = some (fresh.get? conId) := by
  unfold known at hnone ⊢
  rw [get?_hits_finishCall, get?_missed_finishCall]
  cases hfresh : fresh.get? conId with
  | none =>
    split at hnone
    next => cases hnone
    next hhit => simp [hhit, hmem]
  | some value => simp [Option.filter_some]

/-- What the caches know of other contracts stays. -/
theorem known_finishCall_of_notMem {s : CloseCache} (id : ℕ) {c : CloseCall}
    {fresh : OrderedDict ℤ Python.Float} {conId : ℤ} (hmem : conId ∉ c.misses)
    (hfresh : fresh.get? conId = none) (date : ℕ) :
    (s.finishCall id c fresh).known date conId = s.known date conId := by
  unfold known
  rw [get?_hits_finishCall, get?_missed_finishCall, hfresh]
  simp [hmem]

/-- Of another date no answer is new. -/
theorem known_of_known_finishCall {s : CloseCache} {id : ℕ} {c : CloseCall}
    {fresh : OrderedDict ℤ Python.Float} {conId : ℤ} {date : ℕ} {answer : Option Python.Float}
    (hne : date ≠ c.today) (h : (s.finishCall id c fresh).known date conId = some answer) :
    s.known date conId = some answer := by
  unfold known at h ⊢
  rw [get?_hits_finishCall, get?_missed_finishCall] at h
  cases hfresh : fresh.get? conId with
  | some value => simp [hfresh, hne.symm, Option.filter_some] at h
  | none =>
    simp only [hfresh, Option.map_none, Option.none_or, Option.isSome_none, Bool.false_eq_true,
      if_false] at h
    split at h
    next hit hhit => exact h
    next hhit =>
      by_cases hmem : conId ∈ c.misses
      · simp [hmem, hne.symm] at h
      · simpa [hmem] using h

/-- A close of another date stays where the fetch has none. -/
theorem known_finishCall_of_hit {s : CloseCache} (id : ℕ) {c : CloseCall}
    {fresh : OrderedDict ℤ Python.Float} {conId : ℤ} {date : ℕ} {answer : Option Python.Float}
    (hfresh : fresh.get? conId = none) (hhit : s.known date conId ≠ some none)
    (h : s.known date conId = some answer) :
    (s.finishCall id c fresh).known date conId = some answer := by
  unfold known at h hhit ⊢
  rw [get?_hits_finishCall, get?_missed_finishCall, hfresh]
  simp only [Option.map_none, Option.none_or]
  split at h
  next => exact h
  next hnone =>
    simp only [hnone] at hhit
    split at h
    next hdate => exact absurd (if_pos hdate) hhit
    next => cases h

/-- A close that is returned is the result of a fetch for its contract. -/
theorem mem_of_get?_freshCloses {misses : List ℤ} {results : List (Option Python.Float)} {conId : ℤ}
    {value : Python.Float} (h : (freshCloses misses results).get? conId = some value) :
    (conId, some value) ∈ misses.zip results := by
  rw [freshCloses, OrderedDict.get?_ofList] at h
  obtain ⟨result, hresult, hvalue⟩ :=
    List.mem_filterMap.mp (List.mem_reverse.mp (OrderedDict.mem_of_lookup h))
  obtain ⟨found, hfound, heq⟩ := Option.map_eq_some_iff.mp hvalue
  obtain ⟨rfl, rfl⟩ := Prod.mk.inj heq
  obtain ⟨hsome, -⟩ := Option.filter_eq_some_iff.mp hfound
  rwa [← hsome]

/-- A contract without a close has no fetch with a result above zero. -/
theorem notMem_of_get?_freshCloses {misses : List ℤ} {results : List (Option Python.Float)}
    {conId : ℤ} {value : Python.Float} (h : (freshCloses misses results).get? conId = none)
    (hpos : 0 < value) : (conId, some value) ∉ misses.zip results := by
  intro hmem
  have hentry : (conId, value) ∈ (misses.zip results).filterMap fun result =>
      (result.2.filter fun value => 0 < value).map fun value => (result.1, value) :=
    List.mem_filterMap.mpr ⟨_, hmem, by simp [hpos]⟩
  rw [freshCloses, OrderedDict.get?_ofList] at h
  have hsome := OrderedDict.lookup_isSome_iff.mpr
    (List.mem_map.mpr ⟨_, List.mem_reverse.mpr hentry, rfl⟩)
  rw [h] at hsome
  cases hsome

/-- The fetch answers for its misses alone. -/
theorem get?_freshCloses_of_notMem {misses : List ℤ} {conId : ℤ} (h : conId ∉ misses)
    (results : List (Option Python.Float)) : (freshCloses misses results).get? conId = none := by
  cases hfresh : (freshCloses misses results).get? conId with
  | none => rfl
  | some value =>
    have hresult := mem_of_get?_freshCloses hfresh
    exact absurd (List.of_mem_zip hresult).1 h

/-- A call that is still to store what it fetches. -/
def Pending (s : CloseCache) (id : ℕ) (c : CloseCall) : Prop :=
  s.calls.get? id = some c ∧ c.failed = false

/-- What holds of the answers. Those of today are in the caches, and what a call is to fetch has
no answer for its date. -/
structure AnswersAgree (s : CloseCache) : Prop where
  callDates : ∀ id c, s.calls.get? id = some c → c.today ≤ s.today
  answerDates : ∀ date conId answer, s.Answered date conId answer → date ≤ s.today
  once : ∀ id c, s.Pending id c → c.misses.Nodup
  unfound : ∀ id c, s.Pending id c → ∀ conId ∈ c.misses, c.out.get? conId = none
  apart : ∀ id c id' c', s.Pending id c → s.Pending id' c' → id ≠ id' → c.today = c'.today →
    ∀ conId ∈ c.misses, conId ∉ c'.misses
  unanswered : ∀ id c, s.Pending id c → ∀ conId ∈ c.misses, ∀ answer,
    ¬ s.Answered c.today conId answer
  cached : ∀ conId answer, s.Answered s.today conId answer →
    s.known s.today conId = some answer
  agree : ∀ date conId answer answer', s.Answered date conId answer →
    s.Answered date conId answer' → answer = answer'

/-- What holds of the fetches. A contract that has gone out today is cached, or its call is
pending, and what a call is to send has not gone out. -/
structure FetchesOnce (s : CloseCache) : Prop where
  fetchDates : ∀ fetch ∈ s.fetches, fetch.2 ≤ s.today
  nodup : s.fetches.Nodup
  recorded : ∀ conId, (conId, s.today) ∈ s.fetches → s.known s.today conId ≠ none ∨
    ∃ id c, s.Pending id c ∧ c.today = s.today ∧ conId ∈ c.misses.take c.fetched
  toFetch : ∀ id c, s.Pending id c → ∀ conId ∈ c.misses.drop c.fetched,
    (conId, c.today) ∉ s.fetches

variable {s s' : CloseCache}

/-- The caches do not know what a call is to fetch. -/
theorem AnswersAgree.known_eq_none (ha : s.AnswersAgree) {id : ℕ} {c : CloseCall}
    (hc : s.Pending id c) {conId : ℤ} (hmem : conId ∈ c.misses) :
    s.known c.today conId = none :=
  Option.eq_none_iff_forall_ne_some.mpr fun answer h =>
    ha.unanswered id c hc conId hmem answer (Or.inl h)

/-- A step that gives no answer, and no call another thing to fetch. -/
theorem AnswersAgree.mono (hs : s.AnswersAgree) (htoday : s'.today = s.today)
    (hknown : ∀ conId, s'.known s.today conId = s.known s.today conId)
    (hanswered : ∀ date conId answer, s'.Answered date conId answer →
      s.Answered date conId answer)
    (hcalls : ∀ id c', s'.calls.get? id = some c' → ∃ c, s.calls.get? id = some c ∧
      c'.today = c.today ∧ c'.misses = c.misses ∧ c'.out = c.out ∧
        (c'.failed = false → c.failed = false)) :
    s'.AnswersAgree := by
  have hpending : ∀ {id c'}, s'.Pending id c' →
      ∃ c, s.Pending id c ∧ c'.today = c.today ∧ c'.misses = c.misses ∧ c'.out = c.out := by
    rintro id c' ⟨hget, hfailed⟩
    obtain ⟨c, hc, hdate, hmisses, hout, hkept⟩ := hcalls id c' hget
    exact ⟨c, ⟨hc, hkept hfailed⟩, hdate, hmisses, hout⟩
  refine ⟨?_, ?_, ?_, ?_, ?_, ?_, ?_, ?_⟩
  · intro id c' hget
    obtain ⟨c, hc, hdate, -⟩ := hcalls id c' hget
    rw [hdate, htoday]
    exact hs.callDates id c hc
  · intro date conId answer h
    rw [htoday]
    exact hs.answerDates date conId answer (hanswered _ _ _ h)
  · intro id c' hc'
    obtain ⟨c, hc, -, hmisses, -⟩ := hpending hc'
    rw [hmisses]
    exact hs.once id c hc
  · intro id c' hc' conId hmem
    obtain ⟨c, hc, -, hmisses, hout⟩ := hpending hc'
    rw [hmisses] at hmem
    rw [hout]
    exact hs.unfound id c hc conId hmem
  · intro id c' id' d' hc' hd' hne hdate
    obtain ⟨c, hc, htoday, hmisses, -⟩ := hpending hc'
    obtain ⟨d, hd, htoday', hmisses', -⟩ := hpending hd'
    rw [hmisses, hmisses']
    exact hs.apart id c id' d hc hd hne (htoday.symm.trans (hdate.trans htoday'))
  · intro id c' hc' conId hmem answer h
    obtain ⟨c, hc, hdate, hmisses, -⟩ := hpending hc'
    rw [hmisses] at hmem
    rw [hdate] at h
    exact hs.unanswered id c hc conId hmem answer (hanswered _ _ _ h)
  · intro conId answer h
    rw [htoday] at h ⊢
    rw [hknown]
    exact hs.cached conId answer (hanswered _ _ _ h)
  · intro date conId answer answer' h h'
    exact hs.agree date conId answer answer' (hanswered _ _ _ h) (hanswered _ _ _ h')

theorem AnswersAgree.midnight (hs : s.AnswersAgree) :
    ({ s with today := s.today + 1 } : CloseCache).AnswersAgree where
  callDates id c hc := (hs.callDates id c hc).trans (Nat.le_succ _)
  answerDates date conId answer h := (hs.answerDates date conId answer h).trans (Nat.le_succ _)
  once := hs.once
  unfound := hs.unfound
  apart := hs.apart
  unanswered := hs.unanswered
  cached conId answer h :=
    absurd (hs.answerDates _ conId answer h) (Nat.not_succ_le_self s.today)
  agree := hs.agree

theorem FetchesOnce.midnight (hs : s.FetchesOnce) :
    ({ s with today := s.today + 1 } : CloseCache).FetchesOnce where
  fetchDates fetch h := (hs.fetchDates fetch h).trans (Nat.le_succ _)
  nodup := hs.nodup
  recorded _ h := absurd (hs.fetchDates _ h) (Nat.not_succ_le_self s.today)
  toFetch := hs.toFetch

/-- A call that has moved on answers what it did. -/
theorem answered_of_moved {id : ℕ} {c c' : CloseCall} {fetches : List (ℤ × ℕ)}
    (hget : s.calls.get? id = some c) (htoday : c'.today = c.today)
    (hcontracts : c'.contracts = c.contracts) (hmisses : c'.misses = c.misses)
    (hout : c'.out = c.out) {date : ℕ} {conId : ℤ} {answer : Option Python.Float}
    (h : ({ s with calls := s.calls.insert id c', fetches := fetches } : CloseCache).Answered
      date conId answer) : s.Answered date conId answer := by
  rcases h with hknown | hreturned | ⟨id', d, hd, hdate, hcontract, hmiss, hanswer⟩
  · exact Or.inl hknown
  · exact Or.inr (Or.inl hreturned)
  · rw [OrderedDict.get?_insert] at hd
    split at hd
    next =>
      obtain rfl := Option.some.inj hd
      rw [htoday] at hdate
      rw [hcontracts] at hcontract
      rw [hmisses] at hmiss
      rw [hout] at hanswer
      exact Or.inr (Or.inr ⟨id, c, hget, hdate, hcontract, hmiss, hanswer⟩)
    next => exact Or.inr (Or.inr ⟨id', d, hd, hdate, hcontract, hmiss, hanswer⟩)

/-- The answers of a call that begins are in the caches. -/
theorem known_of_lookUp {contracts : List ℤ} {conId : ℤ} (hmem : conId ∈ contracts)
    (hcached : conId ∉ (s.lookUp contracts).2) :
    s.known s.today conId = some ((s.lookUp contracts).1.get? conId) := by
  rw [get?_lookUp s hmem]
  rw [misses_lookUp, List.mem_filter, not_and, decide_eq_true_eq] at hcached
  cases hknown : s.known s.today conId with
  | none => exact absurd hknown (hcached hmem)
  | some answer => rfl

theorem answered_of_beginCall {id : ℕ} {contracts : List ℤ} {date : ℕ} {conId : ℤ}
    {answer : Option Python.Float} (h : (s.beginCall id contracts).Answered date conId answer) :
    s.Answered date conId answer := by
  unfold beginCall at h
  dsimp only at h
  split at h
  next hnone =>
    rcases h with hknown | ⟨r, hr, hdate, hcontract, hanswer⟩ | hcall
    · exact Or.inl hknown
    · rcases List.mem_cons.mp hr with rfl | hr
      · obtain rfl : s.today = date := hdate
        rw [← hanswer]
        exact Or.inl (known_of_lookUp hcontract (hnone ▸ List.not_mem_nil))
      · exact Or.inr (Or.inl ⟨r, hr, hdate, hcontract, hanswer⟩)
    · exact Or.inr (Or.inr hcall)
  next =>
    rcases h with hknown | hreturned | ⟨id', c, hc, hdate, hcontract, hmiss, hanswer⟩
    · exact Or.inl hknown
    · exact Or.inr (Or.inl hreturned)
    · rw [OrderedDict.get?_insert] at hc
      split at hc
      next =>
        obtain rfl := Option.some.inj hc
        obtain rfl : s.today = date := hdate
        rw [← hanswer]
        exact Or.inl (known_of_lookUp hcontract hmiss)
      next => exact Or.inr (Or.inr ⟨id', c, hc, hdate, hcontract, hmiss, hanswer⟩)

/-- The call that a beginning leaves in flight. -/
def newCall (s : CloseCache) (contracts : List ℤ) : CloseCall :=
  ⟨s.today, contracts, (s.lookUp contracts).1, (s.lookUp contracts).2, 0, false⟩

theorem get?_beginCall {id id' : ℕ} {contracts : List ℤ} {c : CloseCall}
    (h : (s.beginCall id contracts).calls.get? id' = some c) :
    s.calls.get? id' = some c ∨ id' = id ∧ c = s.newCall contracts := by
  unfold beginCall at h
  dsimp only at h
  split at h
  next => exact Or.inl h
  next =>
    rw [OrderedDict.get?_insert] at h
    split at h
    next hid => exact Or.inr ⟨hid, (Option.some.inj h).symm⟩
    next => exact Or.inl h

theorem today_beginCall (s : CloseCache) (id : ℕ) (contracts : List ℤ) :
    (s.beginCall id contracts).today = s.today := by
  unfold beginCall
  dsimp only
  split
  next => rfl
  next => rfl

theorem known_beginCall (s : CloseCache) (id : ℕ) (contracts : List ℤ) (date : ℕ) (conId : ℤ) :
    (s.beginCall id contracts).known date conId = s.known date conId := by
  unfold beginCall
  dsimp only
  split
  next => rfl
  next => rfl

theorem fetches_beginCall (s : CloseCache) (id : ℕ) (contracts : List ℤ) :
    (s.beginCall id contracts).fetches = s.fetches := by
  unfold beginCall
  dsimp only
  split
  next => rfl
  next => rfl

/-- The guard of a call, over the calls in flight. -/
theorem newCall_apart {id : ℕ} {contracts : List ℤ} (hguard : s.KeepsRecord (.call id contracts))
    {id' : ℕ} {c : CloseCall} (hc : s.Pending id' c) (hdate : c.today = s.today) {conId : ℤ}
    (hmem : conId ∈ (s.newCall contracts).misses) : conId ∉ c.misses := by
  rw [newCall, misses_lookUp, List.mem_filter, decide_eq_true_eq] at hmem
  exact hguard.2 _ (OrderedDict.get?_eq_some_iff.mp hc.1) hc.2 hdate conId hmem.1 hmem.2

theorem known_of_mem_newCall {contracts : List ℤ} {conId : ℤ}
    (hmem : conId ∈ (s.newCall contracts).misses) : s.known s.today conId = none := by
  rw [newCall, misses_lookUp, List.mem_filter, decide_eq_true_eq] at hmem
  exact hmem.2

theorem AnswersAgree.beginCall (hs : s.AnswersAgree) {id : ℕ} {contracts : List ℤ}
    (hguard : s.KeepsRecord (.call id contracts)) :
    (s.beginCall id contracts).AnswersAgree := by
  have hpending : ∀ {id' c}, (s.beginCall id contracts).Pending id' c →
      s.Pending id' c ∨ id' = id ∧ c = s.newCall contracts := by
    rintro id' c ⟨hget, hfailed⟩
    exact (get?_beginCall hget).imp_left fun hold => ⟨hold, hfailed⟩
  have hdate : ∀ date conId answer, (s.beginCall id contracts).Answered date conId answer →
      date ≤ s.today := fun _ _ _ h => hs.answerDates _ _ _ (answered_of_beginCall h)
  refine ⟨?_, ?_, ?_, ?_, ?_, ?_, ?_, ?_⟩
  · intro id' c hget
    rw [today_beginCall]
    rcases get?_beginCall hget with hold | ⟨-, rfl⟩
    · exact hs.callDates id' c hold
    · exact le_rfl
  · rw [today_beginCall]
    exact hdate
  · intro id' c hc
    rcases hpending hc with hold | ⟨-, rfl⟩
    · exact hs.once id' c hold
    · rw [newCall, misses_lookUp]
      exact hguard.1
  · intro id' c hc conId hmem
    rcases hpending hc with hold | ⟨-, rfl⟩
    · exact hs.unfound id' c hold conId hmem
    · have hknown := known_of_mem_newCall hmem
      rw [newCall, misses_lookUp] at hmem
      rw [newCall, get?_lookUp s (List.mem_of_mem_filter hmem), hknown]
      rfl
  · intro id' c id'' d hc hd hne hsame conId hmem
    rcases hpending hc with hold | ⟨rfl, rfl⟩
    · rcases hpending hd with hold' | ⟨-, rfl⟩
      · exact hs.apart id' c id'' d hold hold' hne hsame conId hmem
      · exact fun hnew => newCall_apart hguard hold hsame hnew hmem
    · rcases hpending hd with hold | ⟨rfl, -⟩
      · exact newCall_apart hguard hold hsame.symm hmem
      · exact absurd rfl hne
  · intro id' c hc conId hmem answer h
    rcases hpending hc with hc | ⟨rfl, rfl⟩
    · exact hs.unanswered id' c hc conId hmem answer (answered_of_beginCall h)
    · have hknown := hs.cached conId answer (answered_of_beginCall h)
      rw [known_of_mem_newCall hmem] at hknown
      cases hknown
  · intro conId answer h
    rw [today_beginCall] at h ⊢
    rw [known_beginCall]
    exact hs.cached conId answer (answered_of_beginCall h)
  · intro date conId answer answer' h h'
    exact hs.agree date conId answer answer' (answered_of_beginCall h) (answered_of_beginCall h')

theorem FetchesOnce.beginCall (hs : s.FetchesOnce) {id : ℕ} {contracts : List ℤ}
    (hnew : s.calls.get? id = none) (hguard : s.KeepsRecord (.call id contracts)) :
    (s.beginCall id contracts).FetchesOnce := by
  refine ⟨?_, ?_, ?_, ?_⟩
  · rw [today_beginCall, fetches_beginCall]
    exact hs.fetchDates
  · rw [fetches_beginCall]
    exact hs.nodup
  · rw [today_beginCall, fetches_beginCall]
    intro conId hmem
    rw [known_beginCall]
    refine (hs.recorded conId hmem).imp_right ?_
    rintro ⟨id', c, ⟨hget, hfailed⟩, hdate, hsent⟩
    refine ⟨id', c, ⟨?_, hfailed⟩, hdate, hsent⟩
    have hne : id' ≠ id := by
      rintro rfl
      rw [hnew] at hget
      cases hget
    unfold CloseCache.beginCall
    dsimp only
    split
    next => exact hget
    next => exact (OrderedDict.get?_insert_of_ne _ _ hne).trans hget
  · rw [fetches_beginCall]
    rintro id' c ⟨hget, hfailed⟩ conId hmem
    rcases get?_beginCall hget with hold | ⟨-, rfl⟩
    · exact hs.toFetch id' c ⟨hold, hfailed⟩ conId hmem
    · intro hsent
      have hmem : conId ∈ (s.newCall contracts).misses := hmem
      rcases hs.recorded conId hsent with hknown | ⟨id'', d, hd, hdate, hsent⟩
      · exact hknown (known_of_mem_newCall hmem)
      · exact newCall_apart hguard hd hdate hmem (List.mem_of_mem_take hsent)

/-- A call that sends a fetch is pending, and it has the contract to send. -/
theorem drop_fetched {c : CloseCall} {conId : ℤ} (h : c.misses[c.fetched]? = some conId) :
    c.misses.drop c.fetched = conId :: c.misses.drop (c.fetched + 1) ∧
      c.misses.take (c.fetched + 1) = c.misses.take c.fetched ++ [conId] := by
  obtain ⟨hlt, hget⟩ := List.getElem?_eq_some_iff.mp h
  refine ⟨?_, ?_⟩
  · rw [← hget]
    exact List.drop_eq_getElem_cons hlt
  · rw [← hget]
    exact List.take_succ_eq_append_getElem hlt

theorem AnswersAgree.moved (hs : s.AnswersAgree) {id : ℕ} {c c' : CloseCall}
    {fetches : List (ℤ × ℕ)} (hget : s.calls.get? id = some c) (htoday : c'.today = c.today)
    (hcontracts : c'.contracts = c.contracts) (hmisses : c'.misses = c.misses)
    (hout : c'.out = c.out) (hfailed : c'.failed = false → c.failed = false) :
    ({ s with calls := s.calls.insert id c', fetches := fetches } : CloseCache).AnswersAgree := by
  refine hs.mono rfl (fun _ => rfl)
    (fun _ _ _ => answered_of_moved hget htoday hcontracts hmisses hout) fun id' d hd => ?_
  rw [OrderedDict.get?_insert] at hd
  split at hd
  next hid =>
    subst hid
    obtain rfl := Option.some.inj hd
    exact ⟨c, hget, htoday, hmisses, hout, hfailed⟩
  next => exact ⟨d, hd, rfl, rfl, rfl, fun h => h⟩

theorem FetchesOnce.fetch (hs : s.FetchesOnce) (ha : s.AnswersAgree) {id : ℕ} {c : CloseCall}
    (hc : s.Pending id c) (hdate : c.today = s.today) {conId : ℤ}
    (hnext : c.misses[c.fetched]? = some conId) :
    ({ s with
        calls := s.calls.insert id { c with fetched := c.fetched + 1 }
        fetches := (conId, s.today) :: s.fetches } : CloseCache).FetchesOnce := by
  obtain ⟨hdrop, htake⟩ := drop_fetched hnext
  have hmiss : conId ∈ c.misses := List.mem_of_getElem? hnext
  have hunsent : (conId, s.today) ∉ s.fetches := by
    rw [← hdate]
    exact hs.toFetch id c hc conId (hdrop ▸ List.mem_cons_self)
  refine ⟨?_, ?_, ?_, ?_⟩
  · exact List.forall_mem_cons.mpr ⟨le_rfl, hs.fetchDates⟩
  · exact List.nodup_cons.mpr ⟨hunsent, hs.nodup⟩
  · intro other hother
    rcases List.mem_cons.mp hother with heq | hold
    · obtain ⟨rfl, -⟩ := Prod.mk.inj heq
      refine Or.inr ⟨id, _, ⟨OrderedDict.get?_insert_self .., hc.2⟩, hdate, ?_⟩
      rw [htake]
      exact List.mem_append_right _ List.mem_cons_self
    · refine (hs.recorded other hold).imp_right ?_
      rintro ⟨id', d, hd, hsame, hsent⟩
      by_cases hid : id' = id
      · subst hid
        obtain rfl := Option.some.inj (hd.1.symm.trans hc.1)
        refine ⟨id', _, ⟨OrderedDict.get?_insert_self .., hc.2⟩, hdate, ?_⟩
        rw [htake]
        exact List.mem_append_left _ hsent
      · exact ⟨id', d, ⟨(OrderedDict.get?_insert_of_ne _ _ hid).trans hd.1, hd.2⟩, hsame, hsent⟩
  · rintro id' d ⟨hget, hfailed⟩ other hother hsent
    rw [OrderedDict.get?_insert] at hget
    split at hget
    next hid =>
      obtain rfl := Option.some.inj hget
      have hrest : other ∈ c.misses.drop (c.fetched + 1) := hother
      rcases List.mem_cons.mp hsent with heq | hold
      · obtain ⟨rfl, -⟩ := Prod.mk.inj heq
        have hnodup := (ha.once id c hc).sublist (List.drop_sublist c.fetched c.misses)
        rw [hdrop] at hnodup
        exact (List.nodup_cons.mp hnodup).1 hrest
      · exact hs.toFetch id c hc other (hdrop ▸ List.mem_cons_of_mem _ hrest) hold
    next hid =>
      rcases List.mem_cons.mp hsent with heq | hold
      · obtain ⟨rfl, hsame⟩ := Prod.mk.inj heq
        exact ha.apart id c id' d hc ⟨hget, hfailed⟩ (Ne.symm hid) (hdate.trans hsame.symm) other
          hmiss (List.mem_of_mem_drop hother)
      · exact hs.toFetch id' d ⟨hget, hfailed⟩ other hother hold

theorem FetchesOnce.fail (hs : s.FetchesOnce) {id : ℕ} {c : CloseCall}
    (hget : s.calls.get? id = some c) (hguard : c.fetched = 0 ∨ c.today ≠ s.today) :
    ({ s with calls := s.calls.insert id { c with failed := true } } :
      CloseCache).FetchesOnce := by
  refine ⟨hs.fetchDates, hs.nodup, ?_, ?_⟩
  · intro conId hsent
    refine (hs.recorded conId hsent).imp_right ?_
    rintro ⟨id', d, hd, hdate, htaken⟩
    have hid : id' ≠ id := by
      rintro rfl
      obtain rfl := Option.some.inj (hd.1.symm.trans hget)
      rcases hguard with hnone | hne
      · rw [hnone] at htaken
        exact List.not_mem_nil htaken
      · exact hne hdate
    exact ⟨id', d, ⟨(OrderedDict.get?_insert_of_ne _ _ hid).trans hd.1, hd.2⟩, hdate, htaken⟩
  · rintro id' d ⟨hget', hfailed⟩ conId hmem
    rw [OrderedDict.get?_insert] at hget'
    split at hget'
    next =>
      obtain rfl := Option.some.inj hget'
      cases hfailed
    next => exact hs.toFetch id' d ⟨hget', hfailed⟩ conId hmem

/-- The calls behind one that has finished. -/
theorem get?_calls_finishCall {id : ℕ} {c : CloseCall} {fresh : OrderedDict ℤ Python.Float}
    {id' : ℕ} {d : CloseCall} :
    (s.finishCall id c fresh).calls.get? id' = some d ↔ id' ≠ id ∧ s.calls.get? id' = some d := by
  rw [finishCall, OrderedDict.get?_filterKeys]
  by_cases hid : id' = id
  · simp [hid]
  · simp [hid]

/-- What the caches know of today stays known. -/
theorem known_today_finishCall {id : ℕ} {c : CloseCall} {results : List (Option Python.Float)}
    (ha : s.AnswersAgree) (hc : s.Pending id c) (hguard : s.KeepsRecord (.finish id results))
    {conId : ℤ} {answer : Option Python.Float} (h : s.known s.today conId = some answer) :
    (s.finishCall id c (freshCloses c.misses results)).known s.today conId = some answer := by
  by_cases hmem : conId ∈ c.misses
  · by_cases hdate : c.today = s.today
    · rw [← hdate] at h
      exact absurd (Or.inl h) (ha.unanswered id c hc conId hmem answer)
    · rcases hguard c hc.1 hdate conId hmem with hnone | ⟨hhit, hfresh⟩
      · rw [hnone] at h
        cases h
      · exact known_finishCall_of_hit id hfresh hhit h
  · rw [known_finishCall_of_notMem id hmem (get?_freshCloses_of_notMem hmem results)]
    exact h

theorem FetchesOnce.finishCall (hs : s.FetchesOnce) (ha : s.AnswersAgree) {id : ℕ} {c : CloseCall}
    {results : List (Option Python.Float)} (hc : s.Pending id c)
    (hguard : s.KeepsRecord (.finish id results)) :
    (s.finishCall id c (freshCloses c.misses results)).FetchesOnce := by
  refine ⟨hs.fetchDates, hs.nodup, ?_, ?_⟩
  · intro conId hsent
    rcases hs.recorded conId hsent with hknown | ⟨id', d, hd, hdate, htaken⟩
    · obtain ⟨answer, hanswer⟩ := Option.ne_none_iff_exists'.mp hknown
      refine Or.inl ?_
      have hkept := known_today_finishCall ha hc hguard hanswer
      exact hkept.trans_ne (Option.some_ne_none answer)
    · by_cases hid : id' = id
      · subst hid
        obtain rfl := Option.some.inj (hd.1.symm.trans hc.1)
        have hmem := List.mem_of_mem_take htaken
        have hstored := known_finishCall id' (freshCloses d.misses results) hmem
          (ha.known_eq_none hd hmem)
        rw [hdate] at hstored
        exact Or.inl (hstored.trans_ne (Option.some_ne_none _))
      · exact Or.inr ⟨id', d, ⟨get?_calls_finishCall.mpr ⟨hid, hd.1⟩, hd.2⟩, hdate, htaken⟩
  · rintro id' d ⟨hget, hfailed⟩ conId hmem
    exact hs.toFetch id' d ⟨(get?_calls_finishCall.mp hget).2, hfailed⟩ conId hmem

/-- A finished call gives the answers of its fetch, under its date, and no other new one. -/
theorem answered_of_finishCall {id : ℕ} {c : CloseCall} {results : List (Option Python.Float)}
    (ha : s.AnswersAgree) (hc : s.Pending id c) {date : ℕ} {conId : ℤ}
    {answer : Option Python.Float}
    (h : (s.finishCall id c (freshCloses c.misses results)).Answered date conId answer) :
    s.Answered date conId answer ∨ date = c.today ∧ conId ∈ c.misses ∧
      answer = (freshCloses c.misses results).get? conId := by
  rcases h with hknown | ⟨r, hr, hdate, hcontract, hanswer⟩ | ⟨id', d, hd, hrest⟩
  · by_cases hmem : conId ∈ c.misses
    · by_cases hdate : date = c.today
      · rw [hdate, known_finishCall id _ hmem (ha.known_eq_none hc hmem)] at hknown
        exact Or.inr ⟨hdate, hmem, (Option.some.inj hknown).symm⟩
      · exact Or.inl (Or.inl (known_of_known_finishCall hdate hknown))
    · rw [known_finishCall_of_notMem id hmem (get?_freshCloses_of_notMem hmem results)] at hknown
      exact Or.inl (Or.inl hknown)
  · rcases List.mem_cons.mp hr with rfl | hr
    · have hout : (c.out.update (freshCloses c.misses results).entries).get? conId = answer :=
        hanswer
      rw [OrderedDict.get?_update, OrderedDict.lookup_reverse_entries] at hout
      by_cases hmem : conId ∈ c.misses
      · rw [ha.unfound id c hc conId hmem, Option.or_none] at hout
        exact Or.inr ⟨hdate.symm, hmem, hout.symm⟩
      · rw [get?_freshCloses_of_notMem hmem, Option.none_or] at hout
        exact Or.inl (Or.inr (Or.inr ⟨id, c, hc.1, hdate, hcontract, hmem, hout⟩))
    · exact Or.inl (Or.inr (Or.inl ⟨r, hr, hdate, hcontract, hanswer⟩))
  · exact Or.inl (Or.inr (Or.inr ⟨id', d, (get?_calls_finishCall.mp hd).2, hrest⟩))

theorem AnswersAgree.finishCall (ha : s.AnswersAgree) {id : ℕ} {c : CloseCall}
    {results : List (Option Python.Float)} (hc : s.Pending id c)
    (hguard : s.KeepsRecord (.finish id results)) :
    (s.finishCall id c (freshCloses c.misses results)).AnswersAgree := by
  have hpending : ∀ {id' d}, (s.finishCall id c (freshCloses c.misses results)).Pending id' d →
      id' ≠ id ∧ s.Pending id' d := by
    rintro id' d ⟨hget, hfailed⟩
    obtain ⟨hid, hold⟩ := get?_calls_finishCall.mp hget
    exact ⟨hid, hold, hfailed⟩
  refine ⟨?_, ?_, ?_, ?_, ?_, ?_, ?_, ?_⟩
  · exact fun id' d hget => ha.callDates id' d (get?_calls_finishCall.mp hget).2
  · intro date conId answer h
    rcases answered_of_finishCall ha hc h with hold | ⟨rfl, -, -⟩
    · exact ha.answerDates date conId answer hold
    · exact ha.callDates id c hc.1
  · exact fun id' d hd => ha.once id' d (hpending hd).2
  · exact fun id' d hd => ha.unfound id' d (hpending hd).2
  · exact fun id' d id'' d' hd hd' => ha.apart id' d id'' d' (hpending hd).2 (hpending hd').2
  · intro id' d hd conId hmem answer h
    obtain ⟨hid, hold⟩ := hpending hd
    rcases answered_of_finishCall ha hc h with hanswered | ⟨hdate, hmiss, -⟩
    · exact ha.unanswered id' d hold conId hmem answer hanswered
    · exact ha.apart id' d id c hold hc hid hdate conId hmem hmiss
  · intro conId answer h
    rcases answered_of_finishCall ha hc h with hold | ⟨hdate, hmiss, rfl⟩
    · exact known_today_finishCall ha hc hguard (ha.cached conId answer hold)
    · have hstored := known_finishCall id (freshCloses c.misses results) hmiss
        (ha.known_eq_none hc hmiss)
      rw [← hdate] at hstored
      exact hstored
  · intro date conId answer answer' h h'
    rcases answered_of_finishCall ha hc h with hold | ⟨rfl, hmiss, rfl⟩
    · rcases answered_of_finishCall ha hc h' with hold' | ⟨rfl, hmiss, -⟩
      · exact ha.agree date conId answer answer' hold hold'
      · exact absurd hold (ha.unanswered id c hc conId hmiss answer)
    · rcases answered_of_finishCall ha hc h' with hold' | ⟨-, -, rfl⟩
      · exact absurd hold' (ha.unanswered id c hc conId hmiss answer')
      · rfl

theorem step_keeps {e : CloseEvent} (ha : s.AnswersAgree) (hf : s.FetchesOnce)
    (hguard : s.KeepsRecord e) (h : s.step e = some s') : s'.AnswersAgree ∧ s'.FetchesOnce := by
  cases e with
  | midnight =>
    obtain rfl := Option.some.inj h
    exact ⟨ha.midnight, hf.midnight⟩
  | call id contracts =>
    simp only [step] at h
    split at h
    next => cases h
    next hnew =>
      obtain rfl := Option.some.inj h
      exact ⟨ha.beginCall hguard, hf.beginCall hnew hguard⟩
  | fetch id =>
    simp only [step] at h
    split at h
    next c hget =>
      obtain ⟨hfailed, hdate⟩ := hguard c hget
      split at h
      next conId hnext =>
        obtain rfl := Option.some.inj h
        exact ⟨ha.moved hget rfl rfl rfl rfl fun h => h, hf.fetch ha ⟨hget, hfailed⟩ hdate hnext⟩
      next => cases h
    next => cases h
  | finish id results =>
    simp only [step] at h
    split at h
    next c hget =>
      split at h
      next hdone =>
        obtain rfl := Option.some.inj h
        exact ⟨ha.finishCall ⟨hget, hdone.1⟩ hguard, hf.finishCall ha ⟨hget, hdone.1⟩ hguard⟩
      next => cases h
    next => cases h
  | fail id =>
    simp only [step] at h
    split at h
    next c hget =>
      obtain rfl := Option.some.inj h
      exact ⟨ha.moved hget rfl rfl rfl rfl fun h => (Bool.noConfusion h), hf.fail hget (hguard c hget)⟩
    next => cases h

theorem init_answersAgree (today : ℕ) : (init today).AnswersAgree := by
  have hanswered : ∀ date conId answer, ¬ (init today).Answered date conId answer := by
    rintro date conId answer (hknown | ⟨r, hr, -⟩ | ⟨id, c, hget, -⟩)
    · cases hknown
    · cases hr
    · cases hget
  have hcalls : ∀ id c, (init today).calls.get? id ≠ some c := fun id c hget => by cases hget
  exact ⟨fun id c hget => absurd hget (hcalls id c), fun _ _ _ h => absurd h (hanswered _ _ _),
    fun id c hc => absurd hc.1 (hcalls id c), fun id c hc => absurd hc.1 (hcalls id c),
    fun id c _ _ hc => absurd hc.1 (hcalls id c), fun id c hc => absurd hc.1 (hcalls id c),
    fun _ _ h => absurd h (hanswered _ _ _), fun _ _ _ _ h => absurd h (hanswered _ _ _)⟩

theorem init_fetchesOnce (today : ℕ) : (init today).FetchesOnce where
  fetchDates := by simp [init]
  nodup := List.nodup_nil
  recorded := by simp [init]
  toFetch := by simp [Pending, init]

/-- In a run that keeps the record each contract is fetched at most once on a date, and all calls
of the date return what the fetch gave. -/
theorem fetched_once {today : ℕ} {s : CloseCache}
    (hrun : Reaches CloseCache.step CloseCache.KeepsRecord (CloseCache.init today) s) :
    s.FetchedOnce := by
  have hall : s.AnswersAgree ∧ s.FetchesOnce :=
    Reaches.invariant (I := fun s => s.AnswersAgree ∧ s.FetchesOnce)
      ⟨init_answersAgree today, init_fetchesOnce today⟩
      (fun _ _ _ hs hguard hstep => step_keeps hs.1 hs.2 hguard hstep) hrun
  refine ⟨hall.2.nodup, fun r hr r' hr' hdate conId hmem hmem' => ?_⟩
  exact hall.1.agree r.today conId _ _ (Or.inr (Or.inl ⟨r, hr, rfl, hmem, rfl⟩))
    (Or.inr (Or.inl ⟨r', hr', hdate.symm, hmem', rfl⟩))

/-- Two contracts are fetched, one of them in vain, and asked for again before midnight. -/
theorem second_call_is_cached :
    ∃ s, Reaches CloseCache.step CloseCache.KeepsRecord (CloseCache.init 0) s ∧
      s.fetches = [(2, 0), (1, 0)] ∧ s.returns.length = 2 ∧ s.FetchedOnce := by
  obtain ⟨s, hs, hp⟩ := Reaches.exists_of_execute CloseCache.step CloseCache.KeepsRecord
    (CloseCache.init 0)
    [.call 0 [1, 2], .fetch 0, .fetch 0, .finish 0 [some 1101, none], .call 0 [1, 2], .midnight]
    (fun s => s.fetches = [(2, 0), (1, 0)] ∧ s.returns.length = 2) (by decide +kernel)
  obtain ⟨hfetches, hreturns⟩ := of_decide_eq_true hp
  exact ⟨s, hs, hfetches, hreturns, fetched_once hs⟩

/-- A contract that two accounts hold goes out twice. -/
theorem shared_contract_is_fetched_twice :
    ¬ ∀ (today : ℕ) (s : CloseCache),
      Reaches CloseCache.step (fun _ _ => True) (CloseCache.init today) s → s.FetchedOnce := by
  intro hall
  obtain ⟨s, hs, hp⟩ := Reaches.exists_of_execute CloseCache.step (fun _ _ => True)
    (CloseCache.init 0) [.call 0 [1, 1], .fetch 0, .fetch 0]
    (fun s => s.fetches = [(1, 0), (1, 0)]) (by decide +kernel)
  have hnodup := (hall 0 s hs).1
  rw [of_decide_eq_true hp] at hnodup
  exact absurd hnodup (by decide)

end CloseCache

end PortfolioHub
