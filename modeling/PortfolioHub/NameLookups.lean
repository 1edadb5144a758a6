import PortfolioHub.CivilDates
import PortfolioHub.IbkrContracts
import PortfolioHub.OrderedDict
import PortfolioHub.SymbolForms
import PortfolioHub.Transition

namespace PortfolioHub

/-- `NAME_CACHE_TTL_DAYS`, in microseconds. -/
def nameCacheTtl : ℤ := 30 * 86400000000

/-- A row of `name_cache`, with its time as the text that is stored. -/
structure NameRow where
  entry : NameEntry
  updatedAt : String
deriving DecidableEq, Repr

/-- `get_name_cache`: the row of the key unless it was written before the cutoff. -/
def getNameCache (table : OrderedDict ℤ NameRow) (nativeKey : ℤ) (cutoff : String) :
    Option NameEntry :=
  ((table.get? nativeKey).filter fun row => cutoff ≤ row.updatedAt).map (·.entry)

/-- What a lookup has found of a contract: the details IB gave and what was made of them, at the
time its row is stamped with. -/
structure NameFetch where
  contract : Contract
  details : ContractDetails
  entry : NameEntry
  at' : Python.UtcDatetime

inductive LookupStage where
  /-- `get_name_cache` is awaited. -/
  | reading (cutoff : Python.UtcDatetime)
  /-- `reqContractDetailsAsync` is awaited. -/
  | requesting
  /-- `put_name_cache` is awaited. -/
  | writing (fetch : NameFetch)

/-- A call of `_resolve_name`, or of `_listing_exchange_for_contract` up to the details. -/
structure NameLookup where
  contract : Contract
  forName : Bool
  startedAt : Python.UtcDatetime
  stage : LookupStage

/-- What a call of `_resolve_name` has returned. -/
structure NameReturn where
  contract : Contract
  startedAt : Python.UtcDatetime
  result : Option ResolvedName

/-- The clock, the stored table, and of the process the IB session, the details cache and the calls
in flight; behind them a record of the replies, of what was made of them, and of the returns. -/
structure NameCache where
  now : Python.UtcDatetime
  table : OrderedDict ℤ NameRow
  hasIb : Bool
  details : OrderedDict ℤ ContractDetails
  calls : OrderedDict ℕ NameLookup
  replies : List (ℤ × ContractDetails)
  fetches : List NameFetch
  returns : List NameReturn

inductive NameEvent where
  /-- The clock is read anew; it may have been set back. -/
  | clock (now : Python.UtcDatetime)
  /-- The process ends, and another one opens the store. -/
  | restart
  | connect
  | disconnect
  | resolve (id : ℕ) (contract : Contract)
  | listing (id : ℕ) (contract : Contract)
  | read (id : ℕ)
  /-- `reqContractDetailsAsync` returns the first of its list, if it has one. -/
  | reply (id : ℕ) (details : Option ContractDetails)
  | write (id : ℕ)
  /-- What is awaited raises, or the call is cancelled. -/
  | fail (id : ℕ)

/-- A return gives a name that was fetched for its contract id: with the very contract of the call,
or by a fetch not older than the time to live when the call began. -/
def NameReturn.FetchedBy (r : NameReturn) (name : ResolvedName) (f : NameFetch) : Prop :=
  f.contract.conId = r.contract.conId ∧ f.entry.resolve = some name ∧
    (f.contract = r.contract ∨ r.startedAt.instant - nameCacheTtl ≤ f.at'.instant)

namespace NameCache

def init (now : Python.UtcDatetime) : NameCache := ⟨now, .empty, false, .empty, .empty, [], [], []⟩

def drop (s : NameCache) (id : ℕ) : NameCache := { s with calls := s.calls.filterKeys (· ≠ id) }

def finish (s : NameCache) (id : ℕ) (call : NameLookup) (result : Option ResolvedName) :
    NameCache :=
  { s.drop id with returns := ⟨call.contract, call.startedAt, result⟩ :: s.returns }

def await (s : NameCache) (id : ℕ) (call : NameLookup) (stage : LookupStage) : NameCache :=
  { s with calls := s.calls.insert id { call with stage := stage } }

/-- `_resolve_name` behind the details: a name that is complete goes into the store. -/
def useDetails (s : NameCache) (id : ℕ) (call : NameLookup) (details : ContractDetails) :
    NameCache :=
  if call.forName then
    match fetchContractDetails call.contract (some details) with
    | none => s.finish id call none
    | some entry =>
      match primaryExchangeFromCanonical entry.canonical with
      | none => s.finish id call none
      | some _ =>
        { s.await id call (.writing ⟨call.contract, details, entry, s.now⟩) with
          fetches := ⟨call.contract, details, entry, s.now⟩ :: s.fetches }
  else s.drop id

/-- `_contract_details_for_contract`, up to its request. -/
def lookUpDetails (s : NameCache) (id : ℕ) (call : NameLookup) : NameCache :=
  if s.hasIb then
    match s.details.get? call.contract.conId with
    | some details => s.useDetails id call details
    | none => s.await id call .requesting
  else if call.forName then s.finish id call none
  else s.drop id

/-- `resolve` of the resolver: the fetcher that it falls back to has no contract at hand, and
returns none. -/
def afterRead (s : NameCache) (id : ℕ) (call : NameLookup) (cached : Option NameEntry) :
    NameCache :=
  match cached with
  | some entry => s.finish id call entry.resolve
  | none => s.lookUpDetails id call

def step (s : NameCache) : NameEvent → Option NameCache
  | .clock now => some { s with now := now }
  | .restart => some { s with hasIb := false, details := .empty, calls := .empty }
  | .connect => some { s with hasIb := true }
  | .disconnect => some { s with hasIb := false }
  | .resolve id contract =>
    match s.calls.get? id, Python.UtcDatetime.ofInstant (s.now.instant - nameCacheTtl) with
    | none, some cutoff => some (s.await id ⟨contract, true, s.now, .reading cutoff⟩ (.reading cutoff))
    | _, _ => none
  | .listing id contract =>
    match s.calls.get? id with
    | none => some (s.lookUpDetails id ⟨contract, false, s.now, .requesting⟩)
    | some _ => none
  | .read id =>
    match s.calls.get? id with
    | some call =>
      match call.stage with
      | .reading cutoff =>
        some (s.afterRead id call (getNameCache s.table call.contract.conId cutoff.isoformat))
      | _ => none
    | none => none
  | .reply id found =>
    match s.calls.get? id with
    | some call =>
      match call.stage, found with
      | .requesting, some details => some (useDetails
        { s with
          details := s.details.insert call.contract.conId details
          replies := (call.contract.conId, details) :: s.replies } id call details)
      | .requesting, none => some (if call.forName then s.finish id call none else s.drop id)
      | _, _ => none
    | none => none
  | .write id =>
    match s.calls.get? id with
    | some call =>
      match call.stage with
      | .writing fetch => some (finish
        { s with
          table := s.table.insert call.contract.conId ⟨fetch.entry, fetch.at'.isoformat⟩ } id call
        fetch.entry.resolve)
      | _ => none
    | none => none
  | .fail id =>
    match s.calls.get? id with
    | some _ => some (s.drop id)
    | none => none

/-- Nothing is made of a contract but what IB has replied of it. -/
structure Sourced (s : NameCache) : Prop where
  details : ∀ conId found, s.details.get? conId = some found → (conId, found) ∈ s.replies
  fetches : ∀ f ∈ s.fetches, (f.contract.conId, f.details) ∈ s.replies ∧
    fetchContractDetails f.contract (some f.details) = some f.entry ∧ f.entry.resolve.isSome
  rows : ∀ conId row, s.table.get? conId = some row →
    ∃ f ∈ s.fetches, f.contract.conId = conId ∧ row = ⟨f.entry, f.at'.isoformat⟩
  reading : ∀ id call cutoff, s.calls.get? id = some call → call.stage = .reading cutoff →
    cutoff.instant = call.startedAt.instant - nameCacheTtl
  writing : ∀ id call f, s.calls.get? id = some call → call.stage = .writing f →
    f ∈ s.fetches ∧ f.contract = call.contract
  returns : ∀ r ∈ s.returns, ∀ name, r.result = some name → ∃ f ∈ s.fetches, r.FetchedBy name f

theorem sourced_init (now : Python.UtcDatetime) : (init now).Sourced where
  details := by simp [init]
  fetches := by simp [init]
  rows := by simp [init]
  reading := by simp [init]
  writing := by simp [init]
  returns := by simp [init]

variable {s : NameCache} {id : ℕ} {call : NameLookup}

theorem get?_calls_drop {j : ℕ} {found : NameLookup} (h : (s.drop id).calls.get? j = some found) :
    s.calls.get? j = some found := by
  rw [drop, OrderedDict.get?_filterKeys] at h
  split at h
  next => exact h
  next => cases h

theorem Sourced.drop (h : s.Sourced) (id : ℕ) : (s.drop id).Sourced where
  details := h.details
  fetches := h.fetches
  rows := h.rows
  reading j found cutoff hfound hstage := h.reading j found cutoff (get?_calls_drop hfound) hstage
  writing j found f hfound hstage := h.writing j found f (get?_calls_drop hfound) hstage
  returns := h.returns

theorem Sourced.finish (h : s.Sourced) {result : Option ResolvedName}
    (hresult : ∀ name, result = some name →
      ∃ f ∈ s.fetches, NameReturn.FetchedBy ⟨call.contract, call.startedAt, result⟩ name f) :
    (s.finish id call result).Sourced where
  details := h.details
  fetches := h.fetches
  rows := h.rows
  reading := (h.drop id).reading
  writing := (h.drop id).writing
  returns := by
    intro r hr name hname
    rcases List.mem_cons.mp hr with rfl | hr
    · exact hresult name hname
    · exact h.returns r hr name hname

theorem Sourced.finish_none (h : s.Sourced) : (s.finish id call none).Sourced :=
  h.finish fun _ hname => by cases hname

theorem Sourced.await (h : s.Sourced) {stage : LookupStage}
    (hreading : ∀ cutoff, stage = .reading cutoff →
      cutoff.instant = call.startedAt.instant - nameCacheTtl)
    (hwriting : ∀ f, stage = .writing f → f ∈ s.fetches ∧ f.contract = call.contract) :
    (s.await id call stage).Sourced where
  details := h.details
  fetches := h.fetches
  rows := h.rows
  reading := by
    intro j found cutoff hfound hstage
    rw [NameCache.await, OrderedDict.get?_insert] at hfound
    split at hfound
    next =>
      obtain rfl := Option.some.inj hfound
      exact hreading cutoff hstage
    next => exact h.reading j found cutoff hfound hstage
  writing := by
    intro j found f hfound hstage
    rw [NameCache.await, OrderedDict.get?_insert] at hfound
    split at hfound
    next =>
      obtain rfl := Option.some.inj hfound
      exact hwriting f hstage
    next => exact h.writing j found f hfound hstage
  returns := h.returns

/-- One more fetch that has a reply behind it. -/
theorem Sourced.fetch (h : s.Sourced) {f : NameFetch}
    (hreply : (f.contract.conId, f.details) ∈ s.replies)
    (hentry : fetchContractDetails f.contract (some f.details) = some f.entry)
    (hresolve : f.entry.resolve.isSome) : ({ s with fetches := f :: s.fetches }).Sourced where
  details := h.details
  fetches := List.forall_mem_cons.mpr ⟨⟨hreply, hentry, hresolve⟩, h.fetches⟩
  rows conId row hrow :=
    have ⟨g, hg, hrest⟩ := h.rows conId row hrow
    ⟨g, List.mem_cons_of_mem f hg, hrest⟩
  reading := h.reading
  writing j found g hfound hstage :=
    ⟨List.mem_cons_of_mem f (h.writing j found g hfound hstage).1,
      (h.writing j found g hfound hstage).2⟩
  returns r hr name hname :=
    have ⟨g, hg, hrest⟩ := h.returns r hr name hname
    ⟨g, List.mem_cons_of_mem f hg, hrest⟩

theorem Sourced.reply (h : s.Sourced) (conId : ℤ) (found : ContractDetails) :
    ({ s with
      details := s.details.insert conId found
      replies := (conId, found) :: s.replies }).Sourced where
  details := by
    intro j known hknown
    rw [OrderedDict.get?_insert] at hknown
    split at hknown
    next hj =>
      obtain rfl := Option.some.inj hknown
      rw [hj]
      exact List.mem_cons_self
    next => exact List.mem_cons_of_mem _ (h.details j known hknown)
  fetches f hf := ⟨List.mem_cons_of_mem _ (h.fetches f hf).1, (h.fetches f hf).2⟩
  rows := h.rows
  reading := h.reading
  writing := h.writing
  returns := h.returns

theorem Sourced.write (h : s.Sourced) {f : NameFetch} (hf : f ∈ s.fetches) {conId : ℤ}
    (hconId : f.contract.conId = conId) :
    ({ s with table := s.table.insert conId ⟨f.entry, f.at'.isoformat⟩ }).Sourced where
  details := h.details
  fetches := h.fetches
  rows := by
    intro j row hrow
    rw [OrderedDict.get?_insert] at hrow
    split at hrow
    next hj =>
      obtain rfl := Option.some.inj hrow
      exact ⟨f, hf, hconId.trans hj.symm, rfl⟩
    next => exact h.rows j row hrow
  reading := h.reading
  writing := h.writing
  returns := h.returns

theorem Sourced.useDetails (h : s.Sourced) {found : ContractDetails}
    (hreply : (call.contract.conId, found) ∈ s.replies) : (s.useDetails id call found).Sourced := by
  unfold NameCache.useDetails
  split
  next =>
    split
    next => exact h.finish_none
    next entry hentry =>
      split
      next => exact h.finish_none
      next exchange hexchange =>
        have hresolve : entry.resolve.isSome := by
          rw [NameEntry.resolve, hexchange]
          rfl
        have hfetch := h.fetch (f := ⟨call.contract, found, entry, s.now⟩) hreply hentry hresolve
        refine hfetch.await (fun cutoff hstage => by cases hstage) fun f hstage => ?_
        obtain rfl := LookupStage.writing.inj hstage
        exact ⟨List.mem_cons_self, rfl⟩
  next => exact h.drop id

theorem Sourced.lookUpDetails (h : s.Sourced) : (s.lookUpDetails id call).Sourced := by
  unfold NameCache.lookUpDetails
  split
  next =>
    split
    next found hfound => exact h.useDetails (h.details _ _ hfound)
    next => exact h.await (fun _ hstage => by cases hstage) fun _ hstage => by cases hstage
  next =>
    split
    next => exact h.finish_none
    next => exact h.drop id

/-- A row that is served was written after the cutoff, by a fetch of the contract id. -/
theorem Sourced.cached (h : s.Sourced) {cutoff : Python.UtcDatetime} {conId : ℤ}
    {entry : NameEntry} (hcached : getNameCache s.table conId cutoff.isoformat = some entry) :
    ∃ f ∈ s.fetches, f.contract.conId = conId ∧ f.entry = entry ∧
      cutoff.instant ≤ f.at'.instant := by
  obtain ⟨row, hrow, rfl⟩ := Option.map_eq_some_iff.mp hcached
  obtain ⟨hget, hfresh⟩ := Option.filter_eq_some_iff.mp hrow
  obtain ⟨f, hf, hconId, rfl⟩ := h.rows conId row hget
  refine ⟨f, hf, hconId, rfl, Python.UtcDatetime.isoformat_le_iff.mp ?_⟩
  simpa using hfresh

theorem Sourced.afterRead (h : s.Sourced) {cutoff : Python.UtcDatetime}
    (hcutoff : cutoff.instant = call.startedAt.instant - nameCacheTtl) :
    (s.afterRead id call (getNameCache s.table call.contract.conId cutoff.isoformat)).Sourced := by
  cases hcached : getNameCache s.table call.contract.conId cutoff.isoformat with
  | none => exact h.lookUpDetails
  | some entry =>
    obtain ⟨f, hf, hconId, hentry, hle⟩ := h.cached hcached
    refine h.finish fun name hname => ⟨f, hf, hconId, hentry ▸ hname, Or.inr ?_⟩
    rw [← hcutoff]
    exact hle

theorem Sourced.step {s' : NameCache} (h : s.Sourced) {e : NameEvent}
    (hstep : s.step e = some s') : s'.Sourced := by
  cases e with
  | clock now =>
    obtain rfl := Option.some.inj hstep
    exact ⟨h.details, h.fetches, h.rows, h.reading, h.writing, h.returns⟩
  | restart =>
    obtain rfl := Option.some.inj hstep
    exact ⟨by simp, h.fetches, h.rows, by simp, by simp, h.returns⟩
  | connect =>
    obtain rfl := Option.some.inj hstep
    exact ⟨h.details, h.fetches, h.rows, h.reading, h.writing, h.returns⟩
  | disconnect =>
    obtain rfl := Option.some.inj hstep
    exact ⟨h.details, h.fetches, h.rows, h.reading, h.writing, h.returns⟩
  | resolve id contract =>
    simp only [NameCache.step] at hstep
    split at hstep
    next cutoff _ hcutoff =>
      obtain rfl := Option.some.inj hstep
      refine h.await (fun cutoff' hstage => ?_) fun f hstage => by cases hstage
      obtain rfl := LookupStage.reading.inj hstage
      exact Python.UtcDatetime.instant_ofInstant hcutoff
    next => cases hstep
  | listing id contract =>
    simp only [NameCache.step] at hstep
    split at hstep
    next =>
      obtain rfl := Option.some.inj hstep
      exact h.lookUpDetails
    next => cases hstep
  | read id =>
    simp only [NameCache.step] at hstep
    split at hstep
    next call hcall =>
      split at hstep
      next cutoff hstage =>
        obtain rfl := Option.some.inj hstep
        exact h.afterRead (h.reading id call cutoff hcall hstage)
      next => cases hstep
    next => cases hstep
  | reply id found =>
    simp only [NameCache.step] at hstep
    split at hstep
    next call hcall =>
      split at hstep
      next details _ =>
        obtain rfl := Option.some.inj hstep
        exact (h.reply call.contract.conId details).useDetails List.mem_cons_self
      next =>
        obtain rfl := Option.some.inj hstep
        split
        next => exact h.finish_none
        next => exact h.drop id
      next => cases hstep
    next => cases hstep
  | write id =>
    simp only [NameCache.step] at hstep
    split at hstep
    next call hcall =>
      split at hstep
      next f hstage =>
        obtain rfl := Option.some.inj hstep
        obtain ⟨hf, hcontract⟩ := h.writing id call f hcall hstage
        refine (h.write hf (congrArg Contract.conId hcontract)).finish fun name hname => ?_
        exact ⟨f, hf, congrArg Contract.conId hcontract, hname, Or.inl hcontract⟩
      next => cases hstep
    next => cases hstep
  | fail id =>
    simp only [NameCache.step] at hstep
    split at hstep
    next =>
      obtain rfl := Option.some.inj hstep
      exact h.drop id
    next => cases hstep

/-- In every run, however its lookups overlap and whatever the clock does: a name that is returned
was made of details that IB gave for the contract id. It is the name of the contract as it is now,
or one that was stored at most thirty days before. And a stored row can always be served. -/
theorem returned_name_fetched (now : Python.UtcDatetime) {s : NameCache}
    (h : Reaches step (fun _ _ => True) (init now) s) :
    (∀ r ∈ s.returns, ∀ name, r.result = some name → ∃ f ∈ s.fetches,
      (r.contract.conId, f.details) ∈ s.replies ∧
        (fetchContractDetails f.contract (some f.details)).bind NameEntry.resolve = some name ∧
        (f.contract = r.contract ∧ (∃ suffix, name.canonical = r.contract.symbol ++ "." ++ suffix) ∨
          r.startedAt.instant - nameCacheTtl ≤ f.at'.instant)) ∧
      ∀ conId row, s.table.get? conId = some row → ∃ name, row.entry.resolve = some name := by
  have hs : s.Sourced := h.invariant (sourced_init now) fun _ _ _ hi _ he => hi.step he
  refine ⟨fun r hr name hname => ?_, fun conId row hrow => ?_⟩
  · obtain ⟨f, hf, hconId, hresolve, hage⟩ := hs.returns r hr name hname
    obtain ⟨hreply, hentry, -⟩ := hs.fetches f hf
    refine ⟨f, hf, hconId ▸ hreply, by rw [hentry]; exact hresolve, ?_⟩
    rcases hage with hsame | hfresh
    · refine Or.inl ⟨hsame, ?_⟩
      obtain ⟨suffix, hsuffix⟩ := fetched_name_agrees hentry f.entry rfl
      obtain ⟨stem, suffix', hsplit, -, hcanonical⟩ := resolve_suffix hresolve
      rw [hsuffix] at hsplit
      obtain ⟨rfl, rfl⟩ := Prod.mk.inj (Option.some.inj hsplit)
      exact ⟨suffix, hsame ▸ hcanonical⟩
    · exact Or.inr hfresh
  · obtain ⟨f, hf, -, rfl⟩ := hs.rows conId row hrow
    exact Option.isSome_iff_exists.mp (hs.fetches f hf).2.2

/-- A company that is renamed keeps its old name for the thirty days; IB is not asked again. -/
theorem renamed_contract_is_cached :
    ∃ s, Reaches step (fun _ _ => True) (init ⟨2026, 5, 17, 8, 0, 0, 0, by decide, by decide,
        by decide, by decide⟩) s ∧
      s.returns.map (fun r => (r.contract.symbol, r.result.map (·.canonical))) =
        [("META", some "META.US"), ("META", some "FB.US"), ("FB", some "FB.US")] ∧
      ∀ r ∈ s.returns, ∀ name, r.result = some name → ∃ f ∈ s.fetches,
        (r.contract.conId, f.details) ∈ s.replies ∧
          (fetchContractDetails f.contract (some f.details)).bind NameEntry.resolve = some name ∧
          (f.contract = r.contract ∧
              (∃ suffix, name.canonical = r.contract.symbol ++ "." ++ suffix) ∨
            r.startedAt.instant - nameCacheTtl ≤ f.at'.instant) := by
  obtain ⟨s, hs, hp⟩ := Reaches.exists_of_execute step (fun _ _ => True)
    (init ⟨2026, 5, 17, 8, 0, 0, 0, by decide, by decide, by decide, by decide⟩)
    [.connect, .resolve 0 ⟨1, "FB", "STK", "NASDAQ", "SMART", "USD"⟩, .read 0,
      .reply 0 (some ⟨"NASDAQ", "SMART", " Facebook Inc ", 1⟩), .write 0,
      .resolve 1 ⟨1, "META", "STK", "NASDAQ", "SMART", "USD"⟩, .read 1,
      .clock ⟨2026, 6, 17, 8, 0, 0, 0, by decide, by decide, by decide, by decide⟩,
      .resolve 2 ⟨1, "META", "STK", "NASDAQ", "SMART", "USD"⟩, .read 2, .write 2]
    (fun s => s.returns.map (fun r => (r.contract.symbol, r.result.map (·.canonical))) =
      [("META", some "META.US"), ("META", some "FB.US"), ("FB", some "FB.US")])
    (by decide +kernel)
  exact ⟨s, hs, of_decide_eq_true hp, (returned_name_fetched _ hs).1⟩

end NameCache

end PortfolioHub
