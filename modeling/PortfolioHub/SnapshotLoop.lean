import PortfolioHub.EquitySnapshot
import PortfolioHub.SessionCalendar
import PortfolioHub.Transition

namespace PortfolioHub

/-- `_DEFAULT_EMPTY_RECHECK`. -/
def defaultEmptyRecheck : ℤ := 5 * 60 * second

/-- `_EMPTY_RECHECK_CAP`. -/
def emptyRecheckCap : ℤ := 60 * 60 * second

/-- The set of the exchanges of the stock rows. -/
def stockExchanges (positions : List Position) : List String :=
  ((positions.filter fun p => p.assetClass = .stk ∧ p.exchange ≠ "").map (·.exchange)).dedup

/-- One exchange against the soonest close so far; a later one does not displace an equal one. -/
def soonerClose (calendars : String → ExchangeCalendar) (now : Instant)
    (soonest : Option (String × Instant)) (ibEx : String) : Option (String × Instant) :=
  match nextCloseAt calendars now ibEx with
  | none => soonest
  | some close =>
    match soonest with
    | none => some (ibEx, close)
    | some best => if close < best.2 then some (ibEx, close) else some best

/-- `_next_close_across_held_exchanges`, over the set in the order it is iterated in. -/
def nextCloseAcrossHeldExchanges (calendars : String → ExchangeCalendar) (now : Instant)
    (exchanges : List String) : Option (String × Instant) :=
  exchanges.foldl (soonerClose calendars now) none

/-- `scheduled_snapshot_loop` as `get_positions` comes back to it. -/
structure SnapshotLoop where
  now : Instant
  positions : Except Python.Error (List Position)
  emptyDelay : ℤ
  table : EquityTable

/-- What a pass of the loop meets: the order of the set, the summaries at the close, the
positions at the next look, and how long the two take. -/
structure Pass where
  exchanges : List String
  summaries : Except Python.Error (List AccountSummary)
  captureTime : ℤ
  positions : Except Python.Error (List Position)
  fetchTime : ℤ

namespace SnapshotLoop

/-- The loop at its first look. -/
def init (emptyRecheck : ℤ) (now : Instant) (positions : Except Python.Error (List Position))
    (table : EquityTable) : SnapshotLoop :=
  ⟨now, positions, emptyRecheck, table⟩

/-- A failed `get_positions` counts as no positions. -/
def held (s : SnapshotLoop) : List String := stockExchanges (s.positions.toOption.getD [])

/-- One pass, from a look at the positions to the next; sleeps end on time. -/
def step (calendars : String → ExchangeCalendar) (emptyRecheck : ℤ) (s : SnapshotLoop)
    (pass : Pass) : Option SnapshotLoop :=
  if pass.exchanges.Perm s.held ∧ 0 ≤ pass.captureTime ∧ 0 ≤ pass.fetchTime then
    match nextCloseAcrossHeldExchanges calendars s.now pass.exchanges with
    | none => some
      { now := s.now + s.emptyDelay + pass.fetchTime
        positions := pass.positions
        emptyDelay := min (s.emptyDelay * 2) emptyRecheckCap
        table := s.table }
    | some (ibEx, closeAt) => some
      { now := s.now + max 0 (closeAt - s.now) + pass.captureTime + second + pass.fetchTime
        positions := pass.positions
        emptyDelay := emptyRecheck
        table := (captureSnapshot pass.summaries ibEx closeAt s.table).1 }
  else none

end SnapshotLoop

theorem soonerClose_cases (calendars : String → ExchangeCalendar) (now : Instant)
    (soonest : Option (String × Instant)) (ibEx : String) :
    soonerClose calendars now soonest ibEx = soonest ∧
        (∀ c, nextCloseAt calendars now ibEx = some c → ∃ best, soonest = some best ∧ best.2 ≤ c) ∨
      ∃ c, nextCloseAt calendars now ibEx = some c ∧
        soonerClose calendars now soonest ibEx = some (ibEx, c) ∧
          ∀ best, soonest = some best → c ≤ best.2 := by
  unfold soonerClose
  cases hnext : nextCloseAt calendars now ibEx with
  | none => exact Or.inl ⟨rfl, by simp⟩
  | some close =>
    cases soonest with
    | none => exact Or.inr ⟨close, rfl, rfl, by simp⟩
    | some best =>
      dsimp only
      split
      next hlt =>
        refine Or.inr ⟨close, rfl, rfl, ?_⟩
        rintro best' hbest
        obtain rfl := Option.some.inj hbest
        exact hlt.le
      next hlt =>
        refine Or.inl ⟨rfl, ?_⟩
        rintro c hc
        obtain rfl := Option.some.inj hc
        exact ⟨best, rfl, not_lt.mp hlt⟩

/-- The soonest close is a next close of one of the exchanges, or the one to start with, and no
next close is before it. -/
theorem foldl_soonerClose (calendars : String → ExchangeCalendar) (now : Instant)
    (exchanges : List String) (soonest : Option (String × Instant)) :
    (exchanges.foldl (soonerClose calendars now) soonest = soonest ∨
      ∃ ibEx ∈ exchanges, ∃ c, nextCloseAt calendars now ibEx = some c ∧
        exchanges.foldl (soonerClose calendars now) soonest = some (ibEx, c)) ∧
    (∀ best, soonest = some best →
      ∃ first, exchanges.foldl (soonerClose calendars now) soonest = some first ∧
        first.2 ≤ best.2) ∧
    ∀ ibEx ∈ exchanges, ∀ c, nextCloseAt calendars now ibEx = some c →
      ∃ first, exchanges.foldl (soonerClose calendars now) soonest = some first ∧
        first.2 ≤ c := by
  induction exchanges generalizing soonest with
  | nil => exact ⟨Or.inl rfl, fun best hbest => ⟨best, hbest, le_refl _⟩, by simp⟩
  | cons head exchanges ih =>
    rw [List.foldl_cons]
    obtain ⟨hfrom, hbefore, hall⟩ := ih (soonerClose calendars now soonest head)
    rcases soonerClose_cases calendars now soonest head with ⟨heq, hkept⟩ | ⟨c, hc, heq, htaken⟩
    · rw [heq] at hfrom hbefore hall ⊢
      refine ⟨?_, hbefore, ?_⟩
      · rcases hfrom with hsame | ⟨ibEx, hmem, c, hc, hres⟩
        · exact Or.inl hsame
        · exact Or.inr ⟨ibEx, List.mem_cons_of_mem _ hmem, c, hc, hres⟩
      · intro ibEx hmem c hc
        rcases List.mem_cons.mp hmem with rfl | hmem
        · obtain ⟨best, hbest, hle⟩ := hkept c hc
          obtain ⟨first, hfirst, hle'⟩ := hbefore best hbest
          exact ⟨first, hfirst, hle'.trans hle⟩
        · exact hall ibEx hmem c hc
    · rw [heq] at hfrom hbefore hall ⊢
      obtain ⟨first, hfirst, hle⟩ := hbefore (head, c) rfl
      refine ⟨Or.inr ?_, ?_, ?_⟩
      · rcases hfrom with hsame | ⟨ibEx, hmem, c', hc', hres⟩
        · exact ⟨head, List.mem_cons_self, c, hc, hsame⟩
        · exact ⟨ibEx, List.mem_cons_of_mem _ hmem, c', hc', hres⟩
      · intro best hbest
        exact ⟨first, hfirst, hle.trans (htaken best hbest)⟩
      · intro ibEx hmem c' hc'
        rcases List.mem_cons.mp hmem with rfl | hmem
        · obtain rfl := Option.some.inj (hc.symm.trans hc')
          exact ⟨first, hfirst, hle⟩
        · exact hall ibEx hmem c' hc'

theorem nextCloseAcrossHeldExchanges_spec {calendars : String → ExchangeCalendar} {now : Instant}
    {exchanges : List String} {ibEx : String} {c : Instant}
    (h : nextCloseAcrossHeldExchanges calendars now exchanges = some (ibEx, c)) :
    ibEx ∈ exchanges ∧ nextCloseAt calendars now ibEx = some c := by
  rcases (foldl_soonerClose calendars now exchanges none).1 with hnone | ⟨first, hmem, c', hc', heq⟩
  · exact absurd (h.symm.trans hnone) (by simp)
  · obtain ⟨rfl, rfl⟩ := Prod.mk.inj (Option.some.inj (h.symm.trans heq))
    exact ⟨hmem, hc'⟩

/-- No next close of an exchange is passed over for a later one. -/
theorem nextCloseAcrossHeldExchanges_le {calendars : String → ExchangeCalendar} {now : Instant}
    {exchanges : List String} {ibEx : String} {c : Instant} (hmem : ibEx ∈ exchanges)
    (hc : nextCloseAt calendars now ibEx = some c) :
    ∃ first, nextCloseAcrossHeldExchanges calendars now exchanges = some first ∧ first.2 ≤ c :=
  (foldl_soonerClose calendars now exchanges none).2.2 ibEx hmem c hc

/-- What `step` says about a pass. -/
theorem SnapshotLoop.step_cases {calendars : String → ExchangeCalendar} {emptyRecheck : ℤ}
    {s s' : SnapshotLoop} {pass : Pass} (h : s.step calendars emptyRecheck pass = some s') :
    pass.exchanges.Perm s.held ∧ 0 ≤ pass.captureTime ∧ 0 ≤ pass.fetchTime ∧
      (nextCloseAcrossHeldExchanges calendars s.now pass.exchanges = none ∧
          s'.now = s.now + s.emptyDelay + pass.fetchTime ∧
          s'.emptyDelay = min (s.emptyDelay * 2) emptyRecheckCap ∧ s'.table = s.table ∨
        ∃ ibEx closeAt,
          nextCloseAcrossHeldExchanges calendars s.now pass.exchanges = some (ibEx, closeAt) ∧
          s'.now = s.now + max 0 (closeAt - s.now) + pass.captureTime + second + pass.fetchTime ∧
          s'.emptyDelay = emptyRecheck ∧
          s'.table = (captureSnapshot pass.summaries ibEx closeAt s.table).1) := by
  unfold SnapshotLoop.step at h
  split at h
  next hpass =>
    refine ⟨hpass.1, hpass.2.1, hpass.2.2, ?_⟩
    split at h
    next hnone =>
      obtain rfl := Option.some.inj h
      exact Or.inl ⟨hnone, rfl, rfl, rfl⟩
    next ibEx closeAt hsome =>
      obtain rfl := Option.some.inj h
      exact Or.inr ⟨ibEx, closeAt, hsome, rfl, rfl, rfl⟩
  next => simp at h

end PortfolioHub
