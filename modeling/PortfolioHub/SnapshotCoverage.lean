import PortfolioHub.SnapshotLoop

namespace PortfolioHub

namespace SnapshotLoop

/-- The closes of the exchanges after one moment and up to another. -/
def passing (calendars : String → ExchangeCalendar) (held : List String) (since upTo : Instant) :
    List (String × Session) :=
  held.flatMap fun ibEx =>
    ((sessionsOf calendars ibEx).filter fun row => since < row.close ∧ row.close ≤ upTo).map
      fun row => (ibEx, row)

/-- The exchanges held are `held`, and the broker answers for every linked account. -/
def Steady (held : List String) (linked : List (String × String)) (s : SnapshotLoop)
    (pass : Pass) : Prop :=
  s.held ⊆ held ∧ held ⊆ s.held ∧ ∀ account ∈ linked,
    ∃ x ∈ pass.summaries.toOption.getD [], (x.broker, x.accountId) = account

/-- Between this look at the positions and the next at most one close of the exchanges passes,
within the days the search covers, and each linked account has figures that can be stored. -/
def ClosesApart (calendars : String → ExchangeCalendar) (emptyRecheck : ℤ) (held : List String)
    (linked : List (String × String)) (s : SnapshotLoop) (pass : Pass) : Prop :=
  (∀ s' ∈ s.step calendars emptyRecheck pass,
    (∀ p ∈ passing calendars held s.now s'.now, ∀ q ∈ passing calendars held s.now s'.now, p = q) ∧
    ∀ p ∈ passing calendars held s.now s'.now, p.2 ∈ windowOf calendars s.now p.1) ∧
  linked ⊆ recordedAccounts pass.summaries

instance (held : List String) (linked : List (String × String)) (s : SnapshotLoop) (pass : Pass) :
    Decidable (Steady held linked s pass) :=
  instDecidableAnd

instance (calendars : String → ExchangeCalendar) (emptyRecheck : ℤ) (held : List String)
    (linked : List (String × String)) (s : SnapshotLoop) (pass : Pass) :
    Decidable (ClosesApart calendars emptyRecheck held linked s pass) :=
  instDecidableAnd

theorem mem_passing {calendars : String → ExchangeCalendar} {held : List String}
    {since upTo : Instant} {ibEx : String} {row : Session} :
    (ibEx, row) ∈ passing calendars held since upTo ↔
      ibEx ∈ held ∧ row ∈ sessionsOf calendars ibEx ∧ since < row.close ∧ row.close ≤ upTo := by
  simp only [passing, List.mem_flatMap, List.mem_map, List.mem_filter, decide_eq_true_eq,
    Prod.mk.injEq]
  constructor
  · rintro ⟨ibEx', hheld, row', ⟨hrow, hafter, hupTo⟩, rfl, rfl⟩
    exact ⟨hheld, hrow, hafter, hupTo⟩
  · rintro ⟨hheld, hrow, hafter, hupTo⟩
    exact ⟨ibEx, hheld, row, ⟨hrow, hafter, hupTo⟩, rfl, rfl⟩

/-- The only close of a pass is the one the pass records. -/
theorem lone_close_is_recorded {calendars : String → ExchangeCalendar} {emptyRecheck : ℤ}
    {held : List String} {linked : List (String × String)} {s s' : SnapshotLoop} {pass : Pass}
    (hsteady : Steady held linked s pass) (hapart : ClosesApart calendars emptyRecheck held linked s pass)
    (h : s.step calendars emptyRecheck pass = some s') {ibEx : String} {row : Session}
    (hpassing : (ibEx, row) ∈ passing calendars held s.now s'.now)
    {account : String × String} (haccount : account ∈ linked) :
    (row.close, ibEx ++ "_CLOSE", account) ∈ s'.table.keys := by
  obtain ⟨hsub, hsup, -⟩ := hsteady
  obtain ⟨hlone, hstored⟩ := hapart
  obtain ⟨hone, hwindow⟩ := hlone s' h
  obtain ⟨hheld, hrow, hafter, hupTo⟩ := mem_passing.mp hpassing
  obtain ⟨hperm, -, -, hcases⟩ := step_cases h
  have hexchange : ibEx ∈ pass.exchanges := hperm.mem_iff.mpr (hsup hheld)
  -- the search sees a close of the exchange no later than this one
  obtain ⟨c, hc, hle⟩ := nextCloseAt_le (hwindow _ hpassing) hafter
  obtain ⟨⟨first, closeAt⟩, hfirst, hfirstLe⟩ := nextCloseAcrossHeldExchanges_le hexchange hc
  rcases hcases with ⟨hnone, -⟩ | ⟨first', closeAt', hsome, -, -, htable⟩
  · rw [hnone] at hfirst
    cases hfirst
  · obtain ⟨rfl, rfl⟩ := Prod.mk.inj (Option.some.inj (hsome.symm.trans hfirst))
    obtain ⟨hchosen, hnext⟩ := nextCloseAcrossHeldExchanges_spec hsome
    obtain ⟨row', hrow', rfl, hafter'⟩ := nextCloseAt_spec hnext
    have hpassing' : (first', row') ∈ passing calendars held s.now s'.now := by
      have hheld' : first' ∈ held := hsub (hperm.mem_iff.mp hchosen)
      exact mem_passing.mpr ⟨hheld', hrow', hafter', (hfirstLe.trans hle).trans hupTo⟩
    obtain ⟨rfl, rfl⟩ := Prod.mk.inj (hone _ hpassing _ hpassing')
    rw [htable, mem_keys_captureSnapshot]
    exact Or.inr ⟨account, hstored haccount, rfl⟩

theorem step_keeps_keys {calendars : String → ExchangeCalendar} {emptyRecheck : ℤ}
    {s s' : SnapshotLoop} {pass : Pass} (h : s.step calendars emptyRecheck pass = some s')
    {k : EquityKey} (hk : k ∈ s.table.keys) : k ∈ s'.table.keys := by
  obtain ⟨-, -, -, ⟨-, -, -, htable⟩ | ⟨ibEx, closeAt, -, -, -, htable⟩⟩ := step_cases h
  · rw [htable]
    exact hk
  · rw [htable, mem_keys_captureSnapshot]
    exact Or.inl hk

/-- Each pass takes its time: a second after a close, the delay of the recheck otherwise. -/
theorem step_takes_time {calendars : String → ExchangeCalendar} {emptyRecheck : ℤ}
    (hpos : 0 < emptyRecheck) {s s' : SnapshotLoop} {pass : Pass}
    (hdelay : min emptyRecheck second ≤ s.emptyDelay)
    (h : s.step calendars emptyRecheck pass = some s') :
    min emptyRecheck second ≤ s'.emptyDelay ∧ s.now + min emptyRecheck second ≤ s'.now := by
  obtain ⟨-, hcapture, hfetch, hcases⟩ := step_cases h
  have hsecond : second = 1000000 := rfl
  have hcap : emptyRecheckCap = 3600000000 := rfl
  rcases hcases with ⟨-, hnow, hnext, -⟩ | ⟨ibEx, closeAt, -, hnow, hnext, -⟩
  · rw [hnow, hnext]
    refine ⟨?_, by linarith⟩
    omega
  · rw [hnow, hnext]
    have hwait : 0 ≤ max 0 (closeAt - s.now) := le_max_left _ _
    exact ⟨min_le_left _ _, by linarith [min_le_right emptyRecheck second]⟩

/-- Where at most one close passes between two looks, every close up to the last look has its
own row for every linked account, and enough passes reach any close. -/
theorem every_close_is_recorded {calendars : String → ExchangeCalendar} {emptyRecheck : ℤ}
    (hpos : 0 < emptyRecheck) {held : List String} {linked : List (String × String)}
    {now : Instant} {positions : Except Python.Error (List Position)} {table : EquityTable}
    {passes : List Pass} {s : SnapshotLoop}
    (h : execute (restrict (step calendars emptyRecheck) fun s pass =>
      Steady held linked s pass ∧ ClosesApart calendars emptyRecheck held linked s pass)
      (init emptyRecheck now positions table) passes = some s) :
    (∀ ibEx ∈ held, ∀ row ∈ sessionsOf calendars ibEx, now < row.close → row.close ≤ s.now →
      ∀ account ∈ linked, (row.close, ibEx ++ "_CLOSE", account) ∈ s.table.keys) ∧
    now + passes.length * min emptyRecheck second ≤ s.now := by
  have hinv := Reaches.execute_invariant (I := fun n s =>
    (∀ ibEx ∈ held, ∀ row ∈ sessionsOf calendars ibEx, now < row.close → row.close ≤ s.now →
      ∀ account ∈ linked, (row.close, ibEx ++ "_CLOSE", account) ∈ s.table.keys) ∧
    now + n * min emptyRecheck second ≤ s.now ∧ min emptyRecheck second ≤ s.emptyDelay)
    ?_ ?_ h
  · exact ⟨hinv.1, hinv.2.1⟩
  · refine ⟨?_, by simp [init], min_le_left _ _⟩
    intro ibEx _ row _ hafter hupTo
    exact absurd hafter (not_lt.mpr hupTo)
  · rintro n s pass s' ⟨hrows, hlength, hdelay⟩ ⟨hsteady, hapart⟩ hstep
    obtain ⟨hdelay', htime⟩ := step_takes_time hpos hdelay hstep
    refine ⟨?_, ?_, hdelay'⟩
    · intro ibEx hheld row hrow hafter hupTo account haccount
      by_cases hpast : row.close ≤ s.now
      · exact step_keeps_keys hstep (hrows ibEx hheld row hrow hafter hpast account haccount)
      · have hpassing := mem_passing.mpr ⟨hheld, hrow, not_le.mp hpast, hupTo⟩
        exact lone_close_is_recorded hsteady hapart hstep hpassing haccount
    · push_cast
      rw [add_mul, one_mul]
      linarith

end SnapshotLoop

/-- One day: Hong Kong closes at 8:00 UTC and New York at 20:00. -/
def sampleCalendars (mic : String) : ExchangeCalendar where
  localDate := fun t => t / (86400 * second)
  schedule := if mic = "XHKG" then [⟨0, 28800 * second⟩]
    else if mic = "XNYS" then [⟨0, 72000 * second⟩] else []
  forward := by
    split_ifs with hhk hny
    · exact List.pairwise_singleton ..
    · exact List.pairwise_singleton ..
    · exact List.Pairwise.nil

def snapshotShare (exchange : String) : Position :=
  { broker := "IBKR", accountId := "U1", nativeKey := "1", canonicalSymbol := "A." ++ exchange,
    nativeSymbol := "A", exchange := exchange, currency := "USD", nameEn := "A",
    assetClass := .stk, quantity := 1, avgCost := 1, lastPrice := 1, marketValueNative := 1,
    marketValueUsd := 1, unrealizedPnlNative := 0, unrealizedPnlUsd := 0 }

def samplePass (exchanges : List String) : Pass where
  exchanges := exchanges
  summaries := .ok [⟨"IBKR", "U1", "USD", 1000, 0, 0, 1000, 1000⟩]
  captureTime := second
  positions := .ok (exchanges.map snapshotShare)
  fetchTime := second

/-- Two exchanges that close hours apart each have their row. -/
theorem distinct_closes_are_recorded :
    ∃ s, execute (restrict (SnapshotLoop.step sampleCalendars defaultEmptyRecheck) fun s pass =>
        SnapshotLoop.Steady ["NYSE", "SEHK"] [("IBKR", "U1")] s pass ∧
          SnapshotLoop.ClosesApart sampleCalendars defaultEmptyRecheck ["NYSE", "SEHK"]
            [("IBKR", "U1")] s pass)
        (SnapshotLoop.init defaultEmptyRecheck 0 (.ok (["NYSE", "SEHK"].map snapshotShare)) .empty)
        [samplePass ["SEHK", "NYSE"], samplePass ["SEHK", "NYSE"]] = some s ∧
      (∀ ibEx ∈ ["NYSE", "SEHK"], ∀ row ∈ sessionsOf sampleCalendars ibEx, 0 < row.close →
        row.close ≤ s.now → ∀ account ∈ [("IBKR", "U1")],
          (row.close, ibEx ++ "_CLOSE", account) ∈ s.table.keys) ∧
      (0 : ℤ) + (2 : ℕ) * min defaultEmptyRecheck second ≤ s.now := by
  obtain ⟨s, hs⟩ := Option.isSome_iff_exists.mp (by decide +kernel :
    (execute (restrict (SnapshotLoop.step sampleCalendars defaultEmptyRecheck) fun s pass =>
        SnapshotLoop.Steady ["NYSE", "SEHK"] [("IBKR", "U1")] s pass ∧
          SnapshotLoop.ClosesApart sampleCalendars defaultEmptyRecheck ["NYSE", "SEHK"]
            [("IBKR", "U1")] s pass)
        (SnapshotLoop.init defaultEmptyRecheck 0 (.ok (["NYSE", "SEHK"].map snapshotShare)) .empty)
        [samplePass ["SEHK", "NYSE"], samplePass ["SEHK", "NYSE"]]).isSome = true)
  exact ⟨s, hs, SnapshotLoop.every_close_is_recorded (by decide) hs⟩

/-- New York's two exchanges close together: one of them goes without a row. -/
theorem shared_close_is_missed :
    ¬ ∀ (calendars : String → ExchangeCalendar) (held : List String)
      (linked : List (String × String)) (now : Instant)
      (positions : Except Python.Error (List Position)) (table : EquityTable) (passes : List Pass)
      (s : SnapshotLoop),
      execute (restrict (SnapshotLoop.step calendars defaultEmptyRecheck)
        (SnapshotLoop.Steady held linked))
        (SnapshotLoop.init defaultEmptyRecheck now positions table) passes = some s →
      ∀ ibEx ∈ held, ∀ row ∈ sessionsOf calendars ibEx, now < row.close → row.close ≤ s.now →
        ∀ account ∈ linked, (row.close, ibEx ++ "_CLOSE", account) ∈ s.table.keys := by
  intro h
  obtain ⟨s, hs, hlate, hkeys⟩ : ∃ s, execute
      (restrict (SnapshotLoop.step sampleCalendars defaultEmptyRecheck)
        (SnapshotLoop.Steady ["NYSE", "NASDAQ"] [("IBKR", "U1")]))
      (SnapshotLoop.init defaultEmptyRecheck 0 (.ok (["NYSE", "NASDAQ"].map snapshotShare)) .empty)
      [samplePass ["NYSE", "NASDAQ"]] = some s ∧ 72000 * second ≤ s.now ∧
        s.table.keys = [(72000 * second, "NYSE_CLOSE", "IBKR", "U1")] := by
    refine ⟨_, rfl, ?_, ?_⟩
    · decide +kernel
    · decide +kernel
  have hrow := h sampleCalendars _ _ 0 _ .empty _ s hs "NASDAQ" (by simp)
    ⟨0, 72000 * second⟩ (by decide +kernel) (by decide) hlate ("IBKR", "U1") (by simp)
  rw [hkeys] at hrow
  exact absurd hrow (by decide)

end PortfolioHub
