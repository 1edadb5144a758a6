import PortfolioHub.FxRates
import PortfolioHub.Markets

namespace PortfolioHub

/-- A row of a schedule: the session's local day and its close. -/
structure Session where
  date : ℤ
  close : Instant
deriving DecidableEq, Repr

/-- An exchange calendar; its schedule runs forward in days and in closes. -/
structure ExchangeCalendar where
  localDate : Instant → ℤ
  schedule : List Session
  forward : schedule.Pairwise fun a b => a.date < b.date ∧ a.close < b.close

/-- The sessions from the local day on, over 21 days. -/
def ExchangeCalendar.window (cal : ExchangeCalendar) (now : Instant) : List Session :=
  cal.schedule.filter fun row =>
    cal.localDate now ≤ row.date ∧ row.date ≤ cal.localDate now + 21

/-- `MarketHours.next_close_at`; the calendars are given by their MIC. -/
def nextCloseAt (calendars : String → ExchangeCalendar) (now : Instant) (ibExchange : String) :
    Option Instant :=
  (ibExchangeToMic.lookup ibExchange).bind fun mic =>
    (((calendars mic).window now).find? fun row => now < row.close).map (·.close)

/-- The sessions of a mapped exchange. -/
def sessionsOf (calendars : String → ExchangeCalendar) (ibExchange : String) : List Session :=
  match ibExchangeToMic.lookup ibExchange with
  | none => []
  | some mic => (calendars mic).schedule

/-- The sessions of them that the search for the next close looks at. -/
def windowOf (calendars : String → ExchangeCalendar) (now : Instant) (ibExchange : String) :
    List Session :=
  match ibExchangeToMic.lookup ibExchange with
  | none => []
  | some mic => (calendars mic).window now

theorem windowOf_sublist (calendars : String → ExchangeCalendar) (now : Instant)
    (ibExchange : String) :
    (windowOf calendars now ibExchange).Sublist (sessionsOf calendars ibExchange) := by
  unfold windowOf sessionsOf
  split
  next => exact List.Sublist.refl []
  next mic _ => exact List.filter_sublist

theorem nextCloseAt_eq_find (calendars : String → ExchangeCalendar) (now : Instant)
    (ibExchange : String) :
    nextCloseAt calendars now ibExchange =
      ((windowOf calendars now ibExchange).find? fun row => now < row.close).map (·.close) := by
  unfold nextCloseAt windowOf
  cases ibExchangeToMic.lookup ibExchange with
  | none => rfl
  | some mic => rfl

/-- The next close is a later close of the exchange. -/
theorem nextCloseAt_spec {calendars : String → ExchangeCalendar} {now c : Instant}
    {ibExchange : String} (h : nextCloseAt calendars now ibExchange = some c) :
    ∃ row ∈ sessionsOf calendars ibExchange, row.close = c ∧ now < c := by
  rw [nextCloseAt_eq_find] at h
  obtain ⟨row, hfind, rfl⟩ := Option.map_eq_some_iff.mp h
  have hmem := List.mem_of_find?_eq_some hfind
  have hlater : now < row.close := by simpa using List.find?_some hfind
  exact ⟨row, (windowOf_sublist calendars now ibExchange).subset hmem, rfl, hlater⟩

/-- A later close that the search looks at is not before the next one. -/
theorem nextCloseAt_le {calendars : String → ExchangeCalendar} {now : Instant}
    {ibExchange : String} {row : Session} (hrow : row ∈ windowOf calendars now ibExchange)
    (hlater : now < row.close) :
    ∃ c, nextCloseAt calendars now ibExchange = some c ∧ c ≤ row.close := by
  have hforward : (windowOf calendars now ibExchange).Pairwise fun a b => a.close ≤ b.close := by
    unfold windowOf
    split
    next => exact List.Pairwise.nil
    next mic _ =>
      have hcal := (calendars mic).forward.sublist
        (List.filter_sublist (l := (calendars mic).schedule) (p := fun row =>
          (calendars mic).localDate now ≤ row.date ∧ row.date ≤ (calendars mic).localDate now + 21))
      exact hcal.imp fun h => h.2.le
  rw [nextCloseAt_eq_find]
  generalize windowOf calendars now ibExchange = rows at hrow hforward
  induction rows with
  | nil => simp at hrow
  | cons first rows ih =>
    obtain ⟨hfirst, hrest⟩ := List.pairwise_cons.mp hforward
    by_cases hnext : now < first.close
    · refine ⟨first.close, by simp [hnext], ?_⟩
      rcases List.mem_cons.mp hrow with rfl | hmem
      · exact le_refl _
      · exact hfirst row hmem
    · rcases List.mem_cons.mp hrow with rfl | hmem
      · exact absurd hlater hnext
      · obtain ⟨c, hc, hle⟩ := ih hmem hrest
        exact ⟨c, by simpa [hnext] using hc, hle⟩

end PortfolioHub
