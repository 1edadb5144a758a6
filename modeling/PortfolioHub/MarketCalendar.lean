import PortfolioHub.Markets
import PortfolioHub.TimeZone

namespace PortfolioHub

/-- A row of a schedule: the session of a local trading day. Its break columns are NaT on venues
without a lunch break. -/
structure MarketSession where
  date : ℤ
  openTs : Instant
  closeTs : Instant
  breakStart : Option Instant
  breakEnd : Option Instant
  opens : openTs < closeTs
  paired : breakEnd.isSome = breakStart.isSome
  breaks : ∀ b ∈ breakStart, ∀ e ∈ breakEnd, openTs ≤ b ∧ b < e ∧ e ≤ closeTs
deriving DecidableEq

/-- An exchange calendar: the zone of the venue and its schedule. -/
structure MarketCalendar where
  tz : TimeZone
  schedule : List MarketSession
  sorted : schedule.Pairwise fun a b => a.date < b.date ∧ a.closeTs ≤ b.openTs

/-- `_US_EXTENDED_EXCHANGES`. -/
def usExtendedExchanges : List String := ["NYSE", "NASDAQ", "ARCA", "AMEX", "BATS"]

inductive ExtendedSession where
  | pre
  | post
deriving DecidableEq, Repr

/-- A `MarketStatus`, with its transition as an instant. -/
structure SessionStatus where
  state : MarketState
  extendedSession : Option ExtendedSession
  nextTransition : Option Instant
  nextTransitionLabel : String
deriving DecidableEq, Repr

namespace MarketSession

/-- The regular session is on, with its lunch break. -/
def Contains (s : MarketSession) (t : Instant) : Prop := s.openTs ≤ t ∧ t < s.closeTs

def InBreak (s : MarketSession) (t : Instant) : Prop :=
  ∃ b ∈ s.breakStart, ∃ e ∈ s.breakEnd, b ≤ t ∧ t < e

instance (s : MarketSession) (t : Instant) : Decidable (s.Contains t) :=
  inferInstanceAs (Decidable (_ ∧ _))

/-- `pre_start`. -/
def preStart (s : MarketSession) : Instant := s.openTs - (5 * hour + 30 * minute)

/-- `post_end_today`. -/
def postEnd (s : MarketSession) : Instant := s.closeTs + 4 * hour

end MarketSession

namespace MarketCalendar

/-- `schedule.loc[date]`. -/
def sessionOn (cal : MarketCalendar) (date : ℤ) : Option MarketSession :=
  cal.schedule.find? fun s => s.date = date

/-- The last session before the day. -/
def previousSession (cal : MarketCalendar) (date : ℤ) : Option MarketSession :=
  (cal.schedule.filter fun s => s.date < date).getLast?

/-- The first session after the day. -/
def nextSession (cal : MarketCalendar) (date : ℤ) : Option MarketSession :=
  cal.schedule.find? fun s => date < s.date

/-- `_previous_session_close`. -/
def previousSessionClose (cal : MarketCalendar) (date : ℤ) : Option Instant :=
  (cal.previousSession date).map (·.closeTs)

/-- `_next_session_open`. -/
def nextSessionOpen (cal : MarketCalendar) (date : ℤ) : Option Instant :=
  (cal.nextSession date).map (·.openTs)

/-- The pre- and post-market windows of `status`, outside the regular session. -/
def extendedStatus (cal : MarketCalendar) (session : MarketSession) (now : Instant) :
    Option SessionStatus :=
  if session.preStart ≤ now ∧ now < session.openTs then
    some ⟨.extended, some .pre, some session.openTs, "Pre-market ends"⟩
  else if session.closeTs ≤ now ∧ now < session.postEnd then
    some ⟨.extended, some .post, some session.postEnd, "After-hours ends"⟩
  else if now < session.openTs then
    match cal.previousSessionClose session.date with
    | none => none
    | some prevClose =>
      if prevClose ≤ now ∧ now < prevClose + 4 * hour then
        some ⟨.extended, some .post, some (prevClose + 4 * hour), "After-hours ends"⟩
      else none
  else none

/-- `status`, on a day with a session. -/
def sessionStatus (cal : MarketCalendar) (ibExchange : String) (session : MarketSession)
    (now : Instant) : SessionStatus :=
  if now < session.openTs ∨ session.closeTs ≤ now then
    match if ibExchange ∈ usExtendedExchanges then cal.extendedStatus session now else none with
    | some status => status
    | none =>
      if now < session.openTs then ⟨.closed, none, some session.openTs, "Opens"⟩
      else ⟨.closed, none, cal.nextSessionOpen session.date, "Opens"⟩
  else if session.breakStart.any (· ≤ now) ∧ session.breakEnd.any (now < ·) then
    ⟨.lunch, none, session.breakEnd, "Reopens"⟩
  else if session.breakStart.any (now < ·) then ⟨.open, none, session.breakStart, "Lunch"⟩
  else ⟨.open, none, some session.closeTs, "Closes"⟩

/-- `MarketHours.status` of a mapped venue. -/
def status (cal : MarketCalendar) (ibExchange : String) (now : Instant) : SessionStatus :=
  match cal.sessionOn (cal.tz.localDate now) with
  | none => ⟨.holiday, none, cal.nextSessionOpen (cal.tz.localDate now), "Opens"⟩
  | some session => cal.sessionStatus ibExchange session now

/-- Every session lies inside the local day of its label. -/
def Inside (cal : MarketCalendar) : Prop :=
  ∀ s ∈ cal.schedule, ∀ t, s.Contains t → cal.tz.localDate t = s.date

variable {cal : MarketCalendar} {s s' : MarketSession} {d : ℤ}

/-- What the sorted schedule gives for two sessions in either order. -/
theorem schedule_forall {R : MarketSession → MarketSession → Prop} (hrefl : ∀ s, R s s)
    (hbefore : ∀ s s', s.date < s'.date → s.closeTs ≤ s'.openTs → R s s' ∧ R s' s)
    (hs : s ∈ cal.schedule) (hs' : s' ∈ cal.schedule) : R s s' :=
  List.Pairwise.forall_of_forall_of_flip (fun s _ => hrefl s)
    (cal.sorted.imp fun h => (hbefore _ _ h.1 h.2).1)
    (cal.sorted.imp fun h => (hbefore _ _ h.1 h.2).2) hs hs'

theorem closeTs_le_openTs (hs : s ∈ cal.schedule) (hs' : s' ∈ cal.schedule)
    (hdate : s.date < s'.date) : s.closeTs ≤ s'.openTs := by
  refine schedule_forall (R := fun s s' => s.date < s'.date → s.closeTs ≤ s'.openTs)
    (fun s h => absurd h (lt_irrefl s.date)) (fun s s' hlt hle => ⟨fun _ => hle, fun hgt => ?_⟩)
    hs hs' hdate
  exact absurd hlt (not_lt.mpr hgt.le)

theorem eq_of_date_eq (hs : s ∈ cal.schedule) (hs' : s' ∈ cal.schedule) (hdate : s.date = s'.date) :
    s = s' := by
  refine schedule_forall (R := fun s s' => s.date = s'.date → s = s') (fun s _ => rfl)
    (fun s s' hlt _ => ⟨fun heq => ?_, fun heq => ?_⟩) hs hs' hdate
  · exact absurd heq hlt.ne
  · exact absurd heq hlt.ne'

theorem sessionOn_eq_some : cal.sessionOn d = some s ↔ s ∈ cal.schedule ∧ s.date = d := by
  constructor
  · intro h
    exact ⟨List.mem_of_find?_eq_some h, by simpa using List.find?_some h⟩
  · rintro ⟨hs, rfl⟩
    cases hfind : cal.sessionOn s.date with
    | none => exact absurd (List.find?_eq_none.mp hfind s hs) (by simp)
    | some s' =>
      have hdate : s'.date = s.date := by simpa using List.find?_some hfind
      rw [eq_of_date_eq (List.mem_of_find?_eq_some hfind) hs hdate]

theorem sessionOn_eq_none : cal.sessionOn d = none ↔ ∀ s ∈ cal.schedule, s.date ≠ d := by
  unfold sessionOn
  simp

/-- The next session comes before all others after the day. -/
theorem nextSession_eq_some (h : cal.nextSession d = some s) :
    s ∈ cal.schedule ∧ d < s.date ∧ ∀ s' ∈ cal.schedule, d < s'.date → s.date ≤ s'.date := by
  obtain ⟨hlater, earlier, later, hsplit, hskipped⟩ := List.find?_eq_some_iff_append.mp h
  have hsorted := cal.sorted
  rw [hsplit] at hsorted ⊢
  refine ⟨by simp, by simpa using hlater, fun s' hs' hlater' => ?_⟩
  rcases List.mem_append.mp hs' with hs' | hs'
  · exact absurd hlater' (by simpa using hskipped s' hs')
  · rcases List.mem_cons.mp hs' with rfl | hs'
    · exact le_refl _
    · have hrest := (List.pairwise_append.mp hsorted).2.1
      exact ((List.pairwise_cons.mp hrest).1 s' hs').1.le

theorem nextSession_eq_none : cal.nextSession d = none ↔ ∀ s ∈ cal.schedule, s.date ≤ d := by
  unfold nextSession
  simp

theorem previousSession_eq_some (h : cal.previousSession d = some s) :
    s ∈ cal.schedule ∧ s.date < d ∧ ∀ s' ∈ cal.schedule, s'.date < d → s'.date ≤ s.date := by
  have hmem := List.mem_filter.mp (List.mem_of_getLast? h)
  refine ⟨hmem.1, by simpa using hmem.2, fun s' hs' hbefore => ?_⟩
  obtain ⟨earlier, hsplit⟩ := List.getLast?_eq_some_iff.mp h
  have hs'' : s' ∈ earlier ++ [s] := by
    rw [← hsplit]
    exact List.mem_filter.mpr ⟨hs', by simpa using hbefore⟩
  have hsorted := cal.sorted.sublist (List.filter_sublist (p := fun s => decide (s.date < d)))
  rw [hsplit] at hsorted
  rcases List.mem_append.mp hs'' with hs'' | hs''
  · exact ((List.pairwise_append.mp hsorted).2.2 s' hs'' s (by simp)).1.le
  · rw [List.mem_singleton.mp hs'']

theorem previousSession_eq_none : cal.previousSession d = none ↔ ∀ s ∈ cal.schedule, d ≤ s.date := by
  unfold previousSession
  simp

end MarketCalendar

end PortfolioHub
