import PortfolioHub.MarketCalendar

namespace PortfolioHub

namespace MarketSession

variable {s : MarketSession} {t : Instant}

theorem InBreak.contains (h : s.InBreak t) : s.Contains t := by
  obtain ⟨b, hb, e, he, hbt, hte⟩ := h
  obtain ⟨hopen, -, hclose⟩ := s.breaks b hb e he
  exact ⟨hopen.trans hbt, hte.trans_le hclose⟩

/-- The test that `status` makes for the lunch break. -/
theorem inBreak_iff :
    s.breakStart.any (· ≤ t) = true ∧ s.breakEnd.any (t < ·) = true ↔ s.InBreak t := by
  unfold InBreak
  cases s.breakStart <;> cases s.breakEnd <;> simp

theorem not_contains_iff : t < s.openTs ∨ s.closeTs ≤ t ↔ ¬ s.Contains t := by
  unfold Contains
  rw [not_and_or, not_le, not_lt]

theorem preStart_lt_openTs (s : MarketSession) : s.preStart < s.openTs := by
  have hwindow : (0 : ℤ) < 5 * hour + 30 * minute := by decide
  exact sub_lt_self s.openTs hwindow

theorem closeTs_lt_postEnd (s : MarketSession) : s.closeTs < s.postEnd := by
  have hwindow : (0 : ℤ) < 4 * hour := by decide
  exact lt_add_of_pos_right s.closeTs hwindow

end MarketSession

namespace MarketCalendar

variable {cal : MarketCalendar} {ibExchange : String} {s : MarketSession} {now : Instant}

/-- In the windows around a session the state is `EXTENDED`, up to the end of the window. -/
theorem extendedStatus_eq_some {status : SessionStatus}
    (h : cal.extendedStatus s now = some status) :
    status.state = .extended ∧ ∃ t, status.nextTransition = some t ∧ now < t := by
  unfold extendedStatus at h
  split at h
  next hpre =>
    obtain rfl := Option.some.inj h
    exact ⟨rfl, _, rfl, hpre.2⟩
  next =>
    split at h
    next hpost =>
      obtain rfl := Option.some.inj h
      exact ⟨rfl, _, rfl, hpost.2⟩
    next =>
      split at h
      next =>
        split at h
        next => cases h
        next prevClose _ =>
          split at h
          next hprev =>
            obtain rfl := Option.some.inj h
            exact ⟨rfl, _, rfl, hprev.2⟩
          next => cases h
      next => cases h

/-- Outside its session hours a trading day is `EXTENDED` or `CLOSED`. -/
theorem sessionStatus_outside (hout : ¬ s.Contains now) :
    ((cal.sessionStatus ibExchange s now).state = .extended ∧
        ∃ t, (cal.sessionStatus ibExchange s now).nextTransition = some t ∧ now < t) ∨
      (cal.sessionStatus ibExchange s now).state = .closed ∧
        ((cal.sessionStatus ibExchange s now).nextTransition = some s.openTs ∧ now < s.openTs ∨
          (cal.sessionStatus ibExchange s now).nextTransition = cal.nextSessionOpen s.date) := by
  unfold sessionStatus
  rw [if_pos (MarketSession.not_contains_iff.mpr hout)]
  split
  next status hstatus =>
    split at hstatus
    next => exact Or.inl (extendedStatus_eq_some hstatus)
    next => cases hstatus
  next =>
    split
    next hbefore => exact Or.inr ⟨rfl, Or.inl ⟨rfl, hbefore⟩⟩
    next => exact Or.inr ⟨rfl, Or.inr rfl⟩

theorem sessionStatus_lunch (hbreak : s.InBreak now) :
    cal.sessionStatus ibExchange s now = ⟨.lunch, none, s.breakEnd, "Reopens"⟩ := by
  unfold sessionStatus
  rw [if_neg (mt MarketSession.not_contains_iff.mp (not_not.mpr hbreak.contains)),
    if_pos (MarketSession.inBreak_iff.mpr hbreak)]

theorem sessionStatus_open (hin : s.Contains now) (hbreak : ¬ s.InBreak now) :
    cal.sessionStatus ibExchange s now =
      if s.breakStart.any (now < ·) then ⟨.open, none, s.breakStart, "Lunch"⟩
      else ⟨.open, none, some s.closeTs, "Closes"⟩ := by
  unfold sessionStatus
  rw [if_neg (mt MarketSession.not_contains_iff.mp (not_not.mpr hin)),
    if_neg (mt MarketSession.inBreak_iff.mp hbreak)]

/-- What a trading day reports, by where the moment is in its session. -/
theorem sessionStatus_state :
    ((cal.sessionStatus ibExchange s now).state = .open ↔ s.Contains now ∧ ¬ s.InBreak now) ∧
      ((cal.sessionStatus ibExchange s now).state = .lunch ↔ s.InBreak now) := by
  by_cases hin : s.Contains now
  · by_cases hbreak : s.InBreak now
    · simp [sessionStatus_lunch hbreak, hbreak]
    · rw [sessionStatus_open hin hbreak]
      split <;> simp [hin, hbreak]
  · have hbreak : ¬ s.InBreak now := fun h => hin h.contains
    rcases @sessionStatus_outside cal ibExchange _ _ hin with ⟨hstate, -⟩ | ⟨hstate, -⟩
    · simp [hstate, hin, hbreak]
    · simp [hstate, hin, hbreak]

/-- The session that is on is the session of the local day. -/
theorem sessionOn_of_contains (hinside : cal.Inside) (hs : s ∈ cal.schedule)
    (hin : s.Contains now) : cal.sessionOn (cal.tz.localDate now) = some s :=
  sessionOn_eq_some.mpr ⟨hs, (hinside s hs now hin).symm⟩

theorem status_eq_sessionStatus (h : cal.sessionOn (cal.tz.localDate now) = some s) :
    cal.status ibExchange now = cal.sessionStatus ibExchange s now := by
  unfold status
  rw [h]

theorem status_eq_holiday (h : cal.sessionOn (cal.tz.localDate now) = none) :
    cal.status ibExchange now =
      ⟨.holiday, none, cal.nextSessionOpen (cal.tz.localDate now), "Opens"⟩ := by
  unfold status
  rw [h]

theorem state_open_iff (hinside : cal.Inside) : (cal.status ibExchange now).state = .open ↔
    ∃ s ∈ cal.schedule, s.Contains now ∧ ¬ s.InBreak now := by
  constructor
  · intro h
    cases hon : cal.sessionOn (cal.tz.localDate now) with
    | none =>
      rw [status_eq_holiday hon] at h
      cases h
    | some s =>
      rw [status_eq_sessionStatus hon] at h
      exact ⟨s, (sessionOn_eq_some.mp hon).1, sessionStatus_state.1.mp h⟩
  · rintro ⟨s, hs, hin, hbreak⟩
    rw [status_eq_sessionStatus (sessionOn_of_contains hinside hs hin)]
    exact sessionStatus_state.1.mpr ⟨hin, hbreak⟩

theorem state_lunch_iff (hinside : cal.Inside) : (cal.status ibExchange now).state = .lunch ↔
    ∃ s ∈ cal.schedule, s.InBreak now := by
  constructor
  · intro h
    cases hon : cal.sessionOn (cal.tz.localDate now) with
    | none =>
      rw [status_eq_holiday hon] at h
      cases h
    | some s =>
      rw [status_eq_sessionStatus hon] at h
      exact ⟨s, (sessionOn_eq_some.mp hon).1, sessionStatus_state.2.mp h⟩
  · rintro ⟨s, hs, hbreak⟩
    rw [status_eq_sessionStatus (sessionOn_of_contains hinside hs hbreak.contains)]
    exact sessionStatus_state.2.mpr hbreak

/-- The local date has not gone back behind the label of a session that has opened. -/
def Reached (cal : MarketCalendar) (now : Instant) : Prop :=
  ∀ s ∈ cal.schedule, s.openTs ≤ now → s.date ≤ cal.tz.localDate now

theorem lt_nextSessionOpen (hreached : cal.Reached now) {t : Instant}
    (h : cal.nextSessionOpen (cal.tz.localDate now) = some t) : now < t := by
  obtain ⟨s, hnext, rfl⟩ := Option.map_eq_some_iff.mp h
  obtain ⟨hs, hlater, -⟩ := nextSession_eq_some hnext
  by_contra hopen
  exact absurd (hreached s hs (not_lt.mp hopen)) (not_le.mpr hlater)

theorem lt_nextTransition (hreached : cal.Reached now) {t : Instant}
    (h : (cal.status ibExchange now).nextTransition = some t) : now < t := by
  cases hon : cal.sessionOn (cal.tz.localDate now) with
  | none =>
    rw [status_eq_holiday hon] at h
    exact lt_nextSessionOpen hreached h
  | some s =>
    rw [status_eq_sessionStatus hon] at h
    obtain ⟨-, hdate⟩ := sessionOn_eq_some.mp hon
    by_cases hin : s.Contains now
    · by_cases hbreak : s.InBreak now
      · rw [sessionStatus_lunch hbreak] at h
        obtain ⟨-, -, e, he, -, hend⟩ := hbreak
        obtain rfl : e = t := Option.some.inj (he.symm.trans h)
        exact hend
      · rw [sessionStatus_open hin hbreak] at h
        split at h
        next hahead =>
          dsimp only at h
          rw [h] at hahead
          simpa using hahead
        next =>
          obtain rfl := Option.some.inj h
          exact hin.2
    · rcases @sessionStatus_outside cal ibExchange _ _ hin with
        ⟨-, t', ht', hlt⟩ | ⟨-, ⟨hopen, hlt⟩ | hnext⟩
      · obtain rfl := Option.some.inj (ht'.symm.trans h)
        exact hlt
      · obtain rfl := Option.some.inj (hopen.symm.trans h)
        exact hlt
      · rw [hnext, hdate] at h
        exact lt_nextSessionOpen hreached h

/-- Where the local date never goes back, it is nowhere behind an opened session. -/
theorem reached_of_monotone (hinside : cal.Inside) (hforward : Monotone cal.tz.localDate)
    (now : Instant) : cal.Reached now := by
  intro s hs hopen
  rw [← hinside s hs s.openTs ⟨le_refl _, s.opens⟩]
  exact hforward hopen

end MarketCalendar

/-- `OPEN` and `LUNCH` are reported exactly where a session or its break contains the moment, and
a transition lies ahead unless the local date has gone back behind a session. -/
theorem market_states_correct (cal : MarketCalendar) (ibExchange : String) (now : Instant)
    (hinside : cal.Inside) :
    ((cal.status ibExchange now).state = .open ↔
        ∃ s ∈ cal.schedule, s.Contains now ∧ ¬ s.InBreak now) ∧
      ((cal.status ibExchange now).state = .lunch ↔ ∃ s ∈ cal.schedule, s.InBreak now) ∧
      (cal.Reached now →
        ∀ t, (cal.status ibExchange now).nextTransition = some t → now < t) :=
  ⟨MarketCalendar.state_open_iff hinside, MarketCalendar.state_lunch_iff hinside,
    fun hreached _ => MarketCalendar.lt_nextTransition hreached⟩

/-- A zone that goes from UTC-2:30 to UTC-3:30 at 00:01, back to 23:01 of the day before. -/
def foldZone : TimeZone :=
  .oneChange (20000 * day + 151 * minute) (-(150 * minute)) (-(210 * minute)) (by decide) (by decide)
    (by decide)

/-- A regular session on the day before the change, and one in the first minute of the day. -/
def foldCalendar : MarketCalendar where
  tz := foldZone
  schedule :=
    [⟨19999, 19999 * day + 720 * minute, 19999 * day + 1110 * minute, none, none, by decide, rfl,
      by simp⟩,
    ⟨20000, 20000 * day + 150 * minute, 20000 * day + 151 * minute, none, none, by decide, rfl,
      by simp⟩]
  sorted := by decide

theorem foldCalendar_inside : foldCalendar.Inside := by
  have hbefore : ∀ {t : Instant}, t < 20000 * day + 151 * minute →
      foldZone.wall t = t - 150 * minute := fun ht => by
    rw [TimeZone.wall, show foldZone.utcOffset _ = -(150 * minute) from if_pos ht]
    rfl
  intro s hs t ht
  simp only [foldCalendar, List.mem_cons, List.not_mem_nil, or_false] at hs
  rcases hs with rfl | rfl
  · have hwall := hbefore (ht.2.trans (by decide))
    obtain ⟨hfrom, hto⟩ := ht
    refine TimeZone.localDate_eq (hwall ▸ ?_) (hwall ▸ ?_)
    · exact le_trans (by decide) (sub_le_sub_right hfrom _)
    · exact lt_trans (sub_lt_sub_right hto _) (by decide)
  · have hwall := hbefore ht.2
    obtain ⟨hfrom, hto⟩ := ht
    refine TimeZone.localDate_eq (hwall ▸ ?_) (hwall ▸ ?_)
    · exact le_trans (by decide) (sub_le_sub_right hfrom _)
    · exact lt_trans (sub_lt_sub_right hto _) (by decide)

/-- In the regular session, with its close ahead. -/
theorem foldCalendar_open :
    (∃ s ∈ foldCalendar.schedule, s.Contains (19999 * day + 800 * minute) ∧
      ¬ s.InBreak (19999 * day + 800 * minute)) ∧
      19999 * day + 800 * minute < 19999 * day + 1110 * minute := by
  have hstates := market_states_correct foldCalendar "LSE" (19999 * day + 800 * minute)
    foldCalendar_inside
  refine ⟨hstates.1.mp (by decide), hstates.2.2 ?_ _ (by decide)⟩
  show ∀ s ∈ foldCalendar.schedule, s.openTs ≤ 19999 * day + 800 * minute →
    s.date ≤ foldCalendar.tz.localDate (19999 * day + 800 * minute)
  decide

/-- Two minutes after its session the day of the second session has gone, and its open, now past,
is the next transition. -/
theorem past_transition_in_fold : ¬ ∀ (cal : MarketCalendar) (ibExchange : String) (now : Instant),
    cal.Inside →
    ((cal.status ibExchange now).state = .open ↔
        ∃ s ∈ cal.schedule, s.Contains now ∧ ¬ s.InBreak now) ∧
      ((cal.status ibExchange now).state = .lunch ↔ ∃ s ∈ cal.schedule, s.InBreak now) ∧
      ∀ t, (cal.status ibExchange now).nextTransition = some t → now < t := by
  intro h
  have hlater := (h foldCalendar "LSE" (20000 * day + 153 * minute) foldCalendar_inside).2.2
    (20000 * day + 150 * minute) (by decide)
  exact absurd hlater (by decide)

end PortfolioHub
