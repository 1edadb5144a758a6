import PortfolioHub.MarketStates

namespace PortfolioHub

namespace MarketSession

/-- The pre-market window of a session. -/
def PreMarket (s : MarketSession) (t : Instant) : Prop := s.preStart ≤ t ∧ t < s.openTs

/-- The after-hours window of a session. -/
def AfterHours (s : MarketSession) (t : Instant) : Prop := s.closeTs ≤ t ∧ t < s.postEnd

end MarketSession

namespace MarketCalendar

/-- The extended hours on the day of a session: before it, after it, and what the after-hours of the
session before it still take of the morning. -/
def Extended (cal : MarketCalendar) (s : MarketSession) (t : Instant) : Prop :=
  s.PreMarket t ∨ s.AfterHours t ∨
    t < s.openTs ∧ ∃ prev, cal.previousSession s.date = some prev ∧ prev.AfterHours t

/-- A countdown that ends at `t` is honest: the state stays until then, and no longer. -/
def Honest (cal : MarketCalendar) (ibExchange : String) (now : Instant) : Prop :=
  ∀ t, (cal.status ibExchange now).nextTransition = some t →
    (∀ u, now ≤ u → u < t →
      (cal.status ibExchange u).state = (cal.status ibExchange now).state) ∧
    (cal.status ibExchange t).state ≠ (cal.status ibExchange now).state

/-- After-hours that end at `t` neither reach into the session nor end in its pre-market. -/
def EndsBefore (cal : MarketCalendar) (s : MarketSession) (t : Instant) : Prop :=
  t ≤ s.openTs ∧ ¬ (cal.tz.localDate t = s.date ∧ s.PreMarket t)

/-- Where the reported transition is the next change of the state. -/
def Steady (cal : MarketCalendar) (ibExchange : String) (now : Instant) : Prop :=
  match cal.sessionOn (cal.tz.localDate now) with
  | none => ∀ next, cal.nextSession (cal.tz.localDate now) = some next →
      ∀ u, now ≤ u → u < next.openTs → cal.tz.localDate u ≠ next.date
  | some s => s.Contains now ∨
      if ibExchange ∈ usExtendedExchanges then
        s.PreMarket now ∨
        (s.AfterHours now ∧
          (∀ u, now ≤ u → u < s.postEnd → (cal.sessionOn (cal.tz.localDate u)).isSome) ∧
          ∀ next, cal.nextSession s.date = some next → cal.EndsBefore next s.postEnd) ∨
        (now < s.preStart ∧ ∃ prev, cal.previousSession s.date = some prev ∧
          prev.AfterHours now ∧ cal.EndsBefore s prev.postEnd) ∨
        (s.postEnd ≤ now ∧ ∀ next, cal.nextSession s.date = some next →
          ∀ u, now ≤ u → u < next.openTs → cal.tz.localDate u = s.date)
      else
        now < s.openTs ∨
        (s.closeTs ≤ now ∧ ∀ next, cal.nextSession s.date = some next →
          ∀ u, now ≤ u → u < next.openTs →
            cal.tz.localDate u = s.date ∨ cal.tz.localDate u = next.date)

/-- A calendar as the exchanges have them: sessions on their local days and apart from each other,
in a zone whose date never goes back. -/
structure Regular (cal : MarketCalendar) : Prop where
  inside : cal.Inside
  forward : Monotone cal.tz.localDate
  apart : cal.schedule.Pairwise fun a b => a.closeTs < b.openTs

variable {cal : MarketCalendar} {ibExchange : String} {s next : MarketSession} {now u : Instant}

theorem Regular.localDate_openTs (h : cal.Regular) (hs : s ∈ cal.schedule) :
    cal.tz.localDate s.openTs = s.date :=
  h.inside s hs s.openTs ⟨le_refl _, s.opens⟩

/-- No session is on when another closes. -/
theorem Regular.not_contains_closeTs (h : cal.Regular) (hs : s ∈ cal.schedule) :
    ∀ s' ∈ cal.schedule, ¬ s'.Contains s.closeTs := by
  intro s' hs' hin
  refine List.Pairwise.forall_of_forall_of_flip
    (R := fun s s' : MarketSession => ¬ s'.Contains s.closeTs) ?_ ?_ ?_ hs hs' hin
  · exact fun s _ hin => absurd hin.2 (lt_irrefl _)
  · exact h.apart.imp fun hlt hin => absurd hin.1 (not_le.mpr hlt)
  · exact h.apart.imp fun {a b} hlt hin =>
      absurd (hin.2.trans hlt) (not_lt.mpr b.opens.le)

/-- Between a moment and the next open, the days are without a session but for the two ends. -/
theorem Regular.between (h : cal.Regular)
    (hnext : cal.nextSession (cal.tz.localDate now) = some next) (hfrom : now ≤ u)
    (hto : u < next.openTs) :
    cal.tz.localDate u = cal.tz.localDate now ∨ cal.sessionOn (cal.tz.localDate u) = none ∨
      cal.tz.localDate u = next.date := by
  obtain ⟨hs, -, hleast⟩ := nextSession_eq_some hnext
  have hlow : cal.tz.localDate now ≤ cal.tz.localDate u := h.forward hfrom
  have hhigh : cal.tz.localDate u ≤ next.date := h.localDate_openTs hs ▸ h.forward hto.le
  rcases hlow.eq_or_lt with heq | hlt
  · exact Or.inl heq.symm
  · rcases hhigh.eq_or_lt with heq | hlt'
    · exact Or.inr (Or.inr heq)
    · refine Or.inr (Or.inl (sessionOn_eq_none.mpr fun s' hs' hdate => ?_))
      exact absurd (hleast s' hs' (hdate ▸ hlt)) (not_le.mpr (hdate ▸ hlt'))

theorem Regular.localDate_before (h : cal.Regular) (hon : cal.sessionOn (cal.tz.localDate now) = some s)
    (hfrom : now ≤ u) (hto : u ≤ s.openTs) : cal.tz.localDate u = cal.tz.localDate now := by
  obtain ⟨hs, hdate⟩ := sessionOn_eq_some.mp hon
  refine le_antisymm ?_ (h.forward hfrom)
  rw [← hdate, ← h.localDate_openTs hs]
  exact h.forward hto

/-- At its open a session is on. -/
theorem Regular.state_openTs (h : cal.Regular) (hs : s ∈ cal.schedule) :
    (cal.status ibExchange s.openTs).state = .open ∨
      (cal.status ibExchange s.openTs).state = .lunch := by
  have hin : s.Contains s.openTs := ⟨le_refl _, s.opens⟩
  rw [status_eq_sessionStatus (sessionOn_of_contains h.inside hs hin)]
  by_cases hbreak : s.InBreak s.openTs
  · exact Or.inr (sessionStatus_state.2.mpr hbreak)
  · exact Or.inl (sessionStatus_state.1.mpr ⟨hin, hbreak⟩)

theorem state_ne_holiday (hon : cal.sessionOn (cal.tz.localDate u) = some s) :
    (cal.status ibExchange u).state ≠ .holiday := by
  rw [status_eq_sessionStatus hon]
  by_cases hin : s.Contains u
  · by_cases hbreak : s.InBreak u
    · simp [sessionStatus_lunch hbreak]
    · simp [sessionStatus_state.1.mpr ⟨hin, hbreak⟩]
  · rcases @sessionStatus_outside cal ibExchange _ _ hin with
      ⟨hstate, -⟩ | ⟨hstate, -⟩
    · simp [hstate]
    · simp [hstate]

theorem Regular.honest_holiday_iff (h : cal.Regular)
    (hon : cal.sessionOn (cal.tz.localDate now) = none) :
    cal.Honest ibExchange now ↔ ∀ next, cal.nextSession (cal.tz.localDate now) = some next →
      ∀ u, now ≤ u → u < next.openTs → cal.tz.localDate u ≠ next.date := by
  have hstatus := @status_eq_holiday cal ibExchange _ hon
  unfold Honest
  rw [hstatus]
  constructor
  · intro hhonest next hnext u hfrom hto hdate
    obtain ⟨hs, -, -⟩ := nextSession_eq_some hnext
    have hstate := (hhonest next.openTs (Option.map_eq_some_iff.mpr ⟨next, hnext, rfl⟩)).1 u hfrom hto
    exact state_ne_holiday (sessionOn_eq_some.mpr ⟨hs, hdate.symm⟩) hstate
  · intro hsteady t ht
    obtain ⟨next, hnext, rfl⟩ := Option.map_eq_some_iff.mp ht
    refine ⟨fun u hfrom hto => ?_, ?_⟩
    · have hnone : cal.sessionOn (cal.tz.localDate u) = none := by
        rcases h.between hnext hfrom hto with hsame | hnone | hdate
        · rw [hsame]
          exact hon
        · exact hnone
        · exact absurd hdate (hsteady next hnext u hfrom hto)
      rw [status_eq_holiday hnone]
    · rcases @Regular.state_openTs cal ibExchange _ h (nextSession_eq_some hnext).1 with
        hstate | hstate
      · simp [hstate]
      · simp [hstate]

/-- In a session the reported transition is the next change. -/
theorem Regular.honest_of_contains (h : cal.Regular)
    (hon : cal.sessionOn (cal.tz.localDate now) = some s) (hin : s.Contains now) :
    cal.Honest ibExchange now := by
  obtain ⟨hs, -⟩ := sessionOn_eq_some.mp hon
  have hcontained : ∀ u, s.Contains u →
      cal.status ibExchange u = cal.sessionStatus ibExchange s u := fun u hu =>
    status_eq_sessionStatus (sessionOn_of_contains h.inside hs hu)
  have hafter : (cal.status ibExchange s.closeTs).state ≠ .open ∧
      (cal.status ibExchange s.closeTs).state ≠ .lunch := by
    constructor
    · intro hstate
      obtain ⟨s', hs', hin', -⟩ := (state_open_iff h.inside).mp hstate
      exact h.not_contains_closeTs hs s' hs' hin'
    · intro hstate
      obtain ⟨s', hs', hbreak⟩ := (state_lunch_iff h.inside).mp hstate
      exact h.not_contains_closeTs hs s' hs' hbreak.contains
  unfold Honest
  rw [hcontained now hin]
  by_cases hbreak : s.InBreak now
  · rw [sessionStatus_lunch hbreak]
    obtain ⟨b, hb, e, he, hfrom, hend⟩ := hbreak
    obtain ⟨hopen, hlunch, hclose⟩ := s.breaks b hb e he
    intro t ht
    obtain rfl : e = t := Option.some.inj (he.symm.trans ht)
    refine ⟨fun u hu hto => ?_, fun hstate => ?_⟩
    · have hbreak : s.InBreak u := ⟨b, hb, e, he, hfrom.trans hu, hto⟩
      rw [hcontained u hbreak.contains, sessionStatus_lunch hbreak]
    · obtain ⟨s', hs', hbreak⟩ := (state_lunch_iff h.inside).mp hstate
      rcases hclose.lt_or_eq with hlt | rfl
      · -- the break is over, and no other session is on
        have hine : s.Contains e := ⟨hopen.trans hlunch.le, hlt⟩
        obtain rfl := Option.some.inj ((sessionOn_of_contains h.inside hs hine).symm.trans
          (sessionOn_of_contains h.inside hs' hbreak.contains))
        obtain ⟨-, -, e', he', -, hbefore⟩ := hbreak
        obtain rfl := Option.some.inj (he.symm.trans he')
        exact lt_irrefl _ hbefore
      · exact h.not_contains_closeTs hs s' hs' hbreak.contains
  · rw [sessionStatus_open hin hbreak]
    split
    next hahead =>
      intro t ht
      dsimp only at ht
      rw [ht] at hahead
      have hlunch : s.breakEnd.isSome = true := by rw [s.paired, ht]; rfl
      obtain ⟨e, he⟩ := Option.isSome_iff_exists.mp hlunch
      obtain ⟨hopen, hlast, hclose⟩ := s.breaks t ht e he
      refine ⟨fun u hu hto => ?_, ?_⟩
      · have hinu : s.Contains u := ⟨hin.1.trans hu, hto.trans (hlast.trans_le hclose)⟩
        have hbreaku : ¬ s.InBreak u := by
          rintro ⟨b, hb, -, -, hfrom, -⟩
          obtain rfl := Option.some.inj (ht.symm.trans hb)
          exact absurd hto (not_lt.mpr hfrom)
        rw [hcontained u hinu]
        exact sessionStatus_state.1.mpr ⟨hinu, hbreaku⟩
      · have hbreakt : s.InBreak t := ⟨t, ht, e, he, le_refl _, hlast⟩
        rw [hcontained t hbreakt.contains, sessionStatus_lunch hbreakt]
        simp
    next hahead =>
      intro t ht
      obtain rfl := Option.some.inj ht
      refine ⟨fun u hu hto => ?_, hafter.1⟩
      have hinu : s.Contains u := ⟨hin.1.trans hu, hto⟩
      have hbreaku : ¬ s.InBreak u := by
        rintro ⟨b, hb, e, he, hfrom, hend⟩
        have hstarted : b ≤ now := by simpa [show s.breakStart = some b from hb] using hahead
        exact hbreak ⟨b, hb, e, he, hstarted, hu.trans_lt hend⟩
      rw [hcontained u hinu]
      exact sessionStatus_state.1.mpr ⟨hinu, hbreaku⟩

theorem extendedStatus_eq_none (h : ¬ cal.Extended s now) : cal.extendedStatus s now = none := by
  obtain ⟨hpre, h⟩ := not_or.mp h
  obtain ⟨hpost, hprev⟩ := not_or.mp h
  unfold extendedStatus previousSessionClose
  refine (if_neg hpre).trans ((if_neg hpost).trans ?_)
  split
  next hbefore =>
    cases hlast : cal.previousSession s.date with
    | none => rfl
    | some prev => exact if_neg fun hafter => hprev ⟨hbefore, prev, hlast, hafter⟩
  next => rfl

theorem extendedStatus_pre (h : s.PreMarket now) :
    cal.extendedStatus s now = some ⟨.extended, some .pre, some s.openTs, "Pre-market ends"⟩ :=
  if_pos h

theorem extendedStatus_post (h : s.AfterHours now) :
    cal.extendedStatus s now = some ⟨.extended, some .post, some s.postEnd, "After-hours ends"⟩ := by
  have hpre : ¬ s.PreMarket now := fun hpre =>
    absurd (s.opens.trans_le h.1) (not_lt.mpr hpre.2.le)
  exact (if_neg hpre).trans (if_pos h)

theorem extendedStatus_prev {prev : MarketSession} (hearly : now < s.preStart)
    (hlast : cal.previousSession s.date = some prev) (h : prev.AfterHours now) :
    cal.extendedStatus s now =
      some ⟨.extended, some .post, some prev.postEnd, "After-hours ends"⟩ := by
  have hbefore : now < s.openTs := hearly.trans s.preStart_lt_openTs
  have hpre : ¬ s.PreMarket now := fun hpre => absurd hearly (not_lt.mpr hpre.1)
  have hpost : ¬ s.AfterHours now := fun hpost =>
    absurd (s.opens.trans_le hpost.1) (not_lt.mpr hbefore.le)
  unfold extendedStatus previousSessionClose
  refine (if_neg hpre).trans ((if_neg hpost).trans ((if_pos hbefore).trans ?_))
  rw [hlast]
  exact if_pos h

/-- Out of its hours, regular and extended, a trading day is closed up to the next open. -/
theorem sessionStatus_closed (hout : ¬ s.Contains now)
    (hno : ibExchange ∈ usExtendedExchanges → ¬ cal.Extended s now) :
    cal.sessionStatus ibExchange s now =
      if now < s.openTs then ⟨.closed, none, some s.openTs, "Opens"⟩
      else ⟨.closed, none, cal.nextSessionOpen s.date, "Opens"⟩ := by
  have hnone : (if ibExchange ∈ usExtendedExchanges then cal.extendedStatus s now else none) =
      none := by
    split
    next hus => exact extendedStatus_eq_none (hno hus)
    next => rfl
  unfold sessionStatus
  rw [if_pos (MarketSession.not_contains_iff.mpr hout), hnone]

theorem sessionStatus_of_extended {status : SessionStatus} (hout : ¬ s.Contains now)
    (hus : ibExchange ∈ usExtendedExchanges) (h : cal.extendedStatus s now = some status) :
    cal.sessionStatus ibExchange s now = status := by
  unfold sessionStatus
  rw [if_pos (MarketSession.not_contains_iff.mpr hout), if_pos hus, h]

theorem state_closed (hon : cal.sessionOn (cal.tz.localDate u) = some s) (hout : ¬ s.Contains u)
    (hno : ibExchange ∈ usExtendedExchanges → ¬ cal.Extended s u) :
    (cal.status ibExchange u).state = .closed := by
  rw [status_eq_sessionStatus hon, sessionStatus_closed hout hno]
  split <;> rfl

theorem state_extended (hon : cal.sessionOn (cal.tz.localDate u) = some s)
    (hout : ¬ s.Contains u) (hus : ibExchange ∈ usExtendedExchanges) (h : cal.Extended s u) :
    (cal.status ibExchange u).state = .extended := by
  have hsome : cal.extendedStatus s u ≠ none := by
    rcases h with hpre | hpost | ⟨hbefore, prev, hlast, hprev⟩
    · rw [extendedStatus_pre hpre]
      simp
    · rw [extendedStatus_post hpost]
      simp
    · by_cases hpre : s.PreMarket u
      · rw [extendedStatus_pre hpre]
        simp
      · have hearly : u < s.preStart := by
          by_contra hlate
          exact hpre ⟨not_lt.mp hlate, hbefore⟩
        rw [extendedStatus_prev hearly hlast hprev]
        simp
  obtain ⟨status, hstatus⟩ := Option.ne_none_iff_exists'.mp hsome
  rw [status_eq_sessionStatus hon, sessionStatus_of_extended hout hus hstatus]
  exact (extendedStatus_eq_some hstatus).1

theorem Regular.state_openTs_ne (h : cal.Regular) (hs : s ∈ cal.schedule) {state : MarketState}
    (hstate : state = .closed ∨ state = .extended ∨ state = .holiday) :
    (cal.status ibExchange s.openTs).state ≠ state := by
  rcases @Regular.state_openTs cal ibExchange _ h hs with hopen | hlunch
  · rw [hopen]
    rcases hstate with rfl | rfl | rfl <;> simp
  · rw [hlunch]
    rcases hstate with rfl | rfl | rfl <;> simp

/-- Before its open, a venue without extended hours is closed until then. -/
theorem Regular.honest_before_open (h : cal.Regular) (hus : ibExchange ∉ usExtendedExchanges)
    (hon : cal.sessionOn (cal.tz.localDate now) = some s) (hbefore : now < s.openTs) :
    cal.Honest ibExchange now := by
  have hout : ∀ u, u < s.openTs → ¬ s.Contains u := fun u hu hin => absurd hu (not_lt.mpr hin.1)
  have hno : ∀ u, ibExchange ∈ usExtendedExchanges → ¬ cal.Extended s u := fun _ hmem =>
    absurd hmem hus
  unfold Honest
  rw [status_eq_sessionStatus hon, sessionStatus_closed (hout now hbefore) (hno now),
    if_pos hbefore]
  intro t ht
  obtain rfl := Option.some.inj ht
  refine ⟨fun u hfrom hto => ?_,
    h.state_openTs_ne (sessionOn_eq_some.mp hon).1 (Or.inl rfl)⟩
  rw [← h.localDate_before hon hfrom hto.le] at hon
  exact state_closed hon (hout u hto) (hno u)

/-- After its close, a venue without extended hours is closed until the next open if every day
until then has a session. -/
theorem Regular.honest_after_close_iff (h : cal.Regular) (hus : ibExchange ∉ usExtendedExchanges)
    (hon : cal.sessionOn (cal.tz.localDate now) = some s) (hafter : s.closeTs ≤ now) :
    cal.Honest ibExchange now ↔ ∀ next, cal.nextSession s.date = some next →
      ∀ u, now ≤ u → u < next.openTs →
        cal.tz.localDate u = s.date ∨ cal.tz.localDate u = next.date := by
  obtain ⟨hs, hdate⟩ := sessionOn_eq_some.mp hon
  have hout : ∀ u, now ≤ u → ¬ s.Contains u := fun u hu hin =>
    absurd hin.2 (not_lt.mpr (hafter.trans hu))
  have hno : ∀ (s : MarketSession) u, ibExchange ∈ usExtendedExchanges → ¬ cal.Extended s u :=
    fun _ _ hmem => absurd hmem hus
  have hlate : ¬ now < s.openTs := not_lt.mpr (s.opens.le.trans hafter)
  unfold Honest
  rw [status_eq_sessionStatus hon, sessionStatus_closed (hout now (le_refl _)) (hno s now),
    if_neg hlate]
  constructor
  · intro hhonest next hnext u hfrom hto
    have hstate := (hhonest next.openTs (Option.map_eq_some_iff.mpr ⟨next, hnext, rfl⟩)).1 u hfrom hto
    rw [hdate] at hnext
    rcases h.between hnext hfrom hto with hsame | hnone | hnextday
    · exact Or.inl (hsame.trans hdate.symm)
    · rw [status_eq_holiday hnone] at hstate
      cases hstate
    · exact Or.inr hnextday
  · intro hsteady t ht
    obtain ⟨next, hnext, rfl⟩ := Option.map_eq_some_iff.mp ht
    have hmem := (nextSession_eq_some hnext).1
    refine ⟨fun u hfrom hto => ?_, h.state_openTs_ne hmem (Or.inl rfl)⟩
    rcases hsteady next hnext u hfrom hto with hsame | hnextday
    · exact state_closed (sessionOn_eq_some.mpr ⟨hs, hsame.symm⟩) (hout u hfrom) (hno s u)
    · exact state_closed (sessionOn_eq_some.mpr ⟨hmem, hnextday.symm⟩)
        (fun hin => absurd hto (not_lt.mpr hin.1)) (hno next u)

theorem previousSession_of_next (hs : s ∈ cal.schedule)
    (hnext : cal.nextSession s.date = some next) : cal.previousSession next.date = some s := by
  obtain ⟨hmem, hlater, hleast⟩ := nextSession_eq_some hnext
  cases hlast : cal.previousSession next.date with
  | none => exact absurd hlater (not_lt.mpr (previousSession_eq_none.mp hlast s hs))
  | some prev =>
    obtain ⟨hprev, hbefore, hgreatest⟩ := previousSession_eq_some hlast
    have hle : s.date ≤ prev.date := hgreatest s hs hlater
    have hge : ¬ s.date < prev.date := fun hlt => absurd hbefore (not_lt.mpr (hleast prev hprev hlt))
    rw [eq_of_date_eq hs hprev (le_antisymm hle (not_lt.mp hge))]

theorem not_extended_at_postEnd {prev : MarketSession} {t : Instant}
    (hlast : cal.previousSession s.date = some prev) (hend : prev.postEnd ≤ t) (hbefore : t < s.openTs)
    (hpre : ¬ s.PreMarket t) : ¬ cal.Extended s t := by
  rintro (h | h | ⟨-, prev', hprev', h⟩)
  · exact hpre h
  · exact absurd (s.opens.trans_le h.1) (not_lt.mpr hbefore.le)
  · obtain rfl := Option.some.inj (hlast.symm.trans hprev')
    exact absurd h.2 (not_lt.mpr hend)

/-- The pre-market lasts until the open. -/
theorem Regular.honest_preMarket (h : cal.Regular) (hus : ibExchange ∈ usExtendedExchanges)
    (hon : cal.sessionOn (cal.tz.localDate now) = some s) (hpre : s.PreMarket now) :
    cal.Honest ibExchange now := by
  have hout : ∀ u, u < s.openTs → ¬ s.Contains u := fun u hu hin => absurd hu (not_lt.mpr hin.1)
  unfold Honest
  rw [status_eq_sessionStatus hon,
    sessionStatus_of_extended (hout now hpre.2) hus (extendedStatus_pre hpre)]
  intro t ht
  obtain rfl := Option.some.inj ht
  refine ⟨fun u hfrom hto => ?_,
    h.state_openTs_ne (sessionOn_eq_some.mp hon).1 (Or.inr (Or.inl rfl))⟩
  rw [← h.localDate_before hon hfrom hto.le] at hon
  exact state_extended hon (hout u hto) hus (Or.inl ⟨hpre.1.trans hfrom, hto⟩)

/-- After a close the after-hours last their time if no day without a session, no open and no
pre-market cuts in. -/
theorem Regular.honest_afterHours_iff (h : cal.Regular) (hus : ibExchange ∈ usExtendedExchanges)
    (hon : cal.sessionOn (cal.tz.localDate now) = some s) (hpost : s.AfterHours now) :
    cal.Honest ibExchange now ↔
      (∀ u, now ≤ u → u < s.postEnd → (cal.sessionOn (cal.tz.localDate u)).isSome) ∧
      ∀ next, cal.nextSession s.date = some next → cal.EndsBefore next s.postEnd := by
  obtain ⟨hs, hdate⟩ := sessionOn_eq_some.mp hon
  have hout : ∀ u, now ≤ u → ¬ s.Contains u := fun u hu hin =>
    absurd hin.2 (not_lt.mpr (hpost.1.trans hu))
  have hnextopen : ∀ next, cal.nextSession s.date = some next → now ≤ next.openTs := by
    intro next hnext
    obtain ⟨hmem, hlater, -⟩ := nextSession_eq_some hnext
    by_contra hopen
    have hback := h.forward (not_le.mp hopen).le
    rw [h.localDate_openTs hmem, ← hdate] at hback
    exact absurd hlater (not_lt.mpr hback)
  unfold Honest
  rw [status_eq_sessionStatus hon,
    sessionStatus_of_extended (hout now (le_refl _)) hus (extendedStatus_post hpost)]
  constructor
  · intro hhonest
    obtain ⟨hstays, hends⟩ := hhonest s.postEnd rfl
    refine ⟨fun u hfrom hto => ?_, fun next hnext => ?_⟩
    · by_contra hnone
      have hstate := hstays u hfrom hto
      rw [status_eq_holiday (by simpa using hnone)] at hstate
      cases hstate
    · obtain ⟨hmem, -, -⟩ := nextSession_eq_some hnext
      have hle : s.postEnd ≤ next.openTs := by
        by_contra hopen
        exact h.state_openTs_ne hmem (Or.inr (Or.inl rfl))
          (hstays next.openTs (hnextopen next hnext) (not_le.mp hopen))
      refine ⟨hle, fun ⟨hday, hpre⟩ => hends ?_⟩
      exact state_extended (sessionOn_eq_some.mpr ⟨hmem, hday.symm⟩)
        (fun hin => absurd hpre.2 (not_lt.mpr hin.1)) hus (Or.inl hpre)
  · rintro ⟨hdays, hnexts⟩ t ht
    obtain rfl := Option.some.inj ht
    -- the days met are that of the close and that of the next session
    have hnextday : ∀ u s', now ≤ u → u ≤ s.postEnd →
        cal.sessionOn (cal.tz.localDate u) = some s' → s' = s ∨
          cal.nextSession s.date = some s' ∧ cal.EndsBefore s' s.postEnd := by
      intro u s' hfrom hto hon'
      obtain ⟨hs', hdate'⟩ := sessionOn_eq_some.mp hon'
      rcases (h.forward hfrom).eq_or_lt with hsame | hlater
      · rw [← hsame] at hon'
        exact Or.inl (Option.some.inj (hon'.symm.trans hon))
      · rw [← hdate, ← hdate'] at hlater
        cases hnext : cal.nextSession s.date with
        | none => exact absurd hlater (not_lt.mpr (nextSession_eq_none.mp hnext s' hs'))
        | some next =>
          obtain ⟨hmem, -, hleast⟩ := nextSession_eq_some hnext
          have hends := hnexts next hnext
          have hback := h.forward (hto.trans hends.1)
          rw [h.localDate_openTs hmem, ← hdate'] at hback
          obtain rfl := eq_of_date_eq hs' hmem (le_antisymm hback (hleast s' hs' hlater))
          exact Or.inr ⟨rfl, hends⟩
    constructor
    · intro u hfrom hto
      obtain ⟨s', hon'⟩ := Option.isSome_iff_exists.mp (hdays u hfrom hto)
      have hhours : s.AfterHours u := ⟨hpost.1.trans hfrom, hto⟩
      rcases hnextday u s' hfrom hto.le hon' with rfl | ⟨hnext, hends⟩
      · exact state_extended hon' (hout u hfrom) hus (Or.inr (Or.inl hhours))
      · have hbefore : u < s'.openTs := hto.trans_le hends.1
        exact state_extended hon' (fun hin => absurd hbefore (not_lt.mpr hin.1)) hus
          (Or.inr (Or.inr ⟨hbefore, s, previousSession_of_next hs hnext, hhours⟩))
    · have hlate : now ≤ s.postEnd := hpost.2.le
      cases hon' : cal.sessionOn (cal.tz.localDate s.postEnd) with
      | none =>
        rw [status_eq_holiday hon']
        simp
      | some s' =>
        rcases hnextday s.postEnd s' hlate (le_refl _) hon' with rfl | ⟨hnext, hle, hpre⟩
        · have hclosed := s'.closeTs_lt_postEnd
          rw [state_closed hon' (hout _ hlate) fun _ => ?_]
          · simp
          · rintro (hpre | hafter | ⟨hbefore, -⟩)
            · exact absurd hpre.2 (not_lt.mpr (s'.opens.trans hclosed).le)
            · exact lt_irrefl _ hafter.2
            · exact absurd hbefore (not_lt.mpr (s'.opens.trans hclosed).le)
        · obtain ⟨hmem, hdate'⟩ := sessionOn_eq_some.mp hon'
          rcases hle.eq_or_lt with heq | hlt
          · rw [heq]
            exact h.state_openTs_ne hmem (Or.inr (Or.inl rfl))
          · rw [state_closed hon' (fun hin => absurd hlt (not_lt.mpr hin.1)) fun _ =>
              not_extended_at_postEnd (previousSession_of_next hs hnext) (le_refl _) hlt
                fun hpremarket => hpre ⟨hdate'.symm, hpremarket⟩]
            simp

/-- In the morning the after-hours of the session before last their time if the open and the
pre-market of the day leave it to them. -/
theorem Regular.honest_previous_iff (h : cal.Regular) (hus : ibExchange ∈ usExtendedExchanges)
    (hon : cal.sessionOn (cal.tz.localDate now) = some s) (hearly : now < s.preStart)
    {prev : MarketSession} (hlast : cal.previousSession s.date = some prev)
    (hpost : prev.AfterHours now) :
    cal.Honest ibExchange now ↔ cal.EndsBefore s prev.postEnd := by
  obtain ⟨hs, hdate⟩ := sessionOn_eq_some.mp hon
  have hbefore : now < s.openTs := hearly.trans s.preStart_lt_openTs
  have hout : ∀ u, u < s.openTs → ¬ s.Contains u := fun u hu hin => absurd hu (not_lt.mpr hin.1)
  have hday : ∀ u, now ≤ u → u ≤ s.openTs → cal.sessionOn (cal.tz.localDate u) = some s :=
    fun u hfrom hto => h.localDate_before hon hfrom hto ▸ hon
  unfold Honest
  rw [status_eq_sessionStatus hon,
    sessionStatus_of_extended (hout now hbefore) hus (extendedStatus_prev hearly hlast hpost)]
  constructor
  · intro hhonest
    obtain ⟨hstays, hends⟩ := hhonest prev.postEnd rfl
    have hle : prev.postEnd ≤ s.openTs := by
      by_contra hopen
      exact h.state_openTs_ne hs (Or.inr (Or.inl rfl))
        (hstays s.openTs hbefore.le (not_le.mp hopen))
    refine ⟨hle, fun ⟨hsame, hpre⟩ => hends ?_⟩
    exact state_extended (sessionOn_eq_some.mpr ⟨hs, hsame.symm⟩) (hout _ hpre.2) hus (Or.inl hpre)
  · rintro ⟨hle, hpre⟩ t ht
    obtain rfl := Option.some.inj ht
    constructor
    · intro u hfrom hto
      have hbeforeu : u < s.openTs := hto.trans_le hle
      exact state_extended (hday u hfrom hbeforeu.le) (hout u hbeforeu) hus
        (Or.inr (Or.inr ⟨hbeforeu, prev, hlast, hpost.1.trans hfrom, hto⟩))
    · have hlate : now ≤ prev.postEnd := hpost.2.le
      rcases hle.eq_or_lt with heq | hlt
      · rw [heq]
        exact h.state_openTs_ne hs (Or.inr (Or.inl rfl))
      · have honend := hday prev.postEnd hlate hle
        have hdate' := (sessionOn_eq_some.mp honend).2
        rw [state_closed honend (hout _ hlt) fun _ =>
          not_extended_at_postEnd hlast (le_refl _) hlt fun hpremarket =>
            hpre ⟨hdate'.symm, hpremarket⟩]
        simp

/-- A venue with a pre-market does not stay closed up to the open. -/
theorem Regular.not_honest_before_preMarket (h : cal.Regular)
    (hus : ibExchange ∈ usExtendedExchanges)
    (hon : cal.sessionOn (cal.tz.localDate now) = some s) (hearly : now < s.preStart)
    (hprev : ¬ ∃ prev, cal.previousSession s.date = some prev ∧ prev.AfterHours now) :
    ¬ cal.Honest ibExchange now := by
  have hbefore : now < s.openTs := hearly.trans s.preStart_lt_openTs
  have hout : ∀ u, u < s.openTs → ¬ s.Contains u := fun u hu hin => absurd hu (not_lt.mpr hin.1)
  have hno : ¬ cal.Extended s now := by
    rintro (hpre | hpost | ⟨-, hafter⟩)
    · exact absurd hearly (not_lt.mpr hpre.1)
    · exact absurd hbefore (not_lt.mpr (s.opens.le.trans hpost.1))
    · exact hprev hafter
  intro hhonest
  unfold Honest at hhonest
  rw [status_eq_sessionStatus hon, sessionStatus_closed (hout now hbefore) fun _ => hno,
    if_pos hbefore] at hhonest
  have hstate := (hhonest s.openTs rfl).1 s.preStart hearly.le s.preStart_lt_openTs
  rw [← h.localDate_before hon hearly.le s.preStart_lt_openTs.le] at hon
  rw [state_extended hon (hout _ s.preStart_lt_openTs) hus
    (Or.inl ⟨le_refl _, s.preStart_lt_openTs⟩)] at hstate
  cases hstate

/-- After the after-hours, a venue with a pre-market stays closed up to the next open only if the
day of the next session begins with it. -/
theorem Regular.honest_after_hours_end_iff (h : cal.Regular)
    (hus : ibExchange ∈ usExtendedExchanges)
    (hon : cal.sessionOn (cal.tz.localDate now) = some s) (hlate : s.postEnd ≤ now) :
    cal.Honest ibExchange now ↔ ∀ next, cal.nextSession s.date = some next →
      ∀ u, now ≤ u → u < next.openTs → cal.tz.localDate u = s.date := by
  obtain ⟨hs, hdate⟩ := sessionOn_eq_some.mp hon
  have hclosed : ∀ u, now ≤ u → s.closeTs < u := fun u hu =>
    (s.closeTs_lt_postEnd.trans_le hlate).trans_le hu
  have hout : ∀ u, now ≤ u → ¬ s.Contains u := fun u hu hin =>
    absurd hin.2 (not_lt.mpr (hclosed u hu).le)
  have hno : ∀ u, now ≤ u → ¬ cal.Extended s u := by
    rintro u hu (hpre | hpost | ⟨hbefore, -⟩)
    · exact absurd hpre.2 (not_lt.mpr (s.opens.trans (hclosed u hu)).le)
    · exact absurd hpost.2 (not_lt.mpr (hlate.trans hu))
    · exact absurd hbefore (not_lt.mpr (s.opens.trans (hclosed u hu)).le)
  have hafter : ¬ now < s.openTs := not_lt.mpr (s.opens.trans (hclosed now (le_refl _))).le
  unfold Honest
  rw [status_eq_sessionStatus hon,
    sessionStatus_closed (hout now (le_refl _)) fun _ => hno now (le_refl _), if_neg hafter]
  constructor
  · intro hhonest next hnext u hfrom hto
    obtain ⟨hmem, -, -⟩ := nextSession_eq_some hnext
    have hstays := (hhonest next.openTs (Option.map_eq_some_iff.mpr ⟨next, hnext, rfl⟩)).1
    have hstate := hstays u hfrom hto
    rw [hdate] at hnext
    rcases h.between hnext hfrom hto with hsame | hnone | hnextday
    · exact hsame.trans hdate.symm
    · rw [status_eq_holiday hnone] at hstate
      cases hstate
    · -- from here on it is the day of the next session, and its pre-market comes
      have hlast : max u next.preStart < next.openTs := max_lt hto next.preStart_lt_openTs
      have hsame : cal.tz.localDate (max u next.preStart) = next.date := by
        refine le_antisymm ?_ (hnextday ▸ h.forward (le_max_left _ _))
        rw [← h.localDate_openTs hmem]
        exact h.forward hlast.le
      have hpre := hstays _ (hfrom.trans (le_max_left _ _)) hlast
      rw [state_extended (sessionOn_eq_some.mpr ⟨hmem, hsame.symm⟩)
        (fun hin => absurd hlast (not_lt.mpr hin.1)) hus
        (Or.inl ⟨le_max_right _ _, hlast⟩)] at hpre
      cases hpre
  · intro hsteady t ht
    obtain ⟨next, hnext, rfl⟩ := Option.map_eq_some_iff.mp ht
    refine ⟨fun u hfrom hto => ?_, h.state_openTs_ne (nextSession_eq_some hnext).1 (Or.inl rfl)⟩
    exact state_closed (sessionOn_eq_some.mpr ⟨hs, (hsteady next hnext u hfrom hto).symm⟩)
      (hout u hfrom) fun _ => hno u hfrom

end MarketCalendar

open MarketCalendar

/-- The countdown is honest exactly where no change of the state comes before the one it counts
down to. -/
theorem countdown_honest_iff (cal : MarketCalendar) (ibExchange : String) (now : Instant)
    (h : cal.Regular) : cal.Honest ibExchange now ↔ cal.Steady ibExchange now := by
  unfold Steady
  cases hon : cal.sessionOn (cal.tz.localDate now) with
  | none => exact h.honest_holiday_iff hon
  | some s =>
    dsimp only
    by_cases hin : s.Contains now
    · exact iff_of_true (h.honest_of_contains hon hin) (Or.inl hin)
    rw [or_iff_right hin]
    have hside : now < s.openTs ∨ s.closeTs ≤ now := MarketSession.not_contains_iff.mpr hin
    split
    next hus =>
      rcases hside with hbefore | hafter
      · have hnotpost : ¬ s.AfterHours now := fun hpost =>
          absurd (s.opens.trans_le hpost.1) (not_lt.mpr hbefore.le)
        have hnotlate : ¬ s.postEnd ≤ now := fun hle =>
          absurd (s.opens.trans (s.closeTs_lt_postEnd.trans_le hle)) (not_lt.mpr hbefore.le)
        rcases lt_or_ge now s.preStart with hearly | hpre
        · have hnotpre : ¬ s.PreMarket now := fun hpre => absurd hearly (not_lt.mpr hpre.1)
          rw [or_iff_right hnotpre, or_iff_right fun hpost => hnotpost hpost.1,
            or_iff_left fun hlate => hnotlate hlate.1, and_iff_right hearly]
          by_cases hprev : ∃ prev, cal.previousSession s.date = some prev ∧ prev.AfterHours now
          · obtain ⟨prev, hlast, hpost⟩ := hprev
            rw [h.honest_previous_iff hus hon hearly hlast hpost]
            constructor
            · exact fun hends => ⟨prev, hlast, hpost, hends⟩
            · rintro ⟨prev', hlast', -, hends⟩
              obtain rfl := Option.some.inj (hlast.symm.trans hlast')
              exact hends
          · refine iff_of_false (h.not_honest_before_preMarket hus hon hearly hprev) ?_
            rintro ⟨prev, hlast, hpost, -⟩
            exact hprev ⟨prev, hlast, hpost⟩
        · exact iff_of_true (h.honest_preMarket hus hon ⟨hpre, hbefore⟩) (Or.inl ⟨hpre, hbefore⟩)
      · have hlater : s.openTs < now := s.opens.trans_le hafter
        have hnotpre : ¬ s.PreMarket now := fun hpre => absurd hpre.2 (not_lt.mpr hlater.le)
        have hnotearly : ¬ now < s.preStart := fun hearly =>
          absurd (hearly.trans s.preStart_lt_openTs) (not_lt.mpr hlater.le)
        rw [or_iff_right hnotpre, or_iff_right (a := now < s.preStart ∧ _) fun hearly => hnotearly hearly.1]
        rcases lt_or_ge now s.postEnd with hpost | hlate
        · rw [h.honest_afterHours_iff hus hon ⟨hafter, hpost⟩,
            or_iff_left fun hlate => absurd hpost (not_lt.mpr hlate.1)]
          exact (and_iff_right ⟨hafter, hpost⟩).symm
        · rw [h.honest_after_hours_end_iff hus hon hlate,
            or_iff_right fun hpost => absurd hlate (not_le.mpr hpost.1.2)]
          exact (and_iff_right hlate).symm
    next hus =>
      rcases hside with hbefore | hafter
      · exact iff_of_true (h.honest_before_open hus hon hbefore) (Or.inl hbefore)
      · rw [h.honest_after_close_iff hus hon hafter, or_iff_right (not_lt.mpr (s.opens.le.trans hafter))]
        exact (and_iff_right hafter).symm

/-- Hong Kong on a Friday and the Monday after it. -/
def hongKong : MarketCalendar where
  tz := .fixed (8 * hour) (by decide)
  schedule :=
    [⟨20609, 20609 * day + 90 * minute, 20609 * day + 480 * minute,
      some (20609 * day + 240 * minute), some (20609 * day + 300 * minute), by decide, rfl,
      by decide⟩,
    ⟨20612, 20612 * day + 90 * minute, 20612 * day + 480 * minute,
      some (20612 * day + 240 * minute), some (20612 * day + 300 * minute), by decide, rfl,
      by decide⟩]
  sorted := by decide

theorem hongKong_regular : hongKong.Regular where
  inside := by
    intro s hs t ht
    obtain ⟨hfrom, hto⟩ := ht
    have hwall : hongKong.tz.wall t = t + 8 * hour := rfl
    simp only [hongKong, List.mem_cons, List.not_mem_nil, or_false] at hs
    rcases hs with rfl | rfl
    · refine TimeZone.localDate_eq (hwall ▸ ?_) (hwall ▸ ?_)
      · exact le_trans (by decide) (Int.add_le_add_right hfrom _)
      · exact lt_trans (Int.add_lt_add_right hto _) (by decide)
    · refine TimeZone.localDate_eq (hwall ▸ ?_) (hwall ▸ ?_)
      · exact le_trans (by decide) (Int.add_le_add_right hfrom _)
      · exact lt_trans (Int.add_lt_add_right hto _) (by decide)
  forward := TimeZone.localDate_fixed_mono _ _
  apart := by decide

/-- In the lunch break the countdown is to its end. -/
theorem hongKong_lunch_honest : hongKong.Honest "SEHK" (20609 * day + 270 * minute) := by
  refine (countdown_honest_iff hongKong "SEHK" _ hongKong_regular).mpr ?_
  unfold Steady
  rw [show hongKong.sessionOn (hongKong.tz.localDate (20609 * day + 270 * minute)) =
    hongKong.schedule.head? by decide]
  exact Or.inl (by decide)

/-- On Friday evening the countdown is to Monday's open, but from Saturday on it is a holiday. -/
theorem not_honest_friday_evening : ¬ hongKong.Honest "SEHK" (20609 * day + 540 * minute) := by
  intro h
  have hstate := (h (20612 * day + 90 * minute) (by decide)).1 (20610 * day) (by decide) (by decide)
  exact absurd hstate (by decide)

end PortfolioHub
