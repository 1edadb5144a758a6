import PortfolioHub.MarketStates
import PortfolioHub.SnapshotLoop

namespace PortfolioHub

namespace MarketCalendar

/-- The calendar as `next_close_at` reads it. -/
def closes (cal : MarketCalendar) : ExchangeCalendar where
  localDate := cal.tz.localDate
  schedule := cal.schedule.map fun s => ⟨s.date, s.closeTs⟩
  forward := List.pairwise_map.mpr (cal.sorted.imp fun {_ b} h => ⟨h.1, h.2.trans_lt b.opens⟩)

variable {cal : MarketCalendar} {now : Instant}

/-- No session labelled before the local date is still to close. -/
def Ahead (cal : MarketCalendar) (now : Instant) : Prop :=
  ∀ s ∈ cal.schedule, now < s.closeTs → cal.tz.localDate now ≤ s.date

/-- The session with the least close after the moment. -/
structure ClosesNext (cal : MarketCalendar) (now : Instant) (s : MarketSession) : Prop where
  mem : s ∈ cal.schedule
  later : now < s.closeTs
  least : ∀ s' ∈ cal.schedule, now < s'.closeTs → s.closeTs ≤ s'.closeTs

theorem ahead_of_monotone (hinside : cal.Inside) (hforward : Monotone cal.tz.localDate)
    (now : Instant) : cal.Ahead now := by
  intro s hs hclose
  rw [← hinside s hs s.openTs ⟨le_refl _, s.opens⟩]
  rcases le_total now s.openTs with hbefore | hopen
  · exact hforward hbefore
  · rw [hinside s hs now ⟨hopen, hclose⟩, hinside s hs s.openTs ⟨le_refl _, s.opens⟩]

theorem mem_window {calendars : String → MarketCalendar} {ibExchange mic : String}
    (hmic : ibExchangeToMic.lookup ibExchange = some mic) {row : Session} :
    row ∈ windowOf (fun mic => (calendars mic).closes) now ibExchange ↔
      ∃ s ∈ (calendars mic).schedule, row = ⟨s.date, s.closeTs⟩ ∧
        (calendars mic).tz.localDate now ≤ s.date ∧
        s.date ≤ (calendars mic).tz.localDate now + 21 := by
  unfold windowOf ExchangeCalendar.window
  rw [hmic]
  simp only [closes, List.mem_filter, List.mem_map]
  constructor
  · rintro ⟨⟨s, hs, rfl⟩, hwindow⟩
    exact ⟨s, hs, rfl, of_decide_eq_true hwindow⟩
  · rintro ⟨s, hs, rfl, hwindow⟩
    exact ⟨⟨s, hs, rfl⟩, decide_eq_true hwindow⟩

/-- What the search for the next close finds is a later close that it looks at. -/
theorem nextClose_eq_some {calendars : String → MarketCalendar} {ibExchange mic : String}
    (hmic : ibExchangeToMic.lookup ibExchange = some mic) {c : Instant}
    (h : nextCloseAt (fun mic => (calendars mic).closes) now ibExchange = some c) :
    ∃ s ∈ (calendars mic).schedule, s.closeTs = c ∧ now < c ∧
      s.date ≤ (calendars mic).tz.localDate now + 21 := by
  rw [nextCloseAt_eq_find] at h
  obtain ⟨row, hfind, rfl⟩ := Option.map_eq_some_iff.mp h
  obtain ⟨s, hs, rfl, -, hwindow⟩ := (mem_window hmic).mp (List.mem_of_find?_eq_some hfind)
  exact ⟨s, hs, rfl, by simpa using List.find?_some hfind, hwindow⟩

/-- The search for the next close finds the least one, where it looks for it. -/
theorem nextClose_of_closesNext {calendars : String → MarketCalendar} {ibExchange mic : String}
    (hmic : ibExchangeToMic.lookup ibExchange = some mic) (hahead : (calendars mic).Ahead now)
    {s : MarketSession} (hnext : (calendars mic).ClosesNext now s) :
    nextCloseAt (fun mic => (calendars mic).closes) now ibExchange =
      if s.date ≤ (calendars mic).tz.localDate now + 21 then some s.closeTs else none := by
  split
  next hwindow =>
    have hrow := (@mem_window now calendars _ _ hmic _).mpr
      ⟨s, hnext.mem, rfl, hahead s hnext.mem hnext.later, hwindow⟩
    obtain ⟨c, hc, hle⟩ := nextCloseAt_le hrow hnext.later
    obtain ⟨s', hs', rfl, hlater, -⟩ := nextClose_eq_some hmic hc
    rw [hc, le_antisymm hle (hnext.least s' hs' hlater)]
  next hbeyond =>
    cases hc : nextCloseAt (fun mic => (calendars mic).closes) now ibExchange with
    | none => rfl
    | some c =>
      obtain ⟨s', hs', rfl, hlater, hwindow⟩ := nextClose_eq_some hmic hc
      have hearlier : s'.closeTs ≤ s.openTs :=
        closeTs_le_openTs hs' hnext.mem (hwindow.trans_lt (not_le.mp hbeyond))
      exact absurd (hnext.least s' hs' hlater) (not_le.mpr (hearlier.trans_lt s.opens))

theorem nextClose_eq_none {calendars : String → MarketCalendar} {ibExchange mic : String}
    (hmic : ibExchangeToMic.lookup ibExchange = some mic)
    (hclosed : ∀ s ∈ (calendars mic).schedule, s.closeTs ≤ now) :
    nextCloseAt (fun mic => (calendars mic).closes) now ibExchange = none := by
  cases hc : nextCloseAt (fun mic => (calendars mic).closes) now ibExchange with
  | none => rfl
  | some c =>
    obtain ⟨s, hs, rfl, hlater, -⟩ := nextClose_eq_some hmic hc
    exact absurd hlater (not_lt.mpr (hclosed s hs))

end MarketCalendar

/-- A pass of `scheduled_snapshot_loop`: the positions it has been given, the moments at which
`next_close_at` reads the clock for each of their exchanges, the moment of `now()`, and the moment
at which the sleeps of the pass are over. -/
structure LoopPass where
  positions : Except Python.Error (List Position)
  reads : List (String × Instant)
  current : Instant
  resumes : Instant
  held : (reads.map (·.1)).Perm (stockExchanges (positions.toOption.getD []))

namespace LoopPass

/-- `_next_close_across_held_exchanges`, with the clock read anew for each exchange. -/
def target (calendars : String → ExchangeCalendar) (pass : LoopPass) : Option (String × Instant) :=
  pass.reads.foldl (fun soonest read => soonerClose calendars read.2 soonest read.1) none

/-- The passes follow one clock that does not go back, and no sleep ends early. -/
def Timed (calendars : String → ExchangeCalendar) : Instant → List LoopPass → Prop
  | _, [] => True
  | start, pass :: passes =>
    (∀ read ∈ pass.reads, start ≤ read.2 ∧ read.2 ≤ pass.current) ∧
      start ≤ pass.current ∧ pass.current ≤ pass.resumes ∧
      (∀ ibEx closeAt, pass.target calendars = some (ibEx, closeAt) →
        pass.current + max 0 (closeAt - pass.current) + second ≤ pass.resumes) ∧
      Timed calendars pass.resumes passes

/-- The closes that the passes capture. -/
def captures (calendars : String → ExchangeCalendar) (passes : List LoopPass) : List Instant :=
  passes.filterMap fun pass => (pass.target calendars).map (·.2)

/-- The target is after the moment at which the clock was read for it. -/
theorem lt_target {calendars : String → ExchangeCalendar} {pass : LoopPass} {start : Instant}
    (hreads : ∀ read ∈ pass.reads, start ≤ read.2) {ibEx : String} {closeAt : Instant}
    (h : pass.target calendars = some (ibEx, closeAt)) : start < closeAt := by
  suffices hfold : ∀ (reads : List (String × Instant)) (soonest : Option (String × Instant)),
      (∀ read ∈ reads, start ≤ read.2) → (∀ best ∈ soonest, start < best.2) →
        ∀ best ∈ reads.foldl (fun soonest read => soonerClose calendars read.2 soonest read.1) soonest,
          start < best.2 from hfold pass.reads none hreads (by simp) (ibEx, closeAt) h
  intro reads
  induction reads with
  | nil => exact fun soonest _ hbest => hbest
  | cons read reads ih =>
    intro soonest hreads hsoonest
    refine ih _ (fun r hr => hreads r (List.mem_cons_of_mem _ hr)) ?_
    dsimp only
    rcases soonerClose_cases calendars read.2 soonest read.1 with ⟨heq, -⟩ | ⟨c, hc, heq, -⟩
    · rw [heq]
      exact hsoonest
    · rw [heq]
      rintro best hbest
      obtain rfl := Option.some.inj hbest
      obtain ⟨-, -, -, hlater⟩ := nextCloseAt_spec hc
      exact (hreads read List.mem_cons_self).trans_lt hlater

/-- Along the passes every capture is after all earlier ones, and after the start. -/
theorem captures_increasing {calendars : String → ExchangeCalendar} {passes : List LoopPass}
    {start : Instant} (h : Timed calendars start passes) :
    (captures calendars passes).Pairwise (· < ·) ∧ ∀ c ∈ captures calendars passes, start < c := by
  induction passes generalizing start with
  | nil => exact ⟨List.Pairwise.nil, by simp [captures]⟩
  | cons pass passes ih =>
    obtain ⟨hreads, hstart, hresumes, hsleeps, hrest⟩ := h
    obtain ⟨hincreasing, hafter⟩ := ih hrest
    have hlater : ∀ c ∈ captures calendars passes, start < c := fun c hc =>
      (hstart.trans hresumes).trans_lt (hafter c hc)
    unfold captures at hincreasing hafter hlater ⊢
    cases htarget : pass.target calendars with
    | none =>
      rw [List.filterMap_cons_none (by rw [htarget]; rfl)]
      exact ⟨hincreasing, hlater⟩
    | some first =>
      obtain ⟨ibEx, closeAt⟩ := first
      have hfirst : start < closeAt := lt_target (fun read hread => (hreads read hread).1) htarget
      have hslept : closeAt ≤ pass.resumes := by
        have hdelay : closeAt - pass.current ≤ max 0 (closeAt - pass.current) := le_max_right _ _
        have hsecond : (0 : ℤ) ≤ second := by decide
        have hawake := hsleeps ibEx closeAt htarget
        linarith
      rw [List.filterMap_cons_some (by rw [htarget]; rfl)]
      refine ⟨List.pairwise_cons.mpr ⟨fun c hc => hslept.trans_lt (hafter c hc), hincreasing⟩, ?_⟩
      intro c hc
      rcases List.mem_cons.mp hc with rfl | hc
      · exact hfirst
      · exact hlater c hc

end LoopPass

open MarketCalendar

/-- The next close is the least one, if it is labelled within 21 days, wherever no session labelled
before the local date is still to close; the loop captures its closes in increasing order. -/
theorem next_closes_and_captures (calendars : String → MarketCalendar) :
    (∀ ibExchange mic now, ibExchangeToMic.lookup ibExchange = some mic →
      (calendars mic).Ahead now →
        (∀ s, (calendars mic).ClosesNext now s →
          nextCloseAt (fun mic => (calendars mic).closes) now ibExchange =
            if s.date ≤ (calendars mic).tz.localDate now + 21 then some s.closeTs else none) ∧
        ((∀ s ∈ (calendars mic).schedule, s.closeTs ≤ now) →
          nextCloseAt (fun mic => (calendars mic).closes) now ibExchange = none)) ∧
    ∀ start passes, LoopPass.Timed (fun mic => (calendars mic).closes) start passes →
      (LoopPass.captures (fun mic => (calendars mic).closes) passes).Pairwise (· < ·) :=
  ⟨fun _ _ _ hmic hahead => ⟨fun _ hnext => nextClose_of_closesNext hmic hahead hnext,
      nextClose_eq_none hmic⟩,
    fun _ _ h => (LoopPass.captures_increasing h).1⟩

/-- The regular session of the day is the next to close. -/
theorem foldCalendar_next_close :
    nextCloseAt (fun _ => foldCalendar.closes) (19999 * day + 800 * minute) "LSE" =
      some (19999 * day + 1110 * minute) := by
  have hnext := ((next_closes_and_captures fun _ => foldCalendar).1 "LSE" "XLON"
    (19999 * day + 800 * minute) (by decide) ?_).1
    ⟨19999, 19999 * day + 720 * minute, 19999 * day + 1110 * minute, none, none, by decide, rfl,
      by simp⟩ ⟨List.mem_cons_self, by decide, by decide⟩
  · rw [hnext]
    decide
  · show ∀ s ∈ foldCalendar.schedule, 19999 * day + 800 * minute < s.closeTs →
      foldCalendar.tz.localDate (19999 * day + 800 * minute) ≤ s.date
    decide

theorem no_break_paired : (none : Option Instant).isSome = (none : Option Instant).isSome := rfl

/-- A session of the day before the change, after it, and a session of the day itself. -/
def lateCalendar : MarketCalendar where
  tz := foldZone
  schedule :=
    [⟨19999, 20000 * day + 160 * minute, 20000 * day + 200 * minute, none, none, by decide, no_break_paired,
      by simp⟩,
    ⟨20000, 20000 * day + 780 * minute, 20000 * day + 1170 * minute, none, none, by decide, no_break_paired,
      by simp⟩]
  sorted := by decide

theorem lateCalendar_inside : lateCalendar.Inside := by
  have hafter : ∀ {t : Instant}, 20000 * day + 151 * minute ≤ t →
      foldZone.wall t = t - 210 * minute := fun ht => by
    rw [TimeZone.wall, show foldZone.utcOffset _ = -(210 * minute) from if_neg (not_lt.mpr ht)]
    rfl
  intro s hs t hin
  obtain ⟨hfrom, hto⟩ := hin
  simp only [lateCalendar, List.mem_cons, List.not_mem_nil, or_false] at hs
  rcases hs with rfl | rfl
  · have hwall := hafter (le_trans (by decide) hfrom)
    refine TimeZone.localDate_eq (hwall ▸ ?_) (hwall ▸ ?_)
    · exact le_trans (by decide) (sub_le_sub_right hfrom _)
    · exact lt_trans (sub_lt_sub_right hto _) (by decide)
  · have hwall := hafter (le_trans (by decide) hfrom)
    refine TimeZone.localDate_eq (hwall ▸ ?_) (hwall ▸ ?_)
    · exact le_trans (by decide) (sub_le_sub_right hfrom _)
    · exact lt_trans (sub_lt_sub_right hto _) (by decide)

/-- In the first minute of the day the session that is left of the day before is passed over. -/
theorem next_close_passed_over : ¬ ∀ (calendars : String → MarketCalendar) (ibExchange mic : String)
    (now : Instant), ibExchangeToMic.lookup ibExchange = some mic → (calendars mic).Inside →
    ∀ s, (calendars mic).ClosesNext now s →
      nextCloseAt (fun mic => (calendars mic).closes) now ibExchange =
        if s.date ≤ (calendars mic).tz.localDate now + 21 then some s.closeTs else none := by
  intro h
  have hnext := h (fun _ => lateCalendar) "LSE" "XLON" (20000 * day + 150 * minute) (by decide)
    lateCalendar_inside
    ⟨19999, 20000 * day + 160 * minute, 20000 * day + 200 * minute, none, none, by decide, rfl,
      by simp⟩
    ⟨List.mem_cons_self, by decide, by decide⟩
  exact absurd hnext (by decide)

end PortfolioHub
