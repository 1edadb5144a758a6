import PortfolioHub.CivilDates
import PortfolioHub.MarketCountdown
import PortfolioHub.PageStream
import PortfolioHub.WindowQuery

namespace PortfolioHub

/-- `_IB_EXCHANGE_TO_DISPLAY`. -/
def ibExchangeToDisplay : List (String × String) := [
  ("SEHK", "HKEX"), ("SEHKNTL", "HKEX"), ("SEHKSZSE", "HKEX"), ("TSEJ", "TSE"), ("OSE", "OSE"),
  ("KSE", "KRX"), ("IBIS", "Xetra"), ("FWB", "Xetra"), ("SBF", "Euronext"), ("AEB", "Euronext"),
  ("BM", "BME Madrid"), ("BVME", "Borsa Italiana"), ("SFB", "Stockholm"), ("EBS", "SIX Swiss"),
  ("SIX", "SIX Swiss"), ("TPEX", "TPEx")]

def displayNameForIbExchange (ibExchange : String) : String :=
  (ibExchangeToDisplay.lookup ibExchange).getD ibExchange

/-- `_MIC_TO_TZ_LABEL`. -/
def micToTzLabel : List (String × String) := [
  ("XHKG", "HKT"), ("XTKS", "JST"), ("XKRX", "KST"), ("XTAI", "TST"), ("XSHG", "CST"),
  ("XSES", "SGT"), ("XASX", "AEST"), ("XLON", "GMT"), ("XETR", "CET"), ("XPAR", "CET"),
  ("XAMS", "CET"), ("XMAD", "CET"), ("XMIL", "CET"), ("XSTO", "CET"), ("XSWX", "CET"),
  ("XNYS", "ET"), ("XTSE", "ET")]

/-- `_format_local`. -/
def formatLocal (tz : TimeZone) (mic : String) (t : Instant) : String :=
  let ofDay := (tz.wall t % day).toNat
  String.ofList (Python.padded 2 (ofDay / 3600000000) ++ ':' ::
    Python.padded 2 (ofDay / 60000000 % 60)) ++ " " ++ (micToTzLabel.lookup mic).getD ""

/-- A calendar with the dates it lists as early closes, in days. -/
structure ClosureCalendar extends MarketCalendar where
  earlyCloses : List ℤ

inductive ClosureKind where
  | holiday
  | earlyClose
deriving DecidableEq, Repr

structure ExchangeClosure where
  date : ℕ
  kind : ClosureKind
  closeLocal : Option String
deriving DecidableEq, Repr

/-- A date as the schedules count days, from 1970 on. -/
def scheduleDay (ordinal : ℕ) : ℤ := (ordinal : ℤ) - 719163

namespace ClosureCalendar

/-- A round of the loop of `closures_in_range`. -/
def closureOn (cal : ClosureCalendar) (mic : String) (ordinal : ℕ) : Option ExchangeClosure :=
  if 5 ≤ Python.weekday ordinal then none
  else
    match cal.sessionOn (scheduleDay ordinal) with
    | none => some ⟨ordinal, .holiday, none⟩
    | some session =>
      if scheduleDay ordinal ∈ cal.earlyCloses then
        some ⟨ordinal, .earlyClose, some (formatLocal cal.tz mic session.closeTs)⟩
      else none

end ClosureCalendar

/-- `closures_in_range`; an unmapped venue has no closures. -/
def closuresInRange (calendar : String → ClosureCalendar) (ibExchange : String) (start stop : ℕ) :
    List ExchangeClosure :=
  match ibExchangeToMic.lookup ibExchange with
  | none => []
  | some mic =>
    (List.range' start (stop + 1 - start)).filterMap ((calendar mic).closureOn mic)

structure ClosureCard where
  flag : String
  exchangeDisplay : String
  dateIso : String
  dateLabel : String
  kind : ClosureKind
  closeLocal : Option String
  isToday : Bool
  isPast : Bool
deriving DecidableEq, Repr

/-- The card of a closure; a full holiday of today is left to the live card that tells it. -/
def closureCard (today : ℕ) (market : HeldMarket) (closure : ExchangeClosure) :
    Option (ℕ × ClosureCard) :=
  if closure.date = today ∧ closure.kind = .holiday ∧ market.status.state = .holiday then none
  else some (closure.date, {
    flag := market.flag
    exchangeDisplay := market.status.exchange
    dateIso := Python.isoDate closure.date
    dateLabel := Python.dateLabel closure.date
    kind := closure.kind
    closeLocal := closure.closeLocal
    isToday := closure.date = today
    isPast := closure.date < today })

/-- The Monday of the week in UTC. -/
def mondayOf (today : ℕ) : ℕ := today - Python.weekday today

/-- The cards before they are sorted, each with its date. -/
def datedCards (calendar : String → ClosureCalendar) (markets : List HeldMarket) (today : ℕ) :
    List (ℕ × ClosureCard) :=
  markets.flatMap fun market =>
    (closuresInRange calendar market.ibExchange (mondayOf today) (mondayOf today + 4)).filterMap
      (closureCard today market)

def cardKey (dated : ℕ × ClosureCard) : ℕ ×ₗ String := toLex (dated.1, dated.2.exchangeDisplay)

/-- `_closures_this_week`. -/
def closuresThisWeek (calendar : String → ClosureCalendar) (markets : List HeldMarket)
    (now : Python.UtcDatetime) : List ClosureCard :=
  ((datedCards calendar markets now.toordinal).insertionSort (cardKey · ≤ cardKey ·)).map (·.2)

/-- `status`, of the calendars, with each venue read at a time of its own. -/
def hoursOf (calendar : String → ClosureCalendar) (readAt : String → Python.UtcDatetime) :
    MarketHours where
  calendarStatus ibExchange :=
    let mic := (ibExchangeToMic.lookup ibExchange).getD ""
    let status := (calendar mic).status ibExchange (readAt ibExchange).instant
    { exchange := displayNameForIbExchange ibExchange
      state := status.state
      nextTransitionLocal := status.nextTransition.elim "" (formatLocal (calendar mic).tz mic)
      nextTransitionIso :=
        (status.nextTransition.bind Python.UtcDatetime.ofInstant).elim "" (·.isoformat)
      nextTransitionLabel := status.nextTransitionLabel }

/-- The calendar of a venue. -/
def calendarFor (calendar : String → ClosureCalendar) (ibExchange : String) : ClosureCalendar :=
  calendar ((ibExchangeToMic.lookup ibExchange).getD "")

/-- The days of the strip, Monday to Friday. -/
def weekdaysOf (today : ℕ) : List ℕ := List.range' (mondayOf today) 5

namespace ClosureCalendar

/-- There is no session on the day. -/
def NoTrading (cal : ClosureCalendar) (d : ℤ) : Prop := ∀ s ∈ cal.schedule, s.date ≠ d

instance (cal : ClosureCalendar) (d : ℤ) : Decidable (cal.NoTrading d) :=
  inferInstanceAs (Decidable (∀ s ∈ cal.schedule, s.date ≠ d))

/-- What a venue whose own day is `localDay` has announced: its days without a session, today only
where its own day is another one on which it trades, and its early closes. -/
def Announces (cal : ClosureCalendar) (today : ℕ) (localDay : ℤ) (d : ℕ) : Prop :=
  cal.NoTrading (scheduleDay d) ∧ (d = today → ¬ cal.NoTrading localDay) ∨
    ¬ cal.NoTrading (scheduleDay d) ∧ scheduleDay d ∈ cal.earlyCloses

instance (cal : ClosureCalendar) (today : ℕ) (localDay : ℤ) (d : ℕ) :
    Decidable (cal.Announces today localDay d) := inferInstanceAs (Decidable (_ ∨ _))

end ClosureCalendar

/-- The card of a day that is announced. -/
def announcement (calendar : String → ClosureCalendar) (today : ℕ) (market : HeldMarket) (d : ℕ) :
    ClosureCard :=
  let cal := calendarFor calendar market.ibExchange
  { flag := market.flag
    exchangeDisplay := displayNameForIbExchange market.ibExchange
    dateIso := Python.isoDate d
    dateLabel := Python.dateLabel d
    kind := if cal.NoTrading (scheduleDay d) then .holiday else .earlyClose
    closeLocal := (cal.sessionOn (scheduleDay d)).map fun s =>
      formatLocal cal.tz ((ibExchangeToMic.lookup market.ibExchange).getD "") s.closeTs
    isToday := d = today
    isPast := d < today }

theorem sessionOn_eq_none_iff (cal : ClosureCalendar) (d : ℤ) :
    cal.sessionOn d = none ↔ cal.NoTrading d := MarketCalendar.sessionOn_eq_none

theorem mondayOf_fits {today : ℕ} (h : 1 ≤ today ∧ today ≤ Python.maxOrdinal) :
    1 ≤ mondayOf today ∧ mondayOf today + 4 ≤ Python.maxOrdinal := by
  unfold mondayOf Python.weekday Python.maxOrdinal at *
  omega

theorem weekday_weekdaysOf {today d : ℕ} (h : 1 ≤ today) (hd : d ∈ weekdaysOf today) :
    Python.weekday d < 5 := by
  obtain ⟨hfrom, hto⟩ := List.mem_range'_1.mp hd
  unfold mondayOf Python.weekday at *
  omega

/-- The live card tells a holiday on the days of the venue without a session. -/
theorem state_holiday_iff {cal : ClosureCalendar} {ibExchange : String} {t : Instant} :
    (cal.status ibExchange t).state = .holiday ↔ cal.NoTrading (cal.tz.localDate t) := by
  rw [← sessionOn_eq_none_iff]
  cases hon : cal.sessionOn (cal.tz.localDate t) with
  | none => simp [MarketCalendar.status_eq_holiday hon]
  | some s => simp [MarketCalendar.state_ne_holiday hon]

variable {calendar : String → ClosureCalendar} {readAt : String → Python.UtcDatetime}

/-- A venue of the page is mapped, and its card is that of its calendar. -/
theorem heldMarket_calendar {positions : List Position} {markets : List HeldMarket}
    (h : marketsFromPositions positions (hoursOf calendar readAt) = .ok markets) {m : HeldMarket}
    (hm : m ∈ markets) :
    (∃ mic, ibExchangeToMic.lookup m.ibExchange = some mic) ∧
      m.status.exchange = displayNameForIbExchange m.ibExchange ∧
      (m.status.state = .holiday ↔ (calendarFor calendar m.ibExchange).NoTrading
        ((calendarFor calendar m.ibExchange).tz.localDate (readAt m.ibExchange).instant)) := by
  have hstatus := heldMarket_status h hm
  unfold MarketHours.status at hstatus
  obtain ⟨mic, hmic, hcard⟩ := Option.map_eq_some_iff.mp hstatus
  refine ⟨⟨mic, hmic⟩, ?_, ?_⟩
  · rw [← hcard]
    rfl
  · rw [← hcard]
    exact state_holiday_iff

/-- The cards of a venue are those of the days it announces. -/
theorem venue_cards {today : ℕ} (htoday : 1 ≤ today) {m : HeldMarket}
    (hmic : ∃ mic, ibExchangeToMic.lookup m.ibExchange = some mic)
    (hdisplay : m.status.exchange = displayNameForIbExchange m.ibExchange) {localDay : ℤ}
    (hstate : m.status.state = .holiday ↔
      (calendarFor calendar m.ibExchange).NoTrading localDay) :
    (closuresInRange calendar m.ibExchange (mondayOf today) (mondayOf today + 4)).filterMap
        (closureCard today m) =
      ((weekdaysOf today).filter fun d =>
        (calendarFor calendar m.ibExchange).Announces today localDay d).map fun d =>
          (d, announcement calendar today m d) := by
  obtain ⟨mic, hmic⟩ := hmic
  have hcal : calendarFor calendar m.ibExchange = calendar mic := by
    rw [calendarFor, hmic]
    rfl
  rw [closuresInRange, hmic, List.filterMap_filterMap, ← List.filterMap_eq_filter,
    List.map_filterMap]
  have hspan : mondayOf today + 4 + 1 - mondayOf today = 5 := by omega
  rw [hspan]
  refine List.filterMap_congr fun d hd => ?_
  have hweekday := weekday_weekdaysOf htoday hd
  rw [ClosureCalendar.closureOn, if_neg (not_le.mpr hweekday)]
  unfold announcement
  rw [hcal] at hstate ⊢
  cases hon : (calendar mic).sessionOn (scheduleDay d) with
  | none =>
    have hclosed := (sessionOn_eq_none_iff _ _).mp hon
    have hannounced : (calendar mic).Announces today localDay d ↔
        (d = today → ¬ m.status.state = .holiday) := by
      rw [hstate]
      simp [ClosureCalendar.Announces, hclosed]
    by_cases hskip : d = today ∧ m.status.state = .holiday
    · have hnot : ¬ (calendar mic).Announces today localDay d := fun h => hannounced.mp h hskip.1 hskip.2
      have hnone : closureCard today m ⟨d, .holiday, none⟩ = none := if_pos ⟨hskip.1, rfl, hskip.2⟩
      simp [hnot, hnone]
    · have hshown : (calendar mic).Announces today localDay d :=
        hannounced.mpr fun hd h => hskip ⟨hd, h⟩
      have hcard : ¬ (d = today ∧ ClosureKind.holiday = .holiday ∧ m.status.state = .holiday) :=
        fun h => hskip ⟨h.1, h.2.2⟩
      rw [Option.bind_some, closureCard, if_neg hcard]
      simp [hshown, hon, hclosed, hdisplay]
  | some session =>
    have htrading : ¬ (calendar mic).NoTrading (scheduleDay d) := by
      rw [← sessionOn_eq_none_iff, hon]
      simp
    have hannounced : (calendar mic).Announces today localDay d ↔
        scheduleDay d ∈ (calendar mic).earlyCloses := by
      simp [ClosureCalendar.Announces, htrading]
    by_cases hearly : scheduleDay d ∈ (calendar mic).earlyCloses
    · simp [closureCard, hannounced, hearly, hon, htrading, hdisplay, hmic]
    · simp [hannounced, hearly]

theorem datedCards_eq {positions : List Position} {markets : List HeldMarket}
    (h : marketsFromPositions positions (hoursOf calendar readAt) = .ok markets) {today : ℕ}
    (htoday : 1 ≤ today) :
    datedCards calendar markets today = markets.flatMap fun m =>
      ((weekdaysOf today).filter fun d =>
        (calendarFor calendar m.ibExchange).Announces today
          ((calendarFor calendar m.ibExchange).tz.localDate (readAt m.ibExchange).instant) d).map
        fun d => (d, announcement calendar today m d) := by
  refine List.flatMap_congr fun m hm => ?_
  obtain ⟨hmic, hdisplay, hstate⟩ := heldMarket_calendar h hm
  exact venue_cards htoday hmic hdisplay hstate

/-- Of two cards that are dated, the one with the smaller key has the earlier text or the same text
and a name that does not come after. -/
theorem dated_le {today : ℕ} (htoday : 1 ≤ today ∧ today ≤ Python.maxOrdinal)
    {dated dated' : ℕ × ClosureCard} (hday : dated.1 ∈ weekdaysOf today)
    (hday' : dated'.1 ∈ weekdaysOf today) (hiso : dated.2.dateIso = Python.isoDate dated.1)
    (hiso' : dated'.2.dateIso = Python.isoDate dated'.1) (hle : cardKey dated ≤ cardKey dated') :
    dated.2.dateIso < dated'.2.dateIso ∨ dated.2.dateIso = dated'.2.dateIso ∧
      dated.2.exchangeDisplay ≤ dated'.2.exchangeDisplay := by
  have hfits := mondayOf_fits htoday
  have hweek := List.mem_range'_1.mp hday
  have hweek' := List.mem_range'_1.mp hday'
  rw [hiso, hiso', Python.isoDate_lt_iff (by omega) (by omega)]
  rcases Prod.Lex.le_iff.mp hle with hlt | ⟨heq, hname⟩
  · exact Or.inl hlt
  · exact Or.inr ⟨congrArg Python.isoDate heq, hname⟩

theorem closuresThisWeek_sorted {positions : List Position} {markets : List HeldMarket}
    (h : marketsFromPositions positions (hoursOf calendar readAt) = .ok markets)
    (now : Python.UtcDatetime) :
    (closuresThisWeek calendar markets now).Pairwise (fun a b => a.dateIso < b.dateIso ∨
      a.dateIso = b.dateIso ∧ a.exchangeDisplay ≤ b.exchangeDisplay) := by
  have hsorted := List.pairwise_selectOn (fun _ => true) cardKey
    (datedCards calendar markets now.toordinal)
  rw [List.selectOn, List.filter_true] at hsorted
  have hmem : ∀ dated ∈ (datedCards calendar markets now.toordinal).insertionSort
      (cardKey · ≤ cardKey ·), dated.1 ∈ weekdaysOf now.toordinal ∧
        dated.2.dateIso = Python.isoDate dated.1 := by
    intro dated hdated
    rw [List.mem_insertionSort, datedCards_eq h now.toordinal_pos] at hdated
    obtain ⟨m, -, hm⟩ := List.mem_flatMap.mp hdated
    obtain ⟨d, hd, rfl⟩ := List.mem_map.mp hm
    exact ⟨List.mem_of_mem_filter hd, rfl⟩
  rw [closuresThisWeek, List.pairwise_map]
  refine hsorted.imp_of_mem fun ha hb hle => ?_
  exact dated_le ⟨now.toordinal_pos, now.toordinal_le⟩ (hmem _ ha).1 (hmem _ hb).1 (hmem _ ha).2
    (hmem _ hb).2 hle

/-- The strip shows what the held venues have announced of the weekdays of the UTC week, by date
and name; of a day without a session that it leaves out the venue's live card tells. -/
theorem closuresThisWeek_exact (positions : List Position) (calendar : String → ClosureCalendar)
    (readAt : String → Python.UtcDatetime) (now : Python.UtcDatetime) :
    ∃ markets, marketsFromPositions positions (hoursOf calendar readAt) = .ok markets ∧
      (closuresThisWeek calendar markets now).Perm (markets.flatMap fun m =>
        ((weekdaysOf now.toordinal).filter fun d =>
          (calendarFor calendar m.ibExchange).Announces now.toordinal
            ((calendarFor calendar m.ibExchange).tz.localDate (readAt m.ibExchange).instant) d).map
          (announcement calendar now.toordinal m)) ∧
      (closuresThisWeek calendar markets now).Pairwise (fun a b => a.dateIso < b.dateIso ∨
        a.dateIso = b.dateIso ∧ a.exchangeDisplay ≤ b.exchangeDisplay) ∧
      ∀ m ∈ markets, ∀ d ∈ weekdaysOf now.toordinal,
        (calendarFor calendar m.ibExchange).NoTrading (scheduleDay d) →
          announcement calendar now.toordinal m d ∈ closuresThisWeek calendar markets now ∨
            d = now.toordinal ∧ m.status.state = .holiday := by
  obtain ⟨markets, hmarkets⟩ := marketsFromPositions_defined positions (hoursOf calendar readAt)
  have hpos := now.toordinal_pos
  have hdated := datedCards_eq hmarkets hpos
  have hperm : (closuresThisWeek calendar markets now).Perm (markets.flatMap fun m =>
      ((weekdaysOf now.toordinal).filter fun d =>
        (calendarFor calendar m.ibExchange).Announces now.toordinal
          ((calendarFor calendar m.ibExchange).tz.localDate (readAt m.ibExchange).instant) d).map
        (announcement calendar now.toordinal m)) := by
    have hsort := (List.perm_insertionSort (cardKey · ≤ cardKey ·)
      (datedCards calendar markets now.toordinal)).map (·.2)
    refine hsort.trans (List.Perm.of_eq ?_)
    rw [hdated, List.map_flatMap]
    simp only [List.map_map]
    rfl
  refine ⟨markets, hmarkets, hperm, ?_, fun m hm d hd hclosed => ?_⟩
  · exact closuresThisWeek_sorted hmarkets now
  · by_cases hskip : d = now.toordinal ∧ m.status.state = .holiday
    · exact Or.inr hskip
    · refine Or.inl (hperm.mem_iff.mpr (List.mem_flatMap.mpr ⟨m, hm, ?_⟩))
      have hstate := (heldMarket_calendar hmarkets hm).2.2
      refine List.mem_map_of_mem (List.mem_filter.mpr ⟨hd, decide_eq_true (Or.inl ⟨hclosed, ?_⟩)⟩)
      intro hd
      rw [← hstate]
      exact fun h => hskip ⟨hd, h⟩

end PortfolioHub
