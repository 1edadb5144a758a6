import PortfolioHub.Timestamps

namespace Python

/-- `date.max.toordinal()`. -/
def maxOrdinal : ℕ := 3652059

/-- The year of an ordinal: the last that starts before it. -/
def yearOf (n : ℕ) : ℕ := Nat.findGreatest (fun year => daysBeforeYear year < n) (n / 365 + 1)

def monthOf (n : ℕ) : ℕ :=
  Nat.findGreatest (fun month => daysBeforeMonth (yearOf n) month < n - daysBeforeYear (yearOf n)) 12

def dayOf (n : ℕ) : ℕ := n - daysBeforeYear (yearOf n) - daysBeforeMonth (yearOf n) (monthOf n)

/-- `weekday()`: Monday is 0. -/
def weekday (n : ℕ) : ℕ := (n + 6) % 7

/-- `date.isoformat()`. -/
def isoDate (n : ℕ) : String :=
  .ofList (padded 4 (yearOf n) ++ '-' :: (padded 2 (monthOf n) ++ '-' :: padded 2 (dayOf n)))

def weekdayName : ℕ → String
  | 0 => "Mon"
  | 1 => "Tue"
  | 2 => "Wed"
  | 3 => "Thu"
  | 4 => "Fri"
  | 5 => "Sat"
  | _ => "Sun"

def monthName : ℕ → String
  | 1 => "Jan"
  | 2 => "Feb"
  | 3 => "Mar"
  | 4 => "Apr"
  | 5 => "May"
  | 6 => "Jun"
  | 7 => "Jul"
  | 8 => "Aug"
  | 9 => "Sep"
  | 10 => "Oct"
  | 11 => "Nov"
  | _ => "Dec"

/-- `strftime("%a %b %-d")`. -/
def dateLabel (n : ℕ) : String :=
  weekdayName (weekday n) ++ " " ++ monthName (monthOf n) ++ " " ++ toString (dayOf n)

example : isoDate 739070 = "2024-07-03" ∧ dateLabel 739070 = "Wed Jul 3" := by decide +kernel

/-- An ordinal lies in its year. -/
theorem yearOf_spec {n : ℕ} (h : 1 ≤ n) :
    1 ≤ yearOf n ∧ daysBeforeYear (yearOf n) < n ∧ n ≤ daysBeforeYear (yearOf n + 1) := by
  have hfirst : daysBeforeYear 1 < n := h
  have hle : 1 ≤ n / 365 + 1 := Nat.le_add_left 1 _
  refine ⟨Nat.le_findGreatest hle hfirst,
    Nat.findGreatest_spec (P := fun year => daysBeforeYear year < n) hle hfirst, ?_⟩
  by_contra hlt
  rcases Nat.lt_or_ge (n / 365 + 1) (yearOf n + 1) with hbound | hbound
  · have hmono := daysBeforeYear_mono (show n / 365 + 2 ≤ yearOf n + 1 from hbound)
    have hdays : (n / 365 + 1) * 365 ≤ daysBeforeYear (n / 365 + 2) := by
      unfold daysBeforeYear
      omega
    omega
  · have hmax := Nat.findGreatest_is_greatest (Nat.lt_succ_self (yearOf n)) hbound
    exact hmax (not_le.mp hlt)

theorem yearOf_lt {n : ℕ} (h : 1 ≤ n) (hmax : n ≤ maxOrdinal) : yearOf n < 10000 := by
  by_contra hge
  have hmono : daysBeforeYear 10000 ≤ daysBeforeYear (yearOf n) :=
    daysBeforeYear_mono (not_lt.mp hge)
  have hspec := (yearOf_spec h).2.1
  have hlast : daysBeforeYear 10000 = maxOrdinal := by decide
  omega

/-- A day of the year lies in its month. -/
theorem monthOf_spec {n : ℕ} (h : 1 ≤ n) :
    1 ≤ monthOf n ∧ monthOf n ≤ 12 ∧
      daysBeforeMonth (yearOf n) (monthOf n) < n - daysBeforeYear (yearOf n) ∧
      n - daysBeforeYear (yearOf n) ≤ daysBeforeMonth (yearOf n) (monthOf n + 1) := by
  obtain ⟨hyear, hbefore, hend⟩ := yearOf_spec h
  have hfirst : daysBeforeMonth (yearOf n) 1 < n - daysBeforeYear (yearOf n) :=
    Nat.sub_pos_of_lt hbefore
  have hle : (1 : ℕ) ≤ 12 := by decide
  have hmonth : monthOf n ≤ 12 := Nat.findGreatest_le 12
  refine ⟨Nat.le_findGreatest hle hfirst, hmonth,
    Nat.findGreatest_spec (P := fun month =>
      daysBeforeMonth (yearOf n) month < n - daysBeforeYear (yearOf n)) hle hfirst, ?_⟩
  by_contra hlt
  rcases Nat.lt_or_ge 12 (monthOf n + 1) with hlast | hbound
  · obtain hdec : monthOf n = 12 := by omega
    rw [hdec] at hlt
    rw [daysBeforeYear_succ hyear] at hend
    have hyearEnd : n - daysBeforeYear (yearOf n) ≤ daysBeforeMonth (yearOf n) 13 := by omega
    exact hlt hyearEnd
  · exact Nat.findGreatest_is_greatest (Nat.lt_succ_self (monthOf n)) hbound (not_le.mp hlt)

theorem dayOf_spec {n : ℕ} (h : 1 ≤ n) :
    1 ≤ dayOf n ∧ dayOf n ≤ daysInMonth (yearOf n) (monthOf n) := by
  obtain ⟨-, -, hbefore, hend⟩ := monthOf_spec h
  rw [daysBeforeMonth] at hend
  unfold dayOf
  omega

namespace UtcDatetime

/-- The time of a day, `(t - midnight).microseconds` of it. -/
def onDay (n : ℕ) (h : 1 ≤ n ∧ n ≤ maxOrdinal) (microseconds : ℕ) : UtcDatetime where
  year := yearOf n
  month := monthOf n
  day := dayOf n
  hour := microseconds / 3600000000 % 24
  minute := microseconds / 60000000 % 60
  second := microseconds / 1000000 % 60
  microsecond := microseconds % 1000000
  yearFits := ⟨(yearOf_spec h.1).1, yearOf_lt h.1 h.2⟩
  monthFits := ⟨(monthOf_spec h.1).1, (monthOf_spec h.1).2.1⟩
  dayFits := dayOf_spec h.1
  timeFits := ⟨Nat.mod_lt _ (by decide), Nat.mod_lt _ (by decide), Nat.mod_lt _ (by decide),
    Nat.mod_lt _ (by decide)⟩

theorem toordinal_onDay {n : ℕ} (h : 1 ≤ n ∧ n ≤ maxOrdinal) (microseconds : ℕ) :
    (onDay n h microseconds).toordinal = n := by
  have hyear := (yearOf_spec h.1).2.1
  have hmonth := (monthOf_spec h.1).2.2.1
  show daysBeforeYear (yearOf n) + daysBeforeMonth (yearOf n) (monthOf n) + dayOf n = n
  unfold dayOf
  omega

theorem instant_onDay {n : ℕ} (h : 1 ≤ n ∧ n ≤ maxOrdinal) {microseconds : ℕ}
    (hday : microseconds < 86400000000) :
    (onDay n h microseconds).instant = ((n : ℤ) - 719163) * 86400000000 + microseconds := by
  have hsplit : ((((microseconds / 3600000000 % 24) * 60 + microseconds / 60000000 % 60) * 60 +
      microseconds / 1000000 % 60) * 1000000 + microseconds % 1000000 : ℕ) = microseconds := by
    omega
  rw [instant, toordinal_onDay]
  unfold onDay
  dsimp only
  push_cast at hsplit ⊢
  linarith

/-- The ordinal of an instant. -/
def ordinalAt (t : ℤ) : ℕ := (t / 86400000000 + 719163).toNat

/-- The `datetime` at an instant; outside the years 1 to 9999 there is none. -/
def ofInstant (t : ℤ) : Option UtcDatetime :=
  if h : 1 ≤ ordinalAt t ∧ ordinalAt t ≤ maxOrdinal then
    some (onDay (ordinalAt t) h (t % 86400000000).toNat)
  else none

theorem instant_ofInstant {t : ℤ} {u : UtcDatetime} (h : ofInstant t = some u) : u.instant = t := by
  unfold ofInstant at h
  split at h
  next hfits =>
    obtain rfl := Option.some.inj h
    have hlt : t % 86400000000 < 86400000000 := Int.emod_lt_of_pos t (by decide)
    have hnonneg : 0 ≤ t % 86400000000 := Int.emod_nonneg t (by decide)
    have hdiv := Int.mul_ediv_add_emod t 86400000000
    have hordinal := hfits.1
    rw [instant_onDay hfits (by omega)]
    unfold ordinalAt at hordinal ⊢
    omega
  next => cases h

theorem toordinal_pos (t : UtcDatetime) : 1 ≤ t.toordinal := by
  have hday := t.dayFits.1
  unfold toordinal
  omega

theorem toordinal_le (t : UtcDatetime) : t.toordinal ≤ maxOrdinal := by
  have hyear : daysBeforeYear (t.year + 1) ≤ daysBeforeYear 10000 := daysBeforeYear_mono t.yearFits.2
  have hmonth : daysBeforeMonth t.year (t.month + 1) ≤ daysBeforeMonth t.year 13 :=
    daysBeforeMonth_mono t.year (Nat.succ_le_succ t.monthFits.2)
  have hlast : daysBeforeYear 10000 = maxOrdinal := by decide
  have hday := t.dayFits.2
  rw [daysBeforeYear_succ t.yearFits.1] at hyear
  rw [daysBeforeMonth] at hmonth
  unfold toordinal
  omega

theorem ordinalAt_instant (t : UtcDatetime) : ordinalAt t.instant = t.toordinal := by
  have htime := t.timeFits
  unfold ordinalAt instant
  omega

theorem ofInstant_instant (t : UtcDatetime) : ofInstant t.instant = some t := by
  have hfits : 1 ≤ ordinalAt t.instant ∧ ordinalAt t.instant ≤ maxOrdinal := by
    rw [ordinalAt_instant]
    exact ⟨t.toordinal_pos, t.toordinal_le⟩
  cases h : ofInstant t.instant with
  | none => simp [ofInstant, hfits] at h
  | some u => rw [instant_injective (instant_ofInstant h)]

end UtcDatetime

/-- The dates written as texts sort as the days do. -/
theorem isoDate_lt_iff {n m : ℕ} (hn : 1 ≤ n ∧ n ≤ maxOrdinal) (hm : 1 ≤ m ∧ m ≤ maxOrdinal) :
    isoDate n < isoDate m ↔ n < m := by
  have hsplit : isoDate n < isoDate m ↔ (UtcDatetime.onDay n hn 0).Before (.onDay m hm 0) := by
    have hnmonth := monthOf_spec hn.1
    have hmmonth := monthOf_spec hm.1
    rw [isoDate, isoDate, String.lt_iff_toList_lt, String.toList_ofList, String.toList_ofList,
      field_lt_iff (yearOf_lt hn.1 hn.2) (yearOf_lt hm.1 hm.2), field_lt_iff (by omega) (by omega),
      padded_lt_iff (UtcDatetime.onDay n hn 0).day_lt (UtcDatetime.onDay m hm 0).day_lt]
    simp [UtcDatetime.Before, UtcDatetime.onDay]
  rw [hsplit, ← UtcDatetime.isoformat_lt_iff_before, UtcDatetime.isoformat_lt_iff,
    UtcDatetime.instant_onDay hn (by decide), UtcDatetime.instant_onDay hm (by decide)]
  omega

end Python
