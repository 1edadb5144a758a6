import PortfolioHub.Python

namespace List

/-- Texts that begin with parts of one length are ordered by these parts first. -/
theorem append_lt_append_iff {α : Type*} [LinearOrder α] {as as' bs bs' : List α}
    (h : as.length = as'.length) : as ++ bs < as' ++ bs' ↔ as < as' ∨ as = as' ∧ bs < bs' := by
  induction as generalizing as' with
  | nil =>
    obtain rfl := List.length_eq_zero_iff.mp h.symm
    simp
  | cons a as ih =>
    cases as' with
    | nil => simp at h
    | cons a' as' =>
      have hlength : as.length = as'.length := Nat.succ.inj h
      rw [List.cons_append, List.cons_append, List.cons_lt_cons_iff, List.cons_lt_cons_iff,
        ih hlength, List.cons.injEq]
      tauto

end List

namespace Python

/-- The last `w` decimal digits of a number, zeros in front. -/
def padded : ℕ → ℕ → List Char
  | 0, _ => []
  | w + 1, n => padded w (n / 10) ++ [Nat.digitChar (n % 10)]

theorem length_padded (w n : ℕ) : (padded w n).length = w := by
  induction w generalizing n with
  | zero => rfl
  | succ w ih => rw [padded, List.length_append, ih, List.length_singleton]

/-- The number is read back from its digits. -/
theorem ofDigitChars_padded {w n : ℕ} (h : n < 10 ^ w) : Nat.ofDigitChars 10 (padded w n) 0 = n := by
  induction w generalizing n with
  | zero =>
    obtain rfl : n = 0 := by simpa using h
    rfl
  | succ w ih =>
    rw [pow_succ] at h
    rw [padded, Nat.ofDigitChars_append, ih (Nat.div_lt_of_lt_mul (by omega)),
      Nat.ofDigitChars_cons_digitChar_of_lt_ten (Nat.mod_lt _ (by norm_num)), Nat.ofDigitChars_nil]
    omega

theorem padded_inj {w n m : ℕ} (hn : n < 10 ^ w) (hm : m < 10 ^ w) :
    padded w n = padded w m ↔ n = m := by
  refine ⟨fun h => ?_, fun h => by rw [h]⟩
  rw [← ofDigitChars_padded hn, h, ofDigitChars_padded hm]

theorem digitChar_lt_iff {d e : ℕ} (hd : d < 10) (he : e < 10) :
    Nat.digitChar d < Nat.digitChar e ↔ d < e := by
  interval_cases d <;> interval_cases e <;> decide

theorem padded_lt_iff {w n m : ℕ} (hn : n < 10 ^ w) (hm : m < 10 ^ w) :
    padded w n < padded w m ↔ n < m := by
  induction w generalizing n m with
  | zero =>
    obtain rfl : n = 0 := by simpa using hn
    obtain rfl : m = 0 := by simpa using hm
    simp [padded]
  | succ w ih =>
    rw [pow_succ] at hn hm
    have hn' : n / 10 < 10 ^ w := Nat.div_lt_of_lt_mul (by omega)
    have hm' : m / 10 < 10 ^ w := Nat.div_lt_of_lt_mul (by omega)
    have hlast : [Nat.digitChar (n % 10)] < [Nat.digitChar (m % 10)] ↔ n % 10 < m % 10 := by
      rw [List.cons_lt_cons_iff, digitChar_lt_iff (Nat.mod_lt _ (by norm_num))
        (Nat.mod_lt _ (by norm_num))]
      simp
    rw [padded, padded, List.append_lt_append_iff (by simp [length_padded]), ih hn' hm',
      padded_inj hn' hm', hlast]
    omega

/-- A number of a fixed width and a separator, before the rest of a text. -/
theorem field_lt_iff {w n m : ℕ} (hn : n < 10 ^ w) (hm : m < 10 ^ w) {sep : Char}
    {rest rest' : List Char} :
    padded w n ++ sep :: rest < padded w m ++ sep :: rest' ↔ n < m ∨ n = m ∧ rest < rest' := by
  rw [List.append_lt_append_iff (by simp [length_padded]), padded_lt_iff hn hm, padded_inj hn hm,
    List.cons_lt_cons_iff]
  simp

def isLeap (year : ℕ) : Bool := year % 4 = 0 ∧ (year % 100 ≠ 0 ∨ year % 400 = 0)

def daysInMonth (year : ℕ) : ℕ → ℕ
  | 1 => 31
  | 2 => if isLeap year then 29 else 28
  | 3 => 31
  | 4 => 30
  | 5 => 31
  | 6 => 30
  | 7 => 31
  | 8 => 31
  | 9 => 30
  | 10 => 31
  | 11 => 30
  | 12 => 31
  | _ => 0

/-- The days of a year before January 1 of it. -/
def daysBeforeYear (year : ℕ) : ℕ := (year - 1) * 365 + (year - 1) / 4 - (year - 1) / 100 + (year - 1) / 400

/-- The days of a year before the month. -/
def daysBeforeMonth (year : ℕ) : ℕ → ℕ
  | 0 => 0
  | month + 1 => daysBeforeMonth year month + daysInMonth year month

theorem daysBeforeMonth_mono (year : ℕ) : Monotone (daysBeforeMonth year) :=
  monotone_nat_of_le_succ fun _ => Nat.le_add_right _ _

/-- The days of all months make up the year. -/
theorem daysBeforeMonth_end (year : ℕ) :
    daysBeforeMonth year 13 = if isLeap year then 366 else 365 := by
  simp only [daysBeforeMonth, daysInMonth]
  split <;> rfl

/-- A year ends where the next one starts. -/
theorem daysBeforeYear_succ {year : ℕ} (h : 1 ≤ year) :
    daysBeforeYear (year + 1) = daysBeforeYear year + daysBeforeMonth year 13 := by
  obtain ⟨y, rfl⟩ := Nat.exists_eq_add_of_le' h
  have hdiv : ∀ b, (y + 1) / b = y / b + if (y + 1) % b = 0 then 1 else 0 := by
    intro b
    rw [Nat.succ_div]
    simp only [Nat.dvd_iff_mod_eq_zero]
  have hle : y / 100 ≤ y / 4 := by omega
  have hfour : (y + 1) % 100 = 0 → (y + 1) % 4 = 0 := by omega
  have hhundred : (y + 1) % 400 = 0 → (y + 1) % 100 = 0 := by omega
  have hleap : isLeap (y + 1) = true ↔
      (y + 1) % 4 = 0 ∧ ((y + 1) % 100 ≠ 0 ∨ (y + 1) % 400 = 0) := by simp [isLeap]
  rw [daysBeforeMonth_end, daysBeforeYear, daysBeforeYear, Nat.add_sub_cancel, Nat.add_sub_cancel,
    hdiv, hdiv, hdiv]
  by_cases h4 : (y + 1) % 4 = 0
  · by_cases h100 : (y + 1) % 100 = 0
    · by_cases h400 : (y + 1) % 400 = 0
      · rw [if_pos h4, if_pos h100, if_pos h400, if_pos (hleap.mpr ⟨h4, Or.inr h400⟩)]
        omega
      · rw [if_pos h4, if_pos h100, if_neg h400, if_neg (by rw [hleap]; tauto)]
        omega
    · rw [if_pos h4, if_neg h100, if_neg (mt hhundred h100), if_pos (hleap.mpr ⟨h4, Or.inl h100⟩)]
      omega
  · rw [if_neg h4, if_neg (mt hfour h4), if_neg (fun h => h4 (hfour (hhundred h))),
      if_neg (fun h => h4 (hleap.mp h).1)]
    omega

theorem daysBeforeYear_mono : Monotone daysBeforeYear := by
  refine monotone_nat_of_le_succ fun year => ?_
  unfold daysBeforeYear
  omega

theorem daysInMonth_le (year month : ℕ) : daysInMonth year month ≤ 31 := by
  unfold daysInMonth
  split <;> try split
  all_goals omega

/-- A `datetime` in UTC. -/
structure UtcDatetime where
  year : ℕ
  month : ℕ
  day : ℕ
  hour : ℕ
  minute : ℕ
  second : ℕ
  microsecond : ℕ
  yearFits : 1 ≤ year ∧ year < 10000
  monthFits : 1 ≤ month ∧ month ≤ 12
  dayFits : 1 ≤ day ∧ day ≤ daysInMonth year month
  timeFits : hour < 24 ∧ minute < 60 ∧ second < 60 ∧ microsecond < 1000000
deriving DecidableEq

namespace UtcDatetime

/-- `toordinal()`: January 1 of the year 1 is 1. -/
def toordinal (t : UtcDatetime) : ℕ := daysBeforeYear t.year + daysBeforeMonth t.year t.month + t.day

/-- The microseconds since the start of 1970. -/
def instant (t : UtcDatetime) : ℤ :=
  ((((t.toordinal - 719163) * 24 + t.hour) * 60 + t.minute) * 60 + t.second) * 1000000 +
    t.microsecond

theorem day_lt (t : UtcDatetime) : t.day < 100 := by
  have hday := t.dayFits.2
  have hle := daysInMonth_le t.year t.month
  omega

example : instant ⟨1970, 1, 1, 0, 0, 0, 0, by decide, by decide, by decide, by decide⟩ = 0 := by
  decide

/-- The microseconds are left out where there are none. -/
def fraction (microsecond : ℕ) : List Char :=
  if microsecond = 0 then [] else '.' :: padded 6 microsecond

/-- `isoformat()`. -/
def isoformat (t : UtcDatetime) : String :=
  .ofList (padded 4 t.year ++ '-' :: (padded 2 t.month ++ '-' :: (padded 2 t.day ++ 'T' ::
    (padded 2 t.hour ++ ':' :: (padded 2 t.minute ++ ':' :: (padded 2 t.second ++
      (fraction t.microsecond ++ "+00:00".toList)))))))

example : isoformat ⟨2026, 5, 17, 8, 0, 0, 0, by decide, by decide, by decide, by decide⟩ =
    "2026-05-17T08:00:00+00:00" := by decide +kernel

theorem toList_isoformat (t : UtcDatetime) : t.isoformat.toList =
    padded 4 t.year ++ '-' :: (padded 2 t.month ++ '-' :: (padded 2 t.day ++ 'T' ::
      (padded 2 t.hour ++ ':' :: (padded 2 t.minute ++ ':' :: (padded 2 t.second ++
        (fraction t.microsecond ++ "+00:00".toList)))))) := String.toList_ofList

/-- The text without the microseconds sorts before those with them: a plus sign is less than a
point. -/
theorem fraction_lt_iff {n m : ℕ} (hn : n < 10 ^ 6) (hm : m < 10 ^ 6) :
    fraction n ++ "+00:00".toList < fraction m ++ "+00:00".toList ↔ n < m := by
  unfold fraction
  by_cases hn0 : n = 0
  · by_cases hm0 : m = 0
    · simp [hn0, hm0]
    · rw [if_pos hn0, if_neg hm0]
      refine iff_of_true ?_ (by omega)
      exact List.cons_lt_cons_iff.mpr (Or.inl (by decide))
  · by_cases hm0 : m = 0
    · rw [if_neg hn0, if_pos hm0]
      refine iff_of_false (fun h => ?_) (by omega)
      rcases List.cons_lt_cons_iff.mp h with hlt | ⟨heq, -⟩
      · exact absurd hlt (by decide)
      · exact absurd heq (by decide)
    · rw [if_neg hn0, if_neg hm0, List.cons_append, List.cons_append, List.cons_lt_cons_iff,
        List.append_lt_append_iff (by simp [length_padded]), padded_lt_iff hn hm]
      simp

/-- One is earlier in the first of the fields that differs. -/
def Before (t u : UtcDatetime) : Prop :=
  t.year < u.year ∨ t.year = u.year ∧ (t.month < u.month ∨ t.month = u.month ∧
    (t.day < u.day ∨ t.day = u.day ∧ (t.hour < u.hour ∨ t.hour = u.hour ∧
      (t.minute < u.minute ∨ t.minute = u.minute ∧ (t.second < u.second ∨ t.second = u.second ∧
        t.microsecond < u.microsecond)))))

/-- The texts are ordered by their fields, in their order. -/
theorem isoformat_lt_iff_before {t u : UtcDatetime} : t.isoformat < u.isoformat ↔ t.Before u := by
  obtain ⟨hth, htm, hts, htu⟩ := t.timeFits
  obtain ⟨huh, hum, hus, huu⟩ := u.timeFits
  have htd : t.day < 10 ^ 2 := t.day_lt
  have hud : u.day < 10 ^ 2 := u.day_lt
  have htmonth := t.monthFits
  have humonth := u.monthFits
  rw [String.lt_iff_toList_lt, toList_isoformat, toList_isoformat,
    field_lt_iff t.yearFits.2 u.yearFits.2, field_lt_iff (by omega) (by omega),
    field_lt_iff htd hud, field_lt_iff (by omega) (by omega), field_lt_iff (by omega) (by omega),
    List.append_lt_append_iff (by simp [length_padded]), padded_lt_iff (by omega) (by omega),
    padded_inj (by omega) (by omega), fraction_lt_iff htu huu]
  rfl

/-- Of two times one is before the other, or they are the same. -/
theorem before_trichotomy (t u : UtcDatetime) : t.Before u ∨ t = u ∨ u.Before t := by
  have hsame : t = u ↔ t.year = u.year ∧ t.month = u.month ∧ t.day = u.day ∧ t.hour = u.hour ∧
      t.minute = u.minute ∧ t.second = u.second ∧ t.microsecond = u.microsecond := by
    cases t
    cases u
    simp
  unfold Before
  rw [hsame]
  omega

theorem isoformat_injective {t u : UtcDatetime} (h : t.isoformat = u.isoformat) : t = u := by
  rcases t.before_trichotomy u with hlt | hsame | hlt
  · exact absurd h (isoformat_lt_iff_before.mpr hlt).ne
  · exact hsame
  · exact absurd h (isoformat_lt_iff_before.mpr hlt).ne'

/-- A date is before another by its year, its month or its day: so is its ordinal. -/
theorem toordinal_lt {t u : UtcDatetime} (h : t.year < u.year ∨ t.year = u.year ∧
    (t.month < u.month ∨ t.month = u.month ∧ t.day < u.day)) : t.toordinal < u.toordinal := by
  unfold toordinal
  rcases h with hyear | ⟨hyear, hmonth | ⟨hmonth, hday⟩⟩
  · have hend : daysBeforeMonth t.year (t.month + 1) ≤ daysBeforeMonth t.year 13 :=
      daysBeforeMonth_mono t.year (Nat.succ_le_succ t.monthFits.2)
    have hlater : daysBeforeYear (t.year + 1) ≤ daysBeforeYear u.year := daysBeforeYear_mono hyear
    rw [daysBeforeYear_succ t.yearFits.1] at hlater
    rw [daysBeforeMonth] at hend
    have hday := t.dayFits.2
    have hpos := u.dayFits.1
    omega
  · have hend : daysBeforeMonth t.year (t.month + 1) ≤ daysBeforeMonth t.year u.month :=
      daysBeforeMonth_mono t.year hmonth
    rw [daysBeforeMonth] at hend
    have hday := t.dayFits.2
    have hpos := u.dayFits.1
    rw [← hyear]
    omega
  · rw [← hyear, ← hmonth]
    omega

theorem instant_lt_of_before {t u : UtcDatetime} (h : t.Before u) : t.instant < u.instant := by
  have hdate : t.toordinal < u.toordinal ∨ t.toordinal = u.toordinal ∧
      (t.hour < u.hour ∨ t.hour = u.hour ∧ (t.minute < u.minute ∨ t.minute = u.minute ∧
        (t.second < u.second ∨ t.second = u.second ∧ t.microsecond < u.microsecond))) := by
    rcases h with hyear | ⟨hyear, hmonth | ⟨hmonth, hday | ⟨hday, htime⟩⟩⟩
    · exact Or.inl (toordinal_lt (Or.inl hyear))
    · exact Or.inl (toordinal_lt (Or.inr ⟨hyear, Or.inl hmonth⟩))
    · exact Or.inl (toordinal_lt (Or.inr ⟨hyear, Or.inr ⟨hmonth, hday⟩⟩))
    · refine Or.inr ⟨?_, htime⟩
      rw [toordinal, toordinal, hyear, hmonth, hday]
  have ht := t.timeFits
  have hu := u.timeFits
  unfold instant
  omega

/-- The texts of times in UTC sort as the times do. -/
theorem isoformat_lt_iff {t u : UtcDatetime} : t.isoformat < u.isoformat ↔ t.instant < u.instant := by
  rw [isoformat_lt_iff_before]
  refine ⟨instant_lt_of_before, fun h => ?_⟩
  rcases t.before_trichotomy u with hlt | rfl | hlt
  · exact hlt
  · exact absurd h (lt_irrefl _)
  · exact absurd (instant_lt_of_before hlt) h.asymm

theorem isoformat_le_iff {t u : UtcDatetime} : t.isoformat ≤ u.isoformat ↔ t.instant ≤ u.instant := by
  rw [← not_lt, isoformat_lt_iff, not_lt]

theorem instant_injective {t u : UtcDatetime} (h : t.instant = u.instant) : t = u := by
  refine isoformat_injective (le_antisymm ?_ ?_)
  · exact isoformat_le_iff.mpr h.le
  · exact isoformat_le_iff.mpr h.ge

instance : LinearOrder UtcDatetime := LinearOrder.lift' instant fun _ _ => instant_injective

theorem isoformat_strictMono : StrictMono isoformat := fun _ _ h => isoformat_lt_iff.mpr h

/-- A number of `w` digits at the front of a text. -/
def readNumber (w : ℕ) (cs : List Char) : Option (ℕ × List Char) :=
  if w ≤ cs.length ∧ (cs.take w).all Char.isDigit then
    some (Nat.ofDigitChars 10 (cs.take w) 0, cs.drop w)
  else none

/-- A number of `w` digits and a separator at the front of a text. -/
def readField (w : ℕ) (sep : Char) (cs : List Char) : Option (ℕ × List Char) :=
  match readNumber w cs with
  | some (n, c :: rest) => if c = sep then some (n, rest) else none
  | _ => none

/-- What `fraction` writes, read back. -/
def readFraction : List Char → Option (ℕ × List Char)
  | '.' :: rest => readNumber 6 rest
  | rest => some (0, rest)

def parse (cs : List Char) : Option UtcDatetime := do
  let (year, cs) ← readField 4 '-' cs
  let (month, cs) ← readField 2 '-' cs
  let (day, cs) ← readField 2 'T' cs
  let (hour, cs) ← readField 2 ':' cs
  let (minute, cs) ← readField 2 ':' cs
  let (second, cs) ← readNumber 2 cs
  let (microsecond, cs) ← readFraction cs
  if h : (1 ≤ year ∧ year < 10000) ∧ (1 ≤ month ∧ month ≤ 12) ∧
      (1 ≤ day ∧ day ≤ daysInMonth year month) ∧
      (hour < 24 ∧ minute < 60 ∧ second < 60 ∧ microsecond < 1000000) ∧ cs = "+00:00".toList then
    some ⟨year, month, day, hour, minute, second, microsecond, h.1, h.2.1, h.2.2.1, h.2.2.2.1⟩
  else none

/-- `datetime.fromisoformat`, on what `isoformat` writes for a time in UTC. -/
def fromisoformat (text : String) : Except Error UtcDatetime :=
  match parse text.toList with
  | some t => .ok t
  | none => .error (.valueError ("Invalid isoformat string: '" ++ text ++ "'"))

theorem isDigit_padded (w n : ℕ) : (padded w n).all Char.isDigit = true := by
  induction w generalizing n with
  | zero => rfl
  | succ w ih =>
    have hlast : ∀ d < 10, (Nat.digitChar d).isDigit = true := by decide
    rw [padded, List.all_append, ih, Bool.true_and, List.all_cons, List.all_nil, Bool.and_true]
    exact hlast _ (Nat.mod_lt _ (by norm_num))

theorem readNumber_padded {w n : ℕ} (h : n < 10 ^ w) (rest : List Char) :
    readNumber w (padded w n ++ rest) = some (n, rest) := by
  have htake : (padded w n ++ rest).take w = padded w n := by
    rw [List.take_append_of_le_length (length_padded w n).ge, List.take_of_length_le
      (length_padded w n).le]
  have hdrop : (padded w n ++ rest).drop w = rest := by
    rw [List.drop_append_of_le_length (length_padded w n).ge, List.drop_of_length_le
      (length_padded w n).le, List.nil_append]
  rw [readNumber, htake, hdrop, if_pos ⟨by simp [length_padded], isDigit_padded w n⟩,
    ofDigitChars_padded h]

theorem readField_padded {w n : ℕ} (h : n < 10 ^ w) (sep : Char) (rest : List Char) :
    readField w sep (padded w n ++ sep :: rest) = some (n, rest) := by
  simp [readField, readNumber_padded h]

theorem readFraction_fraction {n : ℕ} (h : n < 10 ^ 6) :
    readFraction (fraction n ++ "+00:00".toList) = some (n, "+00:00".toList) := by
  unfold fraction
  split
  next hzero =>
    rw [hzero]
    rfl
  next => exact readNumber_padded h _

/-- The time is read back from its text. -/
theorem fromisoformat_isoformat (t : UtcDatetime) : fromisoformat t.isoformat = .ok t := by
  have hparse : parse t.isoformat.toList = some t := by
    obtain ⟨hh, hm, hs, hu⟩ := t.timeFits
    have hd : t.day < 10 ^ 2 := t.day_lt
    have hmonth := t.monthFits
    have hyear : t.year < 10 ^ 4 := t.yearFits.2
    have husecond : t.microsecond < 10 ^ 6 := hu
    rw [toList_isoformat, parse]
    simp (disch := omega) only [readField_padded, readNumber_padded, readFraction_fraction,
      Option.bind_eq_bind, Option.bind_some]
    exact dif_pos ⟨t.yearFits, t.monthFits, t.dayFits, t.timeFits, trivial⟩
  rw [fromisoformat, hparse]

end UtcDatetime

end Python
