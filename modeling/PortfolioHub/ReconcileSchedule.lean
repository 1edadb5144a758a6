import PortfolioHub.EquitySnapshot
import PortfolioHub.TimeZone

namespace PortfolioHub

/-- A `time` of the day, in microseconds since midnight. -/
structure WallTime where
  sinceMidnight : ℤ
  nonneg : 0 ≤ sinceMidnight
  lt_day : sinceMidnight < day

/-- The instant of the target on a local day. -/
def targetInstant (tz : TimeZone) (target : WallTime) (d : ℤ) : Instant :=
  tz.instant (d * day + target.sinceMidnight)

/-- `today_local > local_now` compares wall clocks, and a day is added to the wall clock. -/
def nextFireAt (tz : TimeZone) (target : WallTime) (now : Instant) : Instant :=
  let localNow := tz.wall now
  let todayLocal := tz.localDate now * day + target.sinceMidnight
  if localNow < todayLocal then tz.instant todayLocal else tz.instant (todayLocal + day)

/-- The first of the local days' target instants after the instant. -/
def IsNextFire (tz : TimeZone) (target : WallTime) (now fire : Instant) : Prop :=
  IsLeast {t | now < t ∧ ∃ d, t = targetInstant tz target d} fire

/-- The wall clock tells rightly which targets are ahead: one that it shows to be later is ahead, and
one that it does not is not, unless it falls together with the next day's. -/
def WallClockAgrees (tz : TimeZone) (target : WallTime) (now : Instant) : Prop :=
  ∀ d, (tz.wall now < d * day + target.sinceMidnight → now < targetInstant tz target d) ∧
    (d * day + target.sinceMidnight ≤ tz.wall now → now < targetInstant tz target d →
      targetInstant tz target d = targetInstant tz target (d + 1))

theorem targetInstant_mono (tz : TimeZone) (target : WallTime) : Monotone (targetInstant tz target) := by
  refine monotone_int_of_le_succ fun d => ?_
  have hdaily := tz.daily (d * day + target.sinceMidnight)
  have hnext : (d + 1) * day + target.sinceMidnight = d * day + target.sinceMidnight + day := by ring
  rw [targetInstant, targetInstant, hnext, TimeZone.instant, TimeZone.instant]
  linarith

/-- The first day whose target the wall clock shows to be later. -/
def nextDay (tz : TimeZone) (target : WallTime) (now : Instant) : ℤ :=
  if tz.wall now < tz.localDate now * day + target.sinceMidnight then tz.localDate now
  else tz.localDate now + 1

theorem nextFireAt_eq (tz : TimeZone) (target : WallTime) (now : Instant) :
    nextFireAt tz target now = targetInstant tz target (nextDay tz target now) := by
  unfold nextFireAt nextDay
  dsimp only
  split
  next => rfl
  next =>
    refine congrArg tz.instant ?_
    ring

theorem nextDay_le_iff {tz : TimeZone} {target : WallTime} {now : Instant} {d : ℤ} :
    nextDay tz target now ≤ d ↔ tz.wall now < d * day + target.sinceMidnight := by
  have hday : (0 : ℤ) < day := by decide
  have hfrom : tz.localDate now * day ≤ tz.wall now := Int.ediv_mul_le _ hday.ne'
  have hto : tz.wall now < (tz.localDate now + 1) * day := Int.lt_ediv_add_one_mul_self _ hday
  have hnonneg := target.nonneg
  have hlt := target.lt_day
  unfold nextDay
  split
  next hahead =>
    constructor
    · intro hle
      have hmul : tz.localDate now * day ≤ d * day := Int.mul_le_mul_of_nonneg_right hle hday.le
      linarith
    · intro hwall
      by_contra hnot
      have hmul : (d + 1) * day ≤ tz.localDate now * day :=
        Int.mul_le_mul_of_nonneg_right (not_le.mp hnot) hday.le
      linarith
  next hpassed =>
    constructor
    · intro hle
      have hmul : (tz.localDate now + 1) * day ≤ d * day :=
        Int.mul_le_mul_of_nonneg_right hle hday.le
      linarith
    · intro hwall
      by_contra hnot
      have hmul : d * day ≤ tz.localDate now * day :=
        Int.mul_le_mul_of_nonneg_right (Int.lt_add_one_iff.mp (not_le.mp hnot)) hday.le
      linarith

/-- `next_fire_at` gives the next target instant exactly where the wall clock tells rightly which
targets are ahead. -/
theorem nextFireAt_isNextFire_iff (tz : TimeZone) (target : WallTime) (now : Instant) :
    IsNextFire tz target now (nextFireAt tz target now) ↔ WallClockAgrees tz target now := by
  have hmono := targetInstant_mono tz target
  rw [nextFireAt_eq]
  constructor
  · rintro ⟨⟨hahead, -⟩, hleast⟩ d
    refine ⟨fun hwall => hahead.trans_le (hmono (nextDay_le_iff.mpr hwall)), fun hwall hd => ?_⟩
    have hlt : d + 1 ≤ nextDay tz target now := not_le.mp (mt nextDay_le_iff.mp (not_lt.mpr hwall))
    exact le_antisymm (hmono (by linarith)) ((hmono hlt).trans (hleast ⟨hd, d, rfl⟩))
  · intro h
    have hbefore : ∀ (k : ℕ) (d : ℤ), d + k = nextDay tz target now →
        now < targetInstant tz target d →
          targetInstant tz target d = targetInstant tz target (nextDay tz target now) := by
      intro k
      induction k with
      | zero =>
        intro d hd _
        rw [← hd, Nat.cast_zero, add_zero]
      | succ k ih =>
        intro d hd hahead
        have hpassed : d * day + target.sinceMidnight ≤ tz.wall now := by
          refine not_lt.mp (mt nextDay_le_iff.mpr ?_)
          push_cast at hd
          linarith
        have hsame := (h d).2 hpassed hahead
        rw [hsame] at hahead ⊢
        refine ih (d + 1) ?_ hahead
        push_cast at hd
        linarith
    refine ⟨⟨(h _).1 (nextDay_le_iff.mp le_rfl), _, rfl⟩, ?_⟩
    rintro t ⟨hahead, d, rfl⟩
    by_cases hd : nextDay tz target now ≤ d
    · exact hmono hd
    · obtain ⟨k, hk⟩ := Int.le.dest (not_le.mp hd).le
      exact (hbefore k d hk hahead).ge

/-- A pass of `scheduled_reconcile_loop`: the clock at `now()`, after the sleep for the delay, and
after the reconcile, which may have raised. -/
structure ReconcilePass where
  current : Instant
  woke : Instant
  finished : Instant

namespace ReconcilePass

def wakeAt (tz : TimeZone) (target : WallTime) (pass : ReconcilePass) : Instant :=
  nextFireAt tz target pass.current

def delay (tz : TimeZone) (target : WallTime) (pass : ReconcilePass) : ℤ :=
  max 0 (pass.wakeAt tz target - pass.current)

/-- The pass reconciles for the target of the local day. -/
def FiresFor (tz : TimeZone) (target : WallTime) (pass : ReconcilePass) (d : ℤ) : Prop :=
  pass.wakeAt tz target = targetInstant tz target d

end ReconcilePass

/-- The passes of a loop under a clock that does not go back, where no sleep ends early. -/
structure ReconcileLoop (tz : TimeZone) (target : WallTime) (passes : List ReconcilePass) : Prop where
  slept : ∀ pass ∈ passes, pass.current + pass.delay tz target ≤ pass.woke
  worked : ∀ pass ∈ passes, pass.woke ≤ pass.finished
  paused : passes.IsChain fun pass next => pass.finished + second ≤ next.current

/-- A sleep ends at the wake time or later, and not before it began. -/
theorem ReconcileLoop.bounds {tz : TimeZone} {target : WallTime} {passes : List ReconcilePass}
    (h : ReconcileLoop tz target passes) {pass : ReconcilePass} (hpass : pass ∈ passes) :
    pass.wakeAt tz target ≤ pass.finished ∧ pass.current ≤ pass.finished := by
  have hslept := h.slept pass hpass
  have hworked := h.worked pass hpass
  have hnonneg : 0 ≤ pass.delay tz target := le_max_left _ _
  have hdelay : pass.wakeAt tz target - pass.current ≤ pass.delay tz target := le_max_right _ _
  exact ⟨by linarith, by linarith⟩

/-- Later passes read the clock after the wake times of earlier ones. -/
theorem ReconcileLoop.pairwise_later {tz : TimeZone} {target : WallTime} {passes : List ReconcilePass}
    (h : ReconcileLoop tz target passes) :
    passes.Pairwise fun pass later => pass.wakeAt tz target < later.current := by
  have hsecond : (0 : ℤ) < second := by decide
  have hchain : passes.IsChain fun pass later =>
      pass.finished < later.current ∧ later.current ≤ later.finished :=
    h.paused.imp_of_mem_imp fun pass later _ hlater hpaused =>
      ⟨by linarith, (h.bounds hlater).2⟩
  have htrans : IsTrans ReconcilePass fun pass later =>
      pass.finished < later.current ∧ later.current ≤ later.finished :=
    ⟨fun _ _ _ hab hbc => ⟨hab.1.trans (hab.2.trans_lt hbc.1), hbc.2⟩⟩
  refine hchain.pairwise.imp_of_mem fun hpass _ hlater => ?_
  exact (h.bounds hpass).1.trans_lt hlater.1

/-- The schedule: the next fire time is right exactly where the wall clock tells rightly which
targets are ahead, and a loop in which it does so whenever the clock is read fires for no local day
twice, only at targets, and passes none over while it waits for its wake time. -/
theorem reconcile_schedule_iff (tz : TimeZone) (target : WallTime) :
    (∀ now, IsNextFire tz target now (nextFireAt tz target now) ↔ WallClockAgrees tz target now) ∧
      ∀ passes, ReconcileLoop tz target passes →
        (∀ pass ∈ passes, WallClockAgrees tz target pass.current) →
          (∀ d, passes.Pairwise fun pass later =>
            ¬ (pass.FiresFor tz target d ∧ later.FiresFor tz target d)) ∧
          ∀ pass ∈ passes, pass.wakeAt tz target ≤ pass.woke ∧
            (∃ d, pass.FiresFor tz target d) ∧
            ∀ d, pass.current < targetInstant tz target d →
              targetInstant tz target d ≤ pass.wakeAt tz target → pass.FiresFor tz target d := by
  refine ⟨nextFireAt_isNextFire_iff tz target, fun passes hrun hagree => ⟨fun d => ?_, ?_⟩⟩
  · refine hrun.pairwise_later.imp_of_mem ?_
    rintro pass later - hlater hbefore ⟨hfires, hagain⟩
    have hahead := ((nextFireAt_isNextFire_iff tz target _).mpr (hagree later hlater)).1.1
    have hsame : pass.wakeAt tz target = later.wakeAt tz target := hfires.trans hagain.symm
    rw [hsame] at hbefore
    exact lt_asymm hbefore hahead
  · intro pass hpass
    obtain ⟨⟨hahead, d, hd⟩, hleast⟩ :=
      (nextFireAt_isNextFire_iff tz target _).mpr (hagree pass hpass)
    have hslept := hrun.slept pass hpass
    have hdelay : pass.wakeAt tz target - pass.current ≤ pass.delay tz target := le_max_right _ _
    refine ⟨by linarith, ⟨d, hd⟩, fun d hahead hle => ?_⟩
    exact le_antisymm (hleast ⟨hahead, d, rfl⟩) hle

/-- Around a change of the clocks the wall clock is right, but for the time that they go back or
forward by. -/
theorem wallClockAgrees_oneChange {change now : Instant} {before after : ℤ} (hbefore : |before| < day)
    (hafter : |after| < day) (hdaily : after ≤ before + day) (target : WallTime)
    (h : now < change ∨ change + |before - after| ≤ now) :
    WallClockAgrees (.oneChange change before after hbefore hafter hdaily) target now := by
  intro d
  have hinstant : targetInstant (.oneChange change before after hbefore hafter hdaily) target d =
      d * day + target.sinceMidnight - if d * day + target.sinceMidnight < change + max before after
        then before else after := rfl
  have hwall : (TimeZone.oneChange change before after hbefore hafter hdaily).wall now =
      now + if now < change then before else after := rfl
  have hback := le_abs_self (before - after)
  have hforward := neg_abs_le (before - after)
  have hleft := le_max_left before after
  have hright := le_max_right before after
  have hmax : max before after = before ∨ max before after = after := max_choice before after
  rw [hinstant, hwall]
  generalize d * day + target.sinceMidnight = w
  rcases h with hnow | hnow
  · rw [if_pos hnow]
    split
    next => exact ⟨fun h => by linarith, fun h hd => absurd hd (by linarith)⟩
    next hskipped => exact ⟨fun h => by linarith, fun h hd => absurd hnow (by linarith)⟩
  · have hlater : ¬ now < change := by linarith [abs_nonneg (before - after)]
    rw [if_neg hlater]
    split
    next hfirst =>
      rcases hmax with hmax | hmax
      · exact ⟨fun h => by linarith, fun h hd => absurd hd (by linarith)⟩
      · exact ⟨fun h => by linarith, fun h hd => absurd hd (by linarith)⟩
    next => exact ⟨fun h => by linarith, fun h hd => absurd hd (by linarith)⟩

/-- Half past one. -/
def halfPastOne : WallTime := ⟨hour + 30 * minute, by decide, by decide⟩

/-- New York on the day in November on which its clocks go back from two to one. -/
def autumnZone : TimeZone :=
  .oneChange (20758 * day + 6 * hour) (-(4 * hour)) (-(5 * hour)) (by decide) (by decide) (by decide)

/-- The night of the change, and the night after it. -/
def autumnPasses : List ReconcilePass :=
  [⟨20758 * day + 4 * hour, 20758 * day + 5 * hour + 30 * minute, 20758 * day + 5 * hour + 31 * minute⟩,
    ⟨20758 * day + 5 * hour + 32 * minute, 20759 * day + 6 * hour + 30 * minute,
      20759 * day + 6 * hour + 31 * minute⟩]

/-- The loop fires at the first half past one of the night of the change, and then the night after. -/
theorem reconcile_schedule_autumn :
    ReconcileLoop autumnZone halfPastOne autumnPasses ∧
      autumnPasses.map (·.wakeAt autumnZone halfPastOne) =
        [20758 * day + 5 * hour + 30 * minute, 20759 * day + 6 * hour + 30 * minute] ∧
      ∀ d, autumnPasses.Pairwise fun pass later =>
        ¬ (pass.FiresFor autumnZone halfPastOne d ∧ later.FiresFor autumnZone halfPastOne d) := by
  have hrun : ReconcileLoop autumnZone halfPastOne autumnPasses := by
    refine ⟨?_, ?_, ?_⟩ <;>
      simp only [autumnPasses, List.forall_mem_cons, List.isChain_cons_cons] <;> decide
  have hagree : ∀ pass ∈ autumnPasses, WallClockAgrees autumnZone halfPastOne pass.current := by
    intro pass hpass
    have hearly : ∀ pass ∈ autumnPasses, pass.current < 20758 * day + 6 * hour := by
      simp only [autumnPasses, List.forall_mem_cons]
      decide
    exact wallClockAgrees_oneChange _ _ _ halfPastOne (Or.inl (hearly pass hpass))
  exact ⟨hrun, by decide, ((reconcile_schedule_iff autumnZone halfPastOne).2 autumnPasses hrun hagree).1⟩

/-- A pass some seconds after the second quarter past one, in which nothing takes any time. -/
def foldPass (seconds : ℤ) : ReconcilePass :=
  ⟨20758 * day + 6 * hour + 15 * minute + seconds * second,
    20758 * day + 6 * hour + 15 * minute + seconds * second,
    20758 * day + 6 * hour + 15 * minute + seconds * second⟩

/-- At the second quarter past one the target is in the past, and the loop fires again a second later
for the same day. -/
theorem not_next_fire_in_fold :
    ¬ IsNextFire autumnZone halfPastOne (foldPass 0).current
        (nextFireAt autumnZone halfPastOne (foldPass 0).current) ∧
      ReconcileLoop autumnZone halfPastOne [foldPass 0, foldPass 1] ∧
      ∀ pass ∈ [foldPass 0, foldPass 1], pass.FiresFor autumnZone halfPastOne 20758 := by
  refine ⟨fun h => ?_, ⟨?_, ?_, ?_⟩, ?_⟩
  · have hpast : nextFireAt autumnZone halfPastOne (foldPass 0).current ≤ (foldPass 0).current := by
      decide
    exact not_lt.mpr hpast h.1.1
  · simp only [List.forall_mem_cons]
    decide
  · simp only [List.forall_mem_cons]
    decide
  · simp only [List.isChain_cons_cons]
    decide
  · simp only [List.forall_mem_cons, ReconcilePass.FiresFor]
    decide

end PortfolioHub
