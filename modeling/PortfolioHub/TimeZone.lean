import PortfolioHub.FxRates

namespace PortfolioHub

def minute : ℤ := 60000000

def hour : ℤ := 3600000000

def day : ℤ := 86400000000

/-- A `tzinfo`: the offset at an instant, and the offset of a wall time with `fold` 0. A wall time
that occurs stands for the first instant at which it does; one that is skipped stands for the
instant it would be without the change. -/
structure TimeZone where
  utcOffset : Instant → ℤ
  wallOffset : ℤ → ℤ
  bounded : ∀ t, |utcOffset t| < day
  first : ∀ t, t + utcOffset t - wallOffset (t + utcOffset t) ≤ t ∧
    t + utcOffset t - wallOffset (t + utcOffset t) +
      utcOffset (t + utcOffset t - wallOffset (t + utcOffset t)) = t + utcOffset t
  daily : ∀ w, wallOffset (w + day) ≤ wallOffset w + day

namespace TimeZone

/-- `t.astimezone(tz)`, as a wall clock shows it. -/
def wall (tz : TimeZone) (t : Instant) : ℤ := t + tz.utcOffset t

/-- `t.astimezone(tz).date()`, in days. -/
def localDate (tz : TimeZone) (t : Instant) : ℤ := tz.wall t / day

/-- The instant of a wall time with `fold` 0. -/
def instant (tz : TimeZone) (w : ℤ) : Instant := w - tz.wallOffset w

theorem localDate_eq {tz : TimeZone} {t : Instant} {d : ℤ} (hfrom : d * day ≤ tz.wall t)
    (hto : tz.wall t < (d + 1) * day) : tz.localDate t = d := by
  have hday : (0 : ℤ) < day := by decide
  have hle : d ≤ tz.localDate t := (Int.le_ediv_iff_mul_le hday).mpr hfrom
  have hlt : tz.localDate t < d + 1 := Int.ediv_lt_of_lt_mul hday hto
  exact le_antisymm (Int.lt_add_one_iff.mp hlt) hle

/-- A zone without changes. -/
def fixed (offset : ℤ) (hoffset : |offset| < day) : TimeZone where
  utcOffset _ := offset
  wallOffset _ := offset
  bounded _ := hoffset
  first t := by simp
  daily w := le_add_of_nonneg_right (by decide)

theorem localDate_fixed_mono (offset : ℤ) (hoffset : |offset| < day) :
    Monotone (fixed offset hoffset).localDate := fun _ _ hle =>
  Int.ediv_le_ediv (by decide) (Int.add_le_add_right hle offset)

/-- A zone whose offset changes once. -/
def oneChange (change : Instant) (before after : ℤ) (hbefore : |before| < day)
    (hafter : |after| < day) (hdaily : after ≤ before + day) : TimeZone where
  utcOffset t := if t < change then before else after
  wallOffset w := if w < change + max before after then before else after
  bounded t := by
    split
    next => exact hbefore
    next => exact hafter
  first t := by
    by_cases ht : t < change
    · have hw : t + before < change + max before after := by
        have hb : before ≤ max before after := le_max_left before after
        linarith
      have hr : t + before - before = t := add_sub_cancel_right t before
      rw [if_pos ht, if_pos hw, hr, if_pos ht]
      exact ⟨le_refl t, rfl⟩
    · rw [if_neg ht]
      by_cases hw : t + after < change + max before after
      · have hlater : after < before := by
          by_contra hle
          rw [max_eq_right (not_lt.mp hle)] at hw
          linarith
        rw [max_eq_left hlater.le] at hw
        have hr : t + after - before < change := by linarith
        rw [if_pos (by rw [max_eq_left hlater.le]; exact hw), if_pos hr]
        exact ⟨by linarith, by ring⟩
      · have hr : t + after - after = t := add_sub_cancel_right t after
        rw [if_neg hw, hr, if_neg ht]
        exact ⟨le_refl t, rfl⟩
  daily w := by
    have hday : (0 : ℤ) ≤ day := by decide
    generalize change + max before after = change'
    by_cases hw : w < change'
    · rw [if_pos hw]
      split <;> linarith
    · rw [if_neg hw, if_neg (by linarith)]
      linarith

end TimeZone

end PortfolioHub
