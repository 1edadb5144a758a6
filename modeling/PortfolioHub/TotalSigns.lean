import PortfolioHub.FinitePayloads

namespace PortfolioHub

/-- Neither number is negative where the other is positive. -/
def SameSign (x y : Python.Float) : Prop := ¬ (x < 0 ∧ 0 < y) ∧ ¬ (0 < x ∧ y < 0)

/-- A percentage agrees with its amount: it has its sign, and is not zero where the amount and its
cost basis are not. -/
structure PercentAgrees (pct amount basis : Python.Float) : Prop where
  sign : SameSign pct amount
  nonzero : amount ≠ 0 → basis ≠ 0 → pct ≠ 0

/-- The totals of the rows come out, and both percentages agree with their amounts. -/
def TotalsAgree (positions : List Position) : Prop :=
  ∃ totals, computeTotals positions = .ok totals ∧
    PercentAgrees totals.pnlPct totals.pnlUsd (totals.mvUsd - totals.pnlUsd) ∧
    PercentAgrees totals.intradayPnlPct totals.intradayPnlUsd (totals.mvUsd - totals.intradayPnlUsd)

/-- The value of `intraday_pnl_usd`. -/
def Position.dayPnl (p : Position) : ℚ := (p.intradayPnlUsd.toOption.getD 0).value

/-- A figure summed over the rows that count. -/
def summed (figure : Position → ℚ) (positions : List Position) : ℚ :=
  ((positions.filter fun p => !p.fxUnavailable).map figure).sum

theorem percent_finite {a b : ℚ} (hb : b ≠ 0) :
    percent (.finite a) (.finite b) = .ok (.finite (a / b * 100)) := by
  rw [percent_of_ne_zero (mt Python.Float.finite_eq_zero.mp hb)]
  have hhundred : Python.Float.quot (.finite a) (.finite b) * 100 =
      .finite (a / b * ((100 : ℕ) : ℚ)) := rfl
  rw [hhundred]
  norm_num

/-- A percentage that is computed agrees with its amount where there is none, or where the basis
is positive: over a negative basis it has the other sign. -/
theorem percentAgrees_ratio_iff {a b : ℚ} (hb : b ≠ 0) :
    PercentAgrees (.finite (a / b * 100)) (.finite a) (.finite b) ↔ a = 0 ∨ 0 < b := by
  constructor
  · intro h
    by_contra hneither
    obtain ⟨ha, hpos⟩ := not_or.mp hneither
    have hneg : b < 0 := lt_of_le_of_ne (not_lt.mp hpos) hb
    rcases lt_or_gt_of_ne ha with ha | ha
    · exact h.sign.2 ⟨Python.Float.zero_lt_finite.mpr
        (mul_pos (div_pos_of_neg_of_neg ha hneg) (by norm_num)), Python.Float.finite_lt_zero.mpr ha⟩
    · exact h.sign.1 ⟨Python.Float.finite_lt_zero.mpr
        (mul_neg_of_neg_of_pos (div_neg_of_pos_of_neg ha hneg) (by norm_num)),
          Python.Float.zero_lt_finite.mpr ha⟩
  · intro h
    have hzero : a / b * 100 = 0 ↔ a = 0 := by simp [hb]
    have hsign : a ≠ 0 → 0 < b := fun ha => h.resolve_left ha
    refine ⟨⟨?_, ?_⟩, fun ha _ hpct => ha (Python.Float.finite_eq_zero.mpr
      (hzero.mp (Python.Float.finite_eq_zero.mp hpct)))⟩
    · rintro ⟨hpct, ha⟩
      have hpct := Python.Float.finite_lt_zero.mp hpct
      have ha := Python.Float.zero_lt_finite.mp ha
      have hpos : 0 < a / b * 100 := mul_pos (div_pos ha (hsign ha.ne')) (by norm_num)
      exact lt_asymm hpct hpos
    · rintro ⟨hpct, ha⟩
      have hpct := Python.Float.zero_lt_finite.mp hpct
      have ha := Python.Float.finite_lt_zero.mp ha
      have hneg : a / b * 100 < 0 :=
        mul_neg_of_neg_of_pos (div_neg_of_neg_of_pos ha (hsign ha.ne)) (by norm_num)
      exact lt_asymm hpct hneg

/-- The zero given in place of a percentage agrees where amount or basis is zero. -/
theorem percentAgrees_zero_iff {a b : ℚ} :
    PercentAgrees 0 (.finite a) (.finite b) ↔ a = 0 ∨ b = 0 := by
  have hnot : ¬ (0 : Python.Float) < 0 := by decide
  constructor
  · intro h
    by_contra hneither
    obtain ⟨ha, hb⟩ := not_or.mp hneither
    exact h.nonzero (mt Python.Float.finite_eq_zero.mp ha) (mt Python.Float.finite_eq_zero.mp hb) rfl
  · intro h
    refine ⟨⟨fun hsign => hnot hsign.1, fun hsign => hnot hsign.1⟩, fun ha hb _ => ?_⟩
    exact h.elim (fun h => ha (Python.Float.finite_eq_zero.mpr h))
      fun h => hb (Python.Float.finite_eq_zero.mpr h)

/-- Under a guard that lets every positive basis through and no zero one, a percentage agrees with
its amount where there is none or where the basis is not negative. -/
theorem percentIf_agrees_iff {c : Bool} {a b : ℚ} {pct : Python.Float}
    (hzero : c = true → b ≠ 0) (hpos : 0 < b → c = true)
    (h : percentIf c (.finite a) (.finite b) = .ok pct) :
    PercentAgrees pct (.finite a) (.finite b) ↔ a = 0 ∨ 0 ≤ b := by
  cases c with
  | true =>
    have hb : b ≠ 0 := hzero rfl
    rw [percentIf, if_pos rfl, percent_finite hb] at h
    obtain rfl := Except.ok.inj h
    rw [percentAgrees_ratio_iff hb, le_iff_lt_or_eq, or_iff_left hb.symm]
  | false =>
    obtain rfl := Except.ok.inj h
    have hle : ¬ 0 < b := fun hb => Bool.false_ne_true (hpos hb)
    rw [percentAgrees_zero_iff, le_iff_lt_or_eq, or_iff_right hle, eq_comm (a := (0 : ℚ))]

theorem sum_figures {positions : List Position} {figure : Position → Python.Float}
    (h : ∀ p ∈ positions, (figure p).isFinite = true) :
    sum ((positions.filter fun p => !p.fxUnavailable).map figure) =
      .finite (summed (fun p => (figure p).value) positions) := by
  rw [sum_eq_finite, List.map_map]
  · rfl
  · intro x hx
    obtain ⟨p, hp, rfl⟩ := List.mem_map.mp hx
    exact h p (List.mem_of_mem_filter hp)

/-- The day's results of rows of finite numbers, summed. -/
theorem sum_intraday {positions : List Position} {intraday : List Python.Float}
    (h : ∀ p ∈ positions, p.NumbersFinite)
    (hintraday : (positions.filter fun p => !p.fxUnavailable).mapM (·.intradayPnlUsd) =
      .ok intraday) : sum intraday = .finite (summed Position.dayPnl positions) := by
  have hrows := Python.mapM_eq_ok.mp hintraday
  have hvalues : ∀ {rows : List Position} {values : List Python.Float},
      List.Forall₂ (fun p v => p.intradayPnlUsd = .ok v) rows values →
        values.map (·.value) = rows.map Position.dayPnl := by
    intro rows values hforall
    induction hforall with
    | nil => rfl
    | cons hp _ ih =>
      rw [List.map_cons, List.map_cons, ih, Position.dayPnl, hp]
      rfl
  rw [sum_eq_finite, hvalues hrows]
  · rfl
  · intro x hx
    obtain ⟨p, hp, hv⟩ := (Python.mem_mapM_iff hintraday).mp hx
    exact (h p (List.mem_of_mem_filter hp)).intradayPnlUsd hv

/-- The totals' percentages agree with their amounts exactly where, for each of the two, the amount
is zero or what it is measured against is not negative. -/
theorem totals_agree_iff {positions : List Position} (h : ∀ p ∈ positions, p.NumbersFinite) :
    TotalsAgree positions ↔
      (summed (·.unrealizedPnlUsd.value) positions = 0 ∨
        0 ≤ summed (·.marketValueUsd.value) positions -
          summed (·.unrealizedPnlUsd.value) positions) ∧
      (summed Position.dayPnl positions = 0 ∨
        0 ≤ summed (·.marketValueUsd.value) positions - summed Position.dayPnl positions) := by
  obtain ⟨totals, htotals⟩ := computeTotals_defined positions
  obtain ⟨hmv, hpnl, hpct, ⟨intraday, hintraday, hday⟩, hdayPct⟩ := computeTotals_parts htotals
  rw [sum_figures fun p hp => (h p hp).marketValueUsd] at hmv
  rw [sum_figures fun p hp => (h p hp).unrealizedPnlUsd] at hpnl
  rw [sum_intraday h hintraday] at hday
  have hsub : ∀ a b : ℚ, Python.Float.finite a - .finite b = .finite (a - b) :=
    fun a b => congrArg Python.Float.finite (sub_eq_add_neg a b).symm
  rw [hmv, hpnl, hsub] at hpct
  rw [hmv, hday, hsub] at hdayPct
  have htotal := percentIf_agrees_iff
    (fun hc => mt Python.Float.finite_eq_zero.mpr (of_decide_eq_true hc))
    (fun hb => decide_eq_true (mt Python.Float.finite_eq_zero.mp hb.ne')) hpct
  have htoday := percentIf_agrees_iff
    (fun hc => (Python.Float.zero_lt_finite.mp (of_decide_eq_true hc)).ne')
    (fun hb => decide_eq_true (Python.Float.zero_lt_finite.mpr hb)) hdayPct
  rw [← htotal, ← htoday, TotalsAgree, htotals]
  simp only [Except.ok.injEq, exists_eq_left', hmv, hpnl, hday, hsub]

/-- Shares of which some are held at 10 dollars and now cost 7. -/
def sampleHolding (quantity mv pnl : ℚ) : Position where
  broker := "IB"
  accountId := "U1"
  nativeKey := "1"
  canonicalSymbol := "AAPL.US"
  nativeSymbol := "AAPL"
  exchange := "US"
  currency := "USD"
  nameEn := "Apple"
  assetClass := .stk
  quantity := .finite quantity
  avgCost := 10
  lastPrice := 7
  marketValueNative := .finite mv
  marketValueUsd := .finite mv
  unrealizedPnlNative := .finite pnl
  unrealizedPnlUsd := .finite pnl
  previousClose := 8

theorem sampleHolding_finite (quantity mv pnl : ℚ) :
    (sampleHolding quantity mv pnl).NumbersFinite := ⟨rfl, rfl, rfl, rfl, rfl, rfl, rfl, rfl⟩

/-- Ten shares sold short have made 30 dollars, ten of them today. The percentages are minus thirty
and zero. -/
theorem not_totals_agree_short :
    (sampleHolding (-10) (-70) 30).NumbersFinite ∧
      (computeTotals [sampleHolding (-10) (-70) 30]).map
        (fun t => (t.pnlUsd, t.pnlPct, t.intradayPnlUsd, t.intradayPnlPct)) =
          .ok (.finite 30, .finite (-30), .finite 10, .finite 0) ∧
      ¬ TotalsAgree [sampleHolding (-10) (-70) 30] := by
  have hfigures : (computeTotals [sampleHolding (-10) (-70) 30]).map
      (fun t => (t.pnlUsd, t.pnlPct, t.intradayPnlUsd, t.intradayPnlPct)) =
        .ok (.finite 30, .finite (-30), .finite 10, .finite 0) := by decide +kernel
  refine ⟨sampleHolding_finite _ _ _, hfigures, ?_⟩
  rintro ⟨totals, htotals, hpct, -⟩
  rw [htotals] at hfigures
  obtain ⟨hpnl, hratio, -⟩ := Prod.mk.inj (Except.ok.inj hfigures) |>.imp_right Prod.mk.inj
  rw [hpnl, hratio] at hpct
  exact hpct.sign.1 (by decide +kernel)

/-- Ten shares held long have lost 30 dollars on 100 next to five sold short. -/
theorem totals_agree_long :
    TotalsAgree [sampleHolding 10 70 (-30), sampleHolding (-5) (-35) 15] := by
  refine (totals_agree_iff ?_).mpr (by decide +kernel)
  simp [sampleHolding_finite]

end PortfolioHub
