import PortfolioHub.IbkrRowRule
import PortfolioHub.LiveRows

namespace PortfolioHub

/-- Every rate of the view is a positive number. -/
def FxView.PositiveRates (fx : FxView) : Prop :=
  ∀ service ∈ fx.service, ∀ currency rate,
    service.ibRates.get? currency = some rate ∨ service.apiRates.get? currency = some rate →
      ∃ r : ℚ, 0 < r ∧ rate.rate = .finite r

/-- The USD figures are the native ones at the rate. -/
structure Position.ConvertedAt (p : Position) (r : ℚ) : Prop where
  pos : 0 < r
  usd : p.currency = "USD" → r = 1
  value : p.marketValueUsd = p.marketValueNative * .finite r
  pnl : p.unrealizedPnlUsd = p.unrealizedPnlNative * .finite r

/-- The USD figures are zero under the flag, and converted without it. -/
def Position.Converted (p : Position) : Prop :=
  (p.fxUnavailable = true ∧ p.marketValueUsd = 0 ∧ p.unrealizedPnlUsd = 0) ∨
    p.fxUnavailable = false ∧ ∃ r, p.ConvertedAt r

/-- The guard of `intraday_pnl_usd` short-circuits. -/
def Position.IntradayGuarded (p : Position) : Prop :=
  p.previousClose ≤ 0 ∨ p.lastPrice ≤ 0 ∨ p.fxUnavailable = true ∨
    p.lastPriceIsPreviousClose = true ∨ p.marketValueNative = 0

/-- Of the flags that say where the price is from, at most one is set. -/
def Position.OnePriceFlag (p : Position) : Prop :=
  [p.lastPriceIsPreviousClose, p.lastPriceIsBrokerMark, p.lastPriceIsDelayed].count true ≤ 1

structure Position.Coherent (p : Position) : Prop where
  unavailable : p.fxUnavailable = true → p.marketValueUsd = 0 ∧ p.unrealizedPnlUsd = 0
  rated : p.fxUnavailable = false → ∃ r, p.ConvertedAt r ∧ (¬ p.IntradayGuarded →
    p.intradayPnlUsd =
      .ok (p.priceMagnifier.divide ((p.lastPrice - p.previousClose) * p.quantity) * .finite r))
  cash : p.assetClass = .cash → p.unrealizedPnlNative = 0 ∧ p.unrealizedPnlUsd = 0
  flags : p.OnePriceFlag

/-- What keeps a row coherent when it is written again. -/
structure Position.Valued (p : Position) : Prop where
  converted : p.Converted
  cash : p.assetClass = .cash → p.unrealizedPnlNative = 0 ∧ p.unrealizedPnlUsd = 0
  flags : p.OnePriceFlag
  quantity : p.quantity.isFinite = true
  avgCost : p.avgCost.isFinite = true
  native : p.marketValueNative.isFinite = true
  pnlNative : p.unrealizedPnlNative.isFinite = true

theorem PriceMagnifier.isFinite_divide (m : PriceMagnifier) {x : Python.Float} (hx : x.isFinite = true) :
    (m.divide x).isFinite = true :=
  Python.Float.isFinite_quot hx rfl

theorem Position.Valued.coherent {p : Position} (h : p.Valued) : p.Coherent := by
  refine ⟨fun hflag => ?_, fun hflag => ?_, h.cash, h.flags⟩
  · rcases h.converted with ⟨-, hvalue, hpnl⟩ | ⟨hnot, -⟩
    · exact ⟨hvalue, hpnl⟩
    · simp [hflag] at hnot
  · rcases h.converted with ⟨hset, -⟩ | ⟨-, r, hr⟩
    · simp [hflag] at hset
    · refine ⟨r, hr, fun hguard => ?_⟩
      have hne : p.marketValueNative ≠ 0 := fun h0 => hguard (by simp [Position.IntradayGuarded, h0])
      unfold Position.IntradayGuarded at hguard
      unfold Position.intradayPnlUsd
      rw [if_neg hguard, Python.Float.div_of_ne_zero hne,
        Python.Float.div_of_ne_zero p.priceMagnifier.toFloat_ne_zero, hr.value,
        Python.Float.quot_mul_cancel h.native hne]
      rfl

/-- A conversion gives zeroes and the flag, or the figures at a rate of the view. -/
theorem convertToUsd_cases {fx : FxView} (hfx : fx.PositiveRates) (currency : String)
    {value pnl : Python.Float} (hvalue : value.isFinite = true) (hpnl : pnl.isFinite = true) :
    convertToUsd fx currency value pnl = .unavailable ∨
      (convertToUsd fx currency value pnl).fxUnavailable = false ∧
        ∃ r : ℚ, 0 < r ∧ (currency = "USD" → r = 1) ∧
          (convertToUsd fx currency value pnl).mvUsd = value * .finite r ∧
          (convertToUsd fx currency value pnl).pnlUsd = pnl * .finite r := by
  unfold convertToUsd
  split
  next =>
    refine Or.inr ⟨rfl, 1, one_pos, fun _ => rfl, ?_, ?_⟩
    · exact (Python.Float.mul_one hvalue).symm
    · exact (Python.Float.mul_one hpnl).symm
  next husd =>
    split
    next => exact Or.inl rfl
    next service hservice =>
      split
      next => exact Or.inl rfl
      next => exact Or.inl rfl
      next rate hrate =>
        unfold FxService.getRateSync at hrate
        rw [if_neg husd] at hrate
        obtain ⟨-, -, hrate⟩ := Python.bind_eq_ok.mp hrate
        obtain ⟨chosen, hchosen, rfl⟩ := Option.map_eq_some_iff.mp (Python.pure_eq_ok.mp hrate)
        have hknown : service.ibRates.get? currency = some chosen ∨
            service.apiRates.get? currency = some chosen := by
          unfold FxService.pickRate at hchosen
          split at hchosen
          next hib => exact Or.inr hchosen
          next hapi => exact Or.inl hchosen
          next ib api hib hapi =>
            split at hchosen
            next => exact Or.inr (hapi.trans hchosen)
            next => exact Or.inl (hib.trans hchosen)
        obtain ⟨r, hpos, hr⟩ := hfx service hservice currency chosen hknown
        refine Or.inr ⟨rfl, r, hpos, fun h => absurd h husd, ?_, ?_⟩
        · exact congrArg (value * ·) hr
        · exact congrArg (pnl * ·) hr

/-- A row that carries the conversion of its own native figures is converted. -/
theorem converted_of_convertToUsd {fx : FxView} (hfx : fx.PositiveRates) {p : Position}
    (hnative : p.marketValueNative.isFinite = true) (hpnl : p.unrealizedPnlNative.isFinite = true)
    (hvalue : p.marketValueUsd =
      (convertToUsd fx p.currency p.marketValueNative p.unrealizedPnlNative).mvUsd)
    (hpnlUsd : p.unrealizedPnlUsd =
      (convertToUsd fx p.currency p.marketValueNative p.unrealizedPnlNative).pnlUsd)
    (hflag : p.fxUnavailable =
      (convertToUsd fx p.currency p.marketValueNative p.unrealizedPnlNative).fxUnavailable) :
    p.Converted := by
  rcases convertToUsd_cases hfx p.currency hnative hpnl with hnone | ⟨hset, r, hpos, husd, hv, hp⟩
  · rw [hnone] at hvalue hpnlUsd hflag
    exact Or.inl ⟨hflag, hvalue, hpnlUsd⟩
  · exact Or.inr ⟨hflag.trans hset, r, hpos, husd, hvalue.trans hv, hpnlUsd.trans hp⟩

theorem cashRow_valued {fx : FxView} (hfx : fx.PositiveRates) (broker accountId currency : String)
    {amount : Python.Float} (hamount : amount.isFinite = true) :
    (cashRow broker accountId currency amount fx).Valued := by
  refine ⟨?_, fun _ => ⟨rfl, rfl⟩, by simp [Position.OnePriceFlag, cashRow], hamount, rfl, hamount,
    rfl⟩
  have hzero : (0 : Python.Float).isFinite = true := rfl
  rcases convertToUsd_cases hfx currency hamount hzero with
    hnone | ⟨hset, r, hpos, husd, hv, -⟩
  · exact Or.inl ⟨congrArg FxConversion.fxUnavailable hnone, congrArg FxConversion.mvUsd hnone, rfl⟩
  · exact Or.inr ⟨hset, r, hpos, husd, hv, (Python.Float.zero_mul r).symm⟩

theorem tickRow_valued {fx : FxView} (hfx : fx.PositiveRates) {old : Position} (h : old.Valued)
    (hstk : old.assetClass = .stk) {price : Python.Float} (hprice : price.isFinite = true)
    (delayed : Bool) : (tickRow fx old price delayed).Valued := by
  have hnative : (tickRow fx old price delayed).marketValueNative.isFinite = true :=
    old.priceMagnifier.isFinite_divide (Python.Float.isFinite_mul h.quantity hprice)
  have hpnl : (tickRow fx old price delayed).unrealizedPnlNative.isFinite = true :=
    old.priceMagnifier.isFinite_divide
      (Python.Float.isFinite_mul (Python.Float.isFinite_sub hprice h.avgCost) h.quantity)
  refine ⟨converted_of_convertToUsd hfx hnative hpnl rfl rfl rfl, fun hcash => ?_, ?_, h.quantity,
    h.avgCost, hnative, hpnl⟩
  · exact absurd (hcash.symm.trans hstk) (by simp)
  · cases delayed <;> simp [Position.OnePriceFlag, tickRow]

theorem reseedRow_valued {old : Position} (h : old.Valued) (newPrev : Python.Float) :
    (reseedRow old newPrev).Valued :=
  ⟨h.converted.imp id fun ⟨hflag, r, hr⟩ => ⟨hflag, r, hr.pos, hr.usd, hr.value, hr.pnl⟩, h.cash,
    h.flags, h.quantity, h.avgCost, h.native, h.pnlNative⟩

theorem staleRow_valued {old : Position} (h : old.Valued) : (staleRow old).Valued :=
  ⟨h.converted.imp id fun ⟨hflag, r, hr⟩ => ⟨hflag, r, hr.pos, hr.usd, hr.value, hr.pnl⟩, h.cash,
    h.flags, h.quantity, h.avgCost, h.native, h.pnlNative⟩

end PortfolioHub
