import PortfolioHub.FxRates

namespace PortfolioHub

/-- What the handler reads of a forex ticker; `marketPrice` is what the method returns. -/
structure ForexTicker where
  bid : Option Python.Float
  ask : Option Python.Float
  last : Option Python.Float
  marketPrice : Option Python.Float
deriving DecidableEq, Repr

/-- A value that is there and positive. -/
def positive? (value : Option Python.Float) : Option Python.Float :=
  value.bind fun x => if 0 < x then some x else none

/-- `_extract_forex_price`: the midpoint, else the last trade, else the market price. -/
def extractForexPrice (ticker : ForexTicker) : Option Python.Float :=
  match positive? ticker.bid, positive? ticker.ask with
  | some bid, some ask => some (Python.Float.quot (bid + ask) 2)
  | _, _ => (positive? ticker.last).or (positive? ticker.marketPrice)

def pairFor (currency : String) : String := currency ++ "USD"

/-- `pair[:3]`. -/
def pairCurrency (pair : String) : String := String.ofList (pair.toList.take 3)

namespace FxService

/-- `get_rate_sync` gives no rate for the currency: it has none, or rejects it. -/
def NoRate (fx : FxService) (now : Instant) (currency : String) : Prop :=
  ∀ rate, fx.getRateSync now currency ≠ .ok (some rate)

/-- The closure of `_make_ticker_handler` for a currency: a repeated price is skipped. -/
def tickerHandler (fx : FxService) (now : Instant) (currency : String) (invert : Bool)
    (ticker : ForexTicker) : FxService :=
  match extractForexPrice ticker with
  | none => fx
  | some quoted =>
    let price := if invert then Python.Float.quot 1 quoted else quoted
    if (fx.ibRates.get? currency).any fun existing => existing.rate.equal price then fx
    else { fx with ibRates :=
      fx.ibRates.insert currency ⟨pairFor currency, price, now, false, .ib⟩ }

/-- `set_rate`, the write to the cache apart. -/
def setRate (fx : FxService) (rate : FxRate) : Except Python.Error FxService := do
  validateCurrency (pairCurrency rate.pair)
  match rate.source with
  | .ib => return { fx with ibRates := fx.ibRates.insert (pairCurrency rate.pair) rate }
  | .apiFallback => return { fx with apiRates := fx.apiRates.insert (pairCurrency rate.pair) rate }

/-- The rate `refresh_from_api` makes of the payload's number, which is native per USD. -/
def apiRate (now : Instant) (rates : String → Option Python.Float) (currency : String) :
    Option FxRate :=
  if currency = "CNH" then none
  else (rates currency).bind fun inverse =>
    if inverse ≤ 0 then none
    else some ⟨pairFor currency, Python.Float.quot 1 inverse, now, false, .apiFallback⟩

/-- `refresh_from_api` on a payload with the numbers `rates`. -/
def refreshFromApi (fx : FxService) (now : Instant) (rates : String → Option Python.Float) :
    Except Python.Error FxService :=
  (supportedFx.filterMap (apiRate now rates)).foldlM setRate fx

theorem noRate_iff (fx : FxService) (now : Instant) (currency : String) :
    fx.NoRate now currency ↔ currency ≠ "USD" ∧ (currency ∉ supportedFx ∨
      fx.ibRates.get? currency = none ∧ fx.apiRates.get? currency = none) := by
  unfold NoRate getRateSync
  split
  next husd => simp [husd]
  next husd =>
    by_cases hsupported : currency ∈ supportedFx
    · rw [(validateCurrency_ok_iff currency).mpr (Or.inr hsupported)]
      have hpick : pickRate now (fx.ibRates.get? currency) (fx.apiRates.get? currency) = none ↔
          fx.ibRates.get? currency = none ∧ fx.apiRates.get? currency = none := by
        unfold pickRate
        cases fx.ibRates.get? currency with
        | none => simp
        | some ib =>
          cases fx.apiRates.get? currency with
          | none => simp
          | some api =>
            simp only [reduceCtorEq, false_and, iff_false]
            split <;> simp
      simp only [husd, hsupported, ne_eq, not_false_eq_true, not_true_eq_false, false_or, true_and]
      rw [← hpick]
      cases pickRate now (fx.ibRates.get? currency) (fx.apiRates.get? currency) with
      | none => simp [bind, Except.bind, pure, Except.pure]
      | some rate => simp [bind, Except.bind, pure, Except.pure]
    · have hrejected : ∀ u, validateCurrency currency ≠ .ok u := by
        intro u hok
        rcases (validateCurrency_ok_iff currency).mp hok with h | h
        · exact husd h
        · exact hsupported h
      refine iff_of_true (fun rate h => ?_) ⟨husd, Or.inl hsupported⟩
      obtain ⟨u, hu, -⟩ := Python.bind_eq_ok.mp h
      exact hrejected u hu

/-- The tables only grow. -/
def Grows (fx fx' : FxService) : Prop :=
  (∀ c ∈ fx.ibRates.keys, c ∈ fx'.ibRates.keys) ∧ ∀ c ∈ fx.apiRates.keys, c ∈ fx'.apiRates.keys

theorem Grows.refl (fx : FxService) : fx.Grows fx := ⟨fun _ h => h, fun _ h => h⟩

theorem Grows.trans {fx fx' fx'' : FxService} (h : fx.Grows fx') (h' : fx'.Grows fx'') :
    fx.Grows fx'' :=
  ⟨fun c hc => h'.1 c (h.1 c hc), fun c hc => h'.2 c (h.2 c hc)⟩

theorem mem_keys_insert {rates : OrderedDict String FxRate} {currency c : String} {rate : FxRate}
    (hc : c ∈ rates.keys) : c ∈ (rates.insert currency rate).keys := by
  obtain ⟨old, hold⟩ := OrderedDict.mem_keys_iff.mp hc
  rw [OrderedDict.mem_keys_iff, OrderedDict.get?_insert]
  split
  next => exact ⟨rate, rfl⟩
  next => exact ⟨old, hold⟩

theorem tickerHandler_grows (fx : FxService) (now : Instant) (currency : String) (invert : Bool)
    (ticker : ForexTicker) : fx.Grows (fx.tickerHandler now currency invert ticker) := by
  unfold tickerHandler
  split
  next => exact Grows.refl fx
  next quoted _ =>
    dsimp only
    generalize (if invert then Python.Float.quot 1 quoted else quoted) = price
    split
    next => exact Grows.refl fx
    next => exact ⟨fun c hc => mem_keys_insert hc, fun _ hc => hc⟩

theorem setRate_grows {fx fx' : FxService} {rate : FxRate} (h : fx.setRate rate = .ok fx') :
    fx.Grows fx' := by
  obtain ⟨-, -, h⟩ := Python.bind_eq_ok.mp h
  split at h
  next =>
    obtain rfl := Python.pure_eq_ok.mp h
    exact ⟨fun c hc => mem_keys_insert hc, fun _ hc => hc⟩
  next =>
    obtain rfl := Python.pure_eq_ok.mp h
    exact ⟨fun _ hc => hc, fun c hc => mem_keys_insert hc⟩

theorem refreshFromApi_grows {fx fx' : FxService} {now : Instant}
    {rates : String → Option Python.Float} (h : fx.refreshFromApi now rates = .ok fx') :
    fx.Grows fx' :=
  Python.foldlM_invariant (Grows.refl fx)
    (fun _ _ _ hgrows hset => hgrows.trans (setRate_grows hset)) h

/-- A currency that has a rate keeps having one. -/
theorem Grows.noRate {fx fx' : FxService} (h : fx.Grows fx') {now now' : Instant}
    {currency : String} (hnone : fx'.NoRate now' currency) : fx.NoRate now currency := by
  rw [noRate_iff] at hnone ⊢
  refine ⟨hnone.1, hnone.2.imp id fun ⟨hib, hapi⟩ => ?_⟩
  rw [OrderedDict.get?_eq_none_iff] at hib hapi ⊢
  rw [OrderedDict.get?_eq_none_iff]
  exact ⟨fun hc => hib (h.1 _ hc), fun hc => hapi (h.2 _ hc)⟩

end FxService

end PortfolioHub
