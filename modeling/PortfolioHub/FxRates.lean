import PortfolioHub.OrderedDict
import PortfolioHub.PythonFloat

namespace PortfolioHub

/-- A UTC moment, in microseconds since 1970-01-01, which was a Thursday. -/
abbrev Instant := ℤ

def Instant.weekday (t : Instant) : ℤ := (t / 86400000000 + 3) % 7

def Instant.hour (t : Instant) : ℤ := t % 86400000000 / 3600000000

inductive FxSource where
  | ib
  | apiFallback
deriving DecidableEq, Repr

structure FxRate where
  pair : String
  rate : Python.Float
  quotedAt : Instant
  isStale : Bool
  source : FxSource
deriving DecidableEq, Repr

/-- `SUPPORTED_FX`, sorted. -/
def supportedFx : List String :=
  ["AUD", "CAD", "CHF", "CNH", "EUR", "GBP", "HKD", "JPY", "KRW", "SEK", "SGD", "TWD"]

def isFxMarketOpen (t : Instant) : Bool :=
  if t.weekday = 5 then false
  else if t.weekday = 6 then decide (22 ≤ t.hour)
  else if t.weekday = 4 then decide (t.hour < 22)
  else true

/-- The error `validate_currency` raises, if it raises one. -/
def validateCurrency (code : String) : Except Python.Error Unit :=
  if code = "USD" then .ok ()
  else if code = "CNY" then
    .error (.valueError ("CNY not supported — use CNH for offshore renminbi (IB returns CNH " ++
      "for Stock-Connect A-shares; CNY and CNH can diverge 1-3%)"))
  else if code ∉ supportedFx then
    .error (.valueError ("Currency " ++ Python.repr code ++ " not in SUPPORTED_FX=[" ++
      ", ".intercalate (supportedFx.map Python.repr) ++ "]"))
  else .ok ()

/-- The two rate tables of `FxService`. -/
structure FxService where
  ibRates : OrderedDict String FxRate
  apiRates : OrderedDict String FxRate
deriving DecidableEq

namespace FxService

def empty : FxService := ⟨.empty, .empty⟩

/-- Older than a minute while the market is open; the fallback never counts as stale. -/
def computeStaleness (now : Instant) (rate : FxRate) : Bool :=
  if rate.source ≠ .ib then false
  else if ¬ isFxMarketOpen now then false
  else decide (60000000 < now - rate.quotedAt)

/-- IB, unless it is stale and the fallback is fresher. -/
def pickRate (now : Instant) (ibRate apiRate : Option FxRate) : Option FxRate :=
  match ibRate, apiRate with
  | none, _ => apiRate
  | _, none => ibRate
  | some ib, some api =>
    if computeStaleness now ib ∧ ib.quotedAt < api.quotedAt then some api else some ib

def getRateSync (fx : FxService) (now : Instant) (currency : String) :
    Except Python.Error (Option FxRate) :=
  if currency = "USD" then .ok (some ⟨"USDUSD", 1, now, false, .ib⟩)
  else do
    validateCurrency currency
    return (pickRate now (fx.ibRates.get? currency) (fx.apiRates.get? currency)).map fun chosen =>
      { chosen with isStale := computeStaleness now chosen }

end FxService

structure FxConversion where
  mvUsd : Python.Float
  pnlUsd : Python.Float
  fxIsStale : Bool
  fxIsFallback : Bool
  fxUnavailable : Bool
deriving DecidableEq, Repr

/-- What an adapter sees of the FX subsystem at one moment: the injected service,
if there is one, and the clock. -/
structure FxView where
  service : Option FxService
  now : Instant
deriving DecidableEq

/-- A service that has not seen a rate yet. -/
def sampleView : FxView := ⟨some .empty, 0⟩

def FxConversion.unavailable : FxConversion := ⟨0, 0, false, false, true⟩

/-- `_convert_to_usd`, the same text in all four adapters. -/
def convertToUsd (fx : FxView) (currency : String) (mvNative pnlNative : Python.Float) :
    FxConversion :=
  if currency = "USD" then ⟨mvNative, pnlNative, false, false, false⟩
  else match fx.service with
    | none => .unavailable
    | some service =>
      match service.getRateSync fx.now currency with
      | .error _ => .unavailable
      | .ok none => .unavailable
      | .ok (some rate) =>
        { mvUsd := mvNative * rate.rate
          pnlUsd := pnlNative * rate.rate
          fxIsStale := rate.isStale
          fxIsFallback := rate.source = .apiFallback
          fxUnavailable := false }

theorem validateCurrency_ok_iff (code : String) :
    validateCurrency code = .ok () ↔ code = "USD" ∨ code ∈ supportedFx := by
  unfold validateCurrency
  by_cases hu : code = "USD"
  · simp [hu]
  · by_cases hc : code = "CNY"
    · have hcny : "CNY" ∉ supportedFx := by decide
      simp [hc, hcny]
    · by_cases hs : code ∈ supportedFx <;> simp [hu, hc, hs]

/-- The only error of a rate lookup is the rejection of the currency. -/
theorem getRateSync_error_iff (fx : FxService) (now : Instant) (currency : String) :
    (∃ e, fx.getRateSync now currency = .error e) ↔
      currency ≠ "USD" ∧ currency ∉ supportedFx := by
  unfold FxService.getRateSync
  split
  next hu => simp [hu]
  next hu =>
    by_cases hs : currency ∈ supportedFx
    · rw [(validateCurrency_ok_iff currency).mpr (Or.inr hs)]
      constructor
      · rintro ⟨e, he⟩
        exact absurd he (by simp [bind, Except.bind, pure, Except.pure])
      · exact fun h => absurd hs h.2
    · cases hv : validateCurrency currency with
      | ok u =>
        have hok := (validateCurrency_ok_iff currency).mp hv
        tauto
      | error e => exact ⟨fun _ => ⟨hu, hs⟩, fun _ => ⟨e, rfl⟩⟩

end PortfolioHub
