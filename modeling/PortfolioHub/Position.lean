import PortfolioHub.PythonFloat

namespace PortfolioHub

inductive ConnectionState where
  | connected
  | reconnecting
  | disconnected
deriving DecidableEq, Repr

inductive AssetClass where
  | stk
  | cash
deriving DecidableEq, Repr

def AssetClass.text : AssetClass → String
  | .stk => "STK"
  | .cash => "CASH"

/-- IB's price-unit divisor: 1 for most contracts, 100 for pence-quoted ones.
The adapter stores `int(priceMagnifier or 1)`, which is never zero. -/
structure PriceMagnifier where
  value : ℤ
  ne_zero : value ≠ 0
deriving DecidableEq, Repr

def PriceMagnifier.one : PriceMagnifier := ⟨1, by decide⟩

/-- The divisor as a float. -/
def PriceMagnifier.toFloat (m : PriceMagnifier) : Python.Float := m.value

theorem PriceMagnifier.toFloat_ne_zero (m : PriceMagnifier) : m.toFloat ≠ 0 := by
  intro h
  have hq : (m.value : ℚ) = ((0 : ℕ) : ℚ) := by
    injection h
  exact m.ne_zero (by exact_mod_cast hq)

/-- `x / price_magnifier`. -/
def PriceMagnifier.divide (m : PriceMagnifier) (x : Python.Float) : Python.Float :=
  Python.Float.quot x m.toFloat

structure Position where
  broker : String
  accountId : String
  nativeKey : String
  canonicalSymbol : String
  nativeSymbol : String
  exchange : String
  currency : String
  nameEn : String
  assetClass : AssetClass
  quantity : Python.Float
  avgCost : Python.Float
  lastPrice : Python.Float
  marketValueNative : Python.Float
  marketValueUsd : Python.Float
  unrealizedPnlNative : Python.Float
  unrealizedPnlUsd : Python.Float
  fxIsStale : Bool := false
  fxIsFallback : Bool := false
  fxUnavailable : Bool := false
  lastPriceIsPreviousClose : Bool := false
  lastPriceIsBrokerMark : Bool := false
  lastPriceIsDelayed : Bool := false
  lastPriceIsStale : Bool := false
  priceMagnifier : PriceMagnifier := .one
  previousClose : Python.Float := 0
deriving DecidableEq, Repr

namespace Position

def intradayChangePct (p : Position) : Except Python.Error (Option Python.Float) :=
  if p.previousClose ≤ 0 ∨ p.lastPrice ≤ 0 then .ok none
  else if p.lastPriceIsPreviousClose then .ok none
  else do
    let change ← Python.Float.div (p.lastPrice - p.previousClose) p.previousClose
    return some (change * 100)

def intradayPnlUsd (p : Position) : Except Python.Error Python.Float :=
  if p.previousClose ≤ 0 ∨ p.lastPrice ≤ 0 ∨ p.fxUnavailable ∨
      p.lastPriceIsPreviousClose ∨ p.marketValueNative = 0 then .ok 0
  else do
    let fx ← Python.Float.div p.marketValueUsd p.marketValueNative
    let change ← Python.Float.div ((p.lastPrice - p.previousClose) * p.quantity)
      p.priceMagnifier.toFloat
    return change * fx

/-- The guard on the previous close is the guard of the division. -/
theorem intradayChangePct_defined (p : Position) : ∃ v, p.intradayChangePct = .ok v := by
  unfold intradayChangePct
  split
  next => exact ⟨_, rfl⟩
  next hguard =>
    split
    next => exact ⟨_, rfl⟩
    next =>
      have hne : p.previousClose ≠ 0 :=
        Python.Float.ne_zero_of_not_le_zero fun hle => hguard (Or.inl hle)
      exact ⟨_, by rw [Python.Float.div_of_ne_zero hne]; rfl⟩

theorem intradayPnlUsd_defined (p : Position) : ∃ v, p.intradayPnlUsd = .ok v := by
  unfold intradayPnlUsd
  split
  next => exact ⟨_, rfl⟩
  next hguard =>
    have hmv : p.marketValueNative ≠ 0 := fun h0 => hguard (by simp [h0])
    exact ⟨_, by
      rw [Python.Float.div_of_ne_zero hmv,
        Python.Float.div_of_ne_zero p.priceMagnifier.toFloat_ne_zero]
      rfl⟩

end Position

structure AccountSummary where
  broker : String
  accountId : String
  baseCurrency : String
  netLiquidationUsd : Python.Float
  cashUsd : Python.Float
  buyingPowerUsd : Python.Float
  netLiquidationNative : Python.Float := 0
  grossPositionValueUsd : Python.Float := 0
deriving DecidableEq, Repr

end PortfolioHub
