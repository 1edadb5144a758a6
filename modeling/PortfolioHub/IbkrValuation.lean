import PortfolioHub.Position

namespace PortfolioHub

/-- What the adapter reads of a ticker; `marketPrice` is what the method returns,
`none` where it raises. -/
structure Ticker where
  conId : ℤ
  last : Option Python.Float
  close : Option Python.Float
  marketPrice : Option Python.Float
  marketDataType : ℤ
deriving DecidableEq, Repr

/-- A line of IB's account portfolio. -/
structure PortfolioItem where
  account : String
  conId : ℤ
  marketPrice : Python.Float
  marketValue : Python.Float
  averageCost : Python.Float
  unrealizedPnl : Python.Float
deriving DecidableEq, Repr

def toPositiveFloat (value : Option Python.Float) : Option Python.Float :=
  value.bind fun f => if f.isNan ∨ f ≤ 0 then none else some f

/-- Despite its name it lets infinities through. -/
def toFiniteFloat (value : Python.Float) : Option Python.Float :=
  if value.isNan then none else some value

def coerceLast (ticker : Ticker) : Python.Float :=
  ((toPositiveFloat ticker.last).or
    ((toPositiveFloat ticker.close).or (toPositiveFloat ticker.marketPrice))).getD 0

def tickerIsDelayed (ticker : Ticker) : Bool := ticker.marketDataType ∈ [(2 : ℤ), 3, 4]

def portfolioMarketValue (item : PortfolioItem) : Option Python.Float :=
  toFiniteFloat item.marketValue

def portfolioUnrealizedPnl (item : PortfolioItem) : Option Python.Float :=
  toFiniteFloat item.unrealizedPnl

def portfolioAverageCost (item : PortfolioItem) (m : PriceMagnifier) : Option Python.Float :=
  (toPositiveFloat (some item.averageCost)).map (· * m.toFloat)

/-- The market price, else the market value per unit of a position that is not zero. -/
def portfolioDisplayPrice (item : PortfolioItem) (m : PriceMagnifier) (quantity : Python.Float) :
    Option Python.Float :=
  let fromValue := if quantity = 0 then none
    else (portfolioMarketValue item).map fun value => (Python.Float.quot value quantity).abs
  ((toPositiveFloat (some item.marketPrice)).or fromValue).map (· * m.toFloat)

theorem toPositiveFloat_pos {value : Option Python.Float} {f : Python.Float}
    (h : toPositiveFloat value = some f) : f.isNan = false ∧ ¬ f ≤ 0 := by
  obtain ⟨v, -, hv⟩ := Option.bind_eq_some_iff.mp h
  split at hv
  next => simp at hv
  next hcond =>
    obtain rfl := Option.some.inj hv
    exact ⟨by simpa using fun hn => hcond (Or.inl hn), fun hle => hcond (Or.inr hle)⟩

/-- A tick either carries a usable price or none, and then it reads as zero. -/
theorem coerceLast_cases (ticker : Ticker) :
    coerceLast ticker = 0 ∨ (coerceLast ticker).isNan = false ∧ ¬ coerceLast ticker ≤ 0 := by
  unfold coerceLast
  cases h : (toPositiveFloat ticker.last).or
      ((toPositiveFloat ticker.close).or (toPositiveFloat ticker.marketPrice)) with
  | none => exact Or.inl rfl
  | some f =>
    right
    rcases Option.or_eq_some_iff.mp h with h1 | ⟨-, h2⟩
    · exact toPositiveFloat_pos h1
    · rcases Option.or_eq_some_iff.mp h2 with h2 | ⟨-, h3⟩
      · exact toPositiveFloat_pos h2
      · exact toPositiveFloat_pos h3

end PortfolioHub
