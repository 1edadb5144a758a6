import PortfolioHub.Markets
import PortfolioHub.Totals

namespace PortfolioHub

/-- What the row template reads besides the position. -/
structure RowContext where
  activeAccount : String
  totals : Totals
  marketByIb : String → Option MarketStatus

/-- The chip before the name: the colour of the region is that of a venue. -/
structure FlagChip where
  regionColor : Option String
  label : String
  flag : String
deriving DecidableEq, Repr

def flagChip (p : Position) : Except Python.Error (Option FlagChip) :=
  if p.assetClass = .cash then do
    let flag ← flagForCurrency p.currency
    return some ⟨none, p.currency, flag⟩
  else if p.exchange ≠ "" then do
    let flag ← flagForExchange p.exchange
    return some ⟨some (regionColorForExchange p.exchange), p.exchange, flag⟩
  else .ok none

/-- The cell of the last price; the pence suffix names the currency. -/
structure LastCell where
  price : String
  pence : Option String
  isStale : Bool
  change : Option Signed
  previousCloseTag : Bool
  brokerMarkTag : Bool
  delayedTag : Bool
deriving DecidableEq, Repr

/-- Today's move as the row shows it. -/
def changeText (change : Option Python.Float) : Option Signed :=
  change.map fun x => signed (0 ≤ x) (x.fixed false 2 ++ "%")

/-- Cash and rows without a price show a dash. -/
def lastCell (p : Position) : Except Python.Error (Option LastCell) :=
  if p.assetClass ≠ .cash ∧ 0 < p.lastPrice then do
    let change ← p.intradayChangePct
    return some {
      price := p.lastPrice.fixed true 2
      pence := if 1 < p.priceMagnifier.value then some p.currency else none
      isStale := p.lastPriceIsStale
      change := changeText change
      previousCloseTag := p.lastPriceIsPreviousClose
      brokerMarkTag := p.lastPriceIsBrokerMark
      delayedTag := p.lastPriceIsDelayed }
  else .ok none

/-- The row has no dollar value to show. -/
def Position.UsdHidden (p : Position) : Prop :=
  p.fxUnavailable = true ∨ p.marketValueUsd = 0 ∧ p.currency ≠ "USD"

instance (p : Position) : Decidable p.UsdHidden := inferInstanceAs (Decidable (_ ∨ _))

structure PnlCell where
  usd : Signed
  pct : Option Signed
deriving DecidableEq, Repr

def pnlPctText (pnlUsd costUsd : Python.Float) : Except Python.Error (Option Signed) :=
  if 0 < costUsd then do
    let pct ← percent pnlUsd costUsd
    return some (signed (0 ≤ pct) (pct.fixed false 1 ++ "%"))
  else .ok none

def pnlCell (p : Position) : Except Python.Error (Option PnlCell) :=
  if p.assetClass = .cash ∨ p.UsdHidden then .ok none
  else do
    let pct ← pnlPctText p.unrealizedPnlUsd (p.marketValueUsd - p.unrealizedPnlUsd)
    return some ⟨signed (0 ≤ p.unrealizedPnlUsd) (p.unrealizedPnlUsd.fixed true 0), pct⟩

/-- The share of the total exposure. -/
def weightCell (totalMvUsd : Python.Float) (p : Position) : Except Python.Error (Option String) :=
  if 0 < totalMvUsd ∧ 0 < p.marketValueUsd ∧ p.fxUnavailable = false then do
    let weight ← percent p.marketValueUsd totalMvUsd
    return some (weight.fixed false 1 ++ "%")
  else .ok none

/-- What a row shows. -/
structure RowView where
  isCash : Bool
  isStale : Bool
  flag : Option FlagChip
  nameEn : String
  nativeSymbol : String
  fallbackBadge : Bool
  accountPill : Option String
  lunchNote : Option String
  quantity : String
  last : Option LastCell
  marketValueNative : Option (String × String)
  marketValueUsd : Option (String × Bool)
  pnl : Option PnlCell
  weight : Option String
deriving DecidableEq, Repr

/-- A rendered row: its id, its data attributes and what it shows. -/
structure HoldingsRow where
  id : String
  data : List (String × String)
  view : RowView
deriving DecidableEq, Repr

/-- The data attributes of the row, in the order of the template. -/
def dataAttributes (p : Position) (country : String) : List (String × String) := [
  ("quantity", p.quantity.str), ("last-price", p.lastPrice.str),
  ("mv-native", p.marketValueNative.str), ("mv-usd", p.marketValueUsd.str),
  ("pnl-usd", p.unrealizedPnlUsd.str), ("avg-cost", p.avgCost.str),
  ("broker", p.broker), ("account", p.accountId), ("exchange", p.exchange),
  ("currency", p.currency), ("native-key", p.nativeKey),
  ("canonical-symbol", p.canonicalSymbol), ("country", country), ("name-en", p.nameEn),
  ("asset-class", p.assetClass.text)]

/-- The midday pause of the row's own venue, with the time it reopens. -/
def lunchNote (ctx : RowContext) (p : Position) : Option String :=
  match ctx.marketByIb p.exchange with
  | some market =>
    if p.assetClass = .stk ∧ market.state = .lunch then some market.nextTransitionLocal else none
  | none => none

def rowView (ctx : RowContext) (p : Position) (flag : Option FlagChip) (last : Option LastCell)
    (pnl : Option PnlCell) (weight : Option String) : RowView where
  isCash := p.assetClass = .cash
  isStale := p.lastPriceIsStale
  flag := flag
  nameEn := p.nameEn
  nativeSymbol := p.nativeSymbol
  fallbackBadge := p.fxIsFallback
  accountPill :=
    if Python.orElse ctx.activeAccount "All" = "All" ∧ p.accountId ≠ "" then some p.accountId
    else none
  lunchNote := lunchNote ctx p
  quantity := p.quantity.fixed true 0
  last := last
  marketValueNative :=
    if 0 < p.marketValueNative then some (p.marketValueNative.fixed true 0, p.currency) else none
  marketValueUsd :=
    if p.UsdHidden then none else some (p.marketValueUsd.fixed true 0, p.fxIsStale)
  pnl := pnl
  weight := weight

/-- `partials/holdings_row.html`. -/
def holdingsRow (ctx : RowContext) (p : Position) : Except Python.Error HoldingsRow := do
  let country ← suffixForExchange p.exchange
  let flag ← flagChip p
  let last ← lastCell p
  let pnl ← pnlCell p
  let weight ← weightCell ctx.totals.mvUsd p
  return {
    id := "row-" ++ p.broker ++ "-" ++ p.accountId ++ "-" ++ p.canonicalSymbol
    data := dataAttributes p country
    view := rowView ctx p flag last pnl weight }

/-- The tables of the template know the row's venue and, for cash, its currency. -/
def Position.Renderable (p : Position) : Prop :=
  (p.exchange ≠ "" → KnownExchange p.exchange) ∧ (p.assetClass = .cash → KnownCurrency p.currency)

instance (p : Position) : Decidable p.Renderable := inferInstanceAs (Decidable (_ ∧ _))

theorem lastCell_defined (p : Position) : ∃ cell, lastCell p = .ok cell := by
  unfold lastCell
  split
  next => exact Python.bind_defined p.intradayChangePct_defined fun _ _ => ⟨_, rfl⟩
  next => exact ⟨none, rfl⟩

theorem pnlPctText_defined (pnlUsd costUsd : Python.Float) :
    ∃ text, pnlPctText pnlUsd costUsd = .ok text := by
  unfold pnlPctText
  split
  next hpos =>
    exact Python.bind_defined ⟨_, percent_of_ne_zero (Python.Float.ne_zero_of_pos hpos)⟩
      fun _ _ => ⟨_, rfl⟩
  next => exact ⟨none, rfl⟩

theorem pnlCell_defined (p : Position) : ∃ cell, pnlCell p = .ok cell := by
  unfold pnlCell
  split
  next => exact ⟨none, rfl⟩
  next => exact Python.bind_defined (pnlPctText_defined _ _) fun _ _ => ⟨_, rfl⟩

theorem weightCell_defined (totalMvUsd : Python.Float) (p : Position) :
    ∃ cell, weightCell totalMvUsd p = .ok cell := by
  unfold weightCell
  split
  next hpos =>
    exact Python.bind_defined ⟨_, percent_of_ne_zero (Python.Float.ne_zero_of_pos hpos.1)⟩
      fun _ _ => ⟨_, rfl⟩
  next => exact ⟨none, rfl⟩

/-- The flag of a row is defined where its table has the key. -/
theorem flagChip_defined_iff (p : Position) :
    (∃ chip, flagChip p = .ok chip) ↔
      (p.assetClass = .cash → KnownCurrency p.currency) ∧
        (p.assetClass ≠ .cash → p.exchange ≠ "" → KnownExchange p.exchange) := by
  unfold flagChip
  split
  next hcash =>
    rw [← flagForCurrency_defined_iff]
    constructor
    · rintro ⟨chip, h⟩
      obtain ⟨flag, hflag, -⟩ := Python.bind_eq_ok.mp h
      exact ⟨fun _ => ⟨flag, hflag⟩, fun hstk => absurd hcash hstk⟩
    · exact fun h => Python.bind_defined (h.1 hcash) fun _ _ => ⟨_, rfl⟩
  next hstk =>
    split
    next hvenue =>
      rw [← flagForExchange_defined_iff]
      constructor
      · rintro ⟨chip, h⟩
        obtain ⟨flag, hflag, -⟩ := Python.bind_eq_ok.mp h
        exact ⟨fun hcash => absurd hcash hstk, fun _ _ => ⟨flag, hflag⟩⟩
      · exact fun h => Python.bind_defined (h.2 hstk hvenue) fun _ _ => ⟨_, rfl⟩
    next hvenue =>
      exact iff_of_true ⟨none, rfl⟩
        ⟨fun hcash => absurd hcash hstk, fun _ hne => absurd hne hvenue⟩

/-- A row renders exactly when the tables know it: every number of the template has a
text, whatever the position. -/
theorem holdingsRow_defined_iff (ctx : RowContext) (p : Position) :
    (∃ row, holdingsRow ctx p = .ok row) ↔ p.Renderable := by
  unfold holdingsRow Position.Renderable
  constructor
  · rintro ⟨row, h⟩
    obtain ⟨country, hcountry, h⟩ := Python.bind_eq_ok.mp h
    obtain ⟨flag, hflag, -⟩ := Python.bind_eq_ok.mp h
    exact ⟨(suffixForExchange_defined_iff p.exchange).mp ⟨country, hcountry⟩,
      ((flagChip_defined_iff p).mp ⟨flag, hflag⟩).1⟩
  · rintro ⟨hvenue, hcurrency⟩
    refine Python.bind_defined ((suffixForExchange_defined_iff p.exchange).mpr hvenue) fun _ _ => ?_
    refine Python.bind_defined ((flagChip_defined_iff p).mpr ⟨hcurrency, fun _ => hvenue⟩)
      fun _ _ => ?_
    refine Python.bind_defined (lastCell_defined p) fun _ _ => ?_
    refine Python.bind_defined (pnlCell_defined p) fun _ _ => ?_
    exact Python.bind_defined (weightCell_defined _ p) fun _ _ => ⟨_, rfl⟩

end PortfolioHub
