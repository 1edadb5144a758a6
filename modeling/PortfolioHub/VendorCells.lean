import PortfolioHub.FloatText

namespace PortfolioHub

/-- A field of a vendor's row: missing, a text or a number. -/
inductive Cell where
  | missing
  | text (s : String)
  | number (x : Python.Float)
deriving DecidableEq, Repr

namespace Cell

/-- `float(value)`, where it does not raise. -/
def float? : Cell → Option Python.Float
  | .missing => none
  | .text s => Python.parseFloat s
  | .number x => some x

/-- `_safe_float(value)`. -/
def safeFloat (c : Cell) : Python.Float := c.float?.getD 0

/-- `str(value)` of a field that is not missing. -/
def str : Cell → String
  | .missing => "None"
  | .text s => s
  | .number x => x.str

/-- `_text(value, default)`. -/
def textOr (default : String) (c : Cell) : String :=
  if c = .missing then default else Python.orElse (Python.strip c.str) default

/-- `str(value or default)`. -/
def strOr (default : String) (c : Cell) : String :=
  if c = .missing ∨ c = .text "" ∨ c = .number 0 then default else c.str

end Cell

/-- `_first_float` and `_first_attr_float`: the first field that reads as a number;
the texts they pass over, empty and "N/A", do not. -/
def firstFloat (cells : List Cell) : Python.Float := (cells.findSome? Cell.float?).getD 0

theorem Cell.safeFloat_eq_firstFloat (c : Cell) : c.safeFloat = firstFloat [c] := by
  unfold Cell.safeFloat firstFloat
  cases hx : c.float? with
  | none => simp [hx]
  | some x => simp [hx]

end PortfolioHub
