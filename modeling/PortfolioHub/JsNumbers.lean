import PortfolioHub.FloatText

namespace JavaScript

/-- The white space that `trim` and `parseFloat` pass over. -/
def isWhitespace (c : Char) : Bool :=
  let n := c.toNat
  (9 ≤ n && n ≤ 13) || n == 32 || n == 0xa0 || n == 0x1680 || (0x2000 ≤ n && n ≤ 0x200a) ||
    n == 0x2028 || n == 0x2029 || n == 0x202f || n == 0x205f || n == 0x3000 || n == 0xfeff

/-- `s.trim()`. -/
def trim (s : String) : String :=
  .ofList ((s.toList.dropWhile isWhitespace).reverse.dropWhile isWhitespace).reverse

/-- `s.includes(q)`. -/
def includes (s q : String) : Bool := q.toList <:+: s.toList

/-- The exponent behind a number; one without digits is not a part of it. -/
def exponent : List Char → ℤ
  | [] => 0
  | c :: cs =>
    if c = 'e' ∨ c = 'E' then
      let signed := Python.splitSign cs
      let digits := signed.2.takeWhile Char.isDigit
      let value : ℕ := Nat.ofDigitChars 10 digits 0
      if signed.1 then -value else value
    else 0

/-- `parseFloat(text)`: the number a text begins with. -/
def parseFloat (text : String) : Python.Float :=
  let signed := Python.splitSign (text.toList.dropWhile isWhitespace)
  let whole := signed.2.takeWhile Char.isDigit
  let rest := signed.2.dropWhile Char.isDigit
  let fraction := match rest with
    | '.' :: digits => digits.takeWhile Char.isDigit
    | _ => []
  let behind := match rest with
    | '.' :: digits => digits.dropWhile Char.isDigit
    | _ => rest
  if "Infinity".toList <+: signed.2 then .inf signed.1
  else if whole = [] ∧ fraction = [] then .nan
  else
    let value : ℚ := (Nat.ofDigitChars 10 (whole ++ fraction) 0 : ℕ) *
      (10 : ℚ) ^ (exponent behind - fraction.length)
    .ofExact (if signed.1 then -value else value)

example : parseFloat "-420.125" = .finite (-420125 / 1000) ∧ parseFloat "1e-05" = .finite (1 / 100000) ∧
    parseFloat "2.5.5x" = .finite (5 / 2) ∧ parseFloat "nan" = .nan ∧ parseFloat "inf" = .nan := by
  decide +kernel

/-- `x || 0`. -/
def orZero (x : Python.Float) : Python.Float := if x = .nan then 0 else x

/-- Where a number that is not a nan lies between the infinities. -/
def rank : Python.Float → ℤ ×ₗ ℚ
  | .finite q => toLex (0, q)
  | .inf negative => toLex (if negative then -1 else 1, 0)
  | .nan => toLex (0, 0)

theorem orZero_ne_nan (x : Python.Float) : orZero x ≠ .nan := by
  unfold orZero
  split
  next => decide
  next h => exact h

theorem le_iff_rank_le {x y : Python.Float} (hx : x ≠ .nan) (hy : y ≠ .nan) :
    x ≤ y ↔ rank x ≤ rank y := by
  change (Python.Float.lt x y || Python.Float.equal x y) = true ↔ _
  cases x with
  | finite a =>
    cases y with
    | finite b =>
      simp only [Python.Float.lt, Python.Float.equal, rank, Prod.Lex.toLex_le_toLex,
        Bool.or_eq_true, decide_eq_true_eq, lt_irrefl, false_or, true_and]
      exact le_iff_lt_or_eq.symm
    | inf t => cases t <;> simp [Python.Float.lt, Python.Float.equal, rank, Prod.Lex.toLex_le_toLex]
    | nan => exact absurd rfl hy
  | inf s =>
    cases y with
    | finite b => cases s <;> simp [Python.Float.lt, Python.Float.equal, rank, Prod.Lex.toLex_le_toLex]
    | inf t =>
      cases s <;> cases t <;>
        simp [Python.Float.lt, Python.Float.equal, rank, Prod.Lex.toLex_le_toLex]
    | nan => exact absurd rfl hy
  | nan => exact absurd rfl hx

theorem lt_iff_rank_lt {x y : Python.Float} (hx : x ≠ .nan) (hy : y ≠ .nan) :
    x < y ↔ rank x < rank y := by
  change Python.Float.lt x y = true ↔ _
  cases x with
  | finite a =>
    cases y with
    | finite b => simp [Python.Float.lt, rank, Prod.Lex.toLex_lt_toLex]
    | inf t => cases t <;> simp [Python.Float.lt, rank, Prod.Lex.toLex_lt_toLex]
    | nan => exact absurd rfl hy
  | inf s =>
    cases y with
    | finite b => cases s <;> simp [Python.Float.lt, rank, Prod.Lex.toLex_lt_toLex]
    | inf t => cases s <;> cases t <;> simp [Python.Float.lt, rank, Prod.Lex.toLex_lt_toLex]
    | nan => exact absurd rfl hy
  | nan => exact absurd rfl hx

theorem rank_injective {x y : Python.Float} (hx : x ≠ .nan) (hy : y ≠ .nan) (h : rank x = rank y) :
    x = y := by
  have hle := (le_iff_rank_le hx hy).mpr h.le
  have hlt := mt (lt_iff_rank_lt hx hy).mp h.not_lt
  have hsplit : (Python.Float.lt x y || Python.Float.equal x y) = true := hle
  rw [Bool.or_eq_true] at hsplit
  exact hsplit.elim (fun h => absurd h hlt) fun h => (Python.Float.equal_iff.mp h).1

/-- Two numbers that differ are one above the other. -/
theorem lt_or_lt_of_ne {x y : Python.Float} (hx : x ≠ .nan) (hy : y ≠ .nan) (h : x ≠ y) :
    x < y ∨ y < x := by
  rw [lt_iff_rank_lt hx hy, lt_iff_rank_lt hy hx]
  exact lt_or_gt_of_ne fun heq => h (rank_injective hx hy heq)

theorem not_lt_of_lt {x y : Python.Float} (hx : x ≠ .nan) (hy : y ≠ .nan) (h : x < y) : ¬ y < x := by
  rw [lt_iff_rank_lt hx hy] at h
  rw [lt_iff_rank_lt hy hx]
  exact h.not_gt

end JavaScript
