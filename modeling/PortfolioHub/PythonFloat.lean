import PortfolioHub.Decimal
import PortfolioHub.Python

namespace Python

/-- A float. Finite values are exact: arithmetic on them neither rounds nor overflows. -/
inductive Float where
  | finite (q : ℚ)
  | inf (negative : Bool)
  | nan
deriving DecidableEq, Repr

namespace Float

instance (n : ℕ) : OfNat Float n := ⟨.finite n⟩

instance : NatCast Float := ⟨fun n => .finite n⟩

instance : IntCast Float := ⟨fun n => .finite n⟩

def isNan : Float → Bool
  | .nan => true
  | _ => false

def isFinite : Float → Bool
  | .finite _ => true
  | _ => false

def negative : Float → Bool
  | .finite q => decide (q < 0)
  | .inf s => s
  | .nan => false

def neg : Float → Float
  | .finite q => .finite (-q)
  | .inf s => .inf !s
  | .nan => .nan

def add : Float → Float → Float
  | .finite a, .finite b => .finite (a + b)
  | .finite _, .inf t => .inf t
  | .inf s, .finite _ => .inf s
  | .inf s, .inf t => if s = t then .inf s else .nan
  | _, _ => .nan

def mul : Float → Float → Float
  | .finite a, .finite b => .finite (a * b)
  | .nan, _ => .nan
  | _, .nan => .nan
  | x, y => if x = .finite 0 ∨ y = .finite 0 then .nan else .inf (x.negative != y.negative)

/-- The quotient, where the divisor is known not to be zero. -/
def quot : Float → Float → Float
  | .finite a, .finite b => .finite (a / b)
  | .finite _, .inf _ => .finite 0
  | .inf s, .finite b => .inf (s != decide (b < 0))
  | _, _ => .nan

def abs : Float → Float
  | .finite q => .finite |q|
  | .inf _ => .inf false
  | .nan => .nan

instance : Neg Float := ⟨neg⟩

instance : Add Float := ⟨add⟩

instance : Sub Float := ⟨fun x y => x + -y⟩

instance : Mul Float := ⟨mul⟩

theorem add_zero (x : Float) : x + 0 = x := by
  cases x with
  | finite q =>
    have hzero : q + ((0 : ℕ) : ℚ) = q := by simp
    exact congrArg Float.finite hzero
  | inf negative => rfl
  | nan => rfl

theorem nan_add (x : Float) : nan + x = nan := by cases x <;> rfl

theorem add_nan (x : Float) : x + nan = nan := by cases x <;> rfl

/-- The order of two terms makes no difference, infinities and nan included. -/
theorem add_right_comm (a b c : Float) : a + b + c = a + c + b := by
  cases a with
  | nan => simp only [nan_add]
  | finite x =>
    cases b with
    | nan => simp only [add_nan, nan_add]
    | finite y =>
      cases c with
      | nan => simp only [add_nan, nan_add]
      | finite z =>
        have hsum : x + y + z = x + z + y := by ring
        exact congrArg finite hsum
      | inf u => rfl
    | inf t =>
      cases c with
      | nan => simp only [add_nan, nan_add]
      | finite z => rfl
      | inf u => cases t <;> cases u <;> rfl
  | inf s =>
    cases b with
    | nan => simp only [add_nan, nan_add]
    | finite y =>
      cases c with
      | nan => simp only [add_nan, nan_add]
      | finite z => rfl
      | inf u => cases s <;> cases u <;> rfl
    | inf t =>
      cases c with
      | nan => simp only [add_nan, nan_add]
      | finite z => cases s <;> cases t <;> rfl
      | inf u => cases s <;> cases t <;> cases u <;> rfl

instance : RightCommutative (· + · : Float → Float → Float) :=
  ⟨add_right_comm⟩

/-- `x / y`. -/
def div (x y : Float) : Except Error Float :=
  if y = 0 then .error .zeroDivisionError else .ok (quot x y)

theorem div_of_ne_zero {x y : Float} (h : y ≠ 0) : div x y = .ok (quot x y) := if_neg h

def lt : Float → Float → Bool
  | .finite a, .finite b => decide (a < b)
  | .finite _, .inf t => !t
  | .inf s, .finite _ => s
  | .inf s, .inf t => s && !t
  | _, _ => false

/-- `x == y`: a nan equals nothing. -/
def equal : Float → Float → Bool
  | .finite a, .finite b => decide (a = b)
  | .inf s, .inf t => s == t
  | _, _ => false

instance : LT Float := ⟨fun x y => lt x y = true⟩

instance : LE Float := ⟨fun x y => (lt x y || equal x y) = true⟩

instance (x y : Float) : Decidable (x < y) := inferInstanceAs (Decidable (lt x y = true))

instance (x y : Float) : Decidable (x ≤ y) :=
  inferInstanceAs (Decidable ((lt x y || equal x y) = true))

theorem ne_zero_of_pos {x : Float} (h : 0 < x) : x ≠ 0 := by
  rintro rfl
  exact absurd h (by decide)

theorem ne_zero_of_not_le_zero {x : Float} (h : ¬ x ≤ 0) : x ≠ 0 := by
  rintro rfl
  exact h (by decide)

theorem not_le_zero_of_pos {x : Float} (h : 0 < x) : ¬ x ≤ 0 := by
  intro hle
  cases x with
  | finite q =>
    have hpos : ((0 : ℕ) : ℚ) < q := of_decide_eq_true h
    rcases (Bool.or_eq_true _ _).mp hle with hlt | heq
    · have hneg : q < ((0 : ℕ) : ℚ) := of_decide_eq_true hlt
      exact lt_asymm hpos hneg
    · have hzero : q = ((0 : ℕ) : ℚ) := of_decide_eq_true heq
      exact hpos.ne' hzero
  | inf negative =>
    cases negative with
    | true => cases h
    | false => cases hle
  | nan => cases h

theorem pos_of_not_le_zero {q : ℚ} (h : ¬ finite q ≤ 0) : 0 < q := by
  by_contra hq
  refine h ?_
  rcases lt_or_eq_of_le (not_lt.mp hq) with hlt | rfl
  · exact (Bool.or_eq_true _ _).mpr (Or.inl (decide_eq_true (by simpa using hlt)))
  · decide

theorem le_finite_of_le {x : Float} {a b : ℚ} (hab : a ≤ b) (h : x ≤ .finite a) : x ≤ .finite b := by
  change (lt x (.finite b) || equal x (.finite b)) = true
  change (lt x (.finite a) || equal x (.finite a)) = true at h
  cases x with
  | finite q =>
    simp only [lt, equal, Bool.or_eq_true, decide_eq_true_eq] at h ⊢
    exact le_iff_lt_or_eq.mp ((le_iff_lt_or_eq.mpr h).trans hab)
  | inf negative => exact h
  | nan => cases h

theorem equal_iff {x y : Float} : equal x y = true ↔ x = y ∧ x ≠ .nan := by
  cases x <;> cases y <;> simp [equal]

theorem isFinite_iff {x : Float} : x.isFinite = true ↔ ∃ q, x = .finite q := by
  cases x <;> simp [isFinite]

/-- The number that a finite float is. -/
def value : Float → ℚ
  | .finite q => q
  | _ => 0

theorem eq_finite_value {x : Float} (h : x.isFinite = true) : x = .finite x.value := by
  obtain ⟨q, rfl⟩ := isFinite_iff.mp h
  rfl

theorem finite_lt_zero {q : ℚ} : finite q < 0 ↔ q < 0 := by
  change decide (q < ((0 : ℕ) : ℚ)) = true ↔ q < 0
  simp

theorem zero_lt_finite {q : ℚ} : 0 < finite q ↔ 0 < q := by
  change decide (((0 : ℕ) : ℚ) < q) = true ↔ 0 < q
  simp

theorem finite_eq_zero {q : ℚ} : finite q = 0 ↔ q = 0 := by
  change finite q = finite ((0 : ℕ) : ℚ) ↔ q = 0
  simp

theorem isFinite_add {x y : Float} (hx : x.isFinite = true) (hy : y.isFinite = true) :
    (x + y).isFinite = true := by
  obtain ⟨a, rfl⟩ := isFinite_iff.mp hx
  obtain ⟨b, rfl⟩ := isFinite_iff.mp hy
  rfl

/-- A sum is finite only where both its terms are. -/
theorem isFinite_add_iff {x y : Float} :
    (x + y).isFinite = true ↔ x.isFinite = true ∧ y.isFinite = true := by
  refine ⟨fun h => ?_, fun h => isFinite_add h.1 h.2⟩
  cases x with
  | finite a =>
    cases y with
    | finite b => exact ⟨rfl, rfl⟩
    | inf t => cases h
    | nan => cases h
  | inf s =>
    cases y with
    | finite b => cases h
    | inf t => cases s <;> cases t <;> cases h
    | nan => cases h
  | nan => cases y <;> cases h

theorem isFinite_neg {x : Float} (hx : x.isFinite = true) : (-x).isFinite = true := by
  obtain ⟨a, rfl⟩ := isFinite_iff.mp hx
  rfl

theorem isFinite_sub {x y : Float} (hx : x.isFinite = true) (hy : y.isFinite = true) :
    (x - y).isFinite = true :=
  isFinite_add hx (isFinite_neg hy)

theorem isFinite_mul {x y : Float} (hx : x.isFinite = true) (hy : y.isFinite = true) :
    (x * y).isFinite = true := by
  obtain ⟨a, rfl⟩ := isFinite_iff.mp hx
  obtain ⟨b, rfl⟩ := isFinite_iff.mp hy
  rfl

/-- No product of an infinity or a nan is finite, not even one with zero. -/
theorem isFinite_mul_iff {x y : Float} :
    (x * y).isFinite = true ↔ x.isFinite = true ∧ y.isFinite = true := by
  refine ⟨fun h => ?_, fun h => isFinite_mul h.1 h.2⟩
  have hinf : ∀ (c : Prop) [Decidable c] (b : Bool),
      ¬ (if c then Float.nan else .inf b).isFinite = true := by
    intro c _ b
    split <;> exact Bool.false_ne_true
  cases x with
  | finite a =>
    cases y with
    | finite b => exact ⟨rfl, rfl⟩
    | inf t => exact absurd h (hinf _ _)
    | nan => cases h
  | inf s =>
    cases y with
    | finite b => exact absurd h (hinf _ _)
    | inf t => exact absurd h (hinf (Float.inf s = .finite 0 ∨ Float.inf t = .finite 0) (s != t))
    | nan => cases h
  | nan => cases y <;> cases h

theorem isFinite_quot {x y : Float} (hx : x.isFinite = true) (hy : y.isFinite = true) :
    (quot x y).isFinite = true := by
  obtain ⟨a, rfl⟩ := isFinite_iff.mp hx
  obtain ⟨b, rfl⟩ := isFinite_iff.mp hy
  rfl

theorem isFinite_abs {x : Float} (hx : x.isFinite = true) : x.abs.isFinite = true := by
  obtain ⟨a, rfl⟩ := isFinite_iff.mp hx
  rfl

theorem isFinite_ite {c : Prop} [Decidable c] {x y : Float} (hx : x.isFinite = true)
    (hy : y.isFinite = true) : (if c then x else y).isFinite = true := by
  split
  next => exact hx
  next => exact hy

theorem mul_one {x : Float} (hx : x.isFinite = true) : x * .finite 1 = x := by
  obtain ⟨a, rfl⟩ := isFinite_iff.mp hx
  have hone : a * 1 = a := by ring
  exact congrArg Float.finite hone

theorem zero_mul (r : ℚ) : (0 : Float) * .finite r = 0 := by
  have hzero : ((0 : ℕ) : ℚ) * r = ((0 : ℕ) : ℚ) := by simp
  exact congrArg Float.finite hzero

/-- The rate can be read back from a product with it. -/
theorem quot_mul_cancel {x : Float} (hx : x.isFinite = true) (hne : x ≠ 0) (r : ℚ) :
    quot (x * .finite r) x = .finite r := by
  obtain ⟨a, rfl⟩ := isFinite_iff.mp hx
  have ha : a ≠ 0 := by
    rintro rfl
    exact hne (congrArg Float.finite (by simp))
  exact congrArg Float.finite (mul_div_cancel_left₀ r ha)

/-- `f"{x}"`. -/
def str : Float → String
  | .finite q => Decimal.floatStr q
  | .inf negative => if negative then "-inf" else "inf"
  | .nan => "nan"

/-- `"{:,.df}".format(x)`, and `"{:.df}"` without `comma`. -/
def fixed (comma : Bool) (d : ℕ) : Float → String
  | .finite q => Decimal.fixedStr comma d q
  | .inf negative => if negative then "-inf" else "inf"
  | .nan => "nan"

theorem str_chars {x : Float} {c : Char} (h : c ∈ x.str.toList) :
    c ∈ ['i', 'n', 'f', 'a'] ∨ c = '-' ∨ c = '.' ∨ c = '/' ∨ c.isDigit := by
  cases x with
  | finite q => exact Or.inr (Decimal.floatStr_chars h)
  | inf negative =>
    cases negative with
    | false =>
      have hc : c ∈ ['i', 'n', 'f'] := h
      exact Or.inl (by simp at hc ⊢; tauto)
    | true =>
      have hc : c ∈ ['-', 'i', 'n', 'f'] := h
      simp at hc ⊢
      tauto
  | nan =>
    have hc : c ∈ ['n', 'a', 'n'] := h
    exact Or.inl (by simp at hc ⊢; tauto)

/-- No decimal text contains the letter every other text has. -/
theorem floatStr_no_n {q : ℚ} : 'n' ∉ (Decimal.floatStr q).toList := by
  intro h
  rcases Decimal.floatStr_chars h with h | h | h | h
  · exact absurd h (by decide)
  · exact absurd h (by decide)
  · exact absurd h (by decide)
  · exact absurd h (by decide)

theorem str_injective {x y : Float} (h : x.str = y.str) : x = y := by
  have hinf : ∀ (q : ℚ) (z : Float), (∀ r, z ≠ .finite r) → Decimal.floatStr q ≠ z.str := by
    intro q z hz he
    have hn : 'n' ∈ z.str.toList := by
      cases z with
      | finite r => exact absurd rfl (hz r)
      | inf negative => cases negative <;> decide
      | nan => decide
    exact floatStr_no_n (he ▸ hn)
  cases x with
  | finite q =>
    cases y with
    | finite r => exact congrArg Float.finite (Decimal.floatStr_injective h)
    | inf t => exact absurd h (hinf q _ (by simp))
    | nan => exact absurd h (hinf q _ (by simp))
  | inf s =>
    cases y with
    | finite r => exact absurd h.symm (hinf r _ (by simp))
    | inf t =>
      revert h
      cases s <;> cases t <;> simp [str]
    | nan =>
      revert h
      cases s <;> simp [str]
  | nan =>
    cases y with
    | finite r => exact absurd h.symm (hinf r _ (by simp))
    | inf t =>
      revert h
      cases t <;> simp [str]
    | nan => rfl

end Float

end Python
