import PortfolioHub.PythonFloat

namespace Python

/-- The digits a text goes on with, single underscores between them skipped, and the rest. -/
def digitTail : List Char → List ℕ × List Char
  | c :: d :: cs =>
    if c.isDigit then
      let r := digitTail (d :: cs)
      ((c.toNat - 48) :: r.1, r.2)
    else if c = '_' ∧ d.isDigit then
      let r := digitTail cs
      ((d.toNat - 48) :: r.1, r.2)
    else ([], c :: d :: cs)
  | [c] => if c.isDigit then ([c.toNat - 48], []) else ([], [c])
  | [] => ([], [])

/-- `digitTail`, for a text that has to start with a digit. -/
def digitPart : List Char → List ℕ × List Char
  | c :: cs => if c.isDigit then digitTail (c :: cs) else ([], c :: cs)
  | [] => ([], [])

def splitSign : List Char → Bool × List Char
  | '-' :: cs => (true, cs)
  | '+' :: cs => (false, cs)
  | cs => (false, cs)

/-- A sign and digits up to the end of the text. -/
def integerPart (cs : List Char) : Option ℤ :=
  let signed := splitSign cs
  match digitPart signed.2 with
  | ([], _) => none
  | (ds, []) =>
    let n : ℤ := Nat.ofDigits 10 ds.reverse
    some (if signed.1 then -n else n)
  | _ => none

/-- `int(text)`; `none` stands for the `ValueError`. -/
def parseInt (text : String) : Option ℤ := integerPart (strip text).toList

theorem digitTail_digits {cs : List Char} (h : ∀ c ∈ cs, c.isDigit) :
    digitTail cs = (cs.map fun c => c.toNat - 48, []) := by
  induction cs with
  | nil => rfl
  | cons c cs ih =>
    have hc : c.isDigit := h c (by simp)
    have hcs := ih fun d hd => h d (List.mem_cons_of_mem c hd)
    cases cs with
    | nil => simp [digitTail, hc]
    | cons d ds => simp [digitTail, hc, hcs]

theorem ofDigitChars_eq_add (cs : List Char) (init : ℕ) :
    Nat.ofDigitChars 10 cs init =
      Nat.ofDigits 10 ((cs.map fun c => c.toNat - 48).reverse) + 10 ^ cs.length * init := by
  induction cs generalizing init with
  | nil => simp [Nat.ofDigitChars]
  | cons c cs ih =>
    rw [Nat.ofDigitChars_cons, ih, List.map_cons, List.reverse_cons, Nat.ofDigits_append]
    simp [Nat.ofDigits]
    ring

theorem ofDigitChars_eq (cs : List Char) :
    Nat.ofDigitChars 10 cs 0 = Nat.ofDigits 10 ((cs.map fun c => c.toNat - 48).reverse) := by
  simpa using ofDigitChars_eq_add cs 0

theorem strip_eq_self {s : String} (h : ∀ c ∈ s.toList, isSpace c = false) : strip s = s := by
  have hdrop : ∀ cs : List Char, (∀ c ∈ cs, isSpace c = false) → cs.dropWhile isSpace = cs := by
    intro cs hcs
    cases cs with
    | nil => rfl
    | cons c cs => simp [hcs c (by simp)]
  unfold strip
  rw [hdrop _ h, hdrop _ fun c hc => h c (List.mem_reverse.mp hc), List.reverse_reverse,
    String.ofList_toList]

theorem isSpace_of_isDigit {c : Char} (h : c.isDigit) : isSpace c = false := by
  have hrange : 48 ≤ c.toNat ∧ c.toNat ≤ 57 := by
    simp only [Char.isDigit, ge_iff_le, Bool.and_eq_true, decide_eq_true_eq] at h
    exact ⟨h.1, h.2⟩
  unfold isSpace
  dsimp only
  simp
  omega

theorem integerPart_digits {cs : List Char} (h : ∀ c ∈ cs, c.isDigit) (hne : cs ≠ [])
    (negative : Bool) : integerPart (if negative then '-' :: cs else cs) =
      some (if negative then -(Nat.ofDigitChars 10 cs 0 : ℤ) else Nat.ofDigitChars 10 cs 0) := by
  have hpart : digitPart cs = (cs.map fun c => c.toNat - 48, []) := by
    cases cs with
    | nil => exact absurd rfl hne
    | cons c ds =>
      rw [digitPart, if_pos (h c (by simp)), digitTail_digits h]
  have hsign : splitSign (if negative then '-' :: cs else cs) = (negative, cs) := by
    cases negative with
    | true => rfl
    | false =>
      cases cs with
      | nil => rfl
      | cons c ds =>
        have hc := h c (by simp)
        simp only [Bool.false_eq_true, if_false]
        unfold splitSign
        split
        next heq =>
          obtain ⟨rfl, -⟩ := List.cons.inj heq
          cases hc
        next heq =>
          obtain ⟨rfl, -⟩ := List.cons.inj heq
          cases hc
        next => rfl
  have hmap : (cs.map fun c => c.toNat - 48) ≠ [] := by simpa using hne
  unfold integerPart
  rw [hsign]
  dsimp only
  rw [hpart, ofDigitChars_eq]
  split
  next heq => exact absurd (Prod.mk.inj heq).1 hmap
  next heq =>
    obtain ⟨rfl, -⟩ := Prod.mk.inj heq
    rw [Nat.coe_ofDigits]
    rfl
  next hno => exact absurd rfl (hno _)

/-- `int(str(n)) == n`. -/
theorem parseInt_toString (n : ℤ) : parseInt (toString n) = some n := by
  have hdigits : ∀ m : ℕ, ∀ c ∈ Nat.toDigits 10 m, c.isDigit := fun m c hc =>
    Nat.isDigit_of_mem_toDigits (by decide) (by decide) hc
  obtain ⟨negative, m, hlist, hn⟩ : ∃ (negative : Bool) (m : ℕ),
      (toString n).toList = (if negative then '-' :: Nat.toDigits 10 m else Nat.toDigits 10 m) ∧
        n = if negative then -(m : ℤ) else m := by
    rw [Int.toString_eq_repr, Int.repr_eq_if]
    split
    next hnonneg => exact ⟨false, n.toNat, Nat.toList_repr, (Int.toNat_of_nonneg hnonneg).symm⟩
    next hneg =>
      refine ⟨true, (-n).toNat, ?_, ?_⟩
      · simp
      · simp only [if_true]
        omega
  have hspace : ∀ c ∈ (toString n).toList, isSpace c = false := by
    intro c hc
    rw [hlist] at hc
    have hkind : c = '-' ∨ c.isDigit := by
      split at hc
      next =>
        rcases List.mem_cons.mp hc with rfl | hc
        · exact Or.inl rfl
        · exact Or.inr (hdigits m c hc)
      next => exact Or.inr (hdigits m c hc)
    rcases hkind with rfl | hdigit
    · decide
    · exact isSpace_of_isDigit hdigit
  rw [parseInt, strip_eq_self hspace, hlist,
    integerPart_digits (hdigits m) Nat.toDigits_ne_nil negative, Nat.ofDigitChars_ten_toDigits, ← hn]

/-- The exponent a number ends in; no text at all is the exponent zero. -/
def exponentPart : List Char → Option ℤ
  | [] => some 0
  | c :: cs => if c = 'e' ∨ c = 'E' then integerPart cs else none

/-- A number without sign: digits on at least one side of the point, then the exponent. -/
def decimalPart (cs : List Char) : Option ℚ :=
  let whole := digitPart cs
  let frac := match whole.2 with
    | '.' :: rest => digitPart rest
    | rest => ([], rest)
  if whole.1 = [] ∧ frac.1 = [] then none
  else (exponentPart frac.2).map fun e =>
    (Nat.ofDigits 10 (whole.1 ++ frac.1).reverse : ℕ) * (10 : ℚ) ^ (e - (frac.1.length : ℤ))

/-- Half a step over the largest double: a text from here on reads as an infinity. -/
def overflowBound : ℚ := (2 ^ 256) ^ 4 - (2 ^ 97) ^ 10

def Float.ofExact (q : ℚ) : Float :=
  if overflowBound ≤ |q| then .inf (decide (q < 0)) else .finite q

/-- `float(text)`; `none` stands for the `ValueError`. -/
def parseFloat (text : String) : Option Float :=
  let signed := splitSign (strip text).toList
  let word := signed.2.map Char.toLower
  if word = "inf".toList ∨ word = "infinity".toList then some (.inf signed.1)
  else if word = "nan".toList then some .nan
  else (decimalPart signed.2).map fun q => .ofExact (if signed.1 then -q else q)

example : parseFloat " -1_250.5e-1\n" = some (.finite (-12505 / 100)) := by decide +kernel

example : parseFloat "" = none ∧ parseFloat "1__0" = none ∧ parseFloat "-INF" = some (.inf true) ∧
    parseFloat "1e309" = some (.inf false) := by
  decide +kernel

/-- `_safe_float(value)` on a text. -/
def safeFloat (text : String) : Float := (parseFloat text).getD 0

end Python
