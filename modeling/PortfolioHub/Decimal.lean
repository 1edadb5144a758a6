import Mathlib

/-! Decimal texts of finite floats, read as exact rationals. -/

namespace Decimal

/-- The digits long division writes behind the point for `r / b`. -/
def fractionDigits : ℕ → ℕ → ℕ → List ℕ
  | 0, _, _ => []
  | n + 1, b, r => if r = 0 then [] else 10 * r / b :: fractionDigits n b (10 * r % b)

/-- What the same division leaves after at most `n` digits. -/
def remainder : ℕ → ℕ → ℕ → ℕ
  | 0, _, r => r
  | n + 1, b, r => if r = 0 then 0 else remainder n b (10 * r % b)

def digitsValue : List ℕ → ℚ
  | [] => 0
  | d :: ds => (d + digitsValue ds) / 10

/-- The digits behind the point, a single zero for an integer. -/
def fraction (b r : ℕ) : List ℕ := if r = 0 then [0] else fractionDigits b b r

/-- The characters of `a / b`. No float has an endless expansion; one is kept
as a quotient, so that distinct rationals have distinct texts. -/
def magnitude (a b : ℕ) : List Char :=
  if remainder b b (a % b) = 0 then
    Nat.toDigits 10 (a / b) ++ '.' :: (fraction b (a % b)).map Nat.digitChar
  else Nat.toDigits 10 a ++ '/' :: Nat.toDigits 10 b

def signChars (x : ℚ) : List Char := if x < 0 then ['-'] else []

/-- `f"{x}"` of a float, which Python writes in plain decimals between `1e-4` and `1e16`. -/
def floatStr (x : ℚ) : String :=
  String.ofList (signChars x ++ magnitude x.num.natAbs x.den)

/-- The nearest natural number to a non-negative rational, ties to even. -/
def roundHalfEven (x : ℚ) : ℕ :=
  let a := x.num.natAbs
  let f := a / x.den
  let r := a % x.den
  if 2 * r < x.den then f else if x.den < 2 * r then f + 1 else if f % 2 = 0 then f else f + 1

/-- Commas between groups of three, counted from the right; `cs` is reversed. -/
def groupThousands : List Char → List Char
  | a :: b :: c :: d :: rest => a :: b :: c :: ',' :: groupThousands (d :: rest)
  | cs => cs

/-- `"{:,.df}".format(x)`, and `"{:.df}"` without `comma`. -/
def fixedStr (comma : Bool) (d : ℕ) (x : ℚ) : String :=
  let n := roundHalfEven (|x| * 10 ^ d)
  let whole := Nat.toDigits 10 (n / 10 ^ d)
  let digits := Nat.toDigits 10 (n % 10 ^ d)
  let frac := if d = 0 then [] else '.' :: (List.replicate (d - digits.length) '0' ++ digits)
  String.ofList
    (signChars x ++ (if comma then (groupThousands whole.reverse).reverse else whole) ++ frac)

example : floatStr (-84025 / 200) = "-420.125" := by decide +kernel

example : fixedStr true 0 (-12345675 / 10) = "-1,234,568" := by decide +kernel

theorem digitsValue_fractionDigits {n b r : ℕ} (hr : r < b) (h : remainder n b r = 0) :
    digitsValue (fractionDigits n b r) = (r : ℚ) / b := by
  induction n generalizing r with
  | zero =>
    have hz : r = 0 := h
    simp [fractionDigits, digitsValue, hz]
  | succ n ih =>
    by_cases hz : r = 0
    · simp [fractionDigits, digitsValue, hz]
    · have hb : 0 < b := by omega
      have hrest : remainder n b (10 * r % b) = 0 := by simpa [remainder, hz] using h
      have hval := ih (Nat.mod_lt _ hb) hrest
      have hdiv : (10 * r : ℚ) = b * ((10 * r / b : ℕ) : ℚ) + ((10 * r % b : ℕ) : ℚ) := by
        exact_mod_cast (Nat.div_add_mod (10 * r) b).symm
      have hb' : (b : ℚ) ≠ 0 := by exact_mod_cast hb.ne'
      simp only [fractionDigits, if_neg hz, digitsValue, hval]
      field_simp
      linarith

theorem digitsValue_fraction {b r : ℕ} (hr : r < b) (h : remainder b b r = 0) :
    digitsValue (fraction b r) = (r : ℚ) / b := by
  unfold fraction
  split
  next hz => simp [digitsValue, hz]
  next => exact digitsValue_fractionDigits hr h

theorem fractionDigits_lt_ten {n b r d : ℕ} (hr : r < b) (hd : d ∈ fractionDigits n b r) :
    d < 10 := by
  induction n generalizing r with
  | zero => simp [fractionDigits] at hd
  | succ n ih =>
    by_cases hz : r = 0
    · simp [fractionDigits, hz] at hd
    · simp only [fractionDigits, if_neg hz, List.mem_cons] at hd
      rcases hd with rfl | hd
      · exact Nat.div_lt_of_lt_mul (by omega)
      · exact ih (Nat.mod_lt _ (by omega)) hd

theorem fraction_lt_ten {b r d : ℕ} (hr : r < b) (hd : d ∈ fraction b r) : d < 10 := by
  unfold fraction at hd
  split at hd
  next =>
    have : d = 0 := by simpa using hd
    omega
  next => exact fractionDigits_lt_ten hr hd

theorem map_digitChar_injOn {xs ys : List ℕ} (hx : ∀ d ∈ xs, d < 10) (hy : ∀ d ∈ ys, d < 10)
    (h : xs.map Nat.digitChar = ys.map Nat.digitChar) : xs = ys := by
  have hback : ∀ zs : List ℕ, (∀ d ∈ zs, d < 10) →
      (zs.map Nat.digitChar).map (fun c => c.toNat - 48) = zs := by
    intro zs hz
    rw [List.map_map]
    calc zs.map ((fun c : Char => c.toNat - 48) ∘ Nat.digitChar) = zs.map id :=
          List.map_congr_left fun d hd => Nat.toNat_digitChar_sub_48_of_lt_ten (hz d hd)
      _ = zs := List.map_id zs
  rw [← hback xs hx, h, hback ys hy]

theorem toDigits_injective {m n : ℕ} (h : Nat.toDigits 10 m = Nat.toDigits 10 n) : m = n := by
  apply Nat.repr_injective
  rw [Nat.repr_eq_ofList_toDigits, Nat.repr_eq_ofList_toDigits, h]

/-- Two texts with a separator behind their digits split in the same place. -/
theorem split_at_separator {xs ys as bs : List Char} {c d : Char}
    (hx : ∀ z ∈ xs, z.isDigit) (hy : ∀ z ∈ ys, z.isDigit)
    (hc : c.isDigit = false) (hd : d.isDigit = false) (h : xs ++ c :: as = ys ++ d :: bs) :
    xs = ys ∧ c = d ∧ as = bs := by
  induction xs generalizing ys with
  | nil =>
    cases ys with
    | nil => simpa using h
    | cons y ys =>
      have he : c = y := by simpa using (List.cons.inj h).1
      have := hy y (by simp)
      simp [← he, hc] at this
  | cons x xs ih =>
    cases ys with
    | nil =>
      have he : x = d := by simpa using (List.cons.inj h).1
      have := hx x (by simp)
      simp [he, hd] at this
    | cons y ys =>
      obtain ⟨he, ht⟩ := List.cons.inj h
      obtain ⟨h1, h2, h3⟩ := ih (fun z hz => hx z (by simp [hz])) (fun z hz => hy z (by simp [hz])) ht
      exact ⟨by rw [he, h1], h2, h3⟩

theorem isDigit_toDigits (n : ℕ) : ∀ z ∈ Nat.toDigits 10 n, z.isDigit :=
  fun _ hz => Nat.isDigit_of_mem_toDigits (by omega) (by omega) hz

theorem magnitude_injective {a b a' b' : ℕ} (hb : 0 < b) (hb' : 0 < b')
    (h : magnitude a b = magnitude a' b') : (a : ℚ) / b = (a' : ℚ) / b' := by
  have hbq : (b : ℚ) ≠ 0 := by exact_mod_cast hb.ne'
  have hbq' : (b' : ℚ) ≠ 0 := by exact_mod_cast hb'.ne'
  have hsplit : ∀ m n : ℕ, (n : ℚ) ≠ 0 → (m : ℚ) / n = (m / n : ℕ) + ((m % n : ℕ) : ℚ) / n := by
    intro m n hn
    have hdiv : (m : ℚ) = n * ((m / n : ℕ) : ℚ) + ((m % n : ℕ) : ℚ) := by
      exact_mod_cast (Nat.div_add_mod m n).symm
    field_simp
    linarith
  unfold magnitude at h
  split at h <;> split at h
  next ht ht' =>
    obtain ⟨hw, -, hf⟩ := split_at_separator (isDigit_toDigits _) (isDigit_toDigits _) rfl rfl h
    have hlt := Nat.mod_lt a hb
    have hlt' := Nat.mod_lt a' hb'
    have hds := map_digitChar_injOn (fun d hd => fraction_lt_ten hlt hd)
      (fun d hd => fraction_lt_ten hlt' hd) hf
    have hfrac : ((a % b : ℕ) : ℚ) / b = ((a' % b' : ℕ) : ℚ) / b' := by
      rw [← digitsValue_fraction hlt ht, ← digitsValue_fraction hlt' ht', hds]
    rw [hsplit a b hbq, hsplit a' b' hbq', toDigits_injective hw, hfrac]
  next =>
    have := (split_at_separator (isDigit_toDigits _) (isDigit_toDigits _) rfl rfl h).2.1
    simp at this
  next =>
    have := (split_at_separator (isDigit_toDigits _) (isDigit_toDigits _) rfl rfl h).2.1
    simp at this
  next =>
    obtain ⟨ha, -, hd⟩ := split_at_separator (isDigit_toDigits _) (isDigit_toDigits _) rfl rfl h
    rw [toDigits_injective ha, toDigits_injective hd]

/-- A magnitude starts with a digit. -/
theorem magnitude_head {a b : ℕ} : ∃ c cs, magnitude a b = c :: cs ∧ c.isDigit := by
  have hhead : ∀ (n : ℕ) (rest : List Char),
      ∃ c cs, Nat.toDigits 10 n ++ rest = c :: cs ∧ c.isDigit := by
    intro n rest
    cases hn : Nat.toDigits 10 n with
    | nil => exact absurd hn Nat.toDigits_ne_nil
    | cons c cs => exact ⟨c, cs ++ rest, rfl, isDigit_toDigits n c (by simp [hn])⟩
  unfold magnitude
  split <;> exact hhead _ _

/-- Distinct finite floats have distinct texts. -/
theorem floatStr_injective {x y : ℚ} (h : floatStr x = floatStr y) : x = y := by
  have hl : signChars x ++ magnitude x.num.natAbs x.den =
      signChars y ++ magnitude y.num.natAbs y.den := by
    simpa [floatStr] using congrArg String.toList h
  obtain ⟨cx, xs, hx, hdx⟩ := magnitude_head (a := x.num.natAbs) (b := x.den)
  obtain ⟨cy, ys, hy, hdy⟩ := magnitude_head (a := y.num.natAbs) (b := y.den)
  have hvalue : ∀ z : ℚ, ((z.num.natAbs : ℕ) : ℚ) / (z.den : ℚ) = |z| := by
    intro z
    rw [Rat.abs_def, Rat.divInt_eq_div, Int.cast_natCast, Int.cast_natCast]
  have habs : magnitude x.num.natAbs x.den = magnitude y.num.natAbs y.den → |x| = |y| := by
    intro hm
    rw [← hvalue x, ← hvalue y]
    exact magnitude_injective x.den_pos y.den_pos hm
  by_cases hxn : x < 0 <;> by_cases hyn : y < 0
  · have hm : magnitude x.num.natAbs x.den = magnitude y.num.natAbs y.den := by
      simpa [signChars, hxn, hyn] using hl
    have := habs hm
    rw [abs_of_neg hxn, abs_of_neg hyn] at this
    linarith
  · have he : '-' = cy := (List.cons.inj
      (by simpa [signChars, hxn, hyn, hx, hy] using hl : '-' :: cx :: xs = cy :: ys)).1
    simp [← he] at hdy
  · have he : cx = '-' := (List.cons.inj
      (by simpa [signChars, hxn, hyn, hx, hy] using hl : cx :: xs = '-' :: cy :: ys)).1
    simp [he] at hdx
  · have hm : magnitude x.num.natAbs x.den = magnitude y.num.natAbs y.den := by
      simpa [signChars, hxn, hyn] using hl
    have := habs hm
    rwa [abs_of_nonneg (not_lt.mp hxn), abs_of_nonneg (not_lt.mp hyn)] at this

theorem floatStr_chars {x : ℚ} {c : Char} (h : c ∈ (floatStr x).toList) :
    c = '-' ∨ c = '.' ∨ c = '/' ∨ c.isDigit := by
  have hlist : c ∈ signChars x ∨ c ∈ magnitude x.num.natAbs x.den := by
    simpa [floatStr] using h
  rcases hlist with hs | hm
  · unfold signChars at hs
    split at hs
    next => exact Or.inl (by simpa using hs)
    next => simp at hs
  · unfold magnitude at hm
    split at hm
    next ht =>
      rcases List.mem_append.mp hm with hw | hf
      · exact Or.inr (Or.inr (Or.inr (isDigit_toDigits _ _ hw)))
      · rcases List.mem_cons.mp hf with hdot | hdig
        · exact Or.inr (Or.inl hdot)
        · obtain ⟨d, hd, rfl⟩ := List.mem_map.mp hdig
          have hlt := fraction_lt_ten (Nat.mod_lt _ x.den_pos) hd
          exact Or.inr (Or.inr (Or.inr (by simpa [Nat.isDigit_digitChar] using hlt)))
    next =>
      rcases List.mem_append.mp hm with hw | hf
      · exact Or.inr (Or.inr (Or.inr (isDigit_toDigits _ _ hw)))
      · rcases List.mem_cons.mp hf with hslash | hdig
        · exact Or.inr (Or.inr (Or.inl hslash))
        · exact Or.inr (Or.inr (Or.inr (isDigit_toDigits _ _ hdig)))

end Decimal
