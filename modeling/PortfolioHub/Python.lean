import Mathlib

namespace Python

/-- What a call can raise. Every constructor but `cancelled` is a subclass of
`Exception`; `vendor` stands for whatever an SDK call raises. -/
inductive Error where
  | valueError (message : String)
  | attributeError (message : String)
  | keyError (key : String)
  | runtimeError (message : String)
  | zeroDivisionError
  | typeError (message : String)
  | notImplementedError (message : String)
  | vendor (message : String)
  | cancelled
deriving DecidableEq, Repr

/-- Caught by `except Exception`. -/
def Error.isException : Error → Bool
  | .cancelled => false
  | _ => true

/-- A block that returns has got a value from its first call and returned from the rest. -/
theorem bind_eq_ok {α β : Type} {x : Except Error α} {f : α → Except Error β} {b : β} :
    (x >>= f) = .ok b ↔ ∃ a, x = .ok a ∧ f a = .ok b := by
  cases x with
  | error e => simp [bind, Except.bind]
  | ok a => simp [bind, Except.bind]

theorem pure_eq_ok {α : Type} {a b : α} : (pure a : Except Error α) = .ok b ↔ a = b := by
  simp [pure, Except.pure]

theorem bind_defined {α β : Type} {x : Except Error α} {f : α → Except Error β}
    (hx : ∃ a, x = .ok a) (hf : ∀ a, x = .ok a → ∃ b, f a = .ok b) : ∃ b, (x >>= f) = .ok b := by
  obtain ⟨a, ha⟩ := hx
  obtain ⟨b, hb⟩ := hf a ha
  exact ⟨b, bind_eq_ok.mpr ⟨a, ha, hb⟩⟩

/-- A comprehension that returns has got a value for each element, in order. -/
theorem mapM_eq_ok {α β : Type} {f : α → Except Error β} {as : List α} {bs : List β} :
    as.mapM f = .ok bs ↔ List.Forall₂ (fun a b => f a = .ok b) as bs := by
  induction as generalizing bs with
  | nil =>
    rw [List.mapM_nil, pure_eq_ok, List.forall₂_nil_left_iff]
    exact eq_comm
  | cons a as ih =>
    rw [List.mapM_cons, bind_eq_ok, List.forall₂_cons_left_iff]
    constructor
    · rintro ⟨b, hb, h⟩
      obtain ⟨tail, htail, h⟩ := bind_eq_ok.mp h
      exact ⟨b, tail, hb, ih.mp htail, (pure_eq_ok.mp h).symm⟩
    · rintro ⟨b, tail, hb, htail, rfl⟩
      exact ⟨b, hb, bind_eq_ok.mpr ⟨tail, ih.mpr htail, rfl⟩⟩

theorem mapM_defined_iff {α β : Type} {f : α → Except Error β} {as : List α} :
    (∃ bs, as.mapM f = .ok bs) ↔ ∀ a ∈ as, ∃ b, f a = .ok b := by
  simp only [mapM_eq_ok]
  induction as with
  | nil => simp
  | cons a as ih =>
    rw [List.forall_mem_cons, ← ih]
    constructor
    · rintro ⟨_, h⟩
      cases h with
      | cons hb htail => exact ⟨⟨_, hb⟩, _, htail⟩
    · rintro ⟨⟨b, hb⟩, tail, htail⟩
      exact ⟨b :: tail, .cons hb htail⟩

/-- A comprehension over the elements in another order gives the results in that order. -/
theorem mapM_perm {α β : Type} {f : α → Except Error β} {as bs : List α} {xs ys : List β}
    (h : as.Perm bs) (ha : as.mapM f = .ok xs) (hb : bs.mapM f = .ok ys) : xs.Perm ys := by
  obtain ⟨zs, hzs, hperm⟩ := List.perm_comp_forall₂ h (mapM_eq_ok.mp hb)
  have hsame : as.mapM f = .ok zs := mapM_eq_ok.mpr hzs
  obtain rfl := Except.ok.inj (ha.symm.trans hsame)
  exact hperm

theorem mapM_congr {α β : Type} {f g : α → Except Error β} {as : List α}
    (h : ∀ a ∈ as, f a = g a) : as.mapM f = as.mapM g := by
  induction as with
  | nil => rfl
  | cons a as ih =>
    obtain ⟨ha, has⟩ := List.forall_mem_cons.mp h
    rw [List.mapM_cons, List.mapM_cons, ha, ih has]

/-- The results of a comprehension are those of its elements. -/
theorem mem_mapM_iff {α β : Type} {f : α → Except Error β} {as : List α} {bs : List β}
    (h : as.mapM f = .ok bs) {b : β} : b ∈ bs ↔ ∃ a ∈ as, f a = .ok b := by
  have hpairs := mapM_eq_ok.mp h
  clear h
  induction hpairs with
  | nil => simp
  | @cons a c as bs hac _ ih =>
    have hfirst : b = c ↔ f a = .ok b := by rw [hac, Except.ok.injEq, eq_comm]
    rw [List.mem_cons, List.exists_mem_cons_iff]
    exact or_congr hfirst ih

/-- What a loop starts with and every round keeps holds of its result. -/
theorem foldlM_invariant {α β : Type} {I : β → Prop} {f : β → α → Except Error β} {as : List α}
    {b result : β} (hb : I b) (hf : ∀ b a b', I b → f b a = .ok b' → I b')
    (h : as.foldlM f b = .ok result) : I result := by
  induction as generalizing b with
  | nil =>
    rw [List.foldlM_nil] at h
    obtain rfl := pure_eq_ok.mp h
    exact hb
  | cons a as ih =>
    rw [List.foldlM_cons] at h
    obtain ⟨b', hb', h⟩ := bind_eq_ok.mp h
    exact ih (hf b a b' hb hb') h

/-- Two loops whose rounds correspond under `g` end in corresponding results. -/
theorem foldlM_map {α β γ : Type} {f : β → α → Except Error β} {f' : γ → α → Except Error γ}
    {g : β → γ} (hf : ∀ b a, f' (g b) a = (f b a).map g) (as : List α) (b : β) :
    as.foldlM f' (g b) = (as.foldlM f b).map g := by
  induction as generalizing b with
  | nil => rfl
  | cons a as ih =>
    rw [List.foldlM_cons, List.foldlM_cons, hf]
    cases f b a with
    | error e => rfl
    | ok b' => exact ih b'

/-- What a call raises, if it does. -/
def raised {α : Type} : Except Error α → Option Error
  | .error e => some e
  | .ok _ => none

theorem raised_map {α β : Type} (f : α → β) (x : Except Error α) : raised (x.map f) = raised x := by
  cases x <;> rfl

/-- A block raises what its first call raises, else what the rest does. -/
theorem raised_bind {α β : Type} (x : Except Error α) (f : α → Except Error β) :
    raised (x >>= f) = match x with
      | .error e => some e
      | .ok a => raised (f a) := by
  cases x <;> rfl

theorem raised_bind_pure {α β : Type} (x : Except Error α) (f : α → β) :
    raised (x >>= fun a => pure (f a)) = raised x := by
  cases x <;> rfl

/-- A comprehension raises what its first failing element does. -/
theorem raised_mapM {α β : Type} (f : α → Except Error β) (as : List α) :
    raised (as.mapM f) = as.findSome? fun a => raised (f a) := by
  induction as with
  | nil => rfl
  | cons a as ih =>
    rw [List.mapM_cons, List.findSome?_cons, raised_bind]
    cases f a with
    | error e => rfl
    | ok b =>
      have htail := raised_bind_pure (as.mapM f) (b :: ·)
      exact htail.trans ih

/-- The characters `str.strip()` removes. -/
def isSpace (c : Char) : Bool :=
  let n := c.toNat
  (9 ≤ n && n ≤ 13) || (28 ≤ n && n ≤ 32) || n == 0x85 || n == 0xa0 || n == 0x1680 ||
    (0x2000 ≤ n && n ≤ 0x200a) || n == 0x2028 || n == 0x2029 || n == 0x202f ||
    n == 0x205f || n == 0x3000

/-- `s.strip()`. -/
def strip (s : String) : String :=
  String.ofList ((s.toList.dropWhile isSpace).reverse.dropWhile isSpace).reverse

/-- `s.upper()`, on the ASCII letters vendor codes are written in. -/
def upper (s : String) : String := String.ofList (s.toList.map Char.toUpper)

/-- `s.lower()`, on ASCII letters. -/
def lower (s : String) : String := String.ofList (s.toList.map Char.toLower)

/-- `s.split(",")`. -/
def splitComma (s : String) : List String := (s.toList.splitOn ',').map String.ofList

/-- `s.lstrip("0")`. -/
def lstripZeros (s : String) : String := String.ofList (s.toList.dropWhile (· == '0'))

/-- The parts before and after the first `c`. -/
def splitFirst (c : Char) : List Char → Option (List Char × List Char)
  | [] => none
  | x :: xs => if x = c then some ([], xs) else (splitFirst c xs).map fun p => (x :: p.1, p.2)

/-- `s.split(".", 1)`, when `s` has a dot. -/
def splitDot (s : String) : Option (String × String) :=
  (splitFirst '.' s.toList).map fun p => (String.ofList p.1, String.ofList p.2)

/-- `s.rsplit(".", 1)`, when `s` has a dot. -/
def rsplitDot (s : String) : Option (String × String) :=
  (splitFirst '.' s.toList.reverse).map fun p =>
    (String.ofList p.2.reverse, String.ofList p.1.reverse)

theorem splitFirst_eq_some {c : Char} {cs : List Char} {p : List Char × List Char} :
    splitFirst c cs = some p ↔ cs = p.1 ++ c :: p.2 ∧ c ∉ p.1 := by
  obtain ⟨before, after⟩ := p
  induction cs generalizing before with
  | nil => simp [splitFirst]
  | cons x xs ih =>
    rw [splitFirst]
    split
    next hx =>
      subst hx
      cases before with
      | nil => simp [eq_comm]
      | cons y ys =>
        refine iff_of_false (by simp) ?_
        rintro ⟨heq, hnot⟩
        have hy : x = y := (List.cons.inj heq).1
        exact hnot (by simp [hy])
    next hx =>
      cases before with
      | nil => simp [hx]
      | cons y ys =>
        have htail : (splitFirst c xs).map (fun p => (x :: p.1, p.2)) = some (y :: ys, after) ↔
            x = y ∧ splitFirst c xs = some (ys, after) := by
          cases splitFirst c xs with
          | none => simp
          | some p => simp [Prod.ext_iff, and_assoc]
        rw [htail, ih]
        simp only [List.cons_append, List.cons.injEq, List.mem_cons, not_or]
        constructor
        · rintro ⟨rfl, hxs, hnot⟩
          exact ⟨⟨rfl, hxs⟩, Ne.symm hx, hnot⟩
        · rintro ⟨⟨rfl, hxs⟩, -, hnot⟩
          exact ⟨rfl, hxs, hnot⟩

/-- `rsplit` cuts at the last dot. -/
theorem rsplitDot_eq_some {s before after : String} :
    rsplitDot s = some (before, after) ↔ s = before ++ "." ++ after ∧ '.' ∉ after.toList := by
  unfold rsplitDot
  rw [Option.map_eq_some_iff]
  constructor
  · rintro ⟨⟨right, left⟩, hsplit, heq⟩
    obtain ⟨rfl, rfl⟩ := Prod.mk.inj heq
    obtain ⟨hs, hnot⟩ := splitFirst_eq_some.mp hsplit
    refine ⟨String.toList_injective ?_, by simpa using hnot⟩
    simpa using congrArg List.reverse hs
  · rintro ⟨rfl, hnot⟩
    refine ⟨(after.toList.reverse, before.toList.reverse), splitFirst_eq_some.mpr ?_, ?_⟩
    · exact ⟨by simp, by simpa using hnot⟩
    · simp

/-- `a or b` on strings. -/
def orElse (a b : String) : String := if a = "" then b else a

def escape (quote c : Char) : List Char :=
  if c = quote || c = '\\' then ['\\', c]
  else if c = '\n' then ['\\', 'n']
  else if c = '\r' then ['\\', 'r']
  else if c = '\t' then ['\\', 't']
  else [c]

/-- `repr(s)` of a string of printable characters and the usual escapes. -/
def repr (s : String) : String :=
  let quote := if s.toList.contains '\'' && !s.toList.contains '"' then '"' else '\''
  String.ofList (quote :: s.toList.flatMap (escape quote) ++ [quote])

end Python
