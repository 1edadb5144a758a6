import Mathlib.Data.List.Basic

namespace Shell

def singleQuote : Char := Char.ofNat 39

def doubleQuote : Char := Char.ofNat 34

def backslash : Char := Char.ofNat 92

def isBlank (c : Char) : Bool := c = ' ' || c = '\t' || c = '\r' || c = '\n'

def isQuote (c : Char) : Bool := c = singleQuote || c = doubleQuote

/-- `shlex.state`: between words, in one, inside quotes, and after a backslash with the quotes
to go back to. -/
inductive State where
  | blank
  | word
  | quoted (quote : Char)
  | escaped (inside : Option Char)
deriving DecidableEq, Repr

def State.after : Option Char → State
  | none => .word
  | some quote => .quoted quote

/-- `read_token()` until the text is at its end, with the word read so far and whether any of
it was quoted. -/
def scan : State → List Char → Bool → List Char → Except String (List (List Char))
  | .blank, _, _, [] => .ok []
  | .word, word, quoted, [] => .ok (if word = [] ∧ quoted = false then [] else [word])
  | .quoted _, _, _, [] => .error "No closing quotation"
  | .escaped _, _, _, [] => .error "No escaped character"
  | .blank, _, _, c :: rest =>
    if isBlank c then scan .blank [] false rest
    else if c = backslash then scan (.escaped none) [] false rest
    else if isQuote c then scan (.quoted c) [] false rest
    else scan .word [c] false rest
  | .word, word, quoted, c :: rest =>
    if isBlank c then
      if word = [] ∧ quoted = false then scan .blank [] false rest
      else (scan .blank [] false rest).map (word :: ·)
    else if isQuote c then scan (.quoted c) word quoted rest
    else if c = backslash then scan (.escaped none) word quoted rest
    else scan .word (word ++ [c]) quoted rest
  | .quoted quote, word, _, c :: rest =>
    if c = quote then scan .word word true rest
    else if c = backslash ∧ quote = doubleQuote then scan (.escaped (some quote)) word true rest
    else scan (.quoted quote) (word ++ [c]) true rest
  | .escaped inside, word, quoted, c :: rest =>
    -- inside quotes a backslash stands for itself before any other character
    scan (.after inside)
      (word ++ (if inside ≠ none ∧ c ≠ backslash ∧ inside ≠ some c then [backslash, c] else [c]))
      quoted rest

/-- `shlex.split(text)`. -/
def split (text : List Char) : Except String (List (List Char)) := scan .blank [] false text

/-- The characters of a word that `shlex.quote` leaves as it stands. -/
def isSafe (c : Char) : Bool :=
  c.isAlphanum || c ∈ ['_', '@', '%', '+', '=', ':', ',', '.', '/', '-']

/-- A quote inside a quoted word: the quotes closed, the quote in double quotes, and the quotes
opened again. -/
def escapeQuote (c : Char) : List Char :=
  if c = singleQuote then [singleQuote, doubleQuote, singleQuote, doubleQuote, singleQuote] else [c]

/-- `shlex.quote(word)`. -/
def quote (word : List Char) : List Char :=
  if word ≠ [] ∧ word.all isSafe then word
  else singleQuote :: (word.flatMap escapeQuote ++ [singleQuote])

/-- `shlex.join(words)`. -/
def join : List (List Char) → List Char
  | [] => []
  | [word] => quote word
  | word :: next :: words => quote word ++ ' ' :: join (next :: words)

theorem isSafe_plain {c : Char} (h : isSafe c = true) :
    isBlank c = false ∧ isQuote c = false ∧ c ≠ backslash := by
  have hcode : ∀ d : Char, isSafe d = false → c ≠ d := fun d hd hc => by simp [← hc, h] at hd
  have hquote : c ≠ singleQuote := hcode _ (by decide)
  have hdouble : c ≠ doubleQuote := hcode _ (by decide)
  have hspace : c ≠ ' ' := hcode _ (by decide)
  have htab : c ≠ '\t' := hcode _ (by decide)
  have hreturn : c ≠ '\r' := hcode _ (by decide)
  have hline : c ≠ '\n' := hcode _ (by decide)
  exact ⟨by simp [isBlank, hspace, htab, hreturn, hline], by simp [isQuote, hquote, hdouble],
    hcode _ (by decide)⟩

theorem scan_safe {word : List Char} (h : ∀ c ∈ word, isSafe c = true) (read : List Char)
    (quoted : Bool) (rest : List Char) :
    scan .word read quoted (word ++ rest) = scan .word (read ++ word) quoted rest := by
  induction word generalizing read with
  | nil => rw [List.nil_append, List.append_nil]
  | cons c word ih =>
    obtain ⟨hblank, hquote, hback⟩ := isSafe_plain (h c (by simp))
    have hstep : scan .word read quoted (c :: (word ++ rest)) =
        scan .word (read ++ [c]) quoted (word ++ rest) := by
      simp [scan, hblank, hquote, hback]
    rw [List.cons_append, hstep, ih fun d hd => h d (by simp [hd]), List.append_assoc,
      List.singleton_append]

/-- One character of a quoted word is read back as it was. -/
theorem scan_escapeQuote (c : Char) (read : List Char) (quoted : Bool) (rest : List Char) :
    scan (.quoted singleQuote) read quoted (escapeQuote c ++ rest) =
      scan (.quoted singleQuote) (read ++ [c]) true rest := by
  have hdouble : doubleQuote ≠ singleQuote := by decide
  have hback : singleQuote ≠ backslash := by decide
  unfold escapeQuote
  by_cases hc : c = singleQuote
  · subst hc
    have hblank : isBlank singleQuote = false := by decide
    have hblank' : isBlank doubleQuote = false := by decide
    simp [scan, hblank, hblank', isQuote, hdouble, hdouble.symm, hback]
  · have hsingle : singleQuote ≠ doubleQuote := hdouble.symm
    simp [scan, hc, hsingle]

theorem scan_quoted (word read : List Char) (quoted : Bool) (rest : List Char) :
    scan (.quoted singleQuote) read quoted (word.flatMap escapeQuote ++ singleQuote :: rest) =
      scan .word (read ++ word) true rest := by
  induction word generalizing read quoted with
  | nil => simp [scan]
  | cons c word ih =>
    rw [List.flatMap_cons, List.append_assoc, scan_escapeQuote, ih, List.append_assoc,
      List.singleton_append]

/-- A quoted word is read as one word, whatever follows it. -/
theorem scan_quote (word rest : List Char) :
    ∃ quoted, scan .blank [] false (quote word ++ rest) = scan .word word quoted rest ∧
      (word = [] → quoted = true) := by
  unfold quote
  by_cases hplain : word ≠ [] ∧ word.all isSafe = true
  · rw [if_pos hplain]
    have hsafe : ∀ c ∈ word, isSafe c = true := List.all_eq_true.mp hplain.2
    refine ⟨false, ?_, fun hnil => absurd hnil hplain.1⟩
    cases word with
    | nil => exact absurd rfl hplain.1
    | cons c word =>
      obtain ⟨hblank, hquote, hback⟩ := isSafe_plain (hsafe c (by simp))
      have hstep : scan .blank [] false (c :: (word ++ rest)) =
          scan .word [c] false (word ++ rest) := by
        simp [scan, hblank, hquote, hback]
      rw [List.cons_append, hstep, scan_safe fun d hd => hsafe d (by simp [hd])]
      rfl
  · rw [if_neg hplain]
    have hopen : ∀ text, scan .blank [] false (singleQuote :: text) =
        scan (.quoted singleQuote) [] false text := by
      intro text
      have hblank : isBlank singleQuote = false := by decide
      have hback : singleQuote ≠ backslash := by decide
      simp [scan, hblank, hback, isQuote]
    refine ⟨true, ?_, fun _ => rfl⟩
    rw [List.cons_append, List.append_assoc, hopen]
    exact scan_quoted word [] false rest

/-- Words joined for a shell are split back. -/
theorem split_join (words : List (List Char)) : split (join words) = .ok words := by
  unfold split
  induction words with
  | nil => rfl
  | cons word words ih =>
    cases words with
    | nil =>
      obtain ⟨quoted, hscan, hnil⟩ := scan_quote word []
      have hkept : ¬ (word = [] ∧ quoted = false) := fun h => by simp [hnil h.1] at h
      rw [join, ← List.append_nil (quote word), hscan, scan, if_neg hkept]
    | cons next words =>
      obtain ⟨quoted, hscan, hnil⟩ := scan_quote word (' ' :: join (next :: words))
      have hkept : ¬ (word = [] ∧ quoted = false) := fun h => by simp [hnil h.1] at h
      have hblank : isBlank ' ' = true := by decide
      rw [join, hscan, scan, if_pos hblank, if_neg hkept, ih]
      rfl

/-- A word that has begun is read, or an error is met. -/
theorem scan_ne_nil (state : State) (word : List Char) (quoted : Bool) (text : List Char)
    (hstate : state ≠ .blank) (hword : state = .word → word ≠ [] ∨ quoted = true) :
    scan state word quoted text ≠ .ok [] := by
  induction text generalizing state word quoted with
  | nil =>
    cases state with
    | blank => exact absurd rfl hstate
    | word =>
      have hkept : ¬ (word = [] ∧ quoted = false) := by
        intro h
        rcases hword rfl with hne | htrue
        · exact hne h.1
        · rw [h.2] at htrue
          cases htrue
      rw [scan, if_neg hkept]
      simp
    | quoted quote => simp [scan]
    | escaped inside => simp [scan]
  | cons c rest ih =>
    cases state with
    | blank => exact absurd rfl hstate
    | word =>
      have hkept : ¬ (word = [] ∧ quoted = false) := by
        intro h
        rcases hword rfl with hne | htrue
        · exact hne h.1
        · rw [h.2] at htrue
          cases htrue
      rw [scan]
      split
      · cases scan .blank [] false rest <;> simp [Except.map]
      · split
        · exact ih _ _ _ (by simp) (by simp)
        · split
          · exact ih _ _ _ (by simp) (by simp)
          · exact ih _ _ _ (by simp) (by simp)
    | quoted quote =>
      rw [scan]
      split
      · exact ih _ _ _ (by simp) (by simp)
      · split
        · exact ih _ _ _ (by simp) (by simp)
        · exact ih _ _ _ (by simp) (by simp)
    | escaped inside =>
      rw [scan]
      refine ih _ _ _ ?_ fun _ => Or.inl ?_
      · cases inside <;> simp [State.after]
      · split <;> simp

/-- A text that does not start with a blank has a word, or is not well quoted. -/
theorem split_ne_nil {c : Char} {rest : List Char} (h : isBlank c = false) :
    split (c :: rest) ≠ .ok [] := by
  unfold split
  rw [scan, if_neg (by simp [h])]
  split
  · exact scan_ne_nil _ _ _ _ (by simp) (by simp)
  · split
    · exact scan_ne_nil _ _ _ _ (by simp) (by simp)
    · exact scan_ne_nil _ _ _ _ (by simp) (by simp)

end Shell
