import PortfolioHub.Python

namespace Web

/-- What stands for a byte, or a character of its own, in a percent-encoded text. -/
inductive Unquoted where
  | byte (value : ℕ)
  | char (c : Char)
deriving DecidableEq, Repr

def hexValue (c : Char) : Option ℕ :=
  if '0' ≤ c ∧ c ≤ '9' then some (c.toNat - 48)
  else if 'a' ≤ c ∧ c ≤ 'f' then some (c.toNat - 87)
  else if 'A' ≤ c ∧ c ≤ 'F' then some (c.toNat - 55)
  else none

/-- The byte of an escape `%HH`. -/
def escapedByte (h l : Char) : Option ℕ :=
  match hexValue h, hexValue l with
  | some x, some y => some (16 * x + y)
  | _, _ => none

/-- What is not an escape stands as it is. -/
def units : List Char → List Unquoted
  | c :: h :: l :: rest =>
    match if c = '%' then escapedByte h l else none with
    | some b => .byte b :: units rest
    | none => .char c :: units (h :: l :: rest)
  | rest => rest.map .char

/-- A sequence of UTF-8 that has begun: its bits so far, the bytes still missing after the next
one, and the bounds of the next one. -/
structure Pending where
  bits : ℕ
  missing : ℕ
  low : ℕ
  high : ℕ
deriving DecidableEq, Repr

/-- U+FFFD, for what is not UTF-8. -/
def replacement : Char := Char.ofNat 0xFFFD

/-- A unit outside any sequence: what is written out and what begins. -/
def startUnit : Unquoted → List Char × Option Pending
  | .char c => ([c], none)
  | .byte b =>
    if b < 0x80 then ([Char.ofNat b], none)
    else if 0xC2 ≤ b ∧ b ≤ 0xDF then ([], some ⟨b - 0xC0, 0, 0x80, 0xBF⟩)
    else if b = 0xE0 then ([], some ⟨0, 1, 0xA0, 0xBF⟩)
    else if b = 0xED then ([], some ⟨0xD, 1, 0x80, 0x9F⟩)
    else if 0xE1 ≤ b ∧ b ≤ 0xEF then ([], some ⟨b - 0xE0, 1, 0x80, 0xBF⟩)
    else if b = 0xF0 then ([], some ⟨0, 2, 0x90, 0xBF⟩)
    else if 0xF1 ≤ b ∧ b ≤ 0xF3 then ([], some ⟨b - 0xF0, 2, 0x80, 0xBF⟩)
    else if b = 0xF4 then ([], some ⟨4, 2, 0x80, 0x8F⟩)
    else ([replacement], none)

/-- The next byte of a sequence. -/
def Pending.extend (p : Pending) (b : ℕ) : List Char × Option Pending :=
  match p.missing with
  | 0 => ([Char.ofNat (64 * p.bits + (b - 0x80))], none)
  | missing + 1 => ([], some ⟨64 * p.bits + (b - 0x80), missing, 0x80, 0xBF⟩)

/-- A unit that does not continue its sequence replaces this and stands for itself. -/
def nextUnit : Option Pending → Unquoted → List Char × Option Pending
  | none, u => startUnit u
  | some p, .byte b =>
    if p.low ≤ b ∧ b ≤ p.high then p.extend b
    else (replacement :: (startUnit (.byte b)).1, (startUnit (.byte b)).2)
  | some _, .char c => ([replacement, c], none)

/-- `bytes.decode("utf-8", errors="replace")`. -/
def decodeUnits : Option Pending → List Unquoted → List Char
  | none, [] => []
  | some _, [] => [replacement]
  | pending, u :: us =>
    (nextUnit pending u).1 ++ decodeUnits (nextUnit pending u).2 us

/-- `unquote(text)`. -/
def unquote (text : List Char) : List Char := decodeUnits none (units text)

def plusToSpace (c : Char) : Char := if c = '+' then ' ' else c

/-- `unquote(text.replace("+", " "))`. -/
def unquotePlus (text : List Char) : List Char := unquote (text.map plusToSpace)

/-- No `%` stands before two hexadecimal digits. -/
def EscapeFree (text : List Char) : Prop :=
  ∀ h l, ['%', h, l] <:+: text → escapedByte h l = none

theorem escapeFree_of_length {text : List Char} (h : text.length < 3) : EscapeFree text :=
  fun _ _ hinside => absurd hinside.length_le (by simpa using h)

theorem escapeFree_cons {c h l : Char} {rest : List Char} :
    EscapeFree (c :: h :: l :: rest) ↔
      (c = '%' → escapedByte h l = none) ∧ EscapeFree (h :: l :: rest) := by
  constructor
  · intro hfree
    refine ⟨?_, fun x y hinside => hfree x y (hinside.trans (List.suffix_cons c _).isInfix)⟩
    rintro rfl
    exact hfree h l ⟨[], rest, rfl⟩
  · rintro ⟨hhead, hrest⟩ x y hinside
    rcases List.infix_cons_iff.mp hinside with hprefix | htail
    · obtain ⟨after, heq⟩ := hprefix
      simp only [List.cons_append, List.cons.injEq] at heq
      obtain ⟨rfl, rfl, rfl, -⟩ := heq
      exact hhead rfl
    · exact hrest x y htail

/-- A text without an escape is read as it stands. -/
theorem units_of_escapeFree {text : List Char} (h : EscapeFree text) :
    units text = text.map .char := by
  fun_induction units text with
  | case1 c x y rest b hbyte ih =>
    split at hbyte
    next hpercent => simp [(escapeFree_cons.mp h).1 hpercent] at hbyte
    next => cases hbyte
  | case2 c x y rest hbyte ih =>
    rw [ih (escapeFree_cons.mp h).2]
    rfl
  | case3 rest hshort => rfl

theorem length_units_le (text : List Char) : (units text).length ≤ text.length := by
  fun_induction units text with
  | case1 c x y rest b hbyte ih => simp only [List.length_cons]; omega
  | case2 c x y rest hbyte ih => simpa using ih
  | case3 rest hshort => simp

/-- Each escape makes one unit of three characters. -/
theorem length_units_lt {text : List Char} (h : ¬ EscapeFree text) :
    (units text).length < text.length := by
  fun_induction units text with
  | case1 c x y rest b hbyte ih =>
    have hrest := length_units_le rest
    simp only [List.length_cons]
    omega
  | case2 c x y rest hbyte ih =>
    have hrest : ¬ EscapeFree (x :: y :: rest) := by
      intro hfree
      refine h (escapeFree_cons.mpr ⟨fun hpercent => ?_, hfree⟩)
      rwa [if_pos hpercent] at hbyte
    simpa using ih hrest
  | case3 rest hshort =>
    refine absurd (escapeFree_of_length ?_) h
    match rest, hshort with
    | [], _ => simp
    | [_], _ => simp
    | [_, _], _ => simp
    | c :: x :: y :: tail, hshort => exact (hshort c x y tail rfl).elim

/-- The characters that a state still owes. -/
def owed : Option Pending → ℕ
  | none => 0
  | some _ => 1

theorem length_startUnit (u : Unquoted) : (startUnit u).1.length + owed (startUnit u).2 = 1 := by
  cases u with
  | char c => rfl
  | byte b =>
    unfold startUnit
    repeat' split
    all_goals rfl

theorem length_extend (p : Pending) (b : ℕ) :
    (p.extend b).1.length + owed (p.extend b).2 = 1 := by
  unfold Pending.extend
  split <;> rfl

/-- A unit writes at most one character. -/
theorem length_nextUnit_le (pending : Option Pending) (u : Unquoted) :
    (nextUnit pending u).1.length + owed (nextUnit pending u).2 ≤ owed pending + 1 := by
  cases pending with
  | none => exact (length_startUnit u).le.trans (by simp [owed])
  | some p =>
    cases u with
    | char c => simp [nextUnit, owed]
    | byte b =>
      have hstart := length_startUnit (.byte b)
      have hextend := length_extend p b
      rw [nextUnit]
      split
      · simp only [owed] at hextend ⊢
        omega
      · simp only [List.length_cons, owed] at hstart ⊢
        omega

theorem length_decodeUnits_le (pending : Option Pending) (us : List Unquoted) :
    (decodeUnits pending us).length ≤ owed pending + us.length := by
  induction us generalizing pending with
  | nil => cases pending <;> simp [decodeUnits, owed]
  | cons u us ih =>
    have hunit := length_nextUnit_le pending u
    have hrest := ih (nextUnit pending u).2
    rw [decodeUnits, List.length_append, List.length_cons]
    omega

theorem decodeUnits_map_char (text : List Char) : decodeUnits none (text.map .char) = text := by
  induction text with
  | nil => rfl
  | cons c text ih =>
    rw [List.map_cons, decodeUnits]
    exact congrArg (c :: ·) ih

/-- An escape makes the text shorter, and nothing else changes it. -/
theorem unquote_eq_or_shorter (text : List Char) :
    unquote text = text ∧ EscapeFree text ∨ (unquote text).length < text.length := by
  by_cases hfree : EscapeFree text
  · left
    rw [unquote, units_of_escapeFree hfree, decodeUnits_map_char]
    exact ⟨rfl, hfree⟩
  · right
    have hdecoded := length_decodeUnits_le none (units text)
    have hunits := length_units_lt hfree
    simp only [owed] at hdecoded
    exact (hdecoded.trans (by omega)).trans_lt hunits

theorem length_unquote_le (text : List Char) : (unquote text).length ≤ text.length := by
  rcases unquote_eq_or_shorter text with ⟨heq, -⟩ | hlt
  · rw [heq]
  · exact hlt.le

theorem length_unquotePlus_le (text : List Char) : (unquotePlus text).length ≤ text.length := by
  simpa [unquotePlus] using length_unquote_le (text.map plusToSpace)

theorem map_plusToSpace {text : List Char} (h : '+' ∉ text) : text.map plusToSpace = text := by
  have hsame : ∀ c ∈ text, plusToSpace c = id c := by
    intro c hc
    have hne : c ≠ '+' := fun hplus => h (hplus ▸ hc)
    exact if_neg hne
  rw [List.map_congr_left hsame, List.map_id]

theorem unquotePlus_of_plain {text : List Char} (hplus : '+' ∉ text) (hfree : EscapeFree text) :
    unquotePlus text = text := by
  rw [unquotePlus, map_plusToSpace hplus, unquote, units_of_escapeFree hfree,
    decodeUnits_map_char]

end Web
