import PortfolioHub.Sha1
import PortfolioHub.UrlQuery

namespace Web

/-- A digit of an escape. -/
def hexDigit (n : ℕ) : Char := Char.ofNat (if n < 10 then 48 + n else 55 + n)

def percentByte (b : ℕ) : List Char := ['%', hexDigit (b / 16), hexDigit (b % 16)]

/-- The characters that a form encoder writes as they are. -/
def isFormSafe (c : Char) : Bool := c.isAlphanum || c == '*' || c == '-' || c == '.' || c == '_'

def formChar (c : Char) : List Char :=
  if isFormSafe c then [c]
  else if c = ' ' then ['+']
  else (Sha1.utf8Char c).flatMap percentByte

def formEncode (text : List Char) : List Char := text.flatMap formChar

/-- `URLSearchParams.toString()`. -/
def formQuery (params : List (List Char × List Char)) : List Char :=
  joinFields (params.map fun p => (formEncode p.1, formEncode p.2))

theorem hexDigit_plain {n : ℕ} (h : n < 16) :
    hexValue (hexDigit n) = some n ∧ (hexDigit n).isAlphanum = true := by
  interval_cases n <;> decide

theorem ne_of_isAlphanum {c d : Char} (h : c.isAlphanum = true) (hd : d.isAlphanum = false) :
    c ≠ d := by
  intro heq
  rw [heq, hd] at h
  cases h

theorem units_cons {c : Char} (h : c ≠ '%') (rest : List Char) :
    units (c :: rest) = .char c :: units rest := by
  cases rest with
  | nil => rfl
  | cons d rest =>
    cases rest with
    | nil => rfl
    | cons e rest =>
      rw [units]
      simp [h]

theorem units_percentByte {b : ℕ} (h : b < 256) (rest : List Char) :
    units (percentByte b ++ rest) = .byte b :: units rest := by
  have hhigh : b / 16 < 16 := by omega
  have hlow : b % 16 < 16 := by omega
  have hbyte : escapedByte (hexDigit (b / 16)) (hexDigit (b % 16)) = some b := by
    rw [escapedByte, (hexDigit_plain hhigh).1, (hexDigit_plain hlow).1]
    have hsum : 16 * (b / 16) + b % 16 = b := by omega
    exact congrArg some hsum
  have hlist : percentByte b ++ rest =
      '%' :: hexDigit (b / 16) :: hexDigit (b % 16) :: rest := rfl
  rw [hlist, units, if_pos rfl, hbyte]

theorem units_percentBytes {bs : List ℕ} (h : ∀ b ∈ bs, b < 256) (rest : List Char) :
    units (bs.flatMap percentByte ++ rest) = bs.map .byte ++ units rest := by
  induction bs with
  | nil => rfl
  | cons b bs ih =>
    obtain ⟨hb, hbs⟩ := List.forall_mem_cons.mp h
    rw [List.flatMap_cons, List.append_assoc, units_percentByte hb, ih hbs, List.map_cons,
      List.cons_append]

theorem utf8Char_lt (c : Char) : ∀ b ∈ Sha1.utf8Char c, b < 256 := by
  have hmax : c.toNat < 0x110000 := by
    rcases c.valid with hvalid | hvalid
    · exact lt_trans hvalid (by decide)
    · exact hvalid.2
  intro b hb
  unfold Sha1.utf8Char at hb
  dsimp only at hb
  split_ifs at hb <;> simp only [List.mem_cons, List.not_mem_nil, or_false] at hb <;> omega

theorem ofNat_of_toNat {c : Char} {n : ℕ} (h : n = c.toNat) : Char.ofNat n = c := by
  rw [h]
  exact Char.ofNat_toNat c

/-- The first of three bytes, and the bounds it sets the second one. -/
theorem nextUnit_three {n : ℕ} (hfrom : 0x800 ≤ n) (hto : n < 0x10000)
    (hvalid : n < 0xD800 ∨ 0xDFFF < n) : ∃ low high,
    nextUnit none (.byte (0xE0 + n / 4096)) = ([], some ⟨n / 4096, 1, low, high⟩) ∧
      low ≤ 0x80 + n / 64 % 64 ∧ 0x80 + n / 64 % 64 ≤ high := by
  have hlead : n / 4096 < 16 := by omega
  unfold nextUnit startUnit
  dsimp only
  rw [if_neg (by omega), if_neg (by omega)]
  by_cases hzero : n / 4096 = 0
  · rw [if_pos (by omega), hzero]
    exact ⟨0xA0, 0xBF, rfl, by omega, by omega⟩
  · rw [if_neg (by omega)]
    by_cases hsurrogate : n / 4096 = 13
    · rw [if_pos (by omega), hsurrogate]
      exact ⟨0x80, 0x9F, rfl, by omega, by omega⟩
    · rw [if_neg (by omega), if_pos (by omega), Nat.add_sub_cancel_left]
      exact ⟨0x80, 0xBF, rfl, by omega, by omega⟩

/-- The first of four bytes. -/
theorem nextUnit_four {n : ℕ} (hfrom : 0x10000 ≤ n) (hto : n < 0x110000) : ∃ low high,
    nextUnit none (.byte (0xF0 + n / 262144)) = ([], some ⟨n / 262144, 2, low, high⟩) ∧
      low ≤ 0x80 + n / 4096 % 64 ∧ 0x80 + n / 4096 % 64 ≤ high := by
  have hlead : n / 262144 < 5 := by omega
  unfold nextUnit startUnit
  dsimp only
  rw [if_neg (by omega), if_neg (by omega), if_neg (by omega), if_neg (by omega), if_neg (by omega)]
  by_cases hzero : n / 262144 = 0
  · rw [if_pos (by omega), hzero]
    exact ⟨0x90, 0xBF, rfl, by omega, by omega⟩
  · rw [if_neg (by omega)]
    by_cases hlast : n / 262144 = 4
    · rw [if_neg (by omega), if_pos (by omega), hlast]
      exact ⟨0x80, 0x8F, rfl, by omega, by omega⟩
    · rw [if_pos (by omega), Nat.add_sub_cancel_left]
      exact ⟨0x80, 0xBF, rfl, by omega, by omega⟩

theorem nextUnit_middle {bits missing low high b : ℕ} (hlow : low ≤ b) (hhigh : b ≤ high) :
    nextUnit (some ⟨bits, missing + 1, low, high⟩) (.byte b) =
      ([], some ⟨64 * bits + (b - 0x80), missing, 0x80, 0xBF⟩) :=
  if_pos ⟨hlow, hhigh⟩

theorem nextUnit_last {bits low high b : ℕ} (hlow : low ≤ b) (hhigh : b ≤ high) :
    nextUnit (some ⟨bits, 0, low, high⟩) (.byte b) =
      ([Char.ofNat (64 * bits + (b - 0x80))], none) :=
  if_pos ⟨hlow, hhigh⟩

theorem decodeUnits_cons {pending pending' : Option Pending} {u : Unquoted} {written : List Char}
    (h : nextUnit pending u = (written, pending')) (us : List Unquoted) :
    decodeUnits pending (u :: us) = written ++ decodeUnits pending' us := by
  cases pending <;> rw [decodeUnits, h]

theorem decodeUnits_char (c : Char) (us : List Unquoted) :
    decodeUnits none (.char c :: us) = c :: decodeUnits none us := rfl

/-- The bytes of a character are decoded as it, whatever stands behind them. -/
theorem decodeUnits_utf8Char (c : Char) (us : List Unquoted) :
    decodeUnits none ((Sha1.utf8Char c).map .byte ++ us) = c :: decodeUnits none us := by
  have hvalid : c.toNat < 0xD800 ∨ 0xDFFF < c.toNat ∧ c.toNat < 0x110000 := c.valid
  unfold Sha1.utf8Char
  dsimp only
  split_ifs with hone htwo hthree
  · have hstart : nextUnit none (.byte c.toNat) = ([Char.ofNat c.toNat], none) := if_pos hone
    rw [Char.ofNat_toNat] at hstart
    exact decodeUnits_cons hstart us
  · have hstart : nextUnit none (.byte (0xC0 + c.toNat / 64)) =
        ([], some ⟨0xC0 + c.toNat / 64 - 0xC0, 0, 0x80, 0xBF⟩) := by
      rw [nextUnit, startUnit, if_neg (by omega), if_pos (by omega)]
    have hlast : Char.ofNat (64 * (0xC0 + c.toNat / 64 - 0xC0) + (0x80 + c.toNat % 64 - 0x80)) = c :=
      ofNat_of_toNat (by omega)
    simp only [List.map_cons, List.map_nil, List.cons_append, List.nil_append]
    rw [decodeUnits_cons hstart, List.nil_append,
      decodeUnits_cons (nextUnit_last (by omega) (by omega)), hlast, List.singleton_append]
  · obtain ⟨low, high, hstart, hlow, hhigh⟩ :=
      nextUnit_three (n := c.toNat) (by omega) hthree (by omega)
    have hlast : Char.ofNat (64 * (64 * (c.toNat / 4096) + (0x80 + c.toNat / 64 % 64 - 0x80)) +
        (0x80 + c.toNat % 64 - 0x80)) = c := ofNat_of_toNat (by omega)
    simp only [List.map_cons, List.map_nil, List.cons_append, List.nil_append]
    rw [decodeUnits_cons hstart, List.nil_append,
      decodeUnits_cons (nextUnit_middle hlow hhigh), List.nil_append,
      decodeUnits_cons (nextUnit_last (by omega) (by omega)), hlast, List.singleton_append]
  · obtain ⟨low, high, hstart, hlow, hhigh⟩ :=
      nextUnit_four (n := c.toNat) (by omega) (by omega)
    have hlast : Char.ofNat (64 * (64 * (64 * (c.toNat / 262144) +
        (0x80 + c.toNat / 4096 % 64 - 0x80)) + (0x80 + c.toNat / 64 % 64 - 0x80)) +
          (0x80 + c.toNat % 64 - 0x80)) = c := ofNat_of_toNat (by omega)
    simp only [List.map_cons, List.map_nil, List.cons_append, List.nil_append]
    rw [decodeUnits_cons hstart, List.nil_append,
      decodeUnits_cons (nextUnit_middle hlow hhigh), List.nil_append,
      decodeUnits_cons (nextUnit_middle (by omega) (by omega)), List.nil_append,
      decodeUnits_cons (nextUnit_last (by omega) (by omega)), hlast, List.singleton_append]

/-- What an encoder writes for a character holds no separator. -/
theorem mem_formChar {c d : Char} (h : d ∈ formChar c) :
    d.isAlphanum = true ∨ d ∈ ['*', '-', '.', '_', '+', '%'] := by
  unfold formChar at h
  split_ifs at h with hsafe hspace
  · obtain rfl := List.mem_singleton.mp h
    simp only [isFormSafe, Bool.or_eq_true, beq_iff_eq] at hsafe
    rcases hsafe with (((halnum | rfl) | rfl) | rfl) | rfl
    · exact Or.inl halnum
    · exact Or.inr (by decide)
    · exact Or.inr (by decide)
    · exact Or.inr (by decide)
    · exact Or.inr (by decide)
  · obtain rfl := List.mem_singleton.mp h
    exact Or.inr (by decide)
  · obtain ⟨b, hb, hd⟩ := List.mem_flatMap.mp h
    have hbyte := utf8Char_lt c b hb
    have hhigh : b / 16 < 16 := by omega
    have hlow : b % 16 < 16 := by omega
    simp only [percentByte, List.mem_cons, List.not_mem_nil, or_false] at hd
    rcases hd with rfl | rfl | rfl
    · exact Or.inr (by decide)
    · exact Or.inl (hexDigit_plain hhigh).2
    · exact Or.inl (hexDigit_plain hlow).2

theorem not_mem_formEncode {d : Char} (halnum : d.isAlphanum = false)
    (hother : d ∉ ['*', '-', '.', '_', '+', '%']) (text : List Char) : d ∉ formEncode text := by
  intro h
  obtain ⟨c, -, hd⟩ := List.mem_flatMap.mp h
  rcases mem_formChar hd with hd | hd
  · rw [halnum] at hd
    cases hd
  · exact hother hd

theorem map_plusToSpace_percentBytes {bs : List ℕ} (h : ∀ b ∈ bs, b < 256) :
    (bs.flatMap percentByte).map plusToSpace = bs.flatMap percentByte := by
  apply map_plusToSpace
  intro hplus
  obtain ⟨b, hb, hd⟩ := List.mem_flatMap.mp hplus
  have hbyte := h b hb
  have hhigh : b / 16 < 16 := by omega
  have hlow : b % 16 < 16 := by omega
  simp only [percentByte, List.mem_cons, List.not_mem_nil, or_false] at hd
  rcases hd with hd | hd | hd
  · cases hd
  · exact ne_of_isAlphanum (hexDigit_plain hhigh).2 (by decide) hd.symm
  · exact ne_of_isAlphanum (hexDigit_plain hlow).2 (by decide) hd.symm

/-- What is written of a character is read as it, whatever stands behind it. -/
theorem decode_formChar (c : Char) (rest : List Char) :
    decodeUnits none (units ((formChar c).map plusToSpace ++ rest)) =
      c :: decodeUnits none (units rest) := by
  unfold formChar
  split_ifs with hsafe hspace
  · have hplain : c ≠ '%' ∧ c ≠ '+' := by
      constructor
      · rintro rfl
        cases hsafe
      · rintro rfl
        cases hsafe
    have hkept : plusToSpace c = c := if_neg hplain.2
    rw [List.map_singleton, hkept, List.singleton_append, units_cons hplain.1, decodeUnits_char]
  · have hread : plusToSpace '+' = ' ' := if_pos rfl
    rw [List.map_singleton, hread, List.singleton_append, units_cons (by decide), decodeUnits_char,
      hspace]
  · have hbytes := utf8Char_lt c
    rw [map_plusToSpace_percentBytes hbytes, units_percentBytes hbytes, decodeUnits_utf8Char]

/-- A form text is read back as it was. -/
theorem unquotePlus_formEncode (text : List Char) : unquotePlus (formEncode text) = text := by
  unfold unquotePlus unquote formEncode
  induction text with
  | nil => rfl
  | cons c text ih =>
    rw [List.flatMap_cons, List.map_append, decode_formChar, ih]

/-- The parameters of a form query are read back as they were. -/
theorem parseQsl_formQuery (params : List (List Char × List Char)) :
    parseQsl (formQuery params) = params := by
  rw [formQuery, joinFields, parseQsl_intercalate]
  induction params with
  | nil => rfl
  | cons p params ih =>
    have hequals : '=' ∉ formEncode p.1 := not_mem_formEncode (by decide) (by decide) p.1
    have hname : '&' ∉ formEncode p.1 := not_mem_formEncode (by decide) (by decide) p.1
    have hvalue : '&' ∉ formEncode p.2 := not_mem_formEncode (by decide) (by decide) p.2
    have hfield : '&' ∉ fieldText (formEncode p.1, formEncode p.2) := by
      simp [fieldText, hname, hvalue]
    rw [List.map_cons, List.map_cons, List.flatMap_cons,
      parseQsl_of_separator (by simp [fieldText]) hfield, parseField_fieldText hequals,
      unquotePlus_formEncode, unquotePlus_formEncode, ih]
    rfl

example : formQuery [("days".toList, "60".toList), ("account".toList, "DU 1&é".toList)] =
    "days=60&account=DU+1%26%C3%A9".toList := by decide +kernel

end Web
