import PortfolioHub.UrlQuoting

namespace Web

/-- `name, value = field.split("=", 1)`; the value of a name alone is empty. -/
def parseField (field : List Char) : List Char × List Char :=
  match Python.splitFirst '=' field with
  | some (name, value) => (unquotePlus name, unquotePlus value)
  | none => (unquotePlus field, [])

/-- `parse_qsl(query, keep_blank_values=True)`. -/
def parseQsl (query : List Char) : List (List Char × List Char) :=
  ((query.splitOn '&').filter (· ≠ [])).map parseField

/-- The last value of a name. -/
def queryParam (query name : List Char) : Option (List Char) :=
  (parseQsl query).reverse.lookup name

def fieldText (param : List Char × List Char) : List Char := param.1 ++ '=' :: param.2

/-- The parameters as they stand, with `&` between them. -/
def joinFields (params : List (List Char × List Char)) : List Char :=
  ['&'].intercalate (params.map fieldText)

/-- A text that stands for itself in a query. -/
structure Plain (text : List Char) : Prop where
  separator : '&' ∉ text
  plus : '+' ∉ text
  escape : EscapeFree text

theorem Plain.unquotePlus {text : List Char} (h : Plain text) : unquotePlus text = text :=
  unquotePlus_of_plain h.plus h.escape

theorem parseQsl_nil : parseQsl [] = [] := by
  simp [parseQsl]

theorem parseQsl_append (before after : List Char) :
    parseQsl (before ++ '&' :: after) = parseQsl before ++ parseQsl after := by
  simp only [parseQsl, List.splitOn_append_cons_self, List.filter_append, List.map_append]

/-- A query is read field by field. -/
theorem parseQsl_intercalate (fields : List (List Char)) :
    parseQsl (['&'].intercalate fields) = fields.flatMap parseQsl := by
  induction fields with
  | nil => exact parseQsl_nil
  | cons field fields ih =>
    cases fields with
    | nil => simp
    | cons next rest =>
      rw [List.intercalate_cons_cons, List.append_assoc, List.singleton_append, parseQsl_append, ih]
      rfl

theorem parseQsl_of_separator {field : List Char} (hne : field ≠ []) (h : '&' ∉ field) :
    parseQsl field = [parseField field] := by
  simp [parseQsl, List.splitOn_eq_singleton h, hne]

theorem parseField_fieldText {name : List Char} (hname : '=' ∉ name) (value : List Char) :
    parseField (fieldText (name, value)) = (unquotePlus name, unquotePlus value) := by
  have hsplit : Python.splitFirst '=' (fieldText (name, value)) = some (name, value) :=
    Python.splitFirst_eq_some.mpr ⟨rfl, hname⟩
  rw [parseField, hsplit]

theorem parseQsl_fieldText {name : List Char} (hplain : Plain name) (hname : '=' ∉ name)
    {value : List Char} (hvalue : '&' ∉ value) :
    parseQsl (fieldText (name, value)) = [(name, unquotePlus value)] := by
  have hfield : '&' ∉ fieldText (name, value) := by
    simp [fieldText, hplain.separator, hvalue]
  rw [parseQsl_of_separator (by simp [fieldText]) hfield, parseField_fieldText hname,
    hplain.unquotePlus]

theorem length_parseField_le (field : List Char) : (parseField field).2.length ≤ field.length := by
  unfold parseField
  split
  next name value hsplit =>
    obtain ⟨rfl, -⟩ := Python.splitFirst_eq_some.mp hsplit
    have hvalue := length_unquotePlus_le value
    simp only [List.length_append, List.length_cons]
    omega
  next => simp

/-- A value is not longer than the query it is read from. -/
theorem length_le_of_mem_parseQsl {query name value : List Char}
    (h : (name, value) ∈ parseQsl query) : value.length ≤ query.length := by
  induction hlength : query.length using Nat.strong_induction_on generalizing query with
  | _ n ih =>
    by_cases hsep : '&' ∈ query
    · obtain ⟨before, after, rfl, -⟩ := List.eq_append_cons_of_mem hsep
      rw [parseQsl_append, List.mem_append] at h
      simp only [List.length_append, List.length_cons] at hlength
      rcases h with h | h
      · have := ih before.length (by omega) h rfl
        omega
      · have := ih after.length (by omega) h rfl
        omega
    · by_cases hempty : query = []
      · simp [hempty, parseQsl_nil] at h
      · rw [parseQsl_of_separator hempty hsep, List.mem_singleton] at h
        have hfield := length_parseField_le query
        rw [← h] at hfield
        exact hfield.trans hlength.le

/-- What is read of a field: its value, or something shorter when a `&` cuts it. -/
theorem value_of_mem_parseQsl {name : List Char} (hplain : Plain name) (hname : '=' ∉ name)
    {text read value : List Char} (h : (read, value) ∈ parseQsl (fieldText (name, text))) :
    '&' ∉ text ∧ value = unquotePlus text ∨ value.length < text.length := by
  by_cases hsep : '&' ∈ text
  · right
    obtain ⟨before, after, rfl, hbefore⟩ := List.eq_append_cons_of_mem hsep
    have hfield : fieldText (name, before ++ '&' :: after) =
        fieldText (name, before) ++ '&' :: after := by simp [fieldText]
    rw [hfield, parseQsl_append, parseQsl_fieldText hplain hname hbefore, List.mem_append,
      List.mem_singleton] at h
    rw [List.length_append, List.length_cons]
    rcases h with h | h
    · obtain ⟨rfl, rfl⟩ := Prod.mk.inj h
      have hvalue := length_unquotePlus_le before
      omega
    · have hvalue := length_le_of_mem_parseQsl h
      omega
  · left
    rw [parseQsl_fieldText hplain hname hsep, List.mem_singleton] at h
    exact ⟨hsep, (Prod.mk.inj h).2⟩

/-- Plain parameters are read back as they are. -/
theorem parseQsl_joinFields {params : List (List Char × List Char)}
    (h : ∀ p ∈ params, (Plain p.1 ∧ '=' ∉ p.1) ∧ Plain p.2) :
    parseQsl (joinFields params) = params := by
  rw [joinFields, parseQsl_intercalate]
  induction params with
  | nil => rfl
  | cons p params ih =>
    obtain ⟨⟨hplain, hname⟩, hvalue⟩ := h p List.mem_cons_self
    rw [List.map_cons, List.flatMap_cons, parseQsl_fieldText hplain hname hvalue.separator,
      hvalue.unquotePlus, ih fun q hq => h q (List.mem_cons_of_mem _ hq)]
    rfl

theorem mem_of_lookup {α β : Type*} [BEq α] [LawfulBEq α] {pairs : List (α × β)} {key : α}
    {value : β} (h : pairs.lookup key = some value) : (key, value) ∈ pairs := by
  obtain ⟨before, after, rfl, -⟩ := List.lookup_eq_some_iff.mp h
  simp

/-- One field among plain ones of other names: what is read for its name is its value, or
something shorter. -/
theorem queryParam_joinFields {before after : List (List Char × List Char)} {name text : List Char}
    (hplain : Plain name) (hname : '=' ∉ name)
    (hother : ∀ p ∈ before ++ after, ((Plain p.1 ∧ '=' ∉ p.1) ∧ Plain p.2) ∧ p.1 ≠ name)
    {value : List Char}
    (h : queryParam (joinFields (before ++ (name, text) :: after)) name = some value) :
    '&' ∉ text ∧ value = unquotePlus text ∨ value.length < text.length := by
  have hmem := List.mem_reverse.mp (mem_of_lookup h)
  rw [joinFields, parseQsl_intercalate, List.mem_flatMap] at hmem
  obtain ⟨field, hfield, hmem⟩ := hmem
  obtain ⟨param, hparam, rfl⟩ := List.mem_map.mp hfield
  have hcases : param = (name, text) ∨ param ∈ before ++ after := by
    simp only [List.mem_append, List.mem_cons] at hparam ⊢
    tauto
  rcases hcases with rfl | hparam
  · exact value_of_mem_parseQsl hplain hname hmem
  · obtain ⟨⟨⟨hread, hequals⟩, hvalue⟩, hne⟩ := hother param hparam
    rw [parseQsl_fieldText hread hequals hvalue.separator, List.mem_singleton] at hmem
    exact absurd (Prod.mk.inj hmem).1.symm hne

end Web
