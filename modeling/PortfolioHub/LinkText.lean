import PortfolioHub.UrlQuery

namespace Web

/-- `escape(text)`. -/
def escapeChar (c : Char) : List Char :=
  if c = '&' then "&amp;".toList
  else if c = '>' then "&gt;".toList
  else if c = '<' then "&lt;".toList
  else if c = Char.ofNat 39 then "&#39;".toList
  else if c = Char.ofNat 34 then "&#34;".toList
  else [c]

def escapeMarkup (text : List Char) : List Char := text.flatMap escapeChar

/-- The character references of an escaped text. -/
def unescapeMarkup : List Char → List Char
  | '&' :: 'a' :: 'm' :: 'p' :: ';' :: rest => '&' :: unescapeMarkup rest
  | '&' :: 'g' :: 't' :: ';' :: rest => '>' :: unescapeMarkup rest
  | '&' :: 'l' :: 't' :: ';' :: rest => '<' :: unescapeMarkup rest
  | '&' :: '#' :: '3' :: '9' :: ';' :: rest => Char.ofNat 39 :: unescapeMarkup rest
  | '&' :: '#' :: '3' :: '4' :: ';' :: rest => Char.ofNat 34 :: unescapeMarkup rest
  | c :: rest => c :: unescapeMarkup rest
  | [] => []

theorem unescapeMarkup_cons {c : Char} (h : c ≠ '&') (rest : List Char) :
    unescapeMarkup (c :: rest) = c :: unescapeMarkup rest := by
  rw [unescapeMarkup]
  all_goals simp [h]

theorem unescapeMarkup_escapeMarkup (text : List Char) :
    unescapeMarkup (escapeMarkup text) = text := by
  induction text with
  | nil => rfl
  | cons c text ih =>
    rw [escapeMarkup, List.flatMap_cons, escapeChar]
    rw [escapeMarkup] at ih
    split
    next hc => simp [hc, unescapeMarkup, ih]
    next hamp =>
      repeat' split
      all_goals simp_all [unescapeMarkup, unescapeMarkup_cons]

/-- A NUL in a page is read as U+FFFD. -/
def readNul (c : Char) : Char := if c = Char.ofNat 0 then replacement else c

/-- The value of an attribute that is written as `text`. -/
def attributeValue (text : List Char) : List Char := (unescapeMarkup text).map readNul

/-- The C0 controls and the space, which no URL begins or ends with. -/
def isEdge (c : Char) : Bool := c.toNat ≤ 0x20

/-- Tabs and line ends, which are taken out of a URL. -/
def isBreak (c : Char) : Bool := c.toNat = 9 ∨ c.toNat = 10 ∨ c.toNat = 13

def cleanUrl (url : List Char) : List Char :=
  ((url.dropWhile isEdge).rdropWhile isEdge).filter fun c => !isBreak c

/-- What stands between the first `?` of a URL and its fragment. -/
def urlQuery (url : List Char) : List Char :=
  (((cleanUrl url).takeWhile (· ≠ '#')).dropWhile (· ≠ '?')).tail

/-- A text that a URL keeps wherever it stands. -/
def Solid (text : List Char) : Prop := ∀ c ∈ text, isEdge c = false ∧ c ≠ '#'

theorem solid_nil : Solid [] := by simp [Solid]

theorem Solid.cons {c : Char} {text : List Char} (hc : isEdge c = false ∧ c ≠ '#')
    (h : Solid text) : Solid (c :: text) := List.forall_mem_cons.mpr ⟨hc, h⟩

theorem Solid.append {xs ys : List Char} (hxs : Solid xs) (hys : Solid ys) : Solid (xs ++ ys) :=
  List.forall_mem_append.mpr ⟨hxs, hys⟩

theorem isBreak_of_isEdge {c : Char} (h : isEdge c = false) : isBreak c = false := by
  simp only [isEdge, isBreak, decide_eq_false_iff_not] at h ⊢
  omega

theorem ne_nul_of_isEdge {c : Char} (h : isEdge c = false) : c ≠ Char.ofNat 0 := by
  rintro rfl
  exact absurd h (by decide)

theorem map_readNul {text : List Char} (h : ∀ c ∈ text, c ≠ Char.ofNat 0) :
    text.map readNul = text := by
  have hread : ∀ c ∈ text, readNul c = c := fun c hc => if_neg (h c hc)
  rw [List.map_congr_left hread, List.map_id']

theorem plus_not_mem_map (text : List Char) : '+' ∉ text.map plusToSpace := by
  intro hmem
  obtain ⟨c, -, hc⟩ := List.mem_map.mp hmem
  unfold plusToSpace at hc
  split at hc
  next => exact absurd hc (by decide)
  next hne => exact hne hc

theorem nul_not_mem_map (text : List Char) :
    ∀ c ∈ (text.map readNul).map plusToSpace, c ≠ Char.ofNat 0 := by
  simp only [List.map_map, List.forall_mem_map, Function.comp_apply]
  intro c _
  unfold readNul plusToSpace
  split
  · decide
  · split
    · decide
    · assumption

theorem Solid.map_readNul {text : List Char} (h : Solid text) : text.map readNul = text :=
  Web.map_readNul fun c hc => ne_nul_of_isEdge (h c hc).1

theorem Solid.rdropWhile {text : List Char} (h : Solid text) : text.rdropWhile isEdge = text :=
  List.rdropWhile_eq_self_iff.mpr fun hne => by simp [(h _ (List.getLast_mem hne)).1]

theorem Solid.filter {text : List Char} (h : Solid text) :
    (text.filter fun c => !isBreak c) = text :=
  List.filter_eq_self.mpr fun c hc => by simp [isBreak_of_isEdge (h c hc).1]

/-- What is kept of the end of a URL. -/
def keptInside (text : List Char) : List Char :=
  (text.filter fun c => !isBreak c).takeWhile (· ≠ '#')

theorem keptInside_sublist (text : List Char) : (keptInside text).Sublist text :=
  (List.takeWhile_sublist _).trans List.filter_sublist

theorem keptInside_eq_self_iff {text : List Char} :
    keptInside text = text ↔ '#' ∉ text ∧ ∀ c ∈ text, isBreak c = false := by
  constructor
  · intro heq
    constructor
    · intro hmem
      rw [← heq] at hmem
      simpa using List.mem_takeWhile_imp hmem
    · intro c hc
      rw [← heq] at hc
      simpa using (List.mem_filter.mp ((List.takeWhile_sublist _).subset hc)).2
  · rintro ⟨hfragment, hbreak⟩
    have hfilter : (text.filter fun c => !isBreak c) = text :=
      List.filter_eq_self.mpr fun c hc => by simp [hbreak c hc]
    rw [keptInside, hfilter, List.takeWhile_eq_self_iff]
    intro c hc
    have hne : c ≠ '#' := fun hhash => hfragment (hhash ▸ hc)
    simpa using hne

theorem keptInside_append_of_solid {front : List Char} (h : Solid front) (rest : List Char) :
    keptInside (front ++ rest) = front ++ keptInside rest := by
  rw [keptInside, List.filter_append, h.filter, List.takeWhile_append_of_pos, keptInside]
  intro c hc
  simpa using (h c hc).2

/-- A fragment hides what follows it. -/
theorem keptInside_append_solid (text : List Char) {tail : List Char} (h : Solid tail) :
    keptInside (text ++ tail) = keptInside text ++ if '#' ∈ text then [] else tail := by
  have htail : tail.takeWhile (· ≠ '#') = tail :=
    List.takeWhile_eq_self_iff.mpr fun c hc => by simpa using (h c hc).2
  have hmem : (∀ c ∈ text.filter fun c => !isBreak c, c ≠ '#') ↔ '#' ∉ text := by
    constructor
    · exact fun hall hhash => hall '#' (List.mem_filter.mpr ⟨hhash, by decide⟩) rfl
    · exact fun hhash c hc hc' => hhash (hc' ▸ (List.mem_filter.mp hc).1)
  rw [keptInside, keptInside, List.filter_append, h.filter]
  by_cases hhash : '#' ∈ text
  · rw [if_pos hhash, List.append_nil, List.takeWhile_append, if_neg]
    intro hlength
    refine hmem.not.mpr (not_not.mpr hhash) fun c hc => ?_
    have hself := (List.takeWhile_prefix _).eq_of_length hlength
    simpa using List.takeWhile_eq_self_iff.mp hself c hc
  · have hall := hmem.mpr hhash
    rw [if_neg hhash, List.takeWhile_append_of_pos (by simpa using hall), htail,
      List.takeWhile_eq_self_iff.mpr (by simpa using hall)]

theorem rdropWhile_append_of_solid {front : List Char} (h : Solid front) (rest : List Char) :
    (front ++ rest).rdropWhile isEdge = front ++ rest.rdropWhile isEdge := by
  have hfront := h.rdropWhile
  simp only [List.rdropWhile, List.reverse_append, List.dropWhile_append] at hfront ⊢
  split
  next hempty => rw [hfront, List.isEmpty_iff.mp hempty, List.reverse_nil, List.append_nil]
  next => simp

/-- Nothing is cut off before a solid ending. -/
theorem rdropWhile_append_solid (text : List Char) {tail : List Char} (h : Solid tail)
    (hne : tail ≠ []) : (text ++ tail).rdropWhile isEdge = text ++ tail := by
  refine List.rdropWhile_eq_self_iff.mpr fun _ => ?_
  rw [List.getLast_append_of_ne_nil _ hne]
  simp [(h _ (List.getLast_mem hne)).1]

/-- The query of a URL whose beginning is solid. -/
theorem urlQuery_append {path front : List Char} (hpath : Solid path) (hne : path ≠ [])
    (hmark : '?' ∉ path) (hfront : Solid front) (rest : List Char) :
    urlQuery (path ++ '?' :: (front ++ rest)) =
      front ++ keptInside (rest.rdropWhile isEdge) := by
  have hsolid : Solid (path ++ '?' :: front) := hpath.append (Solid.cons (by decide) hfront)
  have hurl : path ++ '?' :: (front ++ rest) = (path ++ '?' :: front) ++ rest := by simp
  have hhead : (path ++ '?' :: (front ++ rest)).dropWhile isEdge =
      path ++ '?' :: (front ++ rest) := by
    obtain ⟨c, path, rfl⟩ := List.exists_cons_of_ne_nil hne
    rw [List.cons_append, List.dropWhile_cons, (hpath c List.mem_cons_self).1]
    rfl
  have hkept : (cleanUrl (path ++ '?' :: (front ++ rest))).takeWhile (· ≠ '#') =
      path ++ '?' :: (front ++ keptInside (rest.rdropWhile isEdge)) := by
    rw [cleanUrl, hhead, hurl, rdropWhile_append_of_solid hsolid]
    exact (keptInside_append_of_solid hsolid _).trans (by simp)
  rw [urlQuery, hkept, List.dropWhile_append_of_pos]
  · simp
  · intro c hc
    have hc' : c ≠ '?' := fun heq => hmark (heq ▸ hc)
    simpa using hc'

/-- The fields that stand before a field, and after it. -/
def fieldsBefore (params : List (List Char × List Char)) : List Char :=
  params.flatMap fun p => fieldText p ++ ['&']

def fieldsAfter (params : List (List Char × List Char)) : List Char :=
  params.flatMap fun p => '&' :: fieldText p

theorem fieldsAfter_ne_nil {params : List (List Char × List Char)} (h : params ≠ []) :
    fieldsAfter params ≠ [] := by
  obtain ⟨p, params, rfl⟩ := List.exists_cons_of_ne_nil h
  simp [fieldsAfter]

theorem joinFields_cons (p : List Char × List Char) (after : List (List Char × List Char)) :
    joinFields (p :: after) = fieldText p ++ fieldsAfter after := by
  induction after generalizing p with
  | nil => simp [joinFields, fieldsAfter]
  | cons q after ih =>
    have hrest := ih q
    simp only [joinFields, List.map_cons, fieldsAfter] at hrest ⊢
    rw [List.intercalate_cons_cons, hrest]
    simp

theorem joinFields_append (before : List (List Char × List Char)) (p : List Char × List Char)
    (after : List (List Char × List Char)) :
    joinFields (before ++ p :: after) = fieldsBefore before ++ (fieldText p ++ fieldsAfter after) := by
  induction before with
  | nil => exact joinFields_cons p after
  | cons q before ih =>
    rw [List.cons_append, joinFields_cons, fieldsBefore, List.flatMap_cons]
    have hnext : fieldsAfter (before ++ p :: after) =
        '&' :: joinFields (before ++ p :: after) := by
      cases before <;> simp [joinFields_cons, fieldsAfter]
    rw [hnext, ih, fieldsBefore]
    simp

/-- A name or a value that a link keeps as it stands. -/
structure Safe (text : List Char) : Prop extends Plain text where
  solid : Solid text

/-- A parameter that a link keeps as it stands. -/
structure SafeParam (param : List Char × List Char) : Prop where
  name : Safe param.1
  equals : '=' ∉ param.1
  value : Safe param.2

theorem escapeFree_of_not_mem {text : List Char} (h : '%' ∉ text) : EscapeFree text :=
  fun _ _ hinside => absurd (hinside.subset List.mem_cons_self) h

/-- A word of letters is safe. -/
theorem safe_of_isAlpha {text : List Char} (h : text.all Char.isAlpha = true) : Safe text := by
  have hmem : ∀ {c : Char}, c.isAlpha = false → c ∉ text := by
    intro c hc hin
    rw [List.all_eq_true] at h
    exact Bool.noConfusion ((h c hin).symm.trans hc)
  refine ⟨⟨hmem (by decide), hmem (by decide), escapeFree_of_not_mem (hmem (by decide))⟩, ?_⟩
  intro c hc
  have halpha := List.all_eq_true.mp h c hc
  have hedge : isEdge c = false := by
    by_contra hedge
    rw [Bool.not_eq_false, isEdge, decide_eq_true_eq] at hedge
    simp only [Char.isAlpha, Char.isUpper, Char.isLower, Bool.or_eq_true, Bool.and_eq_true,
      decide_eq_true_eq] at halpha
    have hval : c.val.toNat ≤ 0x20 := hedge
    have hupper : 'A'.val.toNat = 65 := rfl
    have hlower : 'a'.val.toNat = 97 := rfl
    simp only [UInt32.le_iff_toNat_le] at halpha
    omega
  exact ⟨hedge, fun hhash => hmem (by decide) (hhash ▸ hc)⟩

theorem SafeParam.solid {param : List Char × List Char} (h : SafeParam param) :
    Solid (fieldText param) :=
  h.name.solid.append (Solid.cons (by decide) h.value.solid)

theorem solid_fieldsBefore {params : List (List Char × List Char)}
    (h : ∀ p ∈ params, SafeParam p) : Solid (fieldsBefore params) := by
  intro c hc
  obtain ⟨p, hp, hc⟩ := List.mem_flatMap.mp hc
  exact ((h p hp).solid.append (Solid.cons (by decide) solid_nil)) c hc

theorem solid_fieldsAfter {params : List (List Char × List Char)}
    (h : ∀ p ∈ params, SafeParam p) : Solid (fieldsAfter params) := by
  intro c hc
  obtain ⟨p, hp, hc⟩ := List.mem_flatMap.mp hc
  exact Solid.cons (by decide) (h p hp).solid c hc

/-- A value that is read of a link as it was written there, at its end or before others. -/
structure Readable (last : Prop) (text : List Char) : Prop extends Plain text where
  fragment : '#' ∉ text
  controls : ∀ c ∈ text, c ≠ Char.ofNat 0 ∧ isBreak c = false
  ending : last → text.rdropWhile isEdge = text

theorem Safe.readable {text : List Char} (h : Safe text) (last : Prop) : Readable last text where
  toPlain := h.toPlain
  fragment := fun hmem => (h.solid _ hmem).2 rfl
  controls := fun c hc => ⟨ne_nul_of_isEdge (h.solid c hc).1, isBreak_of_isEdge (h.solid c hc).1⟩
  ending := fun _ => h.solid.rdropWhile

theorem Readable.mono {last last' : Prop} {text : List Char} (h : Readable last text)
    (himp : last' → last) : Readable last' text :=
  { h with ending := fun hlast => h.ending (himp hlast) }

/-- The path of a link, of which nothing is taken for a query. -/
structure LinkPath (path : List Char) : Prop where
  solid : Solid path
  ne_nil : path ≠ []
  mark : '?' ∉ path

/-- A link: its path, and its parameters if it has any. -/
def linkUrl (path : List Char) (params : List (List Char × List Char)) : List Char :=
  path ++ if params = [] then [] else '?' :: joinFields params

/-- The query of a link in a page, as the server receives it. -/
def linkQuery (path : List Char) (params : List (List Char × List Char)) : List Char :=
  urlQuery (attributeValue (escapeMarkup (linkUrl path params)))

theorem linkQuery_nil {path : List Char} (hpath : LinkPath path) : linkQuery path [] = [] := by
  have hkept : (cleanUrl path).takeWhile (· ≠ '#') = path := by
    have hhead : path.dropWhile isEdge = path := by
      obtain ⟨c, rest, rfl⟩ := List.exists_cons_of_ne_nil hpath.ne_nil
      rw [List.dropWhile_cons, (hpath.solid c List.mem_cons_self).1]
      rfl
    rw [cleanUrl, hhead, hpath.solid.rdropWhile, hpath.solid.filter, List.takeWhile_eq_self_iff]
    exact fun c hc => by simpa using (hpath.solid c hc).2
  have hnone : path.dropWhile (· ≠ '?') = [] := by
    rw [List.dropWhile_eq_nil_iff]
    intro c hc
    have hne : c ≠ '?' := fun hmark => hpath.mark (hmark ▸ hc)
    simpa using hne
  rw [linkQuery, linkUrl, if_pos rfl, List.append_nil, attributeValue, unescapeMarkup_escapeMarkup,
    hpath.solid.map_readNul, urlQuery, hkept, hnone]
  rfl

section
variable {path : List Char} {before after : List (List Char × List Char)} {name text : List Char}

theorem linkQuery_eq (hpath : LinkPath path) (hbefore : ∀ p ∈ before, SafeParam p)
    (hafter : ∀ p ∈ after, SafeParam p) (hname : Safe name) :
    linkQuery path (before ++ (name, text) :: after) =
      fieldsBefore before ++ (name ++ '=' ::
        keptInside ((text.map readNul ++ fieldsAfter after).rdropWhile isEdge)) := by
  have hfront : Solid (fieldsBefore before ++ (name ++ ['='])) :=
    (solid_fieldsBefore hbefore).append (hname.solid.append (Solid.cons (by decide) solid_nil))
  have hurl : (linkUrl path (before ++ (name, text) :: after)).map readNul =
      path ++ '?' :: ((fieldsBefore before ++ (name ++ ['='])) ++
        (text.map readNul ++ fieldsAfter after)) := by
    rw [linkUrl, if_neg (by simp), joinFields_append, fieldText]
    simp only [List.map_append, List.map_cons, hpath.solid.map_readNul,
      (solid_fieldsBefore hbefore).map_readNul, hname.solid.map_readNul,
      (solid_fieldsAfter hafter).map_readNul]
    have hmark : readNul '?' = '?' := if_neg (by decide)
    have hequals : readNul '=' = '=' := if_neg (by decide)
    simp [hmark, hequals]
  rw [linkQuery, attributeValue, unescapeMarkup_escapeMarkup, hurl,
    urlQuery_append hpath.solid hpath.ne_nil hpath.mark hfront]
  simp

/-- Of its own text a link keeps a part, all of it when it is readable; what follows is kept or
hidden. -/
theorem exists_linkQuery (text : List Char) (hpath : LinkPath path)
    (hbefore : ∀ p ∈ before, SafeParam p) (hafter : ∀ p ∈ after, SafeParam p)
    (hname : Safe name) :
    ∃ kept rest, linkQuery path (before ++ (name, text) :: after) =
        joinFields (before ++ (name, kept) :: rest) ∧
      kept.Sublist (text.map readNul) ∧ (∀ p ∈ rest, p ∈ after) ∧
      (kept = text.map readNul → '#' ∉ text.map readNul ∧
        (∀ c ∈ text.map readNul, isBreak c = false) ∧
        (after = [] → (text.map readNul).rdropWhile isEdge = text.map readNul)) := by
  rw [linkQuery_eq hpath hbefore hafter hname]
  generalize text.map readNul = page
  by_cases hlast : after = []
  · subst hlast
    refine ⟨keptInside (page.rdropWhile isEdge), [], ?_, ?_, by simp, fun heq => ?_⟩
    · rw [joinFields_append, fieldText]
      simp [fieldsAfter]
    · exact (keptInside_sublist _).trans (List.rdropWhile_prefix _ page).sublist
    · have hkept := keptInside_sublist (page.rdropWhile isEdge)
      rw [heq] at hkept
      have hend : page.rdropWhile isEdge = page :=
        (List.rdropWhile_prefix _ page).sublist.antisymm hkept
      rw [hend, keptInside_eq_self_iff] at heq
      exact ⟨heq.1, heq.2, fun _ => hend⟩
  · have hsolid := solid_fieldsAfter hafter
    rw [rdropWhile_append_solid page hsolid (fieldsAfter_ne_nil hlast),
      keptInside_append_solid page hsolid]
    refine ⟨keptInside page, if '#' ∈ page then [] else after, ?_, keptInside_sublist page, ?_, ?_⟩
    · rw [joinFields_append, fieldText]
      split <;> simp [fieldsAfter]
    · split <;> simp
    · intro heq
      obtain ⟨hfragment, hbreak⟩ := keptInside_eq_self_iff.mp heq
      exact ⟨hfragment, hbreak, fun hnone => absurd hnone hlast⟩

/-- A link with a readable value is read as it was written. -/
theorem linkQuery_of_readable (hpath : LinkPath path) (hbefore : ∀ p ∈ before, SafeParam p)
    (hafter : ∀ p ∈ after, SafeParam p) (hname : Safe name) (h : Readable (after = []) text) :
    linkQuery path (before ++ (name, text) :: after) =
      joinFields (before ++ (name, text) :: after) := by
  have hnul : text.map readNul = text := map_readNul fun c hc => (h.controls c hc).1
  have hinside : keptInside text = text :=
    keptInside_eq_self_iff.mpr ⟨h.fragment, fun c hc => (h.controls c hc).2⟩
  have hkept : keptInside ((text ++ fieldsAfter after).rdropWhile isEdge) =
      text ++ fieldsAfter after := by
    by_cases hlast : after = []
    · subst hlast
      simp only [fieldsAfter, List.flatMap_nil, List.append_nil]
      rw [h.ending rfl, hinside]
    · have hsolid := solid_fieldsAfter hafter
      rw [rdropWhile_append_solid text hsolid (fieldsAfter_ne_nil hlast),
        keptInside_append_solid text hsolid, hinside, if_neg h.fragment]
  rw [linkQuery_eq hpath hbefore hafter hname, hnul, hkept, joinFields_append, fieldText]
  simp

theorem SafeParam.plain {param : List Char × List Char} (h : SafeParam param) :
    (Plain param.1 ∧ '=' ∉ param.1) ∧ Plain param.2 := ⟨⟨h.name.toPlain, h.equals⟩, h.value.toPlain⟩

/-- A link with one readable value among safe parameters is received as it was written. -/
theorem parseQsl_linkQuery (hpath : LinkPath path) (hbefore : ∀ p ∈ before, SafeParam p)
    (hafter : ∀ p ∈ after, SafeParam p) (hname : Safe name) (hequals : '=' ∉ name)
    (h : Readable (after = []) text) :
    parseQsl (linkQuery path (before ++ (name, text) :: after)) =
      before ++ (name, text) :: after := by
  rw [linkQuery_of_readable hpath hbefore hafter hname h, parseQsl_joinFields]
  intro p hp
  rcases List.mem_append.mp hp with hp | hp
  · exact (hbefore p hp).plain
  · rcases List.mem_cons.mp hp with rfl | hp
    · exact ⟨⟨hname.toPlain, hequals⟩, h.toPlain⟩
    · exact (hafter p hp).plain

theorem parseQsl_linkQuery_cons (hpath : LinkPath path) (hafter : ∀ p ∈ after, SafeParam p)
    (hname : Safe name) (hequals : '=' ∉ name) (h : Readable (after = []) text) :
    parseQsl (linkQuery path ((name, text) :: after)) = (name, text) :: after := by
  have hnone : ∀ p ∈ ([] : List (List Char × List Char)), SafeParam p := by simp
  have hread := parseQsl_linkQuery hpath hnone hafter hname hequals h
  rwa [List.nil_append] at hread

theorem parseQsl_linkQuery_of_safe {params : List (List Char × List Char)} (hpath : LinkPath path)
    (h : ∀ p ∈ params, SafeParam p) : parseQsl (linkQuery path params) = params := by
  cases params with
  | nil => rw [linkQuery_nil hpath, parseQsl_nil]
  | cons p params =>
    have hp := h p List.mem_cons_self
    exact parseQsl_linkQuery_cons hpath (fun q hq => h q (List.mem_cons_of_mem _ hq)) hp.name
      hp.equals (hp.value.readable (params = []))

/-- A value that the server receives as it was written is readable: whatever else is done to it
makes it shorter, and a shorter text is not decoded to a longer one. -/
theorem readable_of_queryParam (hpath : LinkPath path) (hbefore : ∀ p ∈ before, SafeParam p)
    (hafter : ∀ p ∈ after, SafeParam p) (hother : ∀ p ∈ before ++ after, p.1 ≠ name)
    (hname : Safe name) (hequals : '=' ∉ name)
    (h : queryParam (linkQuery path (before ++ (name, text) :: after)) name = some text) :
    Readable (after = []) text := by
  obtain ⟨kept, rest, hquery, hsub, hrest, hwhole⟩ :=
    exists_linkQuery text hpath hbefore hafter hname
  rw [hquery] at h
  have hothers : ∀ p ∈ before ++ rest, ((Plain p.1 ∧ '=' ∉ p.1) ∧ Plain p.2) ∧ p.1 ≠ name := by
    intro p hp
    rcases List.mem_append.mp hp with hp | hp
    · exact ⟨(hbefore p hp).plain, hother p (List.mem_append_left _ hp)⟩
    · exact ⟨(hafter p (hrest p hp)).plain, hother p (List.mem_append_right _ (hrest p hp))⟩
  have hlength : kept.length ≤ text.length := by simpa using hsub.length_le
  rcases queryParam_joinFields hname.toPlain hequals hothers h with ⟨hsep, hvalue⟩ | hlt
  swap
  · omega
  -- nothing was cut off, and nothing decoded
  have hdecoded : text.length ≤ kept.length := by
    rw [hvalue]
    exact length_unquotePlus_le kept
  have hkept : kept = text.map readNul := hsub.eq_of_length (by simp; omega)
  obtain ⟨hfragment, hbreak, hending⟩ := hwhole hkept
  rw [unquotePlus] at hvalue
  rcases unquote_eq_or_shorter (kept.map plusToSpace) with ⟨hsame, hfree⟩ | hshorter
  swap
  · rw [← hvalue, List.length_map] at hshorter
    omega
  rw [hsame] at hvalue
  have hplus : '+' ∉ text := by
    rw [hvalue]
    exact plus_not_mem_map kept
  have hnul : ∀ c ∈ text, c ≠ Char.ofNat 0 := by
    rw [hvalue, hkept]
    exact nul_not_mem_map text
  have hpage : text.map readNul = text := map_readNul hnul
  rw [hpage] at hkept hfragment hbreak hending
  subst hkept
  rw [← hvalue] at hfree
  exact ⟨⟨hsep, hplus, hfree⟩, hfragment, fun c hc => ⟨hnul c hc, hbreak c hc⟩, hending⟩

end

end Web
