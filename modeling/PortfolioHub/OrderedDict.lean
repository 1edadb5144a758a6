import Mathlib

universe u v

/-- A dictionary in insertion order: overwriting a key keeps its place, a new
key goes to the end. -/
structure OrderedDict (κ : Type u) (α : Type v) where
  entries : List (κ × α)
  nodup : (entries.map Prod.fst).Nodup
deriving DecidableEq, Repr

namespace OrderedDict

variable {κ : Type u} {α : Type v}

def empty : OrderedDict κ α := ⟨[], by simp⟩

def keys (d : OrderedDict κ α) : List κ := d.entries.map Prod.fst

def values (d : OrderedDict κ α) : List α := d.entries.map Prod.snd

/-- The dictionary of the entries whose key passes `keep`. -/
def filterKeys (d : OrderedDict κ α) (keep : κ → Bool) : OrderedDict κ α where
  entries := d.entries.filter fun e => keep e.1
  nodup := d.nodup.sublist (List.filter_sublist.map _)

/-- The same keys with every value mapped. -/
def mapValues {β : Type*} (d : OrderedDict κ α) (f : α → β) : OrderedDict κ β where
  entries := d.entries.map fun e => (e.1, f e.2)
  nodup := by simpa [List.map_map, Function.comp_def] using d.nodup

theorem length_values (d : OrderedDict κ α) : d.values.length = d.keys.length := by
  simp [values, keys]

variable [DecidableEq κ]

def get? (d : OrderedDict κ α) (k : κ) : Option α := d.entries.lookup k

def upsert (k : κ) (v : α) : List (κ × α) → List (κ × α)
  | [] => [(k, v)]
  | e :: es => if e.1 = k then (e.1, v) :: es else e :: upsert k v es

theorem keys_upsert (k : κ) (v : α) (es : List (κ × α)) :
    (upsert k v es).map Prod.fst =
      if k ∈ es.map Prod.fst then es.map Prod.fst else es.map Prod.fst ++ [k] := by
  induction es with
  | nil => simp [upsert]
  | cons e es ih =>
    by_cases he : e.1 = k
    · simp [upsert, he]
    · simp only [upsert, if_neg he, List.map_cons, ih, List.mem_cons, Ne.symm he, false_or]
      split <;> simp

/-- A new key goes to the end. -/
theorem upsert_of_notMem {k : κ} {v : α} {es : List (κ × α)}
    (h : k ∉ es.map Prod.fst) : upsert k v es = es ++ [(k, v)] := by
  induction es with
  | nil => rfl
  | cons e es ih =>
    rw [List.map_cons, List.mem_cons, not_or] at h
    rw [upsert, if_neg (Ne.symm h.1), ih h.2, List.cons_append]

theorem nodup_upsert (k : κ) (v : α) {es : List (κ × α)} (h : (es.map Prod.fst).Nodup) :
    ((upsert k v es).map Prod.fst).Nodup := by
  rw [keys_upsert]
  split
  next => exact h
  next hk => exact List.nodup_append.mpr ⟨h, by simp, by
    intro a ha b hb
    have hbk : b = k := by simpa using hb
    rintro rfl
    exact hk (hbk ▸ ha)⟩

/-- `d[k] = v`. -/
def insert (d : OrderedDict κ α) (k : κ) (v : α) : OrderedDict κ α :=
  ⟨upsert k v d.entries, nodup_upsert k v d.nodup⟩

/-- `d.update(es)`: the pairs are written left to right. -/
def update (d : OrderedDict κ α) (es : List (κ × α)) : OrderedDict κ α :=
  es.foldl (fun d e => d.insert e.1 e.2) d

/-- The dict comprehension over `es`: the last pair of a key wins. -/
def ofList (es : List (κ × α)) : OrderedDict κ α := empty.update es

@[simp] theorem get?_empty (k : κ) : (empty : OrderedDict κ α).get? k = none := rfl

theorem lookup_cons_eq (e : κ × α) (es : List (κ × α)) (j : κ) :
    (e :: es).lookup j = if j = e.1 then some e.2 else es.lookup j := by
  obtain ⟨k, v⟩ := e
  by_cases hj : j = k
  · simp [hj]
  · simp [List.lookup_cons, hj, beq_eq_false_iff_ne.mpr hj]

theorem lookup_upsert (k j : κ) (v : α) (es : List (κ × α)) :
    (upsert k v es).lookup j = if j = k then some v else es.lookup j := by
  induction es with
  | nil => simp [upsert, lookup_cons_eq]
  | cons e es ih =>
    by_cases he : e.1 = k
    · have hup : upsert k v (e :: es) = (e.1, v) :: es := if_pos he
      rw [hup, lookup_cons_eq, lookup_cons_eq, he]
      by_cases hj : j = k
      · simp [hj]
      · simp [hj]
    · have hup : upsert k v (e :: es) = e :: upsert k v es := if_neg he
      rw [hup, lookup_cons_eq, lookup_cons_eq, ih]
      by_cases hje : j = e.1
      · simp [hje, he]
      · simp [hje]

theorem get?_insert (d : OrderedDict κ α) (k j : κ) (v : α) :
    (d.insert k v).get? j = if j = k then some v else d.get? j :=
  lookup_upsert k j v d.entries

@[simp] theorem get?_insert_self (d : OrderedDict κ α) (k : κ) (v : α) :
    (d.insert k v).get? k = some v := by simp [get?_insert]

theorem get?_insert_of_ne (d : OrderedDict κ α) {k j : κ} (v : α) (h : j ≠ k) :
    (d.insert k v).get? j = d.get? j := by simp [get?_insert, h]

theorem lookup_eq_some_iff_mem {es : List (κ × α)} (h : (es.map Prod.fst).Nodup) {k : κ} {v : α} :
    es.lookup k = some v ↔ (k, v) ∈ es := by
  induction es with
  | nil => simp
  | cons e es ih =>
    have hn := List.nodup_cons.mp h
    rw [lookup_cons_eq, List.mem_cons]
    by_cases hk : k = e.1
    · subst hk
      have hnot : (e.1, v) ∉ es := fun hm => hn.1 (List.mem_map.mpr ⟨_, hm, rfl⟩)
      simp [hnot, Prod.ext_iff, eq_comm]
    · simp [hk, Prod.ext_iff, ih hn.2]

theorem get?_eq_some_iff {d : OrderedDict κ α} {k : κ} {v : α} :
    d.get? k = some v ↔ (k, v) ∈ d.entries :=
  lookup_eq_some_iff_mem d.nodup

theorem mem_values_iff {d : OrderedDict κ α} {v : α} : v ∈ d.values ↔ ∃ k, d.get? k = some v := by
  simp [values, get?_eq_some_iff]

theorem mem_keys_iff {d : OrderedDict κ α} {k : κ} : k ∈ d.keys ↔ ∃ v, d.get? k = some v := by
  simp [keys, get?_eq_some_iff]

theorem get?_eq_none_iff {d : OrderedDict κ α} {k : κ} : d.get? k = none ↔ k ∉ d.keys := by
  rw [mem_keys_iff, Option.eq_none_iff_forall_ne_some, not_exists]

theorem get?_filterKeys (d : OrderedDict κ α) (keep : κ → Bool) (k : κ) :
    (d.filterKeys keep).get? k = if keep k then d.get? k else none := by
  ext v
  rw [get?_eq_some_iff]
  by_cases hk : keep k = true
  · simp [filterKeys, hk, get?_eq_some_iff]
  · simp [filterKeys, hk]

theorem get?_mapValues {β : Type*} (d : OrderedDict κ α) (f : α → β) (k : κ) :
    (d.mapValues f).get? k = (d.get? k).map f := by
  obtain ⟨es, hn⟩ := d
  induction es with
  | nil => rfl
  | cons e es ih =>
    have ih' : (es.map fun e => (e.1, f e.2)).lookup k = (es.lookup k).map f :=
      ih (List.nodup_cons.mp hn).2
    simp only [get?, mapValues, List.map_cons, lookup_cons_eq, ih']
    split <;> rfl

/-- An update reads the last pair of the key, and the old entry where it has none. -/
theorem get?_update (d : OrderedDict κ α) (es : List (κ × α)) (k : κ) :
    (d.update es).get? k = (es.reverse.lookup k).or (d.get? k) := by
  induction es generalizing d with
  | nil => simp [update]
  | cons e es ih =>
    have hstep : d.update (e :: es) = (d.insert e.1 e.2).update es := rfl
    rw [hstep, ih, List.reverse_cons, List.lookup_append, get?_insert, lookup_cons_eq]
    by_cases hk : k = e.1
    · simp [hk]
    · simp [hk]

theorem mem_of_lookup {es : List (κ × α)} {k : κ} {v : α} (h : es.lookup k = some v) :
    (k, v) ∈ es := by
  induction es with
  | nil => simp at h
  | cons e es ih =>
    rw [lookup_cons_eq] at h
    split at h
    next he =>
      obtain rfl : e.2 = v := by simpa using h
      simp [he]
    next => exact List.mem_cons_of_mem _ (ih h)

theorem lookup_isSome_iff {es : List (κ × α)} {k : κ} :
    (es.lookup k).isSome ↔ k ∈ es.map Prod.fst := by
  induction es with
  | nil => simp
  | cons e es ih =>
    rw [lookup_cons_eq, List.map_cons, List.mem_cons]
    by_cases hk : k = e.1
    · simp [hk]
    · simp [hk, ih]

/-- The entries of a dictionary have one pair a key, so their order does not matter. -/
theorem lookup_reverse_entries (d : OrderedDict κ α) (k : κ) :
    d.entries.reverse.lookup k = d.get? k := by
  have hn : (d.entries.reverse.map Prod.fst).Nodup := by
    rw [List.map_reverse]
    exact List.nodup_reverse.mpr d.nodup
  ext v
  rw [lookup_eq_some_iff_mem hn, List.mem_reverse, get?_eq_some_iff]

theorem get?_ofList (es : List (κ × α)) (k : κ) : (ofList es).get? k = es.reverse.lookup k := by
  simp [ofList, get?_update]

theorem map_upsert {β : Type*} (f : α → β) (k : κ) (v : α) (es : List (κ × α)) :
    (upsert k v es).map (fun e => (e.1, f e.2)) =
      upsert k (f v) (es.map fun e => (e.1, f e.2)) := by
  induction es with
  | nil => rfl
  | cons e es ih =>
    by_cases he : e.1 = k
    · simp [upsert, he]
    · simp [upsert, he, ih]

theorem mapValues_insert {β : Type*} (d : OrderedDict κ α) (f : α → β) (k : κ) (v : α) :
    (d.insert k v).mapValues f = (d.mapValues f).insert k (f v) := by
  have hentries := map_upsert f k v d.entries
  simpa [insert, mapValues] using hentries

theorem mapValues_update {β : Type*} (d : OrderedDict κ α) (f : α → β) (es : List (κ × α)) :
    (d.update es).mapValues f = (d.mapValues f).update (es.map fun e => (e.1, f e.2)) := by
  induction es generalizing d with
  | nil => rfl
  | cons e es ih =>
    have hrest := ih (d.insert e.1 e.2)
    rw [mapValues_insert] at hrest
    exact hrest

/-- Of the elements indexed under their key, the first of a key is found. -/
theorem lookup_indexed (key : α → κ) (as : List α) (k : κ) :
    (as.map fun a => (key a, a)).lookup k = as.find? fun a => key a = k := by
  induction as with
  | nil => rfl
  | cons a as ih =>
    rw [List.map_cons, lookup_cons_eq, ih]
    by_cases hk : key a = k
    · simp [hk]
    · simp [hk, Ne.symm hk]

/-- The last pair of a key is the one no later pair of the key follows. -/
theorem lookup_reverse_eq_some_iff {es : List (κ × α)} {k : κ} {v : α} :
    es.reverse.lookup k = some v ↔
      ∃ before after, es = before ++ (k, v) :: after ∧ k ∉ after.map Prod.fst := by
  induction es with
  | nil => simp
  | cons e es ih =>
    have hnone : es.reverse.lookup k = none ↔ k ∉ es.map Prod.fst := by
      rw [← Option.not_isSome_iff_eq_none, lookup_isSome_iff, List.map_reverse, List.mem_reverse]
    rw [List.reverse_cons, List.lookup_append, Option.or_eq_some_iff, ih, hnone, lookup_cons_eq]
    constructor
    · rintro (⟨before, after, rfl, hlast⟩ | ⟨hlast, hhead⟩)
      · exact ⟨e :: before, after, rfl, hlast⟩
      · split at hhead
        next hk =>
          obtain rfl : e.2 = v := by simpa using hhead
          exact ⟨[], es, by rw [hk]; rfl, hlast⟩
        next => simp at hhead
    · rintro ⟨before, after, heq, hlast⟩
      cases before with
      | nil =>
        obtain ⟨rfl, rfl⟩ := List.cons.inj heq
        exact Or.inr ⟨hlast, by simp⟩
      | cons e' before =>
        obtain ⟨rfl, rfl⟩ := List.cons.inj heq
        exact Or.inl ⟨before, after, rfl, hlast⟩

theorem mem_values_ofList_iff {es : List (κ × α)} {v : α} :
    v ∈ (ofList es).values ↔
      ∃ k before after, es = before ++ (k, v) :: after ∧ k ∉ after.map Prod.fst := by
  simp only [mem_values_iff, get?_ofList, lookup_reverse_eq_some_iff]

/-- Of the elements that map, the dictionary under their keys keeps the last of each key. -/
theorem mem_values_ofList_filterMap_iff {β : Type*} {f : β → Option α} {key : α → κ} {bs : List β}
    {v : α} :
    v ∈ (ofList ((bs.filterMap f).map fun a => (key a, a))).values ↔
      ∃ before b after, bs = before ++ b :: after ∧ f b = some v ∧
        ∀ later ∈ after, ∀ a, f later = some a → key a ≠ key v := by
  rw [mem_values_ofList_iff]
  constructor
  · rintro ⟨k, before, after, heq, hlast⟩
    obtain ⟨before', tail, hsplit, -, htail⟩ := List.map_eq_append_iff.mp heq
    obtain ⟨a, after', rfl, hhead, rfl⟩ := List.map_eq_cons_iff.mp htail
    obtain ⟨rfl, rfl⟩ := Prod.mk.inj hhead
    obtain ⟨bs₁, bs₂, rfl, -, hbs₂⟩ := List.filterMap_eq_append_iff.mp hsplit
    obtain ⟨bs₃, b, bs₄, rfl, -, hb, rfl⟩ := List.filterMap_eq_cons_iff.mp hbs₂
    refine ⟨bs₁ ++ bs₃, b, bs₄, by simp, hb, fun later hlater a' ha' hkey => hlast ?_⟩
    exact List.mem_map.mpr ⟨(key a', a'), List.mem_map.mpr
      ⟨a', List.mem_filterMap.mpr ⟨later, hlater, ha'⟩, rfl⟩, hkey⟩
  · rintro ⟨before, b, after, rfl, hb, hlast⟩
    refine ⟨key v, (before.filterMap f).map fun a => (key a, a),
      (after.filterMap f).map fun a => (key a, a), by simp [List.filterMap_append, hb], fun hmem => ?_⟩
    obtain ⟨e, he, hkey⟩ := List.mem_map.mp hmem
    obtain ⟨a, ha, rfl⟩ := List.mem_map.mp he
    obtain ⟨later, hlater, hf⟩ := List.mem_filterMap.mp ha
    exact hlast later hlater a hf hkey

/-- Dictionary equality `==`: the same entries, in any order. -/
def Same (d e : OrderedDict κ α) : Prop := ∀ k, d.get? k = e.get? k

theorem Same.refl (d : OrderedDict κ α) : Same d d := fun _ => rfl

theorem Same.symm {d e : OrderedDict κ α} (h : Same d e) : Same e d := fun k => (h k).symm

theorem Same.trans {d e f : OrderedDict κ α} (h : Same d e) (h' : Same e f) : Same d f :=
  fun k => (h k).trans (h' k)

theorem Same.mem_keys_iff {d e : OrderedDict κ α} (h : Same d e) (k : κ) :
    k ∈ d.keys ↔ k ∈ e.keys := by
  rw [OrderedDict.mem_keys_iff, OrderedDict.mem_keys_iff, h k]

theorem Same.length_keys {d e : OrderedDict κ α} (h : Same d e) :
    d.keys.length = e.keys.length :=
  ((List.perm_ext_iff_of_nodup d.nodup e.nodup).mpr h.mem_keys_iff).length_eq

theorem same_iff_on_keys {d e : OrderedDict κ α} :
    Same d e ↔ ∀ k ∈ d.keys ++ e.keys, d.get? k = e.get? k := by
  constructor
  · exact fun h k _ => h k
  · intro h k
    by_cases hk : k ∈ d.keys ++ e.keys
    · exact h k hk
    · have hd : k ∉ d.keys := fun hd => hk (List.mem_append_left _ hd)
      have he : k ∉ e.keys := fun he => hk (List.mem_append_right _ he)
      rw [get?_eq_none_iff.mpr hd, get?_eq_none_iff.mpr he]

instance [DecidableEq α] (d e : OrderedDict κ α) : Decidable (Same d e) :=
  decidable_of_iff _ same_iff_on_keys.symm

/-- The weights of the values, added up. -/
def total (d : OrderedDict κ α) (weight : α → ℕ) : ℕ := (d.values.map weight).sum

theorem sum_upsert (weight : α → ℕ) (k : κ) (v : α) (es : List (κ × α)) :
    ((upsert k v es).map fun e => weight e.2).sum + ((es.lookup k).map weight).getD 0 =
      (es.map fun e => weight e.2).sum + weight v := by
  induction es with
  | nil => simp [upsert]
  | cons e es ih =>
    rw [upsert, lookup_cons_eq]
    by_cases hk : e.1 = k
    · simp [hk]
      omega
    · simp [hk, Ne.symm hk]
      omega

theorem total_insert (d : OrderedDict κ α) (weight : α → ℕ) (k : κ) (v : α) :
    (d.insert k v).total weight + ((d.get? k).map weight).getD 0 = d.total weight + weight v := by
  unfold total values
  simp only [List.map_map]
  exact sum_upsert weight k v d.entries

theorem sum_filter_ne (weight : α → ℕ) (k : κ) {es : List (κ × α)}
    (h : (es.map Prod.fst).Nodup) :
    ((es.filter fun e => e.1 ≠ k).map fun e => weight e.2).sum +
        ((es.lookup k).map weight).getD 0 = (es.map fun e => weight e.2).sum := by
  induction es with
  | nil => simp
  | cons e es ih =>
    obtain ⟨hnotMem, hnodup⟩ := List.nodup_cons.mp h
    rw [lookup_cons_eq]
    by_cases hk : e.1 = k
    · have hrest : es.filter (fun e => !decide (e.1 = k)) = es := by
        refine List.filter_eq_self.mpr fun e' he' => ?_
        have hne : e'.1 ≠ k := fun heq =>
          hnotMem (hk.trans heq.symm ▸ List.mem_map_of_mem he')
        simpa using hne
      simp [hk, hrest]
      omega
    · have ih' := ih hnodup
      simp [hk, Ne.symm hk] at ih' ⊢
      omega

theorem total_filterKeys_ne (d : OrderedDict κ α) (weight : α → ℕ) (k : κ) :
    (d.filterKeys (· ≠ k)).total weight + ((d.get? k).map weight).getD 0 = d.total weight := by
  unfold total values
  simp only [List.map_map]
  exact sum_filter_ne weight k d.nodup

end OrderedDict
