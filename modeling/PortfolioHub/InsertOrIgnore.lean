import PortfolioHub.OrderedDict

universe u v

namespace OrderedDict

variable {κ : Type u} {α : Type v} [DecidableEq κ]

/-- A row under its primary key: a key that is there keeps its row, and a row that is not
accepted is skipped. The flag says whether the row was written. -/
def insertOrIgnore (d : OrderedDict κ α) (accepted : Prop) [Decidable accepted] (k : κ) (v : α) :
    OrderedDict κ α × Bool :=
  if accepted ∧ k ∉ d.keys then (d.insert k v, true) else (d, false)

variable (d : OrderedDict κ α) (accepted : Prop) [Decidable accepted]

theorem get?_insertOrIgnore (k : κ) (v : α) (j : κ) :
    (d.insertOrIgnore accepted k v).1.get? j =
      (d.get? j).or (if accepted ∧ k = j then some v else none) := by
  unfold insertOrIgnore
  by_cases hs : accepted
  · by_cases hmem : k ∈ d.keys
    · obtain ⟨old, hold⟩ := mem_keys_iff.mp hmem
      by_cases hk : k = j
      · subst hk
        simp [hs, hmem, hold]
      · simp [hmem, hk]
    · have hnone := get?_eq_none_iff.mpr hmem
      rw [if_pos ⟨hs, hmem⟩, get?_insert]
      by_cases hk : j = k
      · simp [hk, hs, hnone]
      · simp [hk, Ne.symm hk]
  · simp [hs]

theorem mem_keys_insertOrIgnore (k : κ) (v : α) {j : κ} :
    j ∈ (d.insertOrIgnore accepted k v).1.keys ↔ j ∈ d.keys ∨ accepted ∧ j = k := by
  rw [mem_keys_iff, mem_keys_iff, get?_insertOrIgnore]
  cases hj : d.get? j with
  | some old => simp
  | none =>
    by_cases hk : accepted ∧ k = j
    · simp [hk.1, hk.2]
    · rw [if_neg hk]
      simp only [Option.or_none, reduceCtorEq, exists_false, false_or, false_iff]
      rintro ⟨haccepted, rfl⟩
      exact hk ⟨haccepted, rfl⟩

/-- The table grows by one row just when the flag says so. -/
theorem length_keys_insertOrIgnore (k : κ) (v : α) :
    (d.insertOrIgnore accepted k v).1.keys.length =
      d.keys.length + if (d.insertOrIgnore accepted k v).2 then 1 else 0 := by
  unfold insertOrIgnore
  split
  next h =>
    have hkeys := (keys_upsert k v d.entries).trans (if_neg h.2)
    have hlength := congrArg List.length hkeys
    rwa [List.length_append] at hlength
  next => rfl

/-- A table that holds the entries of some rows gets that of a further row where its key is new. -/
theorem entries_insertOrIgnore {β : Type*} {d : OrderedDict κ α} {rows : List β}
    {key : β → κ} {value : β → α} (h : d.entries = rows.map fun b => (key b, value b))
    (accepted : Prop) [Decidable accepted] (b : β) :
    (d.insertOrIgnore accepted (key b) (value b)).1.entries =
      (if accepted ∧ key b ∉ rows.map key then rows ++ [b] else rows).map
        fun b => (key b, value b) := by
  have hkeys : d.keys = rows.map key := by
    rw [keys, h, List.map_map]
    rfl
  unfold insertOrIgnore
  rw [hkeys]
  split
  next hnew =>
    rw [List.map_append, ← h]
    exact upsert_of_notMem (hkeys.symm ▸ hnew.2 : key b ∉ d.keys)
  next => exact h

/-- The rows held after a further one: it is taken where it is accepted and its key is new. -/
def keepNew {β : Type*} (accepted : β → Bool) (key : β → κ) (rows : List β) (b : β) : List β :=
  if accepted b = true ∧ key b ∉ rows.map key then rows ++ [b] else rows

/-- A table that rows are inserted into one by one holds the entries of those that are kept. -/
theorem entries_foldl_insertOrIgnore {β : Type*} {accepted : β → Bool} {key : β → κ}
    {value : β → α} {inserts rows : List β} {d : OrderedDict κ α}
    (h : d.entries = rows.map fun b => (key b, value b)) :
    (inserts.foldl (fun d b => (d.insertOrIgnore (accepted b = true) (key b) (value b)).1) d).entries =
      (inserts.foldl (keepNew accepted key) rows).map fun b => (key b, value b) := by
  induction inserts generalizing d rows with
  | nil => exact h
  | cons b inserts ih => exact ih (entries_insertOrIgnore h _ b)

variable {β : Type*} {accepted : β → Bool} {key : β → κ}

theorem nodup_foldl_keepNew (inserts : List β) {rows : List β} (h : (rows.map key).Nodup) :
    ((inserts.foldl (keepNew accepted key) rows).map key).Nodup := by
  induction inserts generalizing rows with
  | nil => exact h
  | cons b inserts ih =>
    refine ih ?_
    unfold keepNew
    split
    next hnew =>
      rw [List.map_append, List.map_singleton]
      exact List.nodup_append.mpr ⟨h, List.nodup_singleton _, by
        rintro k hk k' hk' rfl
        rw [List.mem_singleton.mp hk'] at hk
        exact hnew.2 hk⟩
    next => exact h

theorem find?_keepNew (rows : List β) (b : β) (k : κ) :
    (keepNew accepted key rows b).find? (key · = k) =
      (rows.find? (key · = k)).or (if accepted b = true ∧ key b = k then some b else none) := by
  unfold keepNew
  by_cases hnew : accepted b = true ∧ key b ∉ rows.map key
  · rw [if_pos hnew, List.find?_append]
    by_cases hk : key b = k
    · simp [hk, hnew.1]
    · simp [hk]
  · rw [if_neg hnew]
    by_cases hk : accepted b = true ∧ key b = k
    · have hold : key b ∈ rows.map key := not_not.mp fun hnot => hnew ⟨hk.1, hnot⟩
      obtain ⟨d, hd, hsame⟩ := List.mem_map.mp hold
      have hfound : (rows.find? (key · = k)).isSome = true :=
        List.find?_isSome.mpr ⟨d, hd, decide_eq_true (hsame.trans hk.2)⟩
      obtain ⟨found, hfound⟩ := Option.isSome_iff_exists.mp hfound
      rw [hfound]
      rfl
    · rw [if_neg hk, Option.or_none]

/-- What is kept of a key is the first accepted row of it. -/
theorem find?_foldl_keepNew (inserts rows : List β) (k : κ) :
    (inserts.foldl (keepNew accepted key) rows).find? (key · = k) =
      (rows.find? (key · = k)).or (inserts.find? fun b => accepted b = true ∧ key b = k) := by
  induction inserts generalizing rows with
  | nil => simp
  | cons b inserts ih =>
    rw [List.foldl_cons, ih, List.find?_cons, find?_keepNew, Option.or_assoc]
    by_cases hk : accepted b = true ∧ key b = k
    · simp [hk]
    · simp [hk]

theorem mem_foldl_keepNew {inserts : List β} {b : β} :
    b ∈ inserts.foldl (keepNew accepted key) [] ↔
      inserts.find? (fun c => accepted c = true ∧ key c = key b) = some b := by
  have hfind : (inserts.foldl (keepNew accepted key) []).find? (key · = key b) =
      inserts.find? fun c => accepted c = true ∧ key c = key b :=
    (find?_foldl_keepNew inserts [] (key b)).trans (Option.none_or ..)
  have hnodup : ((inserts.foldl (keepNew accepted key) []).map key).Nodup :=
    nodup_foldl_keepNew inserts List.nodup_nil
  rw [← hfind]
  refine ⟨fun hb => ?_, List.mem_of_find?_eq_some⟩
  cases hfound : (inserts.foldl (keepNew accepted key) []).find? (key · = key b) with
  | none => exact (List.find?_eq_none.mp hfound b hb (decide_eq_true rfl)).elim
  | some c =>
    have hkey : key c = key b := by simpa using List.find?_some hfound
    exact congrArg some
      (List.inj_on_of_nodup_map hnodup (List.mem_of_find?_eq_some hfound) hb hkey)

end OrderedDict
