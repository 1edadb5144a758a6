import PortfolioHub.FillRow
import PortfolioHub.FxCache
import PortfolioHub.NameLookups
import PortfolioHub.SharedConnection
import PortfolioHub.StoredHistory

namespace PortfolioHub

/-- The tables of `schema.sql`. -/
structure Database where
  names : OrderedDict (String × String) NameRow
  rates : FxCache
  fills : FillsTable
  snapshots : StoredTable

/-- The calls of the store that write. -/
inductive StoreWrite where
  | putNameCache (broker nativeKey : String) (row : NameRow)
  | putFxRate (rate : FxRate)
  | insertFill (row : FillRow)
  | insertEquitySnapshot (c : SnapshotInsert)

/-- The statement of a call, with what the call returns. A rate that is no number is refused. -/
def StoreWrite.run : StoreWrite → Database → Option (Database × Option Bool)
  | .putNameCache broker nativeKey row, db =>
    some ({ db with names := db.names.insert (broker, nativeKey) row }, none)
  | .putFxRate rate, db =>
    if rate.rate.isNan then none else some ({ db with rates := PortfolioHub.putFxRate db.rates rate }, none)
  | .insertFill row, db =>
    some ({ db with fills := (PortfolioHub.insertFill db.fills row).1 }, some (PortfolioHub.insertFill db.fills row).2)
  | .insertEquitySnapshot c, db =>
    some ({ db with snapshots := (Store.insertEquitySnapshot db.snapshots c).1 },
      some (Store.insertEquitySnapshot db.snapshots c).2)

/-- Every call writes one table. -/
theorem StoreWrite.run_writes {w : StoreWrite} {db db' : Database} {answer : Option Bool}
    (h : w.run db = some (db', answer)) :
    match w with
    | .putNameCache broker nativeKey row =>
      db' = { db with names := db.names.insert (broker, nativeKey) row } ∧ answer = none
    | .putFxRate rate =>
      db' = { db with
        rates := db.rates.insert rate.pair ⟨rate.rate, rate.source, rate.quotedAt⟩ } ∧ answer = none
    | .insertFill row =>
      db' = { db with fills := (PortfolioHub.insertFill db.fills row).1 } ∧
        answer = some (PortfolioHub.insertFill db.fills row).2
    | .insertEquitySnapshot c =>
      db' = { db with snapshots := (Store.insertEquitySnapshot db.snapshots c).1 } ∧
        answer = some (Store.insertEquitySnapshot db.snapshots c).2 := by
  cases w with
  | putFxRate rate =>
    simp only [run] at h
    split at h
    next => cases h
    next hnan =>
      have hput : PortfolioHub.putFxRate db.rates rate =
          db.rates.insert rate.pair ⟨rate.rate, rate.source, rate.quotedAt⟩ := if_neg hnan
      rw [hput] at h
      obtain ⟨rfl, rfl⟩ := Prod.mk.inj (Option.some.inj h)
      exact ⟨rfl, rfl⟩
  | putNameCache _ _ _ | insertFill _ | insertEquitySnapshot _ =>
    obtain ⟨rfl, rfl⟩ := Prod.mk.inj (Option.some.inj h)
    exact ⟨rfl, rfl⟩

/-- A table that is written by `INSERT OR IGNORE`. -/
structure InsertTable (κ α β : Type) [DecidableEq κ] where
  table : Database → OrderedDict κ α
  row? : StoreWrite → Option β
  accepted : β → Bool
  key : β → κ
  value : β → α
  run_row : ∀ w b db db' answer, row? w = some b → w.run db = some (db', answer) →
    table db' = ((table db).insertOrIgnore (accepted b = true) (key b) (value b)).1 ∧
      answer = some ((table db).insertOrIgnore (accepted b = true) (key b) (value b)).2
  run_other : ∀ w db db' answer, row? w = none → w.run db = some (db', answer) →
    table db' = table db

def fillTable : InsertTable (String × String) FillRow FillRow where
  table := Database.fills
  row?
    | .insertFill row => some row
    | _ => none
  accepted := FillRow.storable
  key := FillRow.key
  value := FillRow.stored
  run_row := by
    intro w b db db' answer hrow hrun
    cases w with
    | insertFill row =>
      obtain rfl := Option.some.inj hrow
      obtain ⟨rfl, rfl⟩ := StoreWrite.run_writes hrun
      rw [← insertFill_eq]
      exact ⟨rfl, rfl⟩
    | putNameCache _ _ _ | putFxRate _ | insertEquitySnapshot _ => cases hrow
  run_other := by
    intro w db db' answer hrow hrun
    cases w with
    | insertFill row => cases hrow
    | putNameCache _ _ _ | putFxRate _ | insertEquitySnapshot _ =>
      rw [(StoreWrite.run_writes hrun).1]

def snapshotTable : InsertTable (String × String × String × String) StoredSnapshot SnapshotInsert where
  table := Database.snapshots
  row?
    | .insertEquitySnapshot c => some c
    | _ => none
  accepted c := c.stored.storable
  key c := c.stored.key
  value := SnapshotInsert.stored
  run_row := by
    intro w b db db' answer hrow hrun
    cases w with
    | insertEquitySnapshot c =>
      obtain rfl := Option.some.inj hrow
      obtain ⟨rfl, rfl⟩ := StoreWrite.run_writes hrun
      exact ⟨rfl, rfl⟩
    | putNameCache _ _ _ | putFxRate _ | insertFill _ => cases hrow
  run_other := by
    intro w db db' answer hrow hrun
    cases w with
    | insertEquitySnapshot c => cases hrow
    | putNameCache _ _ _ | putFxRate _ | insertFill _ => rw [(StoreWrite.run_writes hrun).1]

/-- A table where a later row of a key takes the place of the earlier one. -/
structure UpsertTable (κ α : Type) [DecidableEq κ] where
  table : Database → OrderedDict κ α
  row? : StoreWrite → Option (κ × α)
  run_row : ∀ w k v db db' answer, row? w = some (k, v) → w.run db = some (db', answer) →
    table db' = (table db).insert k v
  run_other : ∀ w db db' answer, row? w = none → w.run db = some (db', answer) →
    table db' = table db

def nameTable : UpsertTable (String × String) NameRow where
  table := Database.names
  row?
    | .putNameCache broker nativeKey row => some ((broker, nativeKey), row)
    | _ => none
  run_row := by
    intro w k v db db' answer hrow hrun
    cases w with
    | putNameCache broker nativeKey row =>
      obtain ⟨rfl, rfl⟩ := Prod.mk.inj (Option.some.inj hrow)
      rw [(StoreWrite.run_writes hrun).1]
    | putFxRate _ | insertFill _ | insertEquitySnapshot _ => cases hrow
  run_other := by
    intro w db db' answer hrow hrun
    cases w with
    | putNameCache _ _ _ => cases hrow
    | putFxRate _ | insertFill _ | insertEquitySnapshot _ => rw [(StoreWrite.run_writes hrun).1]

def rateTable : UpsertTable String FxCacheRow where
  table := Database.rates
  row?
    | .putFxRate rate => some (rate.pair, ⟨rate.rate, rate.source, rate.quotedAt⟩)
    | _ => none
  run_row := by
    intro w k v db db' answer hrow hrun
    cases w with
    | putFxRate rate =>
      obtain ⟨rfl, rfl⟩ := Prod.mk.inj (Option.some.inj hrow)
      rw [(StoreWrite.run_writes hrun).1]
    | putNameCache _ _ _ | insertFill _ | insertEquitySnapshot _ => cases hrow
  run_other := by
    intro w db db' answer hrow hrun
    cases w with
    | putFxRate _ => cases hrow
    | putNameCache _ _ _ | insertFill _ | insertEquitySnapshot _ =>
      rw [(StoreWrite.run_writes hrun).1]

open SharedConnection

/-- The database after a history of writes. -/
theorem replay_cons (entry : ℕ × StoreWrite) (history : List (ℕ × StoreWrite)) (db : Database) :
    replay StoreWrite.run (entry :: history) db =
      replay StoreWrite.run history (((entry.2.run db).map Prod.fst).getD db) := rfl

section Tables

variable {κ α β : Type} [DecidableEq κ] {db db' : Database} {w : StoreWrite}
  {history : List (ℕ × StoreWrite)}

/-- A row stays under its key, whatever is written. -/
theorem InsertTable.get?_run (T : InsertTable κ α β) {answer : Option Bool} {k : κ} {v : α}
    (h : w.run db = some (db', answer)) (hv : (T.table db).get? k = some v) :
    (T.table db').get? k = some v := by
  cases hrow : T.row? w with
  | none => rwa [T.run_other w db db' answer hrow h]
  | some b =>
    rw [(T.run_row w b db db' answer hrow h).1, OrderedDict.get?_insertOrIgnore, hv]
    rfl

theorem InsertTable.get?_replay (T : InsertTable κ α β) {k : κ} {v : α}
    (hv : (T.table db).get? k = some v) :
    (T.table (replay StoreWrite.run history db)).get? k = some v := by
  induction history generalizing db with
  | nil => exact hv
  | cons entry history ih =>
    rw [replay_cons]
    apply ih
    cases hrun : entry.2.run db with
    | none => exact hv
    | some result => exact T.get?_run hrun hv

/-- A row on the disk was there before, or is that of a write. -/
theorem InsertTable.origin (T : InsertTable κ α β) {k : κ} {v : α}
    (h : (T.table (replay StoreWrite.run history db)).get? k = some v) :
    (T.table db).get? k = some v ∨ ∃ entry ∈ history, ∃ b, T.row? entry.2 = some b ∧
      T.accepted b = true ∧ T.key b = k ∧ T.value b = v := by
  induction history generalizing db with
  | nil => exact Or.inl h
  | cons entry history ih =>
    rw [replay_cons] at h
    rcases ih h with hstep | hlater
    · cases hrun : entry.2.run db with
      | none =>
        rw [hrun] at hstep
        exact Or.inl hstep
      | some result =>
        rw [hrun] at hstep
        have hnext : (T.table result.1).get? k = some v := hstep
        cases hrow : T.row? entry.2 with
        | none =>
          rw [T.run_other _ db _ _ hrow hrun] at hnext
          exact Or.inl hnext
        | some b =>
          rw [(T.run_row _ b db _ _ hrow hrun).1, OrderedDict.get?_insertOrIgnore] at hnext
          cases hold : (T.table db).get? k with
          | some old =>
            rw [hold] at hnext
            exact Or.inl hnext
          | none =>
            rw [hold, Option.none_or] at hnext
            split at hnext
            next hnew =>
              exact Or.inr ⟨entry, by simp, b, hrow, hnew.1, hnew.2, Option.some.inj hnext⟩
            next => cases hnext
    · obtain ⟨other, hother, hrest⟩ := hlater
      exact Or.inr ⟨other, by simp [hother], hrest⟩

/-- The history up to a write, the write, and what comes after it. -/
theorem answered_split {id : ℕ} {answer : Option Bool} {k : ℕ}
    (h : AnsweredAt StoreWrite.run db history id w answer k) : ∃ after,
      w.run (replay StoreWrite.run (history.take k) db) = some (after, answer) ∧
        replay StoreWrite.run (history.take (k + 1)) db = after ∧
        replay StoreWrite.run history db = replay StoreWrite.run (history.drop (k + 1)) after := by
  obtain ⟨result, hrun, hanswer⟩ := Option.map_eq_some_iff.mp h.answer
  obtain ⟨after, answer'⟩ := result
  obtain rfl : answer' = answer := hanswer
  obtain ⟨hk, hentry⟩ := List.getElem?_eq_some_iff.mp h.entry
  have htake : replay StoreWrite.run (history.take (k + 1)) db = after := by
    rw [List.take_add_one, h.entry, replay_append]
    show (((w.run (replay StoreWrite.run (history.take k) db)).map Prod.fst).getD _) = after
    rw [hrun]
    rfl
  refine ⟨after, hrun, htake, ?_⟩
  rw [← htake, ← replay_append, List.take_append_drop]

/-- A row that was to be inserted is there, and the call that wrote it says so. -/
theorem InsertTable.inserted (T : InsertTable κ α β) {id : ℕ} {answer : Option Bool} {k : ℕ} {b : β}
    (h : AnsweredAt StoreWrite.run db history id w answer k) (hrow : T.row? w = some b) :
    (T.accepted b = true →
      ∃ v, (T.table (replay StoreWrite.run (history.take (k + 1)) db)).get? (T.key b) = some v) ∧
    (answer = some true →
      (T.table (replay StoreWrite.run (history.take k) db)).get? (T.key b) = none ∧
        (T.table (replay StoreWrite.run (history.take (k + 1)) db)).get? (T.key b) =
          some (T.value b)) := by
  obtain ⟨after, hrun, htake, -⟩ := answered_split h
  obtain ⟨htable, hflag⟩ := T.run_row w b _ _ _ hrow hrun
  rw [htake, htable, OrderedDict.get?_insertOrIgnore]
  refine ⟨fun haccepted => ?_, fun htrue => ?_⟩
  · cases hold : (T.table (replay StoreWrite.run (history.take k) db)).get? (T.key b) with
    | some old => exact ⟨old, rfl⟩
    | none => exact ⟨T.value b, by simp [haccepted]⟩
  · rw [hflag] at htrue
    have hnew : T.accepted b = true ∧
        T.key b ∉ (T.table (replay StoreWrite.run (history.take k) db)).keys := by
      by_contra hnot
      rw [OrderedDict.insertOrIgnore, if_neg hnot] at htrue
      cases htrue
    have hnone := OrderedDict.get?_eq_none_iff.mpr hnew.2
    exact ⟨hnone, by simp [hnone, hnew.1]⟩

/-- What an earlier part of the history has of a key, a later part has. -/
theorem InsertTable.get?_take (T : InsertTable κ α β) {k : κ} {v : α} {i j : ℕ} (hij : i ≤ j)
    (hv : (T.table (replay StoreWrite.run (history.take i) db)).get? k = some v) :
    (T.table (replay StoreWrite.run (history.take j) db)).get? k = some v := by
  have hsplit : history.take j = history.take i ++ (history.take j).drop i := by
    have hparts := List.take_append_drop i (history.take j)
    rw [List.take_take, Nat.min_eq_left hij] at hparts
    exact hparts.symm
  rw [hsplit, replay_append]
  exact T.get?_replay hv

theorem UpsertTable.origin (T : UpsertTable κ α) {k : κ} {v : α}
    (h : (T.table (replay StoreWrite.run history db)).get? k = some v) :
    (T.table db).get? k = some v ∨ ∃ entry ∈ history, T.row? entry.2 = some (k, v) := by
  induction history generalizing db with
  | nil => exact Or.inl h
  | cons entry history ih =>
    rw [replay_cons] at h
    rcases ih h with hstep | hlater
    · cases hrun : entry.2.run db with
      | none =>
        rw [hrun] at hstep
        exact Or.inl hstep
      | some result =>
        rw [hrun] at hstep
        have hnext : (T.table result.1).get? k = some v := hstep
        cases hrow : T.row? entry.2 with
        | none =>
          rw [T.run_other _ db _ _ hrow hrun] at hnext
          exact Or.inl hnext
        | some row =>
          rw [T.run_row _ row.1 row.2 db _ _ hrow hrun, OrderedDict.get?_insert] at hnext
          split at hnext
          next hk =>
            obtain rfl := Option.some.inj hnext
            exact Or.inr ⟨entry, by simp, by rw [hrow, hk]⟩
          next => exact Or.inl hnext
    · obtain ⟨other, hother, hrow⟩ := hlater
      exact Or.inr ⟨other, by simp [hother], hrow⟩

/-- What was written of a key is there until a later write of the key. -/
theorem UpsertTable.get?_replay (T : UpsertTable κ α) (history : List (ℕ × StoreWrite)) {k : κ} {v : α}
    (hv : (T.table db).get? k = some v) :
    (T.table (replay StoreWrite.run history db)).get? k = some v ∨
      ∃ (j : ℕ) (entry : ℕ × StoreWrite) (v' : α), history[j]? = some entry ∧
        T.row? entry.2 = some (k, v') ∧
        (T.table (replay StoreWrite.run history db)).get? k = some v' := by
  induction history generalizing db v with
  | nil => exact Or.inl hv
  | cons entry history ih =>
    rw [replay_cons]
    have hshift : ∀ {u : α} {next : Database}, (T.table next).get? k = some u →
        (T.table (replay StoreWrite.run history next)).get? k = some u ∨
          ∃ (j : ℕ) (e : ℕ × StoreWrite) (v' : α), (entry :: history)[j]? = some e ∧
            T.row? e.2 = some (k, v') ∧
            (T.table (replay StoreWrite.run history next)).get? k = some v' := by
      intro u next hu
      rcases ih hu with hkept | hlater
      · exact Or.inl hkept
      · obtain ⟨j, e, v', he, hrest⟩ := hlater
        exact Or.inr ⟨j + 1, e, v', he, hrest⟩
    cases hrun : entry.2.run db with
    | none => exact hshift hv
    | some result =>
      cases hrow : T.row? entry.2 with
      | none =>
        apply hshift
        have hnext := T.run_other _ db _ _ hrow hrun
        show (T.table result.1).get? k = some v
        rwa [hnext]
      | some row =>
        have hnext := T.run_row _ row.1 row.2 db _ _ hrow hrun
        by_cases hk : k = row.1
        · have hu : (T.table result.1).get? k = some row.2 := by
            rw [hnext, hk, OrderedDict.get?_insert_self]
          rcases hshift hu with hkept | hlater
          · exact Or.inr ⟨0, entry, row.2, rfl, by rw [hrow, hk], hkept⟩
          · exact Or.inr hlater
        · apply hshift
          show (T.table result.1).get? k = some v
          rw [hnext, OrderedDict.get?_insert_of_ne _ _ hk]
          exact hv

end Tables

section Survival

variable {κ α β : Type} [DecidableEq κ] {db : Database}
  {s : SharedConnection StoreWrite Database (Option Bool)}

/-- What the calls on a table of inserts can count on once they have returned, unless what they wrote
was undone. -/
structure InsertTable.Survives (T : InsertTable κ α β) (db : Database)
    (s : SharedConnection StoreWrite Database (Option Bool)) : Prop where
  kept : ∀ r ∈ s.returned, r.id ∉ s.undone → ∀ b, s.issued[r.id]?.bind T.row? = some b →
    T.accepted b = true → ∃ v, (T.table s.disk).get? (T.key b) = some v
  written : ∀ r ∈ s.returned, r.id ∉ s.undone → ∀ b, s.issued[r.id]?.bind T.row? = some b →
    r.answer = some true → (T.table s.disk).get? (T.key b) = some (T.value b)
  once : ∀ r ∈ s.returned, r.id ∉ s.undone → ∀ r' ∈ s.returned, r'.id ∉ s.undone → ∀ b b',
    s.issued[r.id]?.bind T.row? = some b → s.issued[r'.id]?.bind T.row? = some b' →
      r.answer = some true → r'.answer = some true → T.key b = T.key b' → r.id = r'.id
  origin : ∀ k v, (T.table s.disk).get? k = some v → (T.table db).get? k = some v ∨
    ∃ (id : ℕ) (b : β), id ∉ s.undone ∧ s.issued[id]?.bind T.row? = some b ∧
      T.accepted b = true ∧ T.key b = k ∧ T.value b = v

/-- A returned write that was not undone is on the disk, or a write that had not returned when it was
issued is. -/
structure UpsertTable.Survives (T : UpsertTable κ α) (db : Database)
    (s : SharedConnection StoreWrite Database (Option Bool)) : Prop where
  kept : ∀ r ∈ s.returned, r.id ∉ s.undone → ∀ k v, s.issued[r.id]?.bind T.row? = some (k, v) →
    ∃ (id : ℕ) (v' : α), s.issued[id]?.bind T.row? = some (k, v') ∧
      (T.table s.disk).get? k = some v' ∧ ∀ r' ∈ s.returned, r'.id = id → r.id < r'.issued
  origin : ∀ k v, (T.table s.disk).get? k = some v → (T.table db).get? k = some v ∨
    ∃ id : ℕ, id ∉ s.undone ∧ s.issued[id]?.bind T.row? = some (k, v)

/-- A return stands where its call is in the history. -/
theorem returned_at {history : List (ℕ × StoreWrite)}
    (h : History StoreWrite.run db s history) {r : WriteReturn (Option Bool)} (hr : r ∈ s.returned)
    (hkept : r.id ∉ s.undone) : ∃ w k, s.issued[r.id]? = some w ∧ AnsweredAt StoreWrite.run db history r.id w r.answer k ∧
      ∀ (j : ℕ) entry, history[j]? = some entry → r.issued ≤ entry.1 → k < j := by
  obtain ⟨w, k, hanswered, hlater⟩ := h.returned r hr hkept
  exact ⟨w, k, h.issued _ (List.mem_of_getElem? hanswered.entry), hanswered, hlater⟩

theorem InsertTable.survives (T : InsertTable κ α β) {history : List (ℕ × StoreWrite)}
    (h : History StoreWrite.run db s history) : T.Survives db s := by
  have hlast : ∀ {k : ℕ} {key : κ} {v : α},
      (T.table (replay StoreWrite.run (history.take k) db)).get? key = some v →
        (T.table s.disk).get? key = some v := by
    intro k key v hv
    rw [h.disk, ← List.take_append_drop k history, replay_append]
    exact T.get?_replay hv
  refine ⟨fun r hr hkept b hb haccepted => ?_, fun r hr hkept b hb htrue => ?_, ?_,
    fun k v hv => ?_⟩
  · obtain ⟨w, k, hw, hanswered, -⟩ := returned_at h hr hkept
    rw [hw] at hb
    obtain ⟨v, hv⟩ := (T.inserted hanswered hb).1 haccepted
    exact ⟨v, hlast hv⟩
  · obtain ⟨w, k, hw, hanswered, -⟩ := returned_at h hr hkept
    rw [hw] at hb
    exact hlast ((T.inserted hanswered hb).2 htrue).2
  · intro r hr hkept r' hr' hkept' b b' hb hb' htrue htrue' hkey
    obtain ⟨w, k, hw, hanswered, -⟩ := returned_at h hr hkept
    obtain ⟨w', k', hw', hanswered', -⟩ := returned_at h hr' hkept'
    rw [hw] at hb
    rw [hw'] at hb'
    have hold := (T.inserted hanswered hb).2 htrue
    have hold' := (T.inserted hanswered' hb').2 htrue'
    -- the later of the two would find the row of the earlier one
    have hapart : ∀ {i j : ℕ} {v : α}, i < j →
        (T.table (replay StoreWrite.run (history.take (i + 1)) db)).get? (T.key b) = some v →
          (T.table (replay StoreWrite.run (history.take j) db)).get? (T.key b) ≠ none := by
      intro i j v hij hv hnone
      have hlater := T.get?_take (Nat.succ_le_of_lt hij) hv
      rw [hlater] at hnone
      cases hnone
    rcases lt_trichotomy k k' with hlt | rfl | hlt
    · exact absurd (hkey ▸ hold'.1) (hapart hlt hold.2)
    · have hsame := hanswered.entry.symm.trans hanswered'.entry
      exact (Prod.mk.inj (Option.some.inj hsame)).1
    · exact absurd hold.1 (hapart hlt (hkey ▸ hold'.2))
  · rw [h.disk] at hv
    rcases T.origin hv with hold | hwrite
    · exact Or.inl hold
    · obtain ⟨entry, hentry, b, hrow, hrest⟩ := hwrite
      exact Or.inr ⟨entry.1, b, h.kept entry hentry, by rw [h.issued entry hentry]; exact hrow, hrest⟩

/-- The last write of a key on the disk is no earlier than one that has returned. -/
theorem UpsertTable.last_write (T : UpsertTable κ α) {history : List (ℕ × StoreWrite)}
    (h : History StoreWrite.run db s history) {r : WriteReturn (Option Bool)} (hr : r ∈ s.returned)
    (hkept : r.id ∉ s.undone) {key : κ} {v : α} (hrow : s.issued[r.id]?.bind T.row? = some (key, v)) :
    ∃ (id : ℕ) (v' : α), s.issued[id]?.bind T.row? = some (key, v') ∧
      (T.table s.disk).get? key = some v' ∧ ∀ r' ∈ s.returned, r'.id = id → r.id < r'.issued := by
  obtain ⟨w, k, hw, hanswered, -⟩ := returned_at h hr hkept
  rw [hw] at hrow
  obtain ⟨after, hrun, -, hdisk⟩ := answered_split hanswered
  have hwritten : (T.table after).get? key = some v := by
    rw [T.run_row w key v _ _ _ hrow hrun, OrderedDict.get?_insert_self]
  -- a call issued after a return comes after it in the history
  have horder : ∀ (j : ℕ) (entry : ℕ × StoreWrite), k ≤ j → history[j]? = some entry →
      ∀ r' ∈ s.returned, r'.id = entry.1 → r.id < r'.issued := by
    intro j entry hkj hentry r' hr' hid
    by_contra hle
    have hstored := hid ▸ h.kept entry (List.mem_of_getElem? hentry)
    obtain ⟨w', k', -, hanswered', hlater⟩ := returned_at h hr' hstored
    have hbefore : k' < k := hlater k (r.id, w) hanswered.entry (Nat.le_of_not_lt hle)
    have hids : (history.map Prod.fst)[k']? = (history.map Prod.fst)[j]? := by
      rw [List.getElem?_map, List.getElem?_map, hanswered'.entry, hentry]
      exact congrArg some hid
    have hlt : k' < (history.map Prod.fst).length := by
      rw [List.length_map]
      exact hanswered'.lt
    have hsame : k' = j := (List.getElem?_inj hlt h.once).mp hids
    omega
  rcases T.get?_replay (history.drop (k + 1)) hwritten with hkept | hlater
  · refine ⟨r.id, v, by rw [hw]; exact hrow, by rw [h.disk, hdisk]; exact hkept, ?_⟩
    exact horder k (r.id, w) (le_refl _) hanswered.entry
  · obtain ⟨j, entry, v', hentry, hrow', hlast⟩ := hlater
    rw [List.getElem?_drop] at hentry
    have hissued := h.issued entry (List.mem_of_getElem? hentry)
    refine ⟨entry.1, v', by rw [hissued]; exact hrow', by rw [h.disk, hdisk]; exact hlast, ?_⟩
    exact horder (k + 1 + j) entry (by omega) hentry

theorem UpsertTable.survives (T : UpsertTable κ α) {history : List (ℕ × StoreWrite)}
    (h : History StoreWrite.run db s history) : T.Survives db s := by
  refine ⟨fun r hr hkept key v hrow => T.last_write h hr hkept hrow, fun key v hv => ?_⟩
  rw [h.disk] at hv
  rcases T.origin hv with hold | hwrite
  · exact Or.inl hold
  · obtain ⟨entry, hentry, hrow⟩ := hwrite
    have hissued := h.issued entry hentry
    exact Or.inr ⟨entry.1, h.kept entry hentry, by rw [hissued]; exact hrow⟩

end Survival

def boughtOnce : FillRow where
  broker := "IBKR"
  accountId := "U1"
  executionId := "E1"
  canonicalSymbol := "VOD.L"
  nativeKey := "1"
  assetClass := "STK"
  side := "BUY"
  quantity := .finite 10
  price := .finite 70
  currency := "GBP"
  fxRateAtFill := none
  feesNative := some (.finite 1)
  feesUsd := none
  filledAt := 0

/-- The disk is full for one call while another is between its statement and its commit: the other
reports a new row, and there is none. -/
example :
    ((execute (SharedConnection.step StoreWrite.run)
      (SharedConnection.init ⟨.empty, .empty, .empty, .empty⟩)
      [.call (.insertFill boughtOnce), .call (.insertFill { boughtOnce with executionId := "E2" }),
        .execute 0, .rollback, .fail 1, .commit 0, .finish 0]).map fun s =>
      (s.returned, s.undone, s.disk.fills.keys)) = some ([⟨0, some true, 2⟩], [0], []) := by
  decide +kernel

end PortfolioHub
