import PortfolioHub.Python

namespace List

variable {α κ : Type*} [LinearOrder κ]

/-- `WHERE` and `ORDER BY ... ASC`, over the rows in the order in which they are found. -/
def selectOn (keep : α → Bool) (key : α → κ) (rows : List α) : List α :=
  (rows.filter keep).insertionSort (key · ≤ key ·)

theorem perm_selectOn (keep : α → Bool) (key : α → κ) (rows : List α) :
    (rows.selectOn keep key).Perm (rows.filter keep) := perm_insertionSort ..

theorem pairwise_selectOn (keep : α → Bool) (key : α → κ) (rows : List α) :
    (rows.selectOn keep key).Pairwise (key · ≤ key ·) := by
  have htotal : Std.Total fun a b : α => key a ≤ key b := ⟨fun a b => le_total (key a) (key b)⟩
  have htrans : IsTrans α fun a b => key a ≤ key b := ⟨fun _ _ _ => le_trans⟩
  exact pairwise_insertionSort _ _

/-- Rows that are written from others, in whatever order, are written from these in that order. -/
theorem exists_map_of_perm_map {β : Type*} {written : β → α} {rows : List α} {bs : List β}
    (h : rows.Perm (bs.map written)) : ∃ cs : List β, cs.Perm bs ∧ rows = cs.map written := by
  have hpairs : Forall₂ (fun a b => a = written b) (bs.map written) bs :=
    forall₂_map_left_iff.mpr (forall₂_same.mpr fun _ _ => rfl)
  obtain ⟨cs, hcs, hperm⟩ := perm_comp_forall₂ h hpairs
  refine ⟨cs, hperm, ?_⟩
  rw [← forall₂_eq_eq_eq, forall₂_map_right_iff]
  exact hcs

end List

/-- The rows of a table in the order in which a query finds them. -/
structure Scan {α : Type*} (rows : List α) where
  order : List α
  perm : order.Perm rows

namespace Python

/-- A window over written rows is the window over what they are written from: the condition and
the order of the texts are those of what is read of them. -/
theorem mapM_selectOn {α β γ : Type} {κ ι : Type*} [LinearOrder κ] [LinearOrder ι]
    {written : β → α} {read : α → Except Error γ} {record : β → γ} {keep : α → Bool}
    {inside : β → Bool} {key : α → κ} {at' : γ → ι} {bs : List β} {rows : List α}
    (hrows : rows.Perm (bs.map written)) (hread : ∀ b, read (written b) = .ok (record b))
    (hkeep : ∀ b, keep (written b) = inside b)
    (hkey : ∀ b c, key (written b) ≤ key (written c) ↔ at' (record b) ≤ at' (record c)) :
    ∃ records, (rows.selectOn keep key).mapM read = .ok records ∧
      records.Perm ((bs.filter inside).map record) ∧ records.Pairwise (at' · ≤ at' ·) := by
  have hfilter : (bs.map written).filter keep = (bs.filter inside).map written := by
    rw [List.filter_map]
    exact congrArg (List.map _) (List.filter_congr fun b _ => hkeep b)
  have hselected : (rows.selectOn keep key).Perm ((bs.filter inside).map written) := by
    rw [← hfilter]
    exact (List.perm_selectOn keep key rows).trans (hrows.filter keep)
  obtain ⟨cs, hperm, hcs⟩ := List.exists_map_of_perm_map hselected
  refine ⟨cs.map record, ?_, hperm.map record, ?_⟩
  · rw [hcs, mapM_eq_ok, List.forall₂_map_left_iff, List.forall₂_map_right_iff, List.forall₂_same]
    exact fun c _ => hread c
  · have hsorted := List.pairwise_selectOn keep key rows
    rw [hcs, List.pairwise_map] at hsorted
    rw [List.pairwise_map]
    exact hsorted.imp fun h => (hkey _ _).mp h

end Python
