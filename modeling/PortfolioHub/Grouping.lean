import Mathlib

namespace List

variable {α β κ κ' : Type*} [LinearOrder κ] [LinearOrder κ']

/-- The keys of the rows, each once, in order. -/
def groupKeys (key : α → κ) (as : List α) : List κ := (as.map key).dedup.insertionSort (· ≤ ·)

/-- The rows under their keys: `GROUP BY` and `ORDER BY` of the same columns. -/
def groupOn (key : α → κ) (as : List α) : List (κ × List α) :=
  (as.groupKeys key).map fun k => (k, as.filter (key · = k))

theorem perm_groupKeys (key : α → κ) (as : List α) :
    (as.groupKeys key).Perm (as.map key).dedup := perm_insertionSort ..

theorem mem_groupKeys {key : α → κ} {as : List α} {k : κ} :
    k ∈ as.groupKeys key ↔ ∃ a ∈ as, key a = k := by
  rw [(perm_groupKeys key as).mem_iff, mem_dedup, mem_map]

theorem nodup_groupKeys (key : α → κ) (as : List α) : (as.groupKeys key).Nodup :=
  (perm_groupKeys key as).nodup_iff.mpr (nodup_dedup _)

theorem pairwise_groupKeys (key : α → κ) (as : List α) : (as.groupKeys key).Pairwise (· ≤ ·) :=
  pairwise_insertionSort _ _

/-- The keys are the one ordered list without repetitions of what the rows have as keys. -/
theorem eq_groupKeys {key : α → κ} {as : List α} {ks : List κ} (hnodup : ks.Nodup)
    (hsorted : ks.Pairwise (· ≤ ·)) (hmem : ∀ k, k ∈ ks ↔ ∃ a ∈ as, key a = k) :
    as.groupKeys key = ks := by
  have hperm : (as.groupKeys key).Perm ks :=
    (perm_ext_iff_of_nodup (nodup_groupKeys key as) hnodup).mpr fun k => by
      rw [mem_groupKeys, hmem]
  exact hperm.eq_of_pairwise' (pairwise_groupKeys key as) hsorted

/-- The keys of some of the rows. -/
theorem groupKeys_filter (key : α → κ) (p : α → Bool) (as : List α) :
    (as.filter p).groupKeys key =
      (as.groupKeys key).filter fun k => decide (∃ a ∈ as, p a = true ∧ key a = k) := by
  refine eq_groupKeys ((nodup_groupKeys key as).filter _)
    ((pairwise_groupKeys key as).sublist filter_sublist) fun k => ?_
  rw [mem_filter, mem_groupKeys, decide_eq_true_eq]
  constructor
  · rintro ⟨-, a, ha, hp, hk⟩
    exact ⟨a, mem_filter.mpr ⟨ha, hp⟩, hk⟩
  · rintro ⟨a, ha, hk⟩
    obtain ⟨ha, hp⟩ := mem_filter.mp ha
    exact ⟨⟨a, ha, hk⟩, a, ha, hp, hk⟩

/-- A group has the rows of its key. -/
theorem mem_group_iff {key : α → κ} {as : List α} {g : κ × List α} (hg : g ∈ as.groupOn key)
    {a : α} : a ∈ g.2 ↔ a ∈ as ∧ key a = g.1 := by
  obtain ⟨k, -, rfl⟩ := mem_map.mp hg
  simp

/-- Rows that are written another way, their keys too, and ordered by these as by the keys. -/
theorem groupOn_written {γ : Type*} [DecidableEq γ] {le : γ → γ → Prop} [DecidableRel le]
    {key : α → κ} {key' : β → γ} {row : α → β} {write : κ → γ} (hwrite : Function.Injective write)
    (hle : ∀ k k', k ≤ k' ↔ le (write k) (write k')) (hkey : ∀ a, key' (row a) = write (key a))
    (as : List α) :
    (((as.map row).map key').dedup.insertionSort le).map
        (fun k => (k, (as.map row).filter fun b => key' b = k)) =
      (as.groupOn key).map fun g => (write g.1, g.2.map row) := by
  have hkeys : ((as.map row).map key').dedup.insertionSort le = (as.groupKeys key).map write := by
    have hmap : (as.map row).map key' = (as.map key).map write := by
      rw [map_map, map_map]
      exact map_congr_left fun a _ => hkey a
    rw [groupKeys, map_insertionSort (· ≤ ·) le write _ fun k _ k' _ => hle k k', hmap,
      dedup_map_of_injective hwrite]
  have hrows : ∀ k, (as.map row).filter (fun b => decide (key' b = write k)) =
      (as.filter fun a => decide (key a = k)).map row := by
    intro k
    rw [filter_map]
    refine congrArg (map row) (filter_congr fun a _ => decide_eq_decide.mpr ?_)
    rw [hkey, hwrite.eq_iff]
  unfold groupOn
  rw [hkeys, map_map, map_map]
  exact map_congr_left fun k _ => Prod.ext rfl (hrows k)

theorem groupOn_map {key : α → κ} {key' : β → κ'} {row : α → β} {write : κ → κ'}
    (hwrite : StrictMono write) (hkey : ∀ a, key' (row a) = write (key a)) (as : List α) :
    (as.map row).groupOn key' = (as.groupOn key).map fun g => (write g.1, g.2.map row) :=
  groupOn_written hwrite.injective (fun _ _ => hwrite.le_iff_le.symm) hkey as

end List
