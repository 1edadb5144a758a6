import PortfolioHub.OrderedDict

universe u v w

namespace OrderedDict

variable {κ : Type u} {α : Type v} {β : Type w} [DecidableEq κ] [AddCommMonoid α]

/-- One more amount on the account of a key. -/
def addTo (d : OrderedDict κ α) (k : κ) (a : α) : OrderedDict κ α := d.insert k ((d.get? k).getD 0 + a)

/-- The amounts of some items by their keys, in the order in which the keys come up. -/
def tally (key : β → κ) (value : β → α) (bs : List β) : OrderedDict κ α :=
  bs.foldl (fun d b => d.addTo (key b) (value b)) .empty

/-- An amount is added to what is there; the rest stays. -/
theorem getD_addTo (d : OrderedDict κ α) (k j : κ) (a : α) :
    ((d.addTo k a).get? j).getD 0 = (d.get? j).getD 0 + if k = j then a else 0 := by
  rw [addTo, get?_insert]
  by_cases hk : j = k
  · simp [hk]
  · simp [hk, Ne.symm hk]

theorem sum_upsert_add (k : κ) (a : α) {es : List (κ × α)} (h : (es.map Prod.fst).Nodup) :
    ((upsert k ((es.lookup k).getD 0 + a) es).map Prod.snd).sum = (es.map Prod.snd).sum + a := by
  induction es with
  | nil => simp [upsert]
  | cons e es ih =>
    have hnodup := List.nodup_cons.mp h
    rw [lookup_cons_eq, upsert]
    by_cases hk : e.1 = k
    · subst hk
      simp only [↓reduceIte, Option.getD_some, List.map_cons, List.sum_cons]
      rw [add_right_comm]
    · rw [if_neg hk, if_neg (Ne.symm hk), List.map_cons, List.sum_cons, ih hnodup.2, List.map_cons,
        List.sum_cons, add_assoc]

theorem mem_keys_addTo (d : OrderedDict κ α) (k j : κ) (a : α) :
    j ∈ (d.addTo k a).keys ↔ j ∈ d.keys ∨ j = k := by
  rw [mem_keys_iff, mem_keys_iff, addTo]
  simp only [get?_insert]
  by_cases hk : j = k
  · simp [hk]
  · simp [hk]

/-- The account of a key is the sum of the amounts of its items. -/
theorem getD_tally (key : β → κ) (value : β → α) (bs : List β) (k : κ) :
    ((tally key value bs).get? k).getD 0 = ((bs.filter (key · = k)).map value).sum := by
  have hfold : ∀ d : OrderedDict κ α,
      ((bs.foldl (fun d b => d.addTo (key b) (value b)) d).get? k).getD 0 =
        (d.get? k).getD 0 + ((bs.filter (key · = k)).map value).sum := by
    induction bs with
    | nil => simp
    | cons b bs ih =>
      intro d
      rw [List.foldl_cons, ih, getD_addTo]
      by_cases hk : key b = k
      · simp [hk, add_assoc]
      · simp [hk]
  exact (hfold .empty).trans (zero_add _)

theorem mem_keys_tally {key : β → κ} {value : β → α} {bs : List β} {k : κ} :
    k ∈ (tally key value bs).keys ↔ k ∈ bs.map key := by
  have hfold : ∀ d : OrderedDict κ α,
      k ∈ (bs.foldl (fun d b => d.addTo (key b) (value b)) d).keys ↔ k ∈ d.keys ∨ k ∈ bs.map key := by
    induction bs with
    | nil => simp
    | cons b bs ih =>
      intro d
      rw [List.foldl_cons, ih, mem_keys_addTo, List.map_cons, List.mem_cons, or_assoc]
  exact (hfold .empty).trans (by simp [mem_keys_iff])

/-- The accounts make up the amounts of all items. -/
theorem sum_tally (key : β → κ) (value : β → α) (bs : List β) :
    ((tally key value bs).entries.map Prod.snd).sum = (bs.map value).sum := by
  have hfold : ∀ d : OrderedDict κ α,
      ((bs.foldl (fun d b => d.addTo (key b) (value b)) d).entries.map Prod.snd).sum =
        (d.entries.map Prod.snd).sum + (bs.map value).sum := by
    induction bs with
    | nil => simp
    | cons b bs ih =>
      intro d
      have hadd : ((d.addTo (key b) (value b)).entries.map Prod.snd).sum =
          (d.entries.map Prod.snd).sum + value b := sum_upsert_add (key b) (value b) d.nodup
      rw [List.foldl_cons, ih, hadd, List.map_cons, List.sum_cons, add_assoc]
  exact (hfold .empty).trans (zero_add _)

end OrderedDict
