import Mathlib

namespace List

variable {α β γ δ : Type*}

/-- Where a first labelling determines a second, both have as many values exactly when
the second determines the first. -/
theorem card_labels_eq_iff [DecidableEq β] [DecidableEq γ] (l : List α) (f : α → β) (g : α → γ)
    (hfg : ∀ p ∈ l, ∀ q ∈ l, f p = f q → g p = g q) :
    (l.map f).toFinset.card = (l.map g).toFinset.card ↔
      ∀ p ∈ l, ∀ q ∈ l, g p = g q → f p = f q := by
  have hfst : (l.map fun p => (f p, g p)).toFinset.image Prod.fst = (l.map f).toFinset := by
    ext b
    simp
  have hsnd : (l.map fun p => (f p, g p)).toFinset.image Prod.snd = (l.map g).toFinset := by
    ext c
    simp
  have hinj : Set.InjOn Prod.fst ((l.map fun p => (f p, g p)).toFinset : Set (β × γ)) := by
    intro x hx y hy hxy
    obtain ⟨p, hp, rfl⟩ := List.mem_map.mp (List.mem_toFinset.mp hx)
    obtain ⟨q, hq, rfl⟩ := List.mem_map.mp (List.mem_toFinset.mp hy)
    exact Prod.ext hxy (hfg p hp q hq hxy)
  rw [← hfst, ← hsnd, Finset.card_image_of_injOn hinj, eq_comm, Finset.card_image_iff]
  constructor
  · intro h p hp q hq hg
    have hpair := h (List.mem_toFinset.mpr (List.mem_map_of_mem hp))
      (List.mem_toFinset.mpr (List.mem_map_of_mem hq)) hg
    exact congrArg Prod.fst hpair
  · intro h x hx y hy hxy
    obtain ⟨p, hp, rfl⟩ := List.mem_map.mp (List.mem_toFinset.mp hx)
    obtain ⟨q, hq, rfl⟩ := List.mem_map.mp (List.mem_toFinset.mp hy)
    exact Prod.ext (h p hp q hq hxy) hxy

/-- The part behind the last separator is determined, and so is the part before it. -/
theorem append_sep_injective {sep : α} {a a' b b' : List α} (hb : sep ∉ b)
    (hb' : sep ∉ b') (h : a ++ sep :: b = a' ++ sep :: b') : a = a' ∧ b = b' := by
  induction a generalizing a' with
  | nil =>
    cases a' with
    | nil => exact ⟨rfl, (List.cons.inj h).2⟩
    | cons x a' =>
      obtain ⟨-, htail⟩ := List.cons.inj h
      exact absurd (htail ▸ List.mem_append_right a' (List.mem_cons_self ..)) hb
  | cons x a ih =>
    cases a' with
    | nil =>
      obtain ⟨-, htail⟩ := List.cons.inj h
      exact absurd (htail ▸ List.mem_append_right a (List.mem_cons_self ..)) hb'
    | cons y a' =>
      obtain ⟨rfl, htail⟩ := List.cons.inj h
      obtain ⟨rfl, rfl⟩ := ih htail
      exact ⟨rfl, rfl⟩

/-- Of the elements of a list that have a property, there is a last one. -/
theorem exists_last_of_mem {P : α → Prop} {as : List α} (h : ∃ a ∈ as, P a) :
    ∃ before a after, as = before ++ a :: after ∧ P a ∧ ∀ later ∈ after, ¬ P later := by
  induction as with
  | nil => simp at h
  | cons a as ih =>
    by_cases htail : ∃ b ∈ as, P b
    · obtain ⟨before, b, after, rfl, hb, hlast⟩ := ih htail
      exact ⟨a :: before, b, after, rfl, hb, hlast⟩
    · have ha : P a := by
        obtain ⟨b, hb, hPb⟩ := h
        rcases List.mem_cons.mp hb with rfl | hmem
        · exact hPb
        · exact absurd ⟨b, hmem, hPb⟩ htail
      exact ⟨[], a, as, rfl, ha, fun later hlater hP => htail ⟨later, hlater, hP⟩⟩

/-- A list ends in a longest run of elements that pass a test. -/
theorem exists_trailing_run {α : Type*} (P : α → Bool) (as : List α) :
    ∃ before run, as = before ++ run ∧ (∀ a ∈ run, P a = true) ∧
      ∀ a ∈ before.getLast?, P a = false := by
  refine ⟨as.rdropWhile P, as.rtakeWhile P, rdropWhile_append_rtakeWhile.symm,
    fun a ha => mem_rtakeWhile_imp ha, fun a ha => ?_⟩
  have hne : as.rdropWhile P ≠ [] := by
    intro hnil
    rw [hnil] at ha
    cases ha
  have hlast := rdropWhile_last_not P as hne
  obtain rfl : (as.rdropWhile P).getLast hne = a := by
    rw [getLast?_eq_getLast_of_ne_nil hne] at ha
    exact Option.some.inj ha
  simpa using hlast

/-- Two relations that hold pairwise hold together. -/
theorem forall₂_and {R S : α → β → Prop} {as : List α} {bs : List β}
    (hR : List.Forall₂ R as bs) (hS : List.Forall₂ S as bs) :
    List.Forall₂ (fun a b => R a b ∧ S a b) as bs := by
  induction hR with
  | nil => exact .nil
  | cons hab _ ih =>
    cases hS with
    | cons hs htail => exact .cons ⟨hab, hs⟩ (ih htail)

/-- Relations between two lists and their images relate the images pairwise. -/
theorem forall₂_transfer {R : α → β → Prop} {S : α → γ → Prop} {T : β → δ → Prop}
    {U : γ → δ → Prop} (h : ∀ a b c d, R a b → S a c → T b d → U c d) {as : List α} {bs : List β}
    {cs : List γ} {ds : List δ} (hR : List.Forall₂ R as bs) (hS : List.Forall₂ S as cs)
    (hT : List.Forall₂ T bs ds) : List.Forall₂ U cs ds := by
  induction hR generalizing cs ds with
  | nil =>
    cases hS
    cases hT
    exact .nil
  | cons hab _ ih =>
    cases hS with
    | cons hac hS =>
      cases hT with
      | cons hbd hT => exact .cons (h _ _ _ _ hab hac hbd) (ih hS hT)

end List
