import Mathlib

universe u v w

/-- Writers with a memory each, and a store behind them with one value for each key: the writes
of a writer reach the store in their order, those of different writers in any order. -/
@[ext] structure WriteBehind (ι : Type u) (κ : Type v) (α : Type w) where
  memory : ι → κ → Option α
  pending : ι → List (κ × α)
  stored : κ → Option (ι × α)
  lost : Bool

namespace WriteBehind

variable {ι : Type u} {κ : Type v} {α : Type w}

inductive Event (ι : Type u) (κ : Type v) (α : Type w) where
  | write (i : ι) (k : κ) (v : α)
  | persist (i : ι)
  | lose (i : ι)

def Flushed (s : WriteBehind ι κ α) : Prop := (∀ i, s.pending i = []) ∧ s.lost = false

variable [DecidableEq κ]

/-- The write of the key that the writer's writes will leave in the store. -/
def due (s : WriteBehind ι κ α) (i : ι) (k : κ) : Option α := (s.pending i).reverse.lookup k

/-- What the writer's memory has is what it has written last. -/
structure Tracks (s : WriteBehind ι κ α) (i : ι) (k : κ) : Prop where
  due : ∀ v, s.due i k = some v → s.memory i k = some v
  stored : s.due i k = none → ∀ v, s.stored k = some (i, v) → s.memory i k = some v
  known : s.due i k = none → s.stored k = none → s.memory i k = none

theorem Tracks.congr {s s' : WriteBehind ι κ α} {i : ι} {k : κ} (h : s.Tracks i k)
    (hdue : s'.due i k = s.due i k) (hmemory : s'.memory i k = s.memory i k)
    (hstored : s'.stored k = s.stored k) : s'.Tracks i k := by
  refine ⟨?_, ?_, ?_⟩
  · rw [hdue, hmemory]
    exact h.due
  · rw [hdue, hmemory, hstored]
    exact h.stored
  · rw [hdue, hmemory, hstored]
    exact h.known

/-- With every write in the store, it has each key from a writer whose memory has the same. -/
theorem Tracks.of_flushed {s : WriteBehind ι κ α} {k : κ} (h : ∀ i, s.Tracks i k)
    (hflushed : s.Flushed) :
    (∀ i v, s.stored k = some (i, v) → s.memory i k = some v) ∧
      (s.stored k = none → ∀ i, s.memory i k = none) := by
  have hdue : ∀ i, s.due i k = none := by simp [WriteBehind.due, hflushed.1]
  exact ⟨fun i v => (h i).stored (hdue i) v, fun hnone i => (h i).known (hdue i) hnone⟩

variable [DecidableEq ι]

def write (s : WriteBehind ι κ α) (i : ι) (k : κ) (v : α) : WriteBehind ι κ α :=
  { s with
    memory := Function.update s.memory i (Function.update (s.memory i) k (some v))
    pending := Function.update s.pending i (s.pending i ++ [(k, v)]) }

/-- The store takes the writer's next write. -/
def persist (s : WriteBehind ι κ α) (i : ι) : WriteBehind ι κ α :=
  match s.pending i with
  | [] => s
  | (k, v) :: rest =>
    { s with
      pending := Function.update s.pending i rest
      stored := Function.update s.stored k (some (i, v)) }

/-- The store refuses the writer's next write. -/
def lose (s : WriteBehind ι κ α) (i : ι) : WriteBehind ι κ α :=
  match s.pending i with
  | [] => s
  | _ :: rest => { s with pending := Function.update s.pending i rest, lost := true }

def step (s : WriteBehind ι κ α) : Event ι κ α → WriteBehind ι κ α
  | .write i k v => s.write i k v
  | .persist i => s.persist i
  | .lose i => s.lose i

theorem persist_nil {s : WriteBehind ι κ α} {i : ι} (h : s.pending i = []) : s.persist i = s := by
  simp [persist, h]

theorem persist_cons {s : WriteBehind ι κ α} {i : ι} {k : κ} {v : α} {rest : List (κ × α)}
    (h : s.pending i = (k, v) :: rest) :
    s.persist i =
      ⟨s.memory, Function.update s.pending i rest, Function.update s.stored k (some (i, v)), s.lost⟩ := by
  simp [persist, h]

omit [DecidableEq κ] in
theorem lose_cons {s : WriteBehind ι κ α} {i : ι} {w : κ × α} {rest : List (κ × α)}
    (h : s.pending i = w :: rest) :
    s.lose i = ⟨s.memory, Function.update s.pending i rest, s.stored, true⟩ := by
  simp [lose, h]

theorem Tracks.write {s : WriteBehind ι κ α} {i : ι} {k : κ} (h : s.Tracks i k) (j : ι) (l : κ)
    (v : α) : (s.write j l v).Tracks i k := by
  by_cases hjl : i = j ∧ k = l
  · obtain ⟨rfl, rfl⟩ := hjl
    have hdue : (s.write i k v).due i k = some v := by simp [WriteBehind.due, WriteBehind.write]
    have hmemory : (s.write i k v).memory i k = some v := by simp [WriteBehind.write]
    refine ⟨?_, ?_, ?_⟩
    · intro w hw
      rw [hmemory, ← hdue, hw]
    · intro hnone
      rw [hdue] at hnone
      cases hnone
    · intro hnone
      rw [hdue] at hnone
      cases hnone
  · refine h.congr ?_ ?_ rfl
    · unfold WriteBehind.due WriteBehind.write
      by_cases hi : i = j
      · subst hi
        have hk : k ≠ l := fun hk => hjl ⟨rfl, hk⟩
        simp [List.lookup_cons, beq_eq_false_iff_ne.mpr hk]
      · simp [hi]
    · unfold WriteBehind.write
      by_cases hi : i = j
      · subst hi
        have hk : k ≠ l := fun hk => hjl ⟨rfl, hk⟩
        simp [hk]
      · simp [hi]

theorem Tracks.persist {s : WriteBehind ι κ α} {i : ι} {k : κ} (h : s.Tracks i k) (j : ι) :
    (s.persist j).Tracks i k := by
  rcases hpending : s.pending j with - | ⟨⟨l, v⟩, rest⟩
  · rw [persist_nil hpending]
    exact h
  · rw [persist_cons hpending]
    set s' : WriteBehind ι κ α := ⟨s.memory, Function.update s.pending j rest,
      Function.update s.stored l (some (j, v)), s.lost⟩ with hs'
    have hstored : s'.stored k = if k = l then some (j, v) else s.stored k := by
      simp [hs', Function.update_apply]
    have hdue : s.due i k = (s'.due i k).or (if i = j ∧ k = l then some v else none) := by
      unfold WriteBehind.due
      by_cases hi : i = j
      · subst hi
        rw [hpending, List.reverse_cons, List.lookup_append]
        by_cases hk : k = l
        · subst hk
          simp [hs']
        · simp [hs', hk, List.lookup_cons, beq_eq_false_iff_ne.mpr hk]
      · simp [hs', hi]
    refine ⟨?_, ?_, ?_⟩
    · intro w hw
      exact h.due w (by rw [hdue, hw, Option.some_or])
    · intro hnone w hw
      rw [hnone, Option.none_or] at hdue
      rw [hstored] at hw
      by_cases hk : k = l
      · rw [if_pos hk] at hw
        obtain ⟨rfl, rfl⟩ := Prod.mk.inj (Option.some.inj hw)
        exact h.due _ (by rw [hdue, if_pos ⟨rfl, hk⟩])
      · rw [if_neg hk] at hw
        exact h.stored (by rw [hdue, if_neg fun hjl => hk hjl.2]) w hw
    · intro hnone hw
      rw [hnone, Option.none_or] at hdue
      rw [hstored] at hw
      by_cases hk : k = l
      · rw [if_pos hk] at hw
        cases hw
      · rw [if_neg hk] at hw
        exact h.known (by rw [hdue, if_neg fun hjl => hk hjl.2]) hw

theorem persist_lost (s : WriteBehind ι κ α) (j : ι) : (s.persist j).lost = s.lost := by
  unfold persist
  split
  next => rfl
  next => rfl

/-- Up to the first refused write. -/
theorem Tracks.step {s : WriteBehind ι κ α} {i : ι} {k : κ} (h : s.lost = false → s.Tracks i k)
    (e : Event ι κ α) : (s.step e).lost = false → (s.step e).Tracks i k := by
  cases e with
  | write j l v => exact fun hlost => (h hlost).write j l v
  | persist j => exact fun hlost => (h ((s.persist_lost j).symm.trans hlost)).persist j
  | lose j =>
    change (s.lose j).lost = false → (s.lose j).Tracks i k
    unfold lose
    split
    next => exact h
    next => exact fun hlost => by cases hlost

end WriteBehind
