import PortfolioHub.IbkrFeed

namespace PortfolioHub

namespace LivePositions

/-- Every row of the store has the property. -/
def Every (P : Position → Prop) (live : LivePositions) : Prop := ∀ p ∈ live.getAll, P p

variable {P : Position → Prop} {live : LivePositions}

theorem every_iff : live.Every P ↔ ∀ k p, live.positions.get? k = some p → P p := by
  constructor
  · intro h k p hp
    obtain rfl := live.keyed k p hp
    exact h p (mem_getAll_iff.mpr hp)
  · exact fun h p hp => h p.key p (mem_getAll_iff.mp hp)

theorem every_empty : empty.Every P := by
  rw [every_iff]
  intro k p hp
  have hnone : (OrderedDict.empty : OrderedDict PositionKey Position).get? k = some p := hp
  simp at hnone

theorem Every.setPosition (h : live.Every P) {p : Position} (hp : P p) :
    (live.setPosition p).Every P := by
  rw [every_iff] at h ⊢
  intro k q hq
  rw [get?_setPosition] at hq
  split at hq
  next =>
    obtain rfl := Option.some.inj hq
    exact hp
  next => exact h k q hq

theorem Every.setPositions (h : live.Every P) {rows : List Position} (hrows : ∀ p ∈ rows, P p) :
    (rows.foldl LivePositions.setPosition live).Every P := by
  induction rows generalizing live with
  | nil => exact h
  | cons p rows ih =>
    have hp : P p := hrows p (by simp)
    exact ih (h.setPosition hp) fun q hq => hrows q (List.mem_cons_of_mem _ hq)

theorem Every.replaceBroker (h : live.Every P) (broker : String) {rows : List Position}
    (hrows : ∀ p ∈ rows, P p) : (live.replaceBroker broker rows).Every P := by
  rw [every_iff] at h ⊢
  intro k q hq
  rw [get?_replaceBroker] at hq
  rcases Option.or_eq_some_iff.mp hq with hnew | ⟨-, hold⟩
  · exact hrows q (mem_of_get?_byKey hnew).1
  · split at hold
    next => exact h k q hold
    next => simp at hold

/-- A fold of writes to distinct rows of the store writes each of them once. -/
theorem get?_foldl_stale {base : LivePositions} {rows : List Position}
    (hrows : ∀ p ∈ rows, base.positions.get? p.key = some p) (live : LivePositions)
    (k : PositionKey) :
    (rows.foldl (fun live p => live.setPosition (staleRow p)) live).positions.get? k =
      if k ∈ rows.map Position.key then (base.positions.get? k).map staleRow
      else live.positions.get? k := by
  induction rows generalizing live with
  | nil => rfl
  | cons p rows ih =>
    have hp := hrows p (by simp)
    have hkey : (staleRow p).key = p.key := rfl
    rw [List.foldl_cons, ih (fun q hq => hrows q (List.mem_cons_of_mem _ hq)), get?_setPosition,
      List.map_cons, hkey]
    by_cases hk : k = p.key
    · subst hk
      simp [hp]
    · simp [hk]

end LivePositions

/-- The row the stale marking leaves in place of a row. -/
def markedRow (p : Position) : Position :=
  if p.assetClass ≠ .cash ∧ p.lastPriceIsStale = false then staleRow p else p

/-- `_mark_live_positions_stale` reads and writes every key once. -/
theorem IbkrFeed.get?_markLivePositionsStale (s : IbkrFeed) (k : PositionKey) :
    s.markLivePositionsStale.live.positions.get? k = (s.live.positions.get? k).map markedRow := by
  have hrows : ∀ p ∈ s.live.getAll.filter fun p =>
      p.assetClass ≠ .cash ∧ p.lastPriceIsStale = false, s.live.positions.get? p.key = some p :=
    fun p hp => LivePositions.mem_getAll_iff.mp (List.mem_of_mem_filter hp)
  unfold markLivePositionsStale
  dsimp only
  rw [LivePositions.get?_foldl_stale hrows]
  cases hget : s.live.positions.get? k with
  | none =>
    split
    next => rfl
    next => rfl
  | some p =>
    have hkey := s.live.keyed k p hget
    have hp : p ∈ s.live.getAll := LivePositions.mem_getAll_iff.mpr (hkey ▸ hget)
    by_cases hcond : p.assetClass ≠ .cash ∧ p.lastPriceIsStale = false
    · rw [if_pos]
      · simp [markedRow, hcond]
      · exact List.mem_map.mpr ⟨p, List.mem_filter.mpr ⟨hp, by simpa using hcond⟩, hkey⟩
    · rw [if_neg]
      · simp [markedRow, hcond]
      · intro hmem
        obtain ⟨q, hq, hqk⟩ := List.mem_map.mp hmem
        have hq' := hrows q hq
        rw [hqk, hget] at hq'
        obtain rfl := Option.some.inj hq'
        exact hcond (by simpa using (List.mem_filter.mp hq).2)

/-- Behind the handler of a disconnect every row but cash is stale. -/
theorem IbkrFeed.markLivePositionsStale_stale (s : IbkrFeed) :
    s.markLivePositionsStale.live.Every fun p => p.assetClass ≠ .cash → p.lastPriceIsStale = true := by
  rw [LivePositions.every_iff]
  intro k p hp hclass
  rw [get?_markLivePositionsStale] at hp
  obtain ⟨old, -, rfl⟩ := Option.map_eq_some_iff.mp hp
  unfold markedRow at hclass ⊢
  split
  next => rfl
  next hcond =>
    rw [if_neg hcond] at hclass
    by_contra hstale
    exact hcond ⟨hclass, by simpa using hstale⟩

end PortfolioHub
