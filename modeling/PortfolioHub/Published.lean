import PortfolioHub.LivePositions

namespace PortfolioHub

/-- The positions most recently published, as the callers of the store see them:
a single position is added, a list takes the place of the rows it replaces. -/
def publish (published : List Position) : Mutation → List Position
  | .setPosition position => published ++ [position]
  | .replaceAll positions => positions
  | .replaceBroker broker positions => published.filter (·.broker ≠ broker) ++ positions

/-- The store after a sequence of calls. -/
def LivePositions.run (live : LivePositions) (ms : List Mutation) : LivePositions :=
  ms.foldl LivePositions.apply live

def publishAll (ms : List Mutation) : List Position := ms.foldl publish []

/-- What the broker says a row is a holding of. -/
def Position.holding (p : Position) : String × String × String :=
  (p.broker, p.accountId, p.nativeKey)

theorem get?_byKey_singleton (p : Position) (k : PositionKey) :
    (byKey [p]).get? k = if k = p.key then some p else none := by
  rw [byKey, OrderedDict.get?_ofList]
  exact OrderedDict.lookup_cons_eq _ _ _

theorem get?_byKey_append (ps qs : List Position) (k : PositionKey) :
    (byKey (ps ++ qs)).get? k = ((byKey qs).get? k).or ((byKey ps).get? k) := by
  simp [byKey, OrderedDict.get?_ofList, List.lookup_append]

theorem get?_byKey_filter (ps : List Position) (broker : String) (k : PositionKey) :
    (byKey (ps.filter (·.broker ≠ broker))).get? k =
      if k.1 ≠ broker then (byKey ps).get? k else none := by
  induction ps using List.reverseRecOn with
  | nil =>
    split <;> rfl
  | append_singleton ps p ih =>
    rw [List.filter_append, get?_byKey_append, get?_byKey_append, ih]
    have hnil : (byKey []).get? k = none := rfl
    by_cases hb : p.broker = broker
    · by_cases hk : k = p.key
      · have hkb : k.1 = broker := by rw [hk]; exact hb
        simp [hb, hkb, hnil]
      · simp [hb, get?_byKey_singleton, hk, hnil]
    · rw [List.filter_cons_of_pos (by simpa using hb), List.filter_nil, get?_byKey_singleton]
      by_cases hk : k = p.key
      · have hkb : k.1 ≠ broker := by rw [hk]; exact hb
        simp [hk ▸ hkb, hk]
      · simp [hk]

/-- A call on the store is a publication: the store keeps, for every key, the
position published last. -/
theorem apply_publishes {live : LivePositions} {published : List Position}
    (h : live.positions.Same (byKey published)) (m : Mutation) :
    (live.apply m).positions.Same (byKey (publish published m)) := by
  intro k
  cases m with
  | setPosition position =>
    rw [LivePositions.apply, LivePositions.get?_setPosition, publish, get?_byKey_append,
      get?_byKey_singleton, h k]
    split <;> rfl
  | replaceAll positions => exact LivePositions.get?_replaceAll live positions k
  | replaceBroker broker positions =>
    rw [LivePositions.apply, LivePositions.get?_replaceBroker, publish, get?_byKey_append,
      get?_byKey_filter, h k]

theorem run_publishes (ms : List Mutation) :
    (LivePositions.empty.run ms).positions.Same (byKey (publishAll ms)) := by
  have hfold : ∀ (live : LivePositions) (published : List Position),
      live.positions.Same (byKey published) →
        (live.run ms).positions.Same (byKey (ms.foldl publish published)) := by
    induction ms with
    | nil => exact fun _ _ h => h
    | cons m ms ih => exact fun live published h => ih _ _ (apply_publishes h m)
  exact hfold .empty [] (fun _ => rfl)

theorem keys_byKey (ps : List Position) : (byKey ps).keys.toFinset = (ps.map Position.key).toFinset := by
  ext k
  rw [List.mem_toFinset, List.mem_toFinset, OrderedDict.mem_keys_iff]
  simp only [byKey, OrderedDict.get?_ofList]
  rw [← Option.isSome_iff_exists, OrderedDict.lookup_isSome_iff]
  simp [Function.comp_def]

/-- As many rows are stored as there are distinct keys among the published positions. -/
theorem run_length (ms : List Mutation) :
    (LivePositions.empty.run ms).getAll.length =
      ((publishAll ms).map Position.key).toFinset.card := by
  rw [LivePositions.getAll, OrderedDict.length_values, ← keys_byKey,
    (run_publishes ms).length_keys]
  exact (List.toFinset_card_of_nodup (byKey (publishAll ms)).nodup).symm

end PortfolioHub
