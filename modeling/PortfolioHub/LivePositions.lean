import PortfolioHub.OrderedDict
import PortfolioHub.Sha1
import PortfolioHub.Position

namespace PortfolioHub

/-- `(broker, account_id, canonical_symbol)`. -/
abbrev PositionKey := String × String × String

def Position.key (p : Position) : PositionKey := (p.broker, p.accountId, p.canonicalSymbol)

/-- `{_key(p): p for p in positions}`. -/
def byKey (positions : List Position) : OrderedDict PositionKey Position :=
  OrderedDict.ofList (positions.map fun p => (p.key, p))

/-- The store: every position sits under its own key. `changed` is the value of the event. -/
structure LivePositions where
  positions : OrderedDict PositionKey Position
  keyed : ∀ k p, positions.get? k = some p → p.key = k
  changed : Bool

theorem mem_of_get?_byKey {positions : List Position} {k : PositionKey} {p : Position}
    (h : (byKey positions).get? k = some p) : p ∈ positions ∧ p.key = k := by
  rw [byKey, OrderedDict.get?_ofList] at h
  have hm : (k, p) ∈ (positions.map fun p => (p.key, p)).reverse :=
    OrderedDict.mem_of_lookup h
  obtain ⟨q, hq, he⟩ := List.mem_map.mp (List.mem_reverse.mp hm)
  obtain ⟨hk, rfl⟩ := Prod.mk.inj he
  exact ⟨hq, hk⟩

theorem get?_byKey_of_mem {positions : List Position} {p : Position} (h : p ∈ positions) :
    ∃ q, (byKey positions).get? p.key = some q := by
  rw [byKey, OrderedDict.get?_ofList, ← Option.isSome_iff_exists, OrderedDict.lookup_isSome_iff]
  rw [List.map_reverse, List.mem_reverse, List.map_map]
  exact List.mem_map_of_mem h

namespace LivePositions

def empty : LivePositions := ⟨.empty, by simp, false⟩

def getAll (live : LivePositions) : List Position := live.positions.values

def clear (live : LivePositions) : LivePositions := { live with changed := false }

/-- Nothing happens when the key already holds an equal position. -/
def setPosition (live : LivePositions) (position : Position) : LivePositions :=
  if live.positions.get? position.key = some position then live
  else
    { positions := live.positions.insert position.key position
      keyed := by
        intro k p h
        rw [OrderedDict.get?_insert] at h
        split at h
        next hk =>
          obtain rfl := Option.some.inj h
          exact hk.symm
        next => exact live.keyed k p h
      changed := true }

def replaceAll (live : LivePositions) (positions : List Position) : LivePositions :=
  if (byKey positions).Same live.positions then live
  else ⟨byKey positions, fun _ _ h => (mem_of_get?_byKey h).2, true⟩

/-- The dictionary `replace_broker` builds: the other brokers' rows, then the new ones. -/
def brokerMap (live : LivePositions) (broker : String) (positions : List Position) :
    OrderedDict PositionKey Position :=
  (live.positions.filterKeys fun key => key.1 ≠ broker).update (byKey positions).entries

theorem get?_brokerMap (live : LivePositions) (broker : String) (positions : List Position)
    (k : PositionKey) :
    (live.brokerMap broker positions).get? k =
      ((byKey positions).get? k).or (if k.1 ≠ broker then live.positions.get? k else none) := by
  rw [brokerMap, OrderedDict.get?_update, OrderedDict.lookup_reverse_entries,
    OrderedDict.get?_filterKeys]
  by_cases hk : k.1 = broker <;> simp [hk]

def replaceBroker (live : LivePositions) (broker : String) (positions : List Position) :
    LivePositions :=
  if (live.brokerMap broker positions).Same live.positions then live
  else
    { positions := live.brokerMap broker positions
      keyed := by
        intro k p h
        rw [get?_brokerMap] at h
        rcases Option.or_eq_some_iff.mp h with hnew | ⟨-, hold⟩
        · exact (mem_of_get?_byKey hnew).2
        · split at hold
          next => exact live.keyed k p hold
          next => simp at hold
      changed := true }

theorem mem_getAll_iff {live : LivePositions} {p : Position} :
    p ∈ live.getAll ↔ live.positions.get? p.key = some p := by
  rw [getAll, OrderedDict.mem_values_iff]
  constructor
  · rintro ⟨k, h⟩
    obtain rfl := live.keyed k p h
    exact h
  · exact fun h => ⟨_, h⟩

theorem get?_setPosition (live : LivePositions) (position : Position) (k : PositionKey) :
    (live.setPosition position).positions.get? k =
      if k = position.key then some position else live.positions.get? k := by
  unfold setPosition
  split
  next hsame =>
    split
    next hk => rw [hk, hsame]
    next => rfl
  next => exact OrderedDict.get?_insert ..

theorem get?_replaceAll (live : LivePositions) (positions : List Position) (k : PositionKey) :
    (live.replaceAll positions).positions.get? k = (byKey positions).get? k := by
  unfold replaceAll
  split
  next hsame => exact (hsame k).symm
  next => rfl

theorem get?_replaceBroker (live : LivePositions) (broker : String) (positions : List Position)
    (k : PositionKey) :
    (live.replaceBroker broker positions).positions.get? k =
      ((byKey positions).get? k).or (if k.1 ≠ broker then live.positions.get? k else none) := by
  rw [← get?_brokerMap]
  unfold replaceBroker
  split
  next hsame => exact (hsame k).symm
  next => rfl

end LivePositions

/-- A call that writes the store. -/
inductive Mutation where
  | setPosition (position : Position)
  | replaceAll (positions : List Position)
  | replaceBroker (broker : String) (positions : List Position)
deriving DecidableEq, Repr

def LivePositions.apply (live : LivePositions) : Mutation → LivePositions
  | .setPosition position => live.setPosition position
  | .replaceAll positions => live.replaceAll positions
  | .replaceBroker broker positions => live.replaceBroker broker positions

/-- A call either leaves the store as it was or sets the event. -/
theorem LivePositions.apply_changed (live : LivePositions) (m : Mutation) :
    live.apply m = live ∨ (live.apply m).changed = true := by
  cases m with
  | setPosition position =>
    rw [apply, setPosition]
    split
    next => exact Or.inl rfl
    next => exact Or.inr rfl
  | replaceAll positions =>
    rw [apply, replaceAll]
    split
    next => exact Or.inl rfl
    next => exact Or.inr rfl
  | replaceBroker broker positions =>
    rw [apply, replaceBroker]
    split
    next => exact Or.inl rfl
    next => exact Or.inr rfl

/-- The text `hash_position` digests. -/
def hashPayload (p : Position) : String :=
  let flag (b : Bool) : String := if b then "1" else "0"
  p.nameEn ++ "|" ++ p.currency ++ "|" ++ p.quantity.str ++ "|" ++
    p.lastPrice.str ++ "|" ++ p.marketValueNative.str ++ "|" ++
    p.marketValueUsd.str ++ "|" ++ p.unrealizedPnlNative.str ++ "|" ++
    p.unrealizedPnlUsd.str ++ "|" ++ flag p.lastPriceIsStale ++ "|" ++
    flag p.lastPriceIsBrokerMark ++ "|" ++ flag p.lastPriceIsDelayed

/-- The first sixteen hexadecimal digits of the SHA-1 digest. -/
def shortDigest (payload : String) : String :=
  String.ofList ((Sha1.hexdigest (Sha1.utf8 payload)).toList.take 16)

def hashPosition (p : Position) : String := shortDigest (hashPayload p)

/-- `{_key(p): hash_position(p) for p in positions}`. -/
def positionHashes (positions : List Position) : OrderedDict PositionKey String :=
  OrderedDict.ofList (positions.map fun p => (p.key, hashPosition p))

def LivePositions.hashes (live : LivePositions) : OrderedDict PositionKey String :=
  positionHashes live.getAll

end PortfolioHub
