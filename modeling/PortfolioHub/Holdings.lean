import PortfolioHub.Emitted
import PortfolioHub.Lists

namespace PortfolioHub

/-- The positions a call hands to the store. -/
def Mutation.arguments : Mutation → List Position
  | .setPosition position => [position]
  | .replaceAll positions => positions
  | .replaceBroker _ positions => positions

/-- No two published positions of different holdings fall into one entry, and there are
as many rows as holdings. -/
def NoHoldingLost (ms : List Mutation) : Prop :=
  (∀ p ∈ publishAll ms, ∀ q ∈ publishAll ms, p.holding ≠ q.holding → p.key ≠ q.key) ∧
    (LivePositions.empty.run ms).getAll.length =
      ((publishAll ms).map Position.holding).toFinset.card

theorem get?_byKey_eq_find? (ps : List Position) (k : PositionKey) :
    (byKey ps).get? k = ps.reverse.find? fun p => p.key = k := by
  induction ps using List.reverseRecOn with
  | nil => rfl
  | append_singleton ps p ih =>
    rw [get?_byKey_append, get?_byKey_singleton, ih, List.reverse_append, List.reverse_singleton,
      List.singleton_append, List.find?_cons]
    by_cases hk : p.key = k
    · simp [hk]
    · simp [hk, Ne.symm hk]

theorem publishAll_setPosition (ps : List Position) :
    publishAll (ps.map .setPosition) = ps := by
  have hfold : ∀ published, (ps.map .setPosition).foldl publish published = published ++ ps := by
    induction ps with
    | nil => simp
    | cons p ps ih => simp [publish, ih]
  exact hfold []

/-- What the store keeps of the positions most recently published: the last one of each
key, and so every holding exactly when keys and holdings determine each other. -/
theorem store_keeps_keys (ms : List Mutation) :
    (∀ k, (LivePositions.empty.run ms).positions.get? k =
      (publishAll ms).reverse.find? fun p => p.key = k) ∧
    (LivePositions.empty.run ms).getAll.length =
      ((publishAll ms).map Position.key).toFinset.card ∧
    (NoHoldingLost ms ↔ ∀ p ∈ publishAll ms, ∀ q ∈ publishAll ms,
      p.key = q.key ↔ p.holding = q.holding) := by
  refine ⟨fun k => (run_publishes ms k).trans (get?_byKey_eq_find? _ k), run_length ms, ?_⟩
  unfold NoHoldingLost
  rw [run_length]
  constructor
  · rintro ⟨hapart, hcard⟩ p hp q hq
    have hsame : ∀ p ∈ publishAll ms, ∀ q ∈ publishAll ms, p.key = q.key → p.holding = q.holding := by
      intro p hp q hq hkey
      by_contra hne
      exact hapart p hp q hq hne hkey
    exact ⟨hsame p hp q hq, (List.card_labels_eq_iff _ _ _ hsame).mp hcard p hp q hq⟩
  · intro h
    refine ⟨fun p hp q hq hne hkey => hne ((h p hp q hq).mp hkey), ?_⟩
    exact (List.card_labels_eq_iff _ _ _ fun p hp q hq => (h p hp q hq).mp).mpr
      fun p hp q hq => (h p hp q hq).mpr

/-- A symbol listed at two venues of one country, with a contract each. -/
def twoListings : IbReplies :=
  { sampleReplies [⟨"U1", ⟨1, "X", "STK", "TSX", "SMART", "CAD"⟩, 10, 5⟩,
      ⟨"U1", ⟨2, "X", "STK", "TSXV", "SMART", "CAD"⟩, 20, 5⟩] [] with
    details := fun conId => .ok (some ⟨if conId = 1 then "TSX" else "TSXV", "SMART", "X CORP", 1⟩) }

/-- The two listings have one canonical symbol: the second takes the row of the first. -/
theorem two_listings_share_a_row :
    ¬ ∀ ms : List Mutation, (∀ m ∈ ms, ∀ p ∈ m.arguments, Emitted p) → NoHoldingLost ms := by
  intro hall
  cases hrows : twoListings.getPositions sampleView with
  | error e =>
    have hok : (twoListings.getPositions sampleView).toOption.isSome = true := by decide +kernel
    simp [hrows, Except.toOption] at hok
  | ok rows =>
    have hlost := hall (rows.map .setPosition) fun m hm p hp => by
      obtain ⟨q, hq, rfl⟩ := List.mem_map.mp hm
      rw [List.mem_singleton.mp hp]
      exact .ibkr hrows hq
    have hkeys : (twoListings.getPositions sampleView).toOption.map (fun rows =>
        ((rows.map Position.key).toFinset.card, (rows.map Position.holding).toFinset.card)) =
          some (1, 2) := by decide +kernel
    rw [hrows] at hkeys
    obtain ⟨hone, htwo⟩ := Prod.mk.inj (Option.some.inj hkeys)
    have hcard := hlost.2
    rw [run_length, publishAll_setPosition, hone, htwo] at hcard
    exact absurd hcard (by decide)

end PortfolioHub
