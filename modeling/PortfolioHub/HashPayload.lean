import PortfolioHub.Lists
import PortfolioHub.LivePositions

namespace PortfolioHub

/-- What the hash of a row covers. The name and the currency are joined by the separator
of the fields, which a name may contain itself. -/
structure SameHashed (p q : Position) : Prop where
  label : p.nameEn ++ "|" ++ p.currency = q.nameEn ++ "|" ++ q.currency
  quantity : p.quantity = q.quantity
  lastPrice : p.lastPrice = q.lastPrice
  marketValueNative : p.marketValueNative = q.marketValueNative
  marketValueUsd : p.marketValueUsd = q.marketValueUsd
  unrealizedPnlNative : p.unrealizedPnlNative = q.unrealizedPnlNative
  unrealizedPnlUsd : p.unrealizedPnlUsd = q.unrealizedPnlUsd
  lastPriceIsStale : p.lastPriceIsStale = q.lastPriceIsStale
  lastPriceIsBrokerMark : p.lastPriceIsBrokerMark = q.lastPriceIsBrokerMark
  lastPriceIsDelayed : p.lastPriceIsDelayed = q.lastPriceIsDelayed

theorem append_bar_injective {a a' b b' : String} (hb : '|' ∉ b.toList) (hb' : '|' ∉ b'.toList)
    (h : a ++ "|" ++ b = a' ++ "|" ++ b') : a = a' ∧ b = b' := by
  have hchars : a.toList ++ '|' :: b.toList = a'.toList ++ '|' :: b'.toList := by
    simpa [String.toList_append] using congrArg String.toList h
  obtain ⟨ha, hb⟩ := List.append_sep_injective hb hb' hchars
  exact ⟨String.toList_injective ha, String.toList_injective hb⟩

theorem str_no_bar (x : Python.Float) : '|' ∉ x.str.toList := by
  intro h
  rcases Python.Float.str_chars h with h | h | h | h
  · exact absurd h (by decide)
  · exact absurd h (by decide)
  · exact absurd h (by decide)
  · exact absurd h (by decide)

theorem flag_no_bar (b : Bool) : '|' ∉ (if b then "1" else "0" : String).toList := by
  cases b <;> decide

theorem flag_injective {a b : Bool} (h : (if a then "1" else "0" : String) = if b then "1" else "0") :
    a = b := by
  revert h
  cases a <;> cases b <;> decide

/-- Two rows have one payload exactly when they agree in what the hash covers: the texts of
the numbers and the flags contain no separator. -/
theorem hashPayload_eq_iff (p q : Position) : hashPayload p = hashPayload q ↔ SameHashed p q := by
  constructor
  · intro h
    obtain ⟨h, hdelayed⟩ := append_bar_injective (flag_no_bar _) (flag_no_bar _) h
    obtain ⟨h, hmark⟩ := append_bar_injective (flag_no_bar _) (flag_no_bar _) h
    obtain ⟨h, hstale⟩ := append_bar_injective (flag_no_bar _) (flag_no_bar _) h
    obtain ⟨h, hpnlUsd⟩ := append_bar_injective (str_no_bar _) (str_no_bar _) h
    obtain ⟨h, hpnlNative⟩ := append_bar_injective (str_no_bar _) (str_no_bar _) h
    obtain ⟨h, hmvUsd⟩ := append_bar_injective (str_no_bar _) (str_no_bar _) h
    obtain ⟨h, hmvNative⟩ := append_bar_injective (str_no_bar _) (str_no_bar _) h
    obtain ⟨h, hlast⟩ := append_bar_injective (str_no_bar _) (str_no_bar _) h
    obtain ⟨h, hquantity⟩ := append_bar_injective (str_no_bar _) (str_no_bar _) h
    exact {
      label := h
      quantity := Python.Float.str_injective hquantity
      lastPrice := Python.Float.str_injective hlast
      marketValueNative := Python.Float.str_injective hmvNative
      marketValueUsd := Python.Float.str_injective hmvUsd
      unrealizedPnlNative := Python.Float.str_injective hpnlNative
      unrealizedPnlUsd := Python.Float.str_injective hpnlUsd
      lastPriceIsStale := flag_injective hstale
      lastPriceIsBrokerMark := flag_injective hmark
      lastPriceIsDelayed := flag_injective hdelayed }
  · intro h
    unfold hashPayload
    rw [h.label, h.quantity, h.lastPrice, h.marketValueNative, h.marketValueUsd,
      h.unrealizedPnlNative, h.unrealizedPnlUsd, h.lastPriceIsStale, h.lastPriceIsBrokerMark,
      h.lastPriceIsDelayed]

theorem keys_getAll (live : LivePositions) : live.getAll.map Position.key = live.positions.keys := by
  rw [LivePositions.getAll, OrderedDict.values, OrderedDict.keys, List.map_map]
  apply List.map_congr_left
  intro e he
  exact live.keyed e.1 e.2 (OrderedDict.get?_eq_some_iff.mpr he)

theorem get?_hashes {live : LivePositions} {p : Position} (hp : p ∈ live.getAll) :
    live.hashes.get? p.key = some (hashPosition p) := by
  have hnodup : ((live.getAll.map fun p => (p.key, hashPosition p)).reverse.map Prod.fst).Nodup := by
    rw [List.map_reverse, List.nodup_reverse, List.map_map]
    exact (keys_getAll live).symm ▸ live.positions.nodup
  rw [LivePositions.hashes, positionHashes, OrderedDict.get?_ofList,
    OrderedDict.lookup_eq_some_iff_mem hnodup, List.mem_reverse]
  exact List.mem_map_of_mem hp

/-- Two stores with the same keys in the same order: their rows stand pairwise under one key. -/
def SameKeys (before after : LivePositions) : Prop :=
  before.getAll.map Position.key = after.getAll.map Position.key

instance (before after : LivePositions) : Decidable (SameKeys before after) :=
  inferInstanceAs (Decidable (_ = _))

theorem SameKeys.pairs {before after : LivePositions} (h : SameKeys before after) :
    List.Forall₂ (fun p q => p ∈ before.getAll ∧ q ∈ after.getAll ∧ p.key = q.key)
      before.getAll after.getAll := by
  have hkeys : List.Forall₂ (· = ·) (before.getAll.map Position.key)
      (after.getAll.map Position.key) := by
    rw [List.forall₂_eq_eq_eq]
    exact h
  rw [List.forall₂_map_left_iff, List.forall₂_map_right_iff, List.forall₂_iff_zip] at hkeys
  rw [List.forall₂_iff_zip]
  refine ⟨hkeys.1, fun hmem => ?_⟩
  exact ⟨(List.of_mem_zip hmem).1, (List.of_mem_zip hmem).2, hkeys.2 hmem⟩

/-- Where the digest is injective, equal hash maps are equal covered fields, row by row. -/
theorem hashes_same_iff {before after : LivePositions} (hkeys : SameKeys before after)
    (hinj : ∀ p ∈ before.getAll, ∀ q ∈ after.getAll,
      shortDigest (hashPayload p) = shortDigest (hashPayload q) → hashPayload p = hashPayload q) :
    before.hashes.Same after.hashes ↔ List.Forall₂ SameHashed before.getAll after.getAll := by
  constructor
  · intro hsame
    refine hkeys.pairs.imp fun p q hpair => ?_
    obtain ⟨hp, hq, hkey⟩ := hpair
    have hget := hsame p.key
    rw [get?_hashes hp, hkey, get?_hashes hq] at hget
    exact (hashPayload_eq_iff p q).mp (hinj p hp q hq (Option.some.inj hget))
  · intro hpairs
    have hlists : (before.getAll.map fun p => (p.key, hashPosition p)) =
        after.getAll.map fun p => (p.key, hashPosition p) := by
      rw [← List.forall₂_eq_eq_eq, List.forall₂_map_left_iff, List.forall₂_map_right_iff]
      refine (List.forall₂_and hkeys.pairs hpairs).imp fun p q hpair => ?_
      rw [hpair.1.2.2, hashPosition, hashPosition, (hashPayload_eq_iff p q).mpr hpair.2]
    intro k
    rw [LivePositions.hashes, LivePositions.hashes, positionHashes, positionHashes, hlists]

end PortfolioHub
