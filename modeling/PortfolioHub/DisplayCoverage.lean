import PortfolioHub.IbkrSeed
import PortfolioHub.Render
import PortfolioHub.RowCoverage

namespace PortfolioHub

/-- What the page shows of an SSE push. -/
def StreamPayload.shown (payload : StreamPayload) : List RowView × Hero :=
  (payload.rows.map (·.view), payload.hero)

/-- A change of the store that changes, under some filters, what the page shows changes
the hashes. -/
def DisplayCovered (before after : LivePositions) : Prop :=
  ∀ f a b, renderStreamPayload before.getAll f = .ok a →
    renderStreamPayload after.getAll f = .ok b → a.shown ≠ b.shown →
      ¬ before.hashes.Same after.hashes

/-- The totals of the rows read the same under every filter. -/
def SameTotals (ps qs : List Position) : Prop :=
  ∀ f, (computeTotals (applyFilters ps f)).map hero = (computeTotals (applyFilters qs f)).map hero

/-- Corresponding rows that agree in the hashed fields and in what is shown of the others. -/
structure Alike (p q : Position) : Prop where
  key : p.key = q.key
  hashed : SameHashed p q
  unhashed : SameUnhashed p q

/-- A row whose availability of a rate differs is worth nothing. -/
theorem sum_available_congr {ps qs : List Position} (h : List.Forall₂ Alike ps qs) :
    sum ((ps.filter fun p => !p.fxUnavailable).map (·.marketValueUsd)) =
      sum ((qs.filter fun p => !p.fxUnavailable).map (·.marketValueUsd)) := by
  have hfold : ∀ total : Python.Float,
      ((ps.filter fun p => !p.fxUnavailable).map (·.marketValueUsd)).foldl (· + ·) total =
        ((qs.filter fun p => !p.fxUnavailable).map (·.marketValueUsd)).foldl (· + ·) total := by
    induction h with
    | nil => exact fun _ => rfl
    | @cons p q ps qs hpq _ ih =>
      intro total
      by_cases hvalue : p.marketValueUsd = 0
      · have hvalue' : q.marketValueUsd = 0 := hpq.hashed.marketValueUsd ▸ hvalue
        cases hp : p.fxUnavailable <;> cases hq : q.fxUnavailable <;>
          simp [hp, hq, hvalue, hvalue', Python.Float.add_zero, ih]
      · have hfx := fxUnavailable_congr hpq.hashed hpq.unhashed hvalue
        cases hp : p.fxUnavailable with
        | false => simp [hp, ← hfx, hpq.hashed.marketValueUsd, ih]
        | true => simp [hp, ← hfx, ih]
  exact hfold 0

theorem filterBy_alike {active : String} {field : Position → String} {ps qs : List Position}
    (hfield : ∀ p q, Alike p q → field p = field q) (h : List.Forall₂ Alike ps qs) :
    List.Forall₂ Alike (filterBy active field ps) (filterBy active field qs) := by
  unfold filterBy
  split
  next => exact List.rel_filter (fun p q hpq => by simp [hfield p q hpq]) h
  next => exact h

/-- The filters show corresponding rows. -/
theorem applyFilters_alike {ps qs : List Position} (h : List.Forall₂ Alike ps qs) (f : Filters) :
    List.Forall₂ Alike (applyFilters ps f) (applyFilters qs f) := by
  refine filterBy_alike (fun p q hpq => congrArg Prod.fst hpq.key) ?_
  refine filterBy_alike (fun p q hpq => congrArg AssetClass.text hpq.unhashed.assetClass) ?_
  exact filterBy_alike (fun p q hpq => congrArg (fun k : PositionKey => k.2.1) hpq.key) h

/-- Alike rows whose totals read the same are shown alike. -/
theorem shown_congr {ps qs : List Position} (h : List.Forall₂ Alike ps qs)
    (htotals : SameTotals ps qs) {f : Filters} {a b : StreamPayload}
    (ha : renderStreamPayload ps f = .ok a) (hb : renderStreamPayload qs f = .ok b) :
    a.shown = b.shown := by
  obtain ⟨totals, hta, hrows, hheroa⟩ := renderStreamPayload_parts ha
  obtain ⟨totals', htb, hrows', hherob⟩ := renderStreamPayload_parts hb
  have halike := applyFilters_alike h f
  have hmv : totals.mvUsd = totals'.mvUsd := by
    rw [(computeTotals_parts hta).1, (computeTotals_parts htb).1, sum_available_congr halike]
  have hviews : List.Forall₂ (fun row row' : HoldingsRow => row.view = row'.view) a.rows b.rows := by
    refine List.forall₂_transfer (fun p q row row' hpq hrow hrow' => ?_) halike hrows hrows'
    exact view_congr hpq.hashed hpq.unhashed (congrArg (fun k : PositionKey => k.2.1) hpq.key) hmv
      hrow hrow'
  have hhero : hero totals = hero totals' := by
    have hf := htotals f
    rw [hta, htb] at hf
    exact Except.ok.inj hf
  refine Prod.ext ?_ ?_
  · change a.rows.map (·.view) = b.rows.map (·.view)
    rw [← List.forall₂_eq_eq_eq, List.forall₂_map_left_iff, List.forall₂_map_right_iff]
    exact hviews
  · exact hheroa.trans (hhero.trans hherob.symm)

/-- Rows that agree in the hashed fields are shown alike only if they agree in what is shown
of the others. -/
theorem unhashed_of_shown {ps qs : List Position} (h : List.Forall₂ SameHashed ps qs)
    {a b : StreamPayload} (ha : renderStreamPayload ps .all = .ok a)
    (hb : renderStreamPayload qs .all = .ok b) (heq : a.shown = b.shown) :
    List.Forall₂ SameUnhashed ps qs := by
  obtain ⟨totals, -, hrows, -⟩ := renderStreamPayload_parts ha
  obtain ⟨totals', -, hrows', -⟩ := renderStreamPayload_parts hb
  rw [applyFilters_all] at hrows hrows'
  have hviews : List.Forall₂ (fun row row' : HoldingsRow => row.view = row'.view) a.rows b.rows := by
    have hmap : a.rows.map (·.view) = b.rows.map (·.view) := congrArg Prod.fst heq
    rwa [← List.forall₂_eq_eq_eq, List.forall₂_map_left_iff, List.forall₂_map_right_iff] at hmap
  have hpairs : List.Forall₂ (fun p q => SameHashed p q → SameUnhashed p q) ps qs := by
    refine List.forall₂_transfer ?_ hviews hrows.flip hrows'.flip
    exact fun row row' p q hview hrow hrow' hh => unhashed_of_view hh hrow hrow' hview
  exact (List.forall₂_and hpairs h).imp fun p q hpq => hpq.1 hpq.2

theorem hero_of_shown {ps qs : List Position} {f : Filters} {a b : StreamPayload}
    (ha : renderStreamPayload ps f = .ok a) (hb : renderStreamPayload qs f = .ok b)
    (heq : a.shown = b.shown) :
    (computeTotals (applyFilters ps f)).map hero = (computeTotals (applyFilters qs f)).map hero := by
  obtain ⟨totals, hta, -, hheroa⟩ := renderStreamPayload_parts ha
  obtain ⟨totals', htb, -, hherob⟩ := renderStreamPayload_parts hb
  have hhero : a.hero = b.hero := congrArg Prod.snd heq
  rw [hta, htb]
  exact congrArg Except.ok (hheroa.symm.trans (hhero.trans hherob))

/-- When the hashes cover the display: some hashed field differs, or what is shown of the
other fields agrees. The converse is about stores whose page renders. -/
theorem hashes_cover_display_iff {before after : LivePositions} (hkeys : SameKeys before after)
    (hinj : ∀ p ∈ before.getAll, ∀ q ∈ after.getAll,
      shortDigest (hashPayload p) = shortDigest (hashPayload q) → hashPayload p = hashPayload q) :
    ((¬ List.Forall₂ SameHashed before.getAll after.getAll ∨
        List.Forall₂ SameUnhashed before.getAll after.getAll ∧
          SameTotals before.getAll after.getAll) → DisplayCovered before after) ∧
    ((∀ p ∈ before.getAll ++ after.getAll, p.Renderable) → DisplayCovered before after →
      ¬ List.Forall₂ SameHashed before.getAll after.getAll ∨
        List.Forall₂ SameUnhashed before.getAll after.getAll ∧
          SameTotals before.getAll after.getAll) := by
  constructor
  · rintro (hdiffer | ⟨hunhashed, htotals⟩) f a b ha hb hne hsame
    · exact hdiffer ((hashes_same_iff hkeys hinj).mp hsame)
    · have hhashed := (hashes_same_iff hkeys hinj).mp hsame
      refine hne (shown_congr ?_ htotals ha hb)
      exact (List.forall₂_and hkeys.pairs (List.forall₂_and hhashed hunhashed)).imp
        fun p q hpq => ⟨hpq.1.2.2, hpq.2.1, hpq.2.2⟩
  · intro hrenderable hcovered
    by_cases hhashed : List.Forall₂ SameHashed before.getAll after.getAll
    · have hsame := (hashes_same_iff hkeys hinj).mpr hhashed
      have hshown : ∀ f a b, renderStreamPayload before.getAll f = .ok a →
          renderStreamPayload after.getAll f = .ok b → a.shown = b.shown := by
        intro f a b ha hb
        by_contra hne
        exact hcovered f a b ha hb hne hsame
      have hbefore : ∀ f, ∃ a, renderStreamPayload before.getAll f = .ok a := fun f =>
        (renderStreamPayload_defined_iff _ f).mpr fun p hp =>
          hrenderable p (List.mem_append_left _ (mem_applyFilters hp))
      have hafter : ∀ f, ∃ b, renderStreamPayload after.getAll f = .ok b := fun f =>
        (renderStreamPayload_defined_iff _ f).mpr fun p hp =>
          hrenderable p (List.mem_append_right _ (mem_applyFilters hp))
      obtain ⟨a, ha⟩ := hbefore .all
      obtain ⟨b, hb⟩ := hafter .all
      refine Or.inr ⟨unhashed_of_shown hhashed ha hb (hshown .all a b ha hb), fun f => ?_⟩
      obtain ⟨a, ha⟩ := hbefore f
      obtain ⟨b, hb⟩ := hafter f
      exact hero_of_shown ha hb (hshown f a b ha hb)
    · exact Or.inl hhashed

/-- The store after a connect with one Apple share, and what follows it. -/
def storeAfter (events : List FeedEvent) : LivePositions :=
  (IbkrFeed.run (sampleSeed [sampleIbPosition "U1"] [] :: events)).live

theorem tick_changes_the_hashes :
    DisplayCovered (storeAfter []) (storeAfter [.tick sampleView ⟨265598, some 111, none, none, 1⟩]) := by
  have hdigests : ∀ p ∈ (storeAfter []).getAll,
      ∀ q ∈ (storeAfter [.tick sampleView ⟨265598, some 111, none, none, 1⟩]).getAll,
        shortDigest (hashPayload p) ≠ shortDigest (hashPayload q) := by decide +kernel
  refine (hashes_cover_display_iff (by decide +kernel)
    fun p hp q hq heq => absurd heq (hdigests p hp q hq)).1 (Or.inl fun hsame => ?_)
  have hprices : (storeAfter []).getAll.map (·.lastPrice) =
      (storeAfter [.tick sampleView ⟨265598, some 111, none, none, 1⟩]).getAll.map (·.lastPrice) := by
    rw [← List.forall₂_eq_eq_eq, List.forall₂_map_left_iff, List.forall₂_map_right_iff]
    exact hsame.imp fun p q h => h.lastPrice
  exact absurd hprices (by decide +kernel)

/-- The daily reseed of the previous close gives the row its move of the day, and leaves
the hash as it was. -/
theorem previous_close_is_not_hashed :
    ¬ ∀ before after : LivePositions, SameKeys before after →
      (∀ p ∈ before.getAll, ∀ q ∈ after.getAll,
        shortDigest (hashPayload p) = shortDigest (hashPayload q) →
          hashPayload p = hashPayload q) → DisplayCovered before after := by
  intro hall
  have hpayloads : ∀ p ∈ (storeAfter []).getAll,
      ∀ q ∈ (storeAfter [.reseed fun _ => some 100]).getAll, hashPayload p = hashPayload q := by
    decide +kernel
  have hcovered := hall (storeAfter []) (storeAfter [.reseed fun _ => some 100]) (by decide +kernel)
    fun p hp q hq _ => hpayloads p hp q hq
  obtain ⟨a, ha⟩ := (renderStreamPayload_defined_iff (storeAfter []).getAll .all).mpr
    (by decide +kernel)
  obtain ⟨b, hb⟩ := (renderStreamPayload_defined_iff
    (storeAfter [.reseed fun _ => some 100]).getAll .all).mpr (by decide +kernel)
  have hshown : (renderStreamPayload (storeAfter []).getAll .all).toOption.map (·.shown) ≠
      (renderStreamPayload (storeAfter [.reseed fun _ => some 100]).getAll .all).toOption.map
        (·.shown) := by decide +kernel
  refine hcovered .all a b ha hb (fun heq => hshown ?_) (by decide +kernel)
  rw [ha, hb]
  exact congrArg some heq

end PortfolioHub
