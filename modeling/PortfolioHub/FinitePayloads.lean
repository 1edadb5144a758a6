import PortfolioHub.FiniteNumbers
import PortfolioHub.Lists
import PortfolioHub.Totals

namespace PortfolioHub

/-- The answers one fetch of a vendor's positions is made from. -/
inductive VendorPayload where
  | tiger (settings : TigerSettings) (rows : List (String × TigerRow))
      (quotes : OrderedDict String TigerQuote) (assets : List (String × List TigerCurrencyAsset))
  | futu (rows : List (String × FutuRow)) (accounts : List (String × FutuAccountRow))

namespace VendorPayload

/-- The positions emitted for the payload. -/
def positions (fx : FxView) : VendorPayload → List Position
  | .tiger settings rows quotes assets => tigerStockPositions fx settings rows quotes ++
      assets.flatMap fun a => tigerCashPositions fx a.1 a.2
  | .futu rows accounts => futuStockPositions fx rows ++
      accounts.filterMap fun a => futuCashPositionFromAccountRow fx a.1 a.2

/-- Every field that reads as nan or an infinity is missing. -/
def cleaned : VendorPayload → VendorPayload
  | .tiger settings rows quotes assets => .tiger settings
      (rows.map fun row => (row.1, row.2.cleaned)) (quotes.mapValues TigerQuote.cleaned)
      (assets.map fun a => (a.1, a.2.map TigerCurrencyAsset.cleaned))
  | .futu rows accounts => .futu (rows.map fun row => (row.1, row.2.cleaned))
      (accounts.map fun a => (a.1, a.2.cleaned))

/-- Each row that shows takes finite numbers only, and the rates it is converted at are. -/
def TakesFinite (fx : FxView) : VendorPayload → Prop
  | .tiger settings rows quotes assets =>
    (∀ row ∈ rows, row.2.Mapped settings.markets row.1 →
      row.2.TakesFinite (quotes.get? row.2.symbol) ∧ fx.RateFinite row.2.currency) ∧
    ∀ a ∈ assets, (∀ asset ∈ a.2, asset.cashBalance.Finite) ∧
      ∀ currency amount, (tigerCashAmounts a.2).get? currency = some amount → amount ≠ 0 →
        fx.RateFinite currency
  | .futu rows accounts =>
    (∀ before row after, rows = before ++ row :: after → LastOfKey row after → row.2.Mapped →
      row.2.TakesFinite ∧ fx.RateFinite row.2.currencyText) ∧
    ∀ a ∈ accounts, FirstFinite [a.2.cash, a.2.usCash] ∧
      (firstFloat [a.2.cash, a.2.usCash] ≠ 0 →
        fx.RateFinite (Python.upper (a.2.currency.strOr "USD")))

end VendorPayload

theorem tigerStockPositions_finite_iff {fx : FxView} {settings : TigerSettings}
    {rows : List (String × TigerRow)} {quotes : OrderedDict String TigerQuote} :
    (∀ p ∈ tigerStockPositions fx settings rows quotes, p.NumbersFinite) ↔
      ∀ row ∈ rows, row.2.Mapped settings.markets row.1 →
        row.2.TakesFinite (quotes.get? row.2.symbol) ∧ fx.RateFinite row.2.currency := by
  have hrow : ∀ {row : String × TigerRow} {p : Position},
      tigerPositionFromRow fx settings.markets row.1 row.2 quotes = .ok (some p) →
        (p.NumbersFinite ↔ row.2.TakesFinite (quotes.get? row.2.symbol) ∧
          fx.RateFinite row.2.currency) := fun hp => by
    rw [(tigerPositionFromRow_carries hp).numbersFinite_iff, TigerRow.figures_finite_iff]
  constructor
  · intro h row hmem hmapped
    obtain ⟨p, hp⟩ := mapped_iff.mpr hmapped
    exact (hrow hp).mp (h p (List.mem_filterMap.mpr ⟨row, hmem, tigerEmitted_eq_some_iff.mpr hp⟩))
  · intro h p hp
    obtain ⟨row, hmem, hemitted⟩ := List.mem_filterMap.mp hp
    have hbuilt := tigerEmitted_eq_some_iff.mp hemitted
    exact (hrow hbuilt).mpr (h row hmem (mapped_iff.mp ⟨p, hbuilt⟩))

theorem tigerStockPositions_cleaned {fx : FxView} {settings : TigerSettings}
    {rows : List (String × TigerRow)} {quotes : OrderedDict String TigerQuote}
    (h : ∀ row ∈ rows, row.2.Mapped settings.markets row.1 →
      row.2.TakesFinite (quotes.get? row.2.symbol)) :
    tigerStockPositions fx settings (rows.map fun row => (row.1, row.2.cleaned))
      (quotes.mapValues TigerQuote.cleaned) = tigerStockPositions fx settings rows quotes := by
  have hemitted : ∀ row ∈ rows, tigerEmitted fx settings (quotes.mapValues TigerQuote.cleaned)
      (row.1, row.2.cleaned) = tigerEmitted fx settings quotes row := by
    intro row hrow
    by_cases hmapped : row.2.Mapped settings.markets row.1
    · unfold tigerEmitted
      rw [tigerPositionFromRow_cleaned (h row hrow hmapped)]
    · have hnone : tigerEmitted fx settings quotes row = none :=
        Option.eq_none_iff_forall_ne_some.mpr fun p hp =>
          hmapped (mapped_iff.mp ⟨p, tigerEmitted_eq_some_iff.mp hp⟩)
      rw [hnone]
      exact Option.eq_none_iff_forall_ne_some.mpr fun p hp =>
        hmapped (TigerRow.cleaned_mapped (mapped_iff.mp ⟨p, tigerEmitted_eq_some_iff.mp hp⟩))
  have hmap : tigerStockPositions fx settings (rows.map fun row => (row.1, row.2.cleaned))
      (quotes.mapValues TigerQuote.cleaned) = rows.filterMap fun row =>
        tigerEmitted fx settings (quotes.mapValues TigerQuote.cleaned) (row.1, row.2.cleaned) :=
    List.filterMap_map
  rw [hmap]
  exact List.filterMap_congr hemitted

theorem tigerCashPositions_finite_iff {fx : FxView} {accountId : String}
    {assets : List TigerCurrencyAsset} :
    (∀ p ∈ tigerCashPositions fx accountId assets, p.NumbersFinite) ↔
      (∀ asset ∈ assets, asset.cashBalance.Finite) ∧
        ∀ currency amount, (tigerCashAmounts assets).get? currency = some amount → amount ≠ 0 →
          fx.RateFinite currency := by
  rw [← tigerCashAmounts_isFinite_iff]
  constructor
  · intro h
    have hshown : ∀ currency amount, (tigerCashAmounts assets).get? currency = some amount →
        amount ≠ 0 → amount.isFinite = true ∧ fx.RateFinite currency :=
      fun currency amount hget hne => cashRow_numbersFinite_iff.mp
        (h _ (mem_tigerCashPositions_iff.mpr ⟨currency, amount, hget, hne, rfl⟩))
    refine ⟨fun currency amount hget => ?_, fun currency amount hget hne =>
      (hshown currency amount hget hne).2⟩
    by_cases hzero : amount = 0
    · rw [hzero, zero_isFinite]
    · exact (hshown currency amount hget hzero).1
  · rintro ⟨hfinite, hrates⟩ p hp
    obtain ⟨currency, amount, hget, hne, rfl⟩ := mem_tigerCashPositions_iff.mp hp
    exact cashRow_numbersFinite_iff.mpr ⟨hfinite _ _ hget, hrates _ _ hget hne⟩

theorem futuStockPositions_finite_iff {fx : FxView} {rows : List (String × FutuRow)} :
    (∀ p ∈ futuStockPositions fx rows, p.NumbersFinite) ↔
      ∀ before row after, rows = before ++ row :: after → LastOfKey row after → row.2.Mapped →
        row.2.TakesFinite ∧ fx.RateFinite row.2.currencyText := by
  have hrow : ∀ {row : String × FutuRow} {p : Position},
      futuPositionFromRow fx row.1 row.2 = some p →
        (p.NumbersFinite ↔ row.2.TakesFinite ∧ fx.RateFinite row.2.currencyText) := fun hp => by
    rw [(futuPositionFromRow_carries hp).numbersFinite_iff, FutuRow.figures_finite_iff]
    rfl
  constructor
  · intro h before row after hsplit hlast hmapped
    obtain ⟨p, hp⟩ := futu_mapped_iff.mpr hmapped
    exact (hrow hp).mp (h p (mem_futuStockPositions_iff.mpr ⟨before, row, after, hsplit, hlast, hp⟩))
  · intro h p hp
    obtain ⟨before, row, after, hsplit, hlast, hbuilt⟩ := mem_futuStockPositions_iff.mp hp
    exact (hrow hbuilt).mpr (h before row after hsplit hlast (futu_mapped_iff.mp ⟨p, hbuilt⟩))

theorem FutuRow.TakesFinite.mapped_cleaned {row : FutuRow} (h : row.TakesFinite)
    (hmapped : row.Mapped) : row.cleaned.Mapped :=
  ⟨hmapped.1, fun hzero => hmapped.2.1 (h.qty.safeFloat_cleaned.symm.trans hzero), hmapped.2.2⟩

/-- Cleaning can only take a row away that a later row of its key replaces anyway. -/
theorem mem_futuStockPositions_cleaned {fx : FxView} {rows : List (String × FutuRow)}
    (h : ∀ before row after, rows = before ++ row :: after → LastOfKey row after → row.2.Mapped →
      row.2.TakesFinite) (p : Position) :
    p ∈ futuStockPositions fx (rows.map fun row => (row.1, row.2.cleaned)) ↔
      p ∈ futuStockPositions fx rows := by
  rw [mem_futuStockPositions_iff, mem_futuStockPositions_iff]
  constructor
  · rintro ⟨before', row', after', hsplit', hlast', hbuilt'⟩
    obtain ⟨before, tail, rfl, rfl, htail⟩ := List.map_eq_append_iff.mp hsplit'
    obtain ⟨row, after, rfl, rfl, rfl⟩ := List.map_eq_cons_iff.mp htail
    have hmapped : row.2.Mapped := FutuRow.cleaned_mapped (futu_mapped_iff.mp ⟨p, hbuilt'⟩)
    have hlast : LastOfKey row after := by
      intro later hlater hlaterMapped hsame
      obtain ⟨before₂, last, after₂, rfl, ⟨hlastMapped, hlastSame⟩, hnone⟩ :=
        List.exists_last_of_mem (P := fun later : String × FutuRow => later.2.Mapped ∧
          later.1 = row.1 ∧ later.2.codeText = row.2.codeText) ⟨later, hlater, hlaterMapped, hsame⟩
      have hlastKey : LastOfKey last after₂ := fun next hnext hnextMapped hnextSame =>
        hnone next hnext ⟨hnextMapped, hnextSame.1.trans hlastSame.1,
          hnextSame.2.trans hlastSame.2⟩
      have hfinite := h (before ++ row :: before₂) last after₂ (by simp) hlastKey hlastMapped
      exact hlast' (last.1, last.2.cleaned)
        (List.mem_map.mpr ⟨last, by simp, rfl⟩) (hfinite.mapped_cleaned hlastMapped) hlastSame
    refine ⟨before, row, after, rfl, hlast, ?_⟩
    rwa [← futuPositionFromRow_cleaned (h before row after rfl hlast hmapped)]
  · rintro ⟨before, row, after, rfl, hlast, hbuilt⟩
    have hfinite := h before row after rfl hlast (futu_mapped_iff.mp ⟨p, hbuilt⟩)
    refine ⟨before.map fun row => (row.1, row.2.cleaned), (row.1, row.2.cleaned),
      after.map fun row => (row.1, row.2.cleaned), by simp, fun later hlater hmapped => ?_, ?_⟩
    · obtain ⟨next, hnext, rfl⟩ := List.mem_map.mp hlater
      exact hlast next hnext (FutuRow.cleaned_mapped hmapped)
    · rw [futuPositionFromRow_cleaned hfinite, hbuilt]

theorem futuCashPositionFromAccountRow_finite_iff {fx : FxView} {accountId : String}
    {row : FutuAccountRow} :
    (∀ p, futuCashPositionFromAccountRow fx accountId row = some p → p.NumbersFinite) ↔
      FirstFinite [row.cash, row.usCash] ∧ (firstFloat [row.cash, row.usCash] ≠ 0 →
        fx.RateFinite (Python.upper (row.currency.strOr "USD"))) := by
  rw [firstFinite_iff]
  unfold futuCashPositionFromAccountRow
  dsimp only
  by_cases hzero : firstFloat [row.cash, row.usCash] = 0
  · simp [hzero, zero_isFinite]
  · simp [hzero, cashRow_numbersFinite_iff]

theorem futuCashPositionFromAccountRow_cleaned {fx : FxView} {accountId : String}
    {row : FutuAccountRow} (h : FirstFinite [row.cash, row.usCash]) :
    futuCashPositionFromAccountRow fx accountId row.cleaned =
      futuCashPositionFromAccountRow fx accountId row := by
  have hcash : firstFloat [row.cleaned.cash, row.cleaned.usCash] =
      firstFloat [row.cash, row.usCash] := firstFloat_cleaned h
  unfold futuCashPositionFromAccountRow
  rw [hcash]
  rfl

structure Totals.Finite (totals : Totals) : Prop where
  mvUsd : totals.mvUsd.isFinite = true
  pnlUsd : totals.pnlUsd.isFinite = true
  pnlPct : totals.pnlPct.isFinite = true
  intradayPnlUsd : totals.intradayPnlUsd.isFinite = true
  intradayPnlPct : totals.intradayPnlPct.isFinite = true

theorem sum_isFinite {xs : List Python.Float} (h : ∀ x ∈ xs, x.isFinite = true) :
    (sum xs).isFinite = true := by
  have hfold : ∀ (xs : List Python.Float) (init : Python.Float), init.isFinite = true →
      (∀ x ∈ xs, x.isFinite = true) → (xs.foldl (· + ·) init).isFinite = true := by
    intro xs
    induction xs with
    | nil => exact fun init hinit _ => hinit
    | cons x xs ih =>
      intro init hinit hxs
      obtain ⟨hx, hrest⟩ := List.forall_mem_cons.mp hxs
      exact ih (init + x) (Python.Float.isFinite_add hinit hx) hrest
  exact hfold xs 0 zero_isFinite h

theorem div_isFinite {x y v : Python.Float} (hx : x.isFinite = true) (hy : y.isFinite = true)
    (h : Python.Float.div x y = .ok v) : v.isFinite = true := by
  unfold Python.Float.div at h
  split at h
  next => simp at h
  next =>
    obtain rfl := Except.ok.inj h
    exact Python.Float.isFinite_quot hx hy

theorem percentIf_isFinite {c : Bool} {x y v : Python.Float} (hx : x.isFinite = true)
    (hy : y.isFinite = true) (h : percentIf c x y = .ok v) : v.isFinite = true := by
  unfold percentIf at h
  split at h
  next =>
    obtain ⟨ratio, hratio, h⟩ := Python.bind_eq_ok.mp h
    obtain rfl := Python.pure_eq_ok.mp h
    exact Python.Float.isFinite_mul (div_isFinite hx hy hratio) rfl
  next =>
    obtain rfl := Except.ok.inj h
    rfl

theorem Position.NumbersFinite.intradayPnlUsd {p : Position} (h : p.NumbersFinite)
    {v : Python.Float} (hv : p.intradayPnlUsd = .ok v) : v.isFinite = true := by
  unfold Position.intradayPnlUsd at hv
  split at hv
  next =>
    obtain rfl := Except.ok.inj hv
    rfl
  next =>
    obtain ⟨rate, hrate, hv⟩ := Python.bind_eq_ok.mp hv
    obtain ⟨change, hchange, hv⟩ := Python.bind_eq_ok.mp hv
    obtain rfl := Python.pure_eq_ok.mp hv
    have hmove := Python.Float.isFinite_mul
      (Python.Float.isFinite_sub h.lastPrice h.previousClose) h.quantity
    exact Python.Float.isFinite_mul (div_isFinite hmove rfl hchange)
      (div_isFinite h.marketValueUsd h.marketValueNative hrate)

/-- Over rows of finite numbers the totals are finite. -/
theorem computeTotals_finite {shown : List Position} (h : ∀ p ∈ shown, p.NumbersFinite) :
    ∃ totals, computeTotals shown = .ok totals ∧ totals.Finite := by
  obtain ⟨totals, htotals⟩ := computeTotals_defined shown
  refine ⟨totals, htotals, ?_⟩
  have havailable : ∀ p ∈ shown.filter (fun p => !p.fxUnavailable), p.NumbersFinite :=
    fun p hp => h p (List.mem_of_mem_filter hp)
  have hmv : (sum ((shown.filter fun p => !p.fxUnavailable).map
      (·.marketValueUsd))).isFinite = true := by
    refine sum_isFinite fun x hx => ?_
    obtain ⟨p, hp, rfl⟩ := List.mem_map.mp hx
    exact (havailable p hp).marketValueUsd
  have hpnl : (sum ((shown.filter fun p => !p.fxUnavailable).map
      (·.unrealizedPnlUsd))).isFinite = true := by
    refine sum_isFinite fun x hx => ?_
    obtain ⟨p, hp, rfl⟩ := List.mem_map.mp hx
    exact (havailable p hp).unrealizedPnlUsd
  obtain ⟨hmvUsd, hpnlUsd, hpct, ⟨intraday, hintraday, hdayUsd⟩, hdayPct⟩ :=
    computeTotals_parts htotals
  rw [← hmvUsd] at hmv
  rw [← hpnlUsd] at hpnl
  have hday : totals.intradayPnlUsd.isFinite = true := by
    rw [hdayUsd]
    refine sum_isFinite fun x hx => ?_
    obtain ⟨p, hp, hx⟩ := (Python.mem_mapM_iff hintraday).mp hx
    exact (havailable p hp).intradayPnlUsd hx
  exact ⟨hmv, hpnl, percentIf_isFinite hpnl (Python.Float.isFinite_sub hmv hpnl) hpct, hday,
    percentIf_isFinite hday (Python.Float.isFinite_sub hmv hday) hdayPct⟩

namespace VendorPayload

theorem positions_finite_iff (fx : FxView) (payload : VendorPayload) :
    (∀ p ∈ payload.positions fx, p.NumbersFinite) ↔ payload.TakesFinite fx := by
  cases payload with
  | tiger settings rows quotes assets =>
    simp only [positions, TakesFinite, List.mem_append, List.mem_flatMap, or_imp, forall_and,
      tigerStockPositions_finite_iff, forall_exists_index, and_imp]
    refine and_congr_right fun _ => ?_
    constructor
    · intro h
      have hcash := fun a ha => tigerCashPositions_finite_iff.mp fun p hp => h p a ha hp
      exact ⟨fun a ha => (hcash a ha).1, fun a ha => (hcash a ha).2⟩
    · rintro ⟨hcells, hrates⟩ p a ha hp
      exact tigerCashPositions_finite_iff.mpr ⟨hcells a ha, hrates a ha⟩ p hp
  | futu rows accounts =>
    simp only [positions, TakesFinite, List.mem_append, List.mem_filterMap, or_imp, forall_and,
      futuStockPositions_finite_iff, forall_exists_index, and_imp]
    refine and_congr_right fun _ => ?_
    constructor
    · intro h
      have hcash := fun a ha => futuCashPositionFromAccountRow_finite_iff.mp fun p hp => h p a ha hp
      exact ⟨fun a ha => (hcash a ha).1, fun a ha => (hcash a ha).2⟩
    · rintro ⟨hcells, hrates⟩ p a ha hp
      exact futuCashPositionFromAccountRow_finite_iff.mpr ⟨hcells a ha, hrates a ha⟩ p hp

theorem mem_positions_cleaned_iff {fx : FxView} {payload : VendorPayload}
    (h : payload.TakesFinite fx) (p : Position) :
    p ∈ payload.cleaned.positions fx ↔ p ∈ payload.positions fx := by
  cases payload with
  | tiger settings rows quotes assets =>
    obtain ⟨hstock, hcash⟩ := h
    have hrows : tigerStockPositions fx settings (rows.map fun row => (row.1, row.2.cleaned))
        (quotes.mapValues TigerQuote.cleaned) = tigerStockPositions fx settings rows quotes :=
      tigerStockPositions_cleaned fun row hrow hmapped => (hstock row hrow hmapped).1
    have hassets : (assets.map fun a => (a.1, a.2.map TigerCurrencyAsset.cleaned)).flatMap
        (fun a => tigerCashPositions fx a.1 a.2) =
          assets.flatMap fun a => tigerCashPositions fx a.1 a.2 := by
      rw [List.flatMap_map]
      refine List.flatMap_congr fun a ha => ?_
      unfold tigerCashPositions
      rw [tigerCashAmounts_cleaned (hcash a ha).1]
    simp only [positions, cleaned]
    rw [hrows, hassets]
  | futu rows accounts =>
    obtain ⟨hstock, hcash⟩ := h
    have hrows : p ∈ futuStockPositions fx (rows.map fun row => (row.1, row.2.cleaned)) ↔
        p ∈ futuStockPositions fx rows :=
      mem_futuStockPositions_cleaned (fun before row after hsplit hlast hmapped =>
        (hstock before row after hsplit hlast hmapped).1) p
    have haccounts : (accounts.map fun a => (a.1, a.2.cleaned)).filterMap
        (fun a => futuCashPositionFromAccountRow fx a.1 a.2) =
          accounts.filterMap fun a => futuCashPositionFromAccountRow fx a.1 a.2 := by
      rw [List.filterMap_map]
      exact List.filterMap_congr fun a ha => futuCashPositionFromAccountRow_cleaned (hcash a ha).1
    simp only [positions, cleaned, List.mem_append]
    rw [hrows, haccounts]

/-- The fallback chains pass over what does not read as a number, and take nan and the
infinities like any other: every number of every position is finite, with each malformed field
passed over, exactly where each number taken is. -/
theorem numbers_finite_iff (fx : FxView) (payload : VendorPayload) :
    ((∀ p ∈ payload.positions fx, p.NumbersFinite) ∧
      (∀ p, p ∈ payload.cleaned.positions fx ↔ p ∈ payload.positions fx) ∧
      ∀ shown : List Position, (∀ p ∈ shown, p ∈ payload.positions fx ∨ p.NumbersFinite) →
        ∃ totals, computeTotals shown = .ok totals ∧ totals.Finite) ↔
    payload.TakesFinite fx := by
  rw [positions_finite_iff]
  refine ⟨fun h => h.1, fun h => ⟨h, mem_positions_cleaned_iff h, fun shown hshown => ?_⟩⟩
  exact computeTotals_finite fun p hp =>
    (hshown p hp).elim ((positions_finite_iff fx payload).mpr h p) id

/-- A quote whose last price is nan, as a data frame delivers a missing one. -/
def nanPayload : VendorPayload :=
  .tiger ⟨"USD", []⟩
    [("T1",
      { contract := some ⟨.text "AAPL", .text "US", .missing, .text "USD", .missing, .missing⟩
        account := .missing
        quantity := .number 10
        marketPrice := .number 190
        marketValue := .number 1900
        averageCost := .number 150
        averageCostByAverage := .missing
        averageCostOfCarry := .missing
        unrealizedPnl := .number 400 })]
    (OrderedDict.empty.insert "AAPL" ⟨.text "AAPL", .number .nan, .number 191, .number 189, .missing⟩)
    []

/-- Neither the quote's close nor the position's mark stands in for the nan, and it reaches the
total. -/
theorem nan_reaches_the_total :
    (nanPayload.positions sampleView).map (·.lastPrice) = [.nan] ∧
      (computeTotals (nanPayload.positions sampleView)).map (·.mvUsd) = .ok .nan ∧
      ¬ ((∀ p ∈ nanPayload.positions sampleView, p.NumbersFinite) ∧
        (∀ p, p ∈ nanPayload.cleaned.positions sampleView ↔ p ∈ nanPayload.positions sampleView) ∧
        ∀ shown : List Position,
          (∀ p ∈ shown, p ∈ nanPayload.positions sampleView ∨ p.NumbersFinite) →
            ∃ totals, computeTotals shown = .ok totals ∧ totals.Finite) := by
  have hprices : (nanPayload.positions sampleView).map (·.lastPrice) = [.nan] := by rfl
  refine ⟨hprices, by rfl, fun h => ?_⟩
  have hnan : Python.Float.nan ∈ (nanPayload.positions sampleView).map (·.lastPrice) := by
    simp [hprices]
  obtain ⟨p, hp, hlast⟩ := List.mem_map.mp hnan
  have hfinite := (h.1 p hp).lastPrice
  rw [hlast] at hfinite
  cases hfinite

end VendorPayload

/-- What Tiger's `_fetch_positions` gives is the positions of a payload. -/
theorem tiger_fetchPositions_payload {fx : FxView} {settings : TigerSettings} {r : TigerReplies}
    {accounts : List TigerAccountRef} {positions : List Position}
    (h : r.fetchPositions fx settings accounts = .ok positions) :
    ∃ rows quotes assets, positions = (VendorPayload.tiger settings rows quotes assets).positions fx := by
  obtain ⟨accountRows, -, h⟩ := Python.bind_eq_ok.mp h
  obtain ⟨quotes, -, h⟩ := Python.bind_eq_ok.mp h
  obtain ⟨snapshots, -, h⟩ := Python.bind_eq_ok.mp h
  obtain rfl := Python.pure_eq_ok.mp h
  refine ⟨accountRows.flatten, quotes, snapshots.map fun s => (s.account.accountId, s.cashAssets), ?_⟩
  rw [VendorPayload.positions, List.flatMap_map]

theorem futu_getPositions_payload {fx : FxView} {r : FutuReplies} {accounts : List FutuAccount}
    {positions : List Position} (h : r.getPositions fx accounts = .ok positions) :
    ∃ rows infoRows, positions = (VendorPayload.futu rows infoRows).positions fx := by
  obtain ⟨replies, -, h⟩ := Python.bind_eq_ok.mp h
  dsimp only at h
  split at h
  next => simp at h
  next =>
    obtain ⟨infoRows, -, h⟩ := Python.bind_eq_ok.mp h
    obtain rfl := Python.pure_eq_ok.mp h
    refine ⟨(replies.filterMap id).flatten,
      infoRows.map fun row => (row.1, row.2.toFutuAccountRow), ?_⟩
    rw [VendorPayload.positions, List.filterMap_map]
    rfl

end PortfolioHub
