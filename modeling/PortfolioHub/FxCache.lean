import PortfolioHub.FxWrites

namespace PortfolioHub

/-- A row of `fx_cache`; its pair is the key. -/
structure FxCacheRow where
  rate : Python.Float
  source : FxSource
  quotedAt : Instant
deriving DecidableEq, Repr

abbrev FxCache := OrderedDict String FxCacheRow

/-- `put_fx_rate`: a pair has one row, and a rate that is not a number is refused. -/
def putFxRate (cache : FxCache) (rate : FxRate) : FxCache :=
  if rate.rate.isNan then cache
  else cache.insert rate.pair ⟨rate.rate, rate.source, rate.quotedAt⟩

/-- What `start` makes of the row of a pair. -/
def FxCacheRow.load (row : FxCacheRow) (pair : String) : FxRate :=
  ⟨pair, row.rate, row.quotedAt, false, row.source⟩

/-- What a feed delivers: a tick to the handler of a currency, or the payload's number of a
currency to its round of the loop in `refresh_from_api`, which has read the clock before. -/
inductive FxQuote where
  | ibTick (now : Instant) (currency : String) (invert : Bool) (ticker : ForexTicker)
  | apiRate (quotedAt : Instant) (rates : String → Option Python.Float) (currency : String)

namespace FxService

/-- A round of the loop in `start`: the row of the currency goes where its source says. -/
def loadRate (cache : FxCache) (fx : FxService) (currency : String) : FxService :=
  match cache.get? (pairFor currency) with
  | none => fx
  | some row =>
    match row.source with
    | .ib => { fx with ibRates := fx.ibRates.insert currency (row.load (pairFor currency)) }
    | .apiFallback =>
      { fx with apiRates := fx.apiRates.insert currency (row.load (pairFor currency)) }

/-- `start`, up to the first request to the API. -/
def start (cache : FxCache) : FxService := supportedFx.foldl (loadRate cache) .empty

/-- The table a source writes to. -/
def table (fx : FxService) : FxSource → OrderedDict String FxRate
  | .ib => fx.ibRates
  | .apiFallback => fx.apiRates

/-- The rate a quote writes, if it writes one, and the currency it is written for. -/
def written (fx : FxService) : FxQuote → Option (String × FxRate)
  | .ibTick now currency invert ticker =>
    (extractForexPrice ticker).bind fun quoted =>
      let price := if invert then Python.Float.quot 1 quoted else quoted
      if (fx.ibRates.get? currency).any fun existing => existing.rate.equal price then none
      else some (currency, ⟨pairFor currency, price, now, false, .ib⟩)
  | .apiRate quotedAt rates currency =>
    if currency ∈ supportedFx then (apiRate quotedAt rates currency).map fun rate => (currency, rate)
    else none

/-- The rate under its currency, in the table of its source. -/
def store (fx : FxService) (currency : String) (rate : FxRate) : FxService :=
  match rate.source with
  | .ib => { fx with ibRates := fx.ibRates.insert currency rate }
  | .apiFallback => { fx with apiRates := fx.apiRates.insert currency rate }

def handle (fx : FxService) (e : FxQuote) : FxService :=
  match fx.written e with
  | none => fx
  | some (currency, rate) => fx.store currency rate

/-- The service after the quotes. -/
def handleAll (fx : FxService) (quotes : List FxQuote) : FxService := quotes.foldl handle fx

/-- A tick is what the closure of `_make_ticker_handler` makes of it. -/
theorem handle_ibTick (fx : FxService) (now : Instant) (currency : String) (invert : Bool)
    (ticker : ForexTicker) :
    fx.handle (.ibTick now currency invert ticker) = fx.tickerHandler now currency invert ticker := by
  cases hprice : extractForexPrice ticker with
  | none => simp only [handle, written, tickerHandler, hprice, Option.bind_none]
  | some quoted =>
    simp only [handle, written, tickerHandler, hprice, Option.bind_some]
    generalize (if invert then Python.Float.quot 1 quoted else quoted) = price
    cases (fx.ibRates.get? currency).any fun existing => existing.rate.equal price with
    | true => simp only [if_true]
    | false => simp only [store, Bool.false_eq_true, if_false]

theorem pairCurrency_pairFor {currency : String} (h : currency ∈ supportedFx) :
    pairCurrency (pairFor currency) = currency := by
  have hall : ∀ c ∈ supportedFx, pairCurrency (pairFor c) = c := by decide +kernel
  exact hall currency h

/-- The rate of a round of the loop is the payload's number, inverted. -/
theorem apiRate_eq_some {now : Instant} {rates : String → Option Python.Float} {currency : String}
    {rate : FxRate} :
    apiRate now rates currency = some rate ↔
      currency ≠ "CNH" ∧ ∃ inverse, rates currency = some inverse ∧ ¬ inverse ≤ 0 ∧
        rate = ⟨pairFor currency, Python.Float.quot 1 inverse, now, false, .apiFallback⟩ := by
  unfold apiRate
  by_cases hcnh : currency = "CNH"
  · simp [hcnh]
  · rw [if_neg hcnh, Option.bind_eq_some_iff]
    constructor
    · rintro ⟨inverse, hinverse, h⟩
      split at h
      next => cases h
      next hpos => exact ⟨hcnh, inverse, hinverse, hpos, (Option.some.inj h).symm⟩
    · rintro ⟨-, inverse, hinverse, hpos, rfl⟩
      exact ⟨inverse, hinverse, if_neg hpos⟩

/-- A tick writes the price it quotes. -/
theorem written_ibTick {fx : FxService} {now : Instant} {c currency : String} {invert : Bool}
    {ticker : ForexTicker} {rate : FxRate}
    (h : fx.written (.ibTick now c invert ticker) = some (currency, rate)) :
    currency = c ∧ ∃ quoted, extractForexPrice ticker = some quoted ∧
      rate = ⟨pairFor c, if invert then Python.Float.quot 1 quoted else quoted, now, false, .ib⟩ := by
  obtain ⟨quoted, hquoted, h⟩ := Option.bind_eq_some_iff.mp h
  obtain ⟨-, h⟩ := (Option.ite_none_left_eq_some).mp h
  obtain ⟨rfl, rfl⟩ := Prod.mk.inj (Option.some.inj h)
  exact ⟨rfl, quoted, hquoted, rfl⟩

theorem written_apiRate {fx : FxService} {now : Instant} {rates : String → Option Python.Float}
    {c currency : String} {rate : FxRate}
    (h : fx.written (.apiRate now rates c) = some (currency, rate)) :
    currency = c ∧ c ∈ supportedFx ∧ apiRate now rates c = some rate := by
  simp only [written, Option.ite_none_right_eq_some, Option.map_eq_some_iff] at h
  obtain ⟨hsupported, rate', hrate, heq⟩ := h
  obtain ⟨rfl, rfl⟩ := Prod.mk.inj heq
  exact ⟨rfl, hsupported, hrate⟩

/-- A round of the loop sets the rate it makes. -/
theorem setRate_eq_store {now : Instant} {rates : String → Option Python.Float} {currency : String}
    {rate : FxRate} (fx : FxService) (hcurrency : currency ∈ supportedFx)
    (h : apiRate now rates currency = some rate) : fx.setRate rate = .ok (fx.store currency rate) := by
  obtain ⟨-, inverse, -, -, rfl⟩ := apiRate_eq_some.mp h
  unfold setRate store
  dsimp only
  rw [pairCurrency_pairFor hcurrency, (validateCurrency_ok_iff currency).mpr (Or.inr hcurrency)]
  rfl

/-- A refresh is its rounds, one after the other, and never raises. -/
theorem refreshFromApi_eq (fx : FxService) (now : Instant) (rates : String → Option Python.Float) :
    fx.refreshFromApi now rates =
      .ok (fx.handleAll (supportedFx.map fun currency => .apiRate now rates currency)) := by
  unfold refreshFromApi handleAll
  have hrounds : ∀ (currencies : List String), (∀ c ∈ currencies, c ∈ supportedFx) →
      ∀ fx : FxService, (currencies.filterMap (apiRate now rates)).foldlM setRate fx =
        .ok ((currencies.map fun currency => FxQuote.apiRate now rates currency).foldl handle fx) := by
    intro currencies
    induction currencies with
    | nil => exact fun _ _ => rfl
    | cons currency currencies ih =>
      intro hall fx
      obtain ⟨hcurrency, hrest⟩ := List.forall_mem_cons.mp hall
      rw [List.map_cons, List.foldl_cons]
      cases hrate : apiRate now rates currency with
      | none =>
        have hskip : fx.handle (.apiRate now rates currency) = fx := by
          simp [handle, written, hcurrency, hrate]
        rw [List.filterMap_cons_none hrate, hskip]
        exact ih hrest fx
      | some rate =>
        have hstore : fx.handle (.apiRate now rates currency) = fx.store currency rate := by
          simp [handle, written, hcurrency, hrate]
        rw [List.filterMap_cons_some hrate, List.foldlM_cons, setRate_eq_store fx hcurrency hrate,
          hstore]
        exact ih hrest _
  exact hrounds supportedFx (fun _ h => h) fx

theorem get?_store (fx : FxService) (currency c : String) (rate : FxRate) (source : FxSource) :
    ((fx.store currency rate).table source).get? c =
      if source = rate.source ∧ c = currency then some rate else (fx.table source).get? c := by
  unfold store
  cases hrate : rate.source with
  | ib =>
    cases source with
    | ib => simp [table, OrderedDict.get?_insert]
    | apiFallback => simp [table]
  | apiFallback =>
    cases source with
    | ib => simp [table]
    | apiFallback => simp [table, OrderedDict.get?_insert]

theorem loadRate_eq (cache : FxCache) (fx : FxService) (currency : String) :
    fx.loadRate cache currency =
      match cache.get? (pairFor currency) with
      | none => fx
      | some row => fx.store currency (row.load (pairFor currency)) := by
  unfold loadRate store
  cases cache.get? (pairFor currency) with
  | none => rfl
  | some row => rfl

/-- After the start each table has the cached rates of its source. -/
theorem start_table (cache : FxCache) (source : FxSource) (currency : String) :
    ((start cache).table source).get? currency =
      if currency ∈ supportedFx then
        (cache.get? (pairFor currency)).bind fun row =>
          if row.source = source then some (row.load (pairFor currency)) else none
      else none := by
  have hloop : ∀ (currencies : List String) (fx : FxService),
      ((currencies.foldl (loadRate cache) fx).table source).get? currency =
        if currency ∈ currencies then
          ((cache.get? (pairFor currency)).bind fun row =>
            if row.source = source then some (row.load (pairFor currency)) else none).or
              ((fx.table source).get? currency)
        else (fx.table source).get? currency := by
    intro currencies
    induction currencies with
    | nil => simp
    | cons c currencies ih =>
      intro fx
      rw [List.foldl_cons, ih]
      have hround : ((fx.loadRate cache c).table source).get? currency =
          if currency = c then
            ((cache.get? (pairFor currency)).bind fun row =>
              if row.source = source then some (row.load (pairFor currency)) else none).or
                ((fx.table source).get? currency)
          else (fx.table source).get? currency := by
        rw [loadRate_eq]
        by_cases hc : currency = c
        · subst hc
          cases cache.get? (pairFor currency) with
          | none => simp
          | some row =>
            dsimp only [Option.bind_some]
            rw [get?_store, if_pos rfl]
            by_cases hsource : row.source = source
            · simp [hsource, FxCacheRow.load]
            · simp [hsource, FxCacheRow.load, Ne.symm hsource]
        · rw [if_neg hc]
          cases cache.get? (pairFor c) with
          | none => rfl
          | some row =>
            dsimp only
            rw [get?_store, if_neg fun h => hc h.2]
      rw [hround]
      by_cases hc : currency = c
      · subst hc
        by_cases hmem : currency ∈ currencies
        · simp only [hmem, if_true, List.mem_cons, or_true, ← Option.or_assoc, Option.or_self]
        · simp [hmem]
      · simp [hc]
  have hempty : (FxService.empty.table source).get? currency = none := by cases source <;> rfl
  rw [start, hloop, hempty, Option.or_none]

theorem get?_start (cache : FxCache) (source : FxSource) {currency : String}
    (h : currency ∈ supportedFx) :
    ((start cache).table source).get? currency =
      (cache.get? (pairFor currency)).bind fun row =>
        if row.source = source then some (row.load (pairFor currency)) else none := by
  rw [start_table, if_pos h]

/-- Each table holds the rates of its source. -/
def FiledBySource (fx : FxService) : Prop :=
  ∀ source c rate, (fx.table source).get? c = some rate → rate.source = source

theorem FiledBySource.store {fx : FxService} (h : fx.FiledBySource) (currency : String)
    (rate : FxRate) : (fx.store currency rate).FiledBySource := by
  intro source c rate' hrate'
  rw [get?_store] at hrate'
  split at hrate'
  next heq =>
    obtain rfl := Option.some.inj hrate'
    exact heq.1.symm
  next => exact h source c rate' hrate'

theorem start_filed (cache : FxCache) : (start cache).FiledBySource := by
  have hempty : FxService.empty.FiledBySource := by
    intro source c rate hrate
    cases source <;> cases hrate
  refine List.foldlRecOn supportedFx (loadRate cache) hempty ?_
  intro fx hfx currency _
  rw [loadRate_eq]
  cases cache.get? (pairFor currency) with
  | none => exact hfx
  | some row => exact hfx.store currency _

theorem handle_filed {fx : FxService} (h : fx.FiledBySource) (quote : FxQuote) :
    (fx.handle quote).FiledBySource := by
  unfold handle
  cases fx.written quote with
  | none => exact h
  | some entry => exact h.store entry.1 entry.2

theorem handleAll_filed {fx : FxService} (h : fx.FiledBySource) (quotes : List FxQuote) :
    (fx.handleAll quotes).FiledBySource :=
  List.foldlRecOn quotes handle h fun _ hfx quote _ => handle_filed hfx quote

/-- What a read of a supported currency gives: the chosen rate, with its staleness. -/
theorem getRateSync_supported (fx : FxService) (now : Instant) {currency : String}
    (h : currency ∈ supportedFx) :
    fx.getRateSync now currency =
      .ok ((pickRate now (fx.ibRates.get? currency) (fx.apiRates.get? currency)).map fun chosen =>
        { chosen with isStale := computeStaleness now chosen }) := by
  have husd : currency ≠ "USD" := by
    rintro rfl
    exact absurd h (by decide)
  unfold getRateSync
  rw [if_neg husd, (validateCurrency_ok_iff currency).mpr (Or.inr h)]
  rfl

/-- The rate that is read is one of a table, with its staleness. -/
theorem FiledBySource.getRateSync_eq_some {fx : FxService} (hfx : fx.FiledBySource) {t : Instant}
    {currency : String} {rate : FxRate} (h : currency ∈ supportedFx)
    (hread : fx.getRateSync t currency = .ok (some rate)) :
    ∃ chosen, (fx.table rate.source).get? currency = some chosen ∧
      rate = { chosen with isStale := computeStaleness t chosen } := by
  rw [getRateSync_supported fx t h] at hread
  obtain ⟨chosen, hchosen, rfl⟩ := Option.map_eq_some_iff.mp (Except.ok.inj hread)
  refine ⟨chosen, ?_, rfl⟩
  have htable : ∀ source, (fx.table source).get? currency = some chosen →
      (fx.table chosen.source).get? currency = some chosen := by
    intro source hsource
    rw [hfx source currency chosen hsource]
    exact hsource
  unfold pickRate at hchosen
  split at hchosen
  next => exact htable .apiFallback hchosen
  next => exact htable .ib hchosen
  next ib api hib hapi =>
    split at hchosen
    next => exact htable .apiFallback (hapi.trans hchosen)
    next => exact htable .ib (hib.trans hchosen)

/-- A read finds no rate if and only if the tables have none. -/
theorem getRateSync_eq_none_iff (fx : FxService) (t : Instant) {currency : String}
    (h : currency ∈ supportedFx) :
    fx.getRateSync t currency = .ok none ↔ ∀ source, (fx.table source).get? currency = none := by
  have hnoRate : fx.getRateSync t currency = .ok none ↔ fx.NoRate t currency := by
    unfold NoRate
    rw [getRateSync_supported fx t h]
    cases pickRate t (fx.ibRates.get? currency) (fx.apiRates.get? currency) with
    | none => simp
    | some rate => simp
  have husd : currency ≠ "USD" := by
    rintro rfl
    exact absurd h (by decide)
  rw [hnoRate, noRate_iff]
  constructor
  · rintro ⟨-, hunsupported | ⟨hib, hapi⟩⟩ source
    · exact absurd h hunsupported
    · cases source with
      | ib => exact hib
      | apiFallback => exact hapi
  · exact fun hnone => ⟨husd, Or.inr ⟨hnone .ib, hnone .apiFallback⟩⟩

/-- Before anything arrives a read gives the cached rate. -/
theorem getRateSync_start (cache : FxCache) (t : Instant) {currency : String}
    (h : currency ∈ supportedFx) :
    (start cache).getRateSync t currency =
      .ok ((cache.get? (pairFor currency)).map fun row =>
        { row.load (pairFor currency) with
          isStale := computeStaleness t (row.load (pairFor currency)) }) := by
  have hib : (start cache).ibRates.get? currency = _ := get?_start cache .ib h
  have hapi : (start cache).apiRates.get? currency = _ := get?_start cache .apiFallback h
  rw [getRateSync_supported _ t h, hib, hapi]
  cases cache.get? (pairFor currency) with
  | none => rfl
  | some row =>
    cases hsource : row.source with
    | ib => simp [hsource, pickRate]
    | apiFallback => simp [hsource, pickRate]

end FxService

theorem pairFor_injective : Function.Injective pairFor := by
  intro c d h
  have hlist := congrArg String.toList h
  rw [pairFor, pairFor, String.toList_append, String.toList_append] at hlist
  exact String.toList_injective (List.append_cancel_right hlist)

end PortfolioHub
