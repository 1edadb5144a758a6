import PortfolioHub.FxCache
import PortfolioHub.WriteBehind

namespace PortfolioHub

/-- The service with its cache on disk. The tasks of the tick handlers (`_persist_rate`) and the
writes of `set_rate` run in the order they were made, each kind for itself. -/
structure FxRuntime where
  service : FxService
  cache : FxCache
  pending : FxSource → List FxRate
  refused : List FxRate

inductive FxRuntimeEvent where
  | quote (quote : FxQuote)
  | persist (source : FxSource) (ok : Bool)

namespace FxRuntime

def start (cache : FxCache) : FxRuntime := ⟨.start cache, cache, fun _ => [], []⟩

def quote (s : FxRuntime) (quote : FxQuote) : FxRuntime :=
  match s.service.written quote with
  | none => s
  | some (currency, rate) =>
    { s with
      service := s.service.store currency rate
      pending := Function.update s.pending rate.source (s.pending rate.source ++ [rate]) }

/-- The next write of the source comes to its end; a failed one is only logged. -/
def persist (s : FxRuntime) (source : FxSource) (ok : Bool) : FxRuntime :=
  match s.pending source with
  | [] => s
  | rate :: rest =>
    let s' := { s with pending := Function.update s.pending source rest }
    if ok ∧ rate.rate.isNan = false then { s' with cache := putFxRate s.cache rate }
    else { s' with refused := s.refused ++ [rate] }

def step (s : FxRuntime) : FxRuntimeEvent → FxRuntime
  | .quote quote => s.quote quote
  | .persist source ok => s.persist source ok

def run (cache : FxCache) (events : List FxRuntimeEvent) : FxRuntime :=
  events.foldl step (start cache)

/-- All writes have reached the cache. -/
def Flushed (s : FxRuntime) : Prop := (∀ source, s.pending source = []) ∧ s.refused = []

end FxRuntime

/-- The currency of a pair of `_pair_for`. -/
def nativeOf (pair : String) : String := String.ofList (pair.toList.rdrop 3)

theorem nativeOf_pairFor (currency : String) : nativeOf (pairFor currency) = currency := by
  have hpair : (pairFor currency).toList = currency.toList ++ ['U', 'S', 'D'] :=
    String.toList_append
  have hdrop : (currency.toList ++ ['U', 'S', 'D']).rdrop 3 = currency.toList := by
    simp [List.rdrop]
  rw [nativeOf, hpair, hdrop, String.ofList_toList]

/-- A rate as the two feeds make it. -/
def FxRate.Made (rate : FxRate) : Prop := ∃ currency, rate.pair = pairFor currency ∧ rate.isStale = false

theorem FxService.written_made {fx : FxService} {quote : FxQuote} {currency : String}
    {rate : FxRate} (h : fx.written quote = some (currency, rate)) :
    rate.pair = pairFor currency ∧ rate.isStale = false := by
  cases quote with
  | ibTick now c invert ticker =>
    obtain ⟨rfl, quoted, -, rfl⟩ := written_ibTick h
    exact ⟨rfl, rfl⟩
  | apiRate quotedAt rates c =>
    obtain ⟨rfl, -, hrate⟩ := written_apiRate h
    obtain ⟨-, -, -, -, rfl⟩ := apiRate_eq_some.mp hrate
    exact ⟨rfl, rfl⟩

namespace FxRuntime

/-- The service as writers with one store behind them. -/
def view (s : FxRuntime) : WriteBehind FxSource String FxRate where
  memory source currency := (s.service.table source).get? currency
  pending source := (s.pending source).map fun rate => (nativeOf rate.pair, rate)
  stored currency :=
    (s.cache.get? (pairFor currency)).map fun row => (row.source, row.load (pairFor currency))
  lost := !s.refused.isEmpty

/-- The waiting writes are of the source they wait for. -/
def Queued (s : FxRuntime) : Prop :=
  ∀ source, ∀ rate ∈ s.pending source, rate.source = source ∧ rate.Made

theorem quote_queued {s : FxRuntime} (h : s.Queued) (q : FxQuote) : (s.quote q).Queued := by
  unfold quote
  split
  next => exact h
  next currency rate hwritten =>
    obtain ⟨hpair, hstale⟩ := FxService.written_made hwritten
    intro source rate' hrate'
    dsimp only at hrate'
    by_cases hsource : source = rate.source
    · subst hsource
      rw [Function.update_self, List.mem_append, List.mem_singleton] at hrate'
      rcases hrate' with hrate' | rfl
      · exact h _ rate' hrate'
      · exact ⟨rfl, currency, hpair, hstale⟩
    · rw [Function.update_of_ne hsource] at hrate'
      exact h source rate' hrate'

theorem persist_queued {s : FxRuntime} (h : s.Queued) (source : FxSource) (ok : Bool) :
    (s.persist source ok).Queued := by
  unfold persist
  split
  next => exact h
  next rate rest hpending =>
    have hrest : ∀ other, ∀ rate' ∈ Function.update s.pending source rest other,
        rate'.source = other ∧ rate'.Made := by
      intro other rate' hrate'
      by_cases hother : other = source
      · subst hother
        rw [Function.update_self] at hrate'
        exact h other rate' (by rw [hpending]; exact List.mem_cons_of_mem _ hrate')
      · rw [Function.update_of_ne hother] at hrate'
        exact h other rate' hrate'
    dsimp only
    split
    next => exact hrest
    next => exact hrest

theorem view_quote (s : FxRuntime) (q : FxQuote) :
    (s.quote q).view = s.view ∨ ∃ currency rate,
      (s.quote q).view = s.view.step (.write rate.source currency rate) := by
  unfold quote
  split
  next => exact Or.inl rfl
  next currency rate hwritten =>
    obtain ⟨hpair, -⟩ := FxService.written_made hwritten
    refine Or.inr ⟨currency, rate, ?_⟩
    unfold view WriteBehind.step WriteBehind.write
    congr 1
    · funext source c
      dsimp only
      rw [FxService.get?_store]
      by_cases hsource : source = rate.source
      · subst hsource
        simp [Function.update_apply]
      · simp [hsource]
    · funext source
      by_cases hsource : source = rate.source
      · subst hsource
        simp [hpair, nativeOf_pairFor]
      · simp [hsource]

theorem view_persist {s : FxRuntime} (h : s.Queued) (source : FxSource) (ok : Bool) :
    ∃ e, (s.persist source ok).view = s.view.step e := by
  cases hpending : s.pending source with
  | nil =>
    refine ⟨.persist source, ?_⟩
    have hview : s.view.pending source = [] := by simp [view, hpending]
    rw [WriteBehind.step, WriteBehind.persist_nil hview]
    simp [persist, hpending]
  | cons rate rest =>
    obtain ⟨hsource, currency, hpair, hstale⟩ := h source rate (by simp [hpending])
    have hqueue : (fun other => (Function.update s.pending source rest other).map
        fun rate => (nativeOf rate.pair, rate)) =
        Function.update s.view.pending source (rest.map fun rate => (nativeOf rate.pair, rate)) := by
      funext other
      by_cases hother : other = source
      · subst hother
        simp
      · simp [hother, view]
    have hview : s.view.pending source =
        (currency, rate) :: rest.map fun rate => (nativeOf rate.pair, rate) := by
      simp [view, hpending, hpair, nativeOf_pairFor]
    by_cases hok : ok ∧ rate.rate.isNan = false
    · refine ⟨.persist source, ?_⟩
      rw [WriteBehind.step, WriteBehind.persist_cons hview]
      simp only [persist, hpending, if_pos hok]
      refine WriteBehind.ext rfl hqueue ?_ rfl
      funext c
      have hrow : (putFxRate s.cache rate).get? (pairFor c) =
          if c = currency then some ⟨rate.rate, rate.source, rate.quotedAt⟩
          else s.cache.get? (pairFor c) := by
        rw [putFxRate, if_neg (by simp [hok.2]), OrderedDict.get?_insert, hpair]
        simp only [pairFor_injective.eq_iff]
      dsimp only [view]
      rw [hrow, Function.update_apply]
      by_cases hc : c = currency
      · subst hc
        obtain ⟨pair, value, quotedAt, isStale, rateSource⟩ := rate
        obtain ⟨rfl, rfl⟩ : pair = pairFor c ∧ isStale = false := ⟨hpair, hstale⟩
        simp [FxCacheRow.load, ← hsource]
      · simp [hc]
    · refine ⟨.lose source, ?_⟩
      rw [WriteBehind.step, WriteBehind.lose_cons hview]
      simp only [persist, hpending, if_neg hok]
      refine WriteBehind.ext rfl hqueue rfl ?_
      simp [view]

theorem step_queued {s : FxRuntime} (h : s.Queued) (e : FxRuntimeEvent) : (s.step e).Queued := by
  cases e with
  | quote q => exact quote_queued h q
  | persist source ok => exact persist_queued h source ok

/-- Every step is one of the writers, or changes nothing. -/
theorem view_step {s : FxRuntime} (h : s.Queued) (e : FxRuntimeEvent) :
    (s.step e).view = s.view ∨ ∃ e', (s.step e).view = s.view.step e' := by
  cases e with
  | quote q =>
    rcases view_quote s q with hsame | ⟨currency, rate, hwrite⟩
    · exact Or.inl hsame
    · exact Or.inr ⟨_, hwrite⟩
  | persist source ok => exact Or.inr (view_persist h source ok)

theorem start_tracks (cache : FxCache) (source : FxSource) {currency : String}
    (h : currency ∈ supportedFx) : (start cache).view.Tracks source currency := by
  have htable : (start cache).view.memory source currency = _ := FxService.get?_start cache source h
  have hstored : (start cache).view.stored currency =
      (cache.get? (pairFor currency)).map fun row => (row.source, row.load (pairFor currency)) := rfl
  refine ⟨?_, ?_, ?_⟩
  · intro rate hdue
    cases hdue
  · intro _ rate hrate
    rw [hstored, Option.map_eq_some_iff] at hrate
    obtain ⟨row, hrow, heq⟩ := hrate
    obtain ⟨rfl, rfl⟩ := Prod.mk.inj heq
    rw [htable, hrow]
    simp
  · intro _ hnone
    rw [hstored, Option.map_eq_none_iff] at hnone
    rw [htable, hnone]
    rfl

/-- What each table has is what its feed has written last, in every run without a failed write. -/
theorem run_tracks (cache : FxCache) (events : List FxRuntimeEvent) (source : FxSource)
    {currency : String} (h : currency ∈ supportedFx) :
    (run cache events).view.lost = false → (run cache events).view.Tracks source currency := by
  have hinvariant : (run cache events).Queued ∧
      ((run cache events).view.lost = false → (run cache events).view.Tracks source currency) := by
    refine List.foldlRecOn (motive := fun s => s.Queued ∧
      (s.view.lost = false → s.view.Tracks source currency)) events step
      ⟨?_, fun _ => start_tracks cache source h⟩ ?_
    · intro source rate hrate
      cases hrate
    · rintro s ⟨hqueued, htracks⟩ e -
      refine ⟨step_queued hqueued e, ?_⟩
      rcases view_step hqueued e with hsame | ⟨e', hstep⟩
      · rw [hsame]
        exact htracks
      · rw [hstep]
        exact WriteBehind.Tracks.step htracks e'
  exact hinvariant.2

theorem run_filed (cache : FxCache) (events : List FxRuntimeEvent) :
    (run cache events).service.FiledBySource := by
  refine List.foldlRecOn (motive := fun s => s.service.FiledBySource) events step
    (show (start cache).service.FiledBySource from FxService.start_filed cache) ?_
  intro s hfiled e _
  cases e with
  | quote q =>
    change (s.quote q).service.FiledBySource
    unfold quote
    split
    next => exact hfiled
    next currency rate _ => exact hfiled.store currency rate
  | persist source ok =>
    have hservice : (s.persist source ok).service = s.service := by
      unfold persist
      split
      next => rfl
      next => split <;> rfl
    change (s.persist source ok).service.FiledBySource
    rw [hservice]
    exact hfiled

/-- With all writes in the cache, a row of it is what the table of its source has. -/
theorem run_flushed {cache : FxCache} {events : List FxRuntimeEvent} {currency : String}
    (h : currency ∈ supportedFx) (hflushed : (run cache events).Flushed) :
    (∀ row, (run cache events).cache.get? (pairFor currency) = some row →
      ((run cache events).service.table row.source).get? currency =
        some (row.load (pairFor currency))) ∧
      ((run cache events).cache.get? (pairFor currency) = none →
        ∀ source, ((run cache events).service.table source).get? currency = none) := by
  have hlost : (run cache events).view.lost = false := by simp [view, hflushed.2]
  have hview : (run cache events).view.Flushed := ⟨fun source => by simp [view, hflushed.1], hlost⟩
  obtain ⟨hrow, hnone⟩ := WriteBehind.Tracks.of_flushed
    (fun source => run_tracks cache events source h hlost) hview
  refine ⟨fun row hcached => hrow row.source _ ?_, fun hcached => hnone ?_⟩
  · simp [view, hcached]
  · simp [view, hcached]

end FxRuntime

/-- Two reads have the same rate from the same source, or neither has one. -/
def SameQuote (read read' : Except Python.Error (Option FxRate)) : Prop :=
  read.map (Option.map fun rate => (rate.rate, rate.source)) =
    read'.map (Option.map fun rate => (rate.rate, rate.source))

/-- A fresh service reads the rate written last, which is the old service's own of that source;
so the two read the same if and only if the old one picks the source written last. -/
theorem restart_reads_last_write (cache : FxCache) (events : List FxRuntimeEvent)
    {currency : String} (hsupported : currency ∈ supportedFx)
    (hflushed : (FxRuntime.run cache events).Flushed) (t : Instant) :
    (∀ row, (FxRuntime.run cache events).cache.get? (pairFor currency) = some row →
      ((FxRuntime.run cache events).service.table row.source).get? currency =
          some (row.load (pairFor currency)) ∧
        (FxService.start (FxRuntime.run cache events).cache).getRateSync t currency =
          .ok (some { row.load (pairFor currency) with
            isStale := FxService.computeStaleness t (row.load (pairFor currency)) })) ∧
      (SameQuote ((FxService.start (FxRuntime.run cache events).cache).getRateSync t currency)
          ((FxRuntime.run cache events).service.getRateSync t currency) ↔
        ∀ rate, (FxRuntime.run cache events).service.getRateSync t currency = .ok (some rate) →
          ((FxRuntime.run cache events).cache.get? (pairFor currency)).map FxCacheRow.source =
            some rate.source) := by
  obtain ⟨hrow, hnone⟩ := FxRuntime.run_flushed hsupported hflushed
  have hfiled := FxRuntime.run_filed cache events
  generalize FxRuntime.run cache events = s at hrow hnone hfiled ⊢
  rw [FxService.getRateSync_start s.cache t hsupported]
  refine ⟨fun row hcached => ⟨hrow row hcached, by rw [hcached]; rfl⟩, ?_⟩
  constructor
  · intro hsame rate hread
    rw [hread] at hsame
    cases hcached : s.cache.get? (pairFor currency) with
    | none =>
      rw [hcached] at hsame
      cases hsame
    | some row =>
      rw [hcached] at hsame
      have hquote := Prod.mk.inj (Option.some.inj (Except.ok.inj hsame))
      exact congrArg some hquote.2
  · intro hpicks
    cases hcached : s.cache.get? (pairFor currency) with
    | none =>
      rw [(FxService.getRateSync_eq_none_iff s.service t hsupported).mpr (hnone hcached)]
      rfl
    | some row =>
      cases hread : s.service.getRateSync t currency with
      | error e =>
        rw [FxService.getRateSync_supported _ t hsupported] at hread
        cases hread
      | ok read =>
        cases read with
        | none =>
          have htable := (FxService.getRateSync_eq_none_iff s.service t hsupported).mp hread
            row.source
          rw [hrow row hcached] at htable
          cases htable
        | some rate =>
          obtain ⟨chosen, hchosen, rfl⟩ := hfiled.getRateSync_eq_some hsupported hread
          have hsource := hpicks _ hread
          rw [hcached] at hsource
          have hsource : row.source = chosen.source := Option.some.inj hsource
          have hsameRate : row.load (pairFor currency) = chosen := by
            have htable := hrow row hcached
            rw [hsource, hchosen] at htable
            exact (Option.some.inj htable).symm
          rw [← hsameRate]
          rfl

/-- A tick of the dollar in Hong Kong, and ten seconds later a refresh from the API. -/
def sampleTwoFeeds : List FxRuntimeEvent :=
  [.quote (.ibTick 0 "HKD" true ⟨some 8, some 8, none, none⟩), .persist .ib true,
    .quote (.apiRate 10000000 (fun _ => some 10) "HKD"), .persist .apiFallback true]

/-- With the tick alone in the cache a restart changes nothing. -/
theorem tick_survives_restart :
    SameQuote
      ((FxService.start (FxRuntime.run .empty (sampleTwoFeeds.take 2)).cache).getRateSync
        5000000 "HKD")
      ((FxRuntime.run .empty (sampleTwoFeeds.take 2)).service.getRateSync 5000000 "HKD") := by
  have hflushed : (FxRuntime.run .empty (sampleTwoFeeds.take 2)).Flushed :=
    ⟨fun source => by cases source <;> rfl, by decide +kernel⟩
  refine (restart_reads_last_write .empty (sampleTwoFeeds.take 2) (by decide)
    hflushed 5000000).2.mpr ?_
  intro rate hread
  have hib : (FxRuntime.run .empty (sampleTwoFeeds.take 2)).service.getRateSync 5000000 "HKD" =
      .ok (some ⟨"HKDUSD", .finite (1 / 8), 0, false, .ib⟩) := by decide +kernel
  obtain rfl := Option.some.inj (Except.ok.inj (hread.symm.trans hib))
  decide +kernel

/-- After the refresh the cache has the API's rate, while the service still prefers the tick. -/
theorem refresh_hides_the_tick :
    ¬ ∀ (cache : FxCache) (events : List FxRuntimeEvent) (currency : String),
      currency ∈ supportedFx → (FxRuntime.run cache events).Flushed → ∀ t : Instant,
      SameQuote ((FxService.start (FxRuntime.run cache events).cache).getRateSync t currency)
        ((FxRuntime.run cache events).service.getRateSync t currency) := by
  intro h
  have hflushed : (FxRuntime.run .empty sampleTwoFeeds).Flushed :=
    ⟨fun source => by cases source <;> rfl, by decide +kernel⟩
  have hsame := h .empty sampleTwoFeeds "HKD" (by decide) hflushed 20000000
  have hib : (FxRuntime.run .empty sampleTwoFeeds).service.getRateSync 20000000 "HKD" =
      .ok (some ⟨"HKDUSD", .finite (1 / 8), 0, false, .ib⟩) := by decide +kernel
  have hapi : (FxService.start (FxRuntime.run .empty sampleTwoFeeds).cache).getRateSync
      20000000 "HKD" = .ok (some ⟨"HKDUSD", .finite (1 / 10), 10000000, false, .apiFallback⟩) := by
    decide +kernel
  rw [hib, hapi] at hsame
  exact absurd (Prod.mk.inj (Option.some.inj (Except.ok.inj hsame))).2 (by decide)

end PortfolioHub
