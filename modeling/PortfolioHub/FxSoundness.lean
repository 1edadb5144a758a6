import PortfolioHub.FxSubscriptions

namespace PortfolioHub

/-- Which way a feed quotes: units of the currency for a dollar, or dollars for a unit. -/
inductive Direction where
  | usdBase
  | usdQuoted
deriving DecidableEq, Repr

/-- The market's name for the quote. -/
def Direction.pair (currency : String) : Direction → String
  | .usdBase => "USD" ++ currency
  | .usdQuoted => pairFor currency

/-- The dollars for one unit of the currency. -/
def Direction.usdPerUnit (quoted : Python.Float) : Direction → Python.Float
  | .usdBase => Python.Float.quot 1 quoted
  | .usdQuoted => quoted

/-- The pair of the contract is the text; without a pair, its symbol and currency are. -/
def ForexContract.Says (contract : ForexContract) (text : String) : Prop :=
  contract.pair = .text text ∨ contract.pair = .method (some text) ∨
    contract.pair ∈ [PairField.absent, .other, .method none, .text "", .method (some "")] ∧
      contract.symbol ≠ "" ∧ contract.currency ≠ "" ∧ contract.symbol ++ contract.currency = text

theorem contractQuotesUsdBase_of_direction {contract : ForexContract} {text : String}
    (h : contract.Says text) (hne : text ≠ "") (currency : String) :
    contractQuotesUsdBase currency contract = decide (text = "USD" ++ currency) := by
  unfold contractQuotesUsdBase
  rcases h with h | h | ⟨h, hsymbol, hcurrency, rfl⟩
  · simp [h, hne]
  · simp [h, hne]
  · simp only [List.mem_cons, List.not_mem_nil, or_false] at h
    rcases h with h | h | h | h | h
    · simp [h, hsymbol, hcurrency]
    · simp [h, hsymbol, hcurrency]
    · simp [h, hsymbol, hcurrency]
    · simp [h, hsymbol, hcurrency]
    · simp [h, hsymbol, hcurrency]

/-- The flag of a subscription is the direction its contract says. -/
theorem contractQuotesUsdBase_eq {contract : ForexContract} {currency : String}
    {direction : Direction} (h : contract.Says (direction.pair currency))
    (hsupported : currency ∈ supportedFx) :
    contractQuotesUsdBase currency contract = decide (direction = .usdBase) := by
  have hpairs : ∀ c ∈ supportedFx, ∀ d ∈ [Direction.usdBase, .usdQuoted],
      d.pair c ≠ "" ∧ decide (d.pair c = "USD" ++ c) = decide (d = .usdBase) := by decide +kernel
  obtain ⟨hne, hflag⟩ := hpairs currency hsupported direction (by cases direction <;> simp)
  rw [contractQuotesUsdBase_of_direction h hne, hflag]

/-- The pair `_ib_pair_for` asks for quotes the way it says. -/
theorem ibPairFor_says (currency : String) :
    (ibPairFor currency).1 =
      (if (ibPairFor currency).2 then Direction.usdBase else .usdQuoted).pair currency := by
  unfold ibPairFor
  split
  next => rfl
  next => rfl

/-- The rate has come from a feed, turned the way the feed quotes. -/
def Quoted (events : List FxProgramEvent) (currency : String) (rate : Python.Float) :
    FxSource → Prop
  | .ib => ∃ now handler ticker, ∃ (direction : Direction) (quoted : Python.Float), .tick now handler ticker ∈ events ∧
      handler.currency = currency ∧ handler.contract.Says (direction.pair currency) ∧
      extractForexPrice ticker = some quoted ∧ rate = direction.usdPerUnit quoted
  | .apiFallback => ∃ quotedAt payload rates inverse,
      .payload quotedAt payload currency ∈ events ∧ apiRates payload = some rates ∧
      rates currency = some inverse ∧ rate = Direction.usdBase.usdPerUnit inverse

structure SoundRate (events : List FxProgramEvent) (currency : String) (source : FxSource)
    (rate : Python.Float) : Prop where
  supported : currency ∈ supportedFx
  positive : ∃ q : ℚ, 0 < q ∧ rate = .finite q
  quoted : Quoted events currency rate source
  notCnh : source = .apiFallback → currency ≠ "CNH"

/-- A contract says which way it quotes, and the feeds quote finite numbers. -/
def FxProgramEvent.Admissible : FxProgramEvent → Prop
  | .qualified _ reply _ => ∀ currency contract, reply currency = some contract →
      ∃ direction : Direction, contract.Says (direction.pair currency)
  | .tick _ _ ticker => ticker.NoInf
  | .payload _ json _ => ∀ rates currency x, apiRates json = some rates →
      rates currency = some x → x.isFinite = true
  | _ => True

/-- Every rate in the tables, on its way to the cache or in it has the property. -/
structure FxRuntime.All (P : String → FxSource → Python.Float → Prop) (s : FxRuntime) : Prop where
  table : ∀ source currency rate, (s.service.table source).get? currency = some rate →
    rate.pair = pairFor currency ∧ P currency source rate.rate
  pending : ∀ source, ∀ rate ∈ s.pending source, rate.source = source ∧
    ∃ currency, rate.pair = pairFor currency ∧ P currency source rate.rate
  cache : ∀ pair row, s.cache.get? pair = some row →
    ∃ currency, pair = pairFor currency ∧ P currency row.source row.rate

namespace FxRuntime

variable {P : String → FxSource → Python.Float → Prop} {s : FxRuntime}

theorem All.mono {Q : String → FxSource → Python.Float → Prop} (h : s.All P)
    (hPQ : ∀ currency source rate, P currency source rate → Q currency source rate) : s.All Q := by
  refine ⟨?_, ?_, ?_⟩
  · intro source currency rate hrate
    exact ⟨(h.table source currency rate hrate).1, hPQ _ _ _ (h.table source currency rate hrate).2⟩
  · intro source rate hrate
    obtain ⟨hsource, currency, hpair, hP⟩ := h.pending source rate hrate
    exact ⟨hsource, currency, hpair, hPQ _ _ _ hP⟩
  · intro pair row hrow
    obtain ⟨currency, hpair, hP⟩ := h.cache pair row hrow
    exact ⟨currency, hpair, hPQ _ _ _ hP⟩

theorem All.quote (h : s.All P) {q : FxQuote}
    (hq : ∀ currency rate, s.service.written q = some (currency, rate) →
      P currency rate.source rate.rate) : (s.quote q).All P := by
  unfold FxRuntime.quote
  split
  next => exact h
  next currency rate hwritten =>
    obtain ⟨hpair, -⟩ := FxService.written_made hwritten
    have hP := hq currency rate hwritten
    refine ⟨?_, ?_, h.cache⟩
    · intro source c rate' hrate'
      rw [FxService.get?_store] at hrate'
      split at hrate'
      next heq =>
        obtain ⟨rfl, rfl⟩ := heq
        obtain rfl := Option.some.inj hrate'
        exact ⟨hpair, hP⟩
      next => exact h.table source c rate' hrate'
    · intro source rate' hrate'
      dsimp only at hrate'
      by_cases hsource : source = rate.source
      · subst hsource
        rw [Function.update_self, List.mem_append, List.mem_singleton] at hrate'
        rcases hrate' with hrate' | rfl
        · exact h.pending _ rate' hrate'
        · exact ⟨rfl, currency, hpair, hP⟩
      · rw [Function.update_of_ne hsource] at hrate'
        exact h.pending source rate' hrate'

theorem All.persist (h : s.All P) (source : FxSource) (ok : Bool) :
    (s.persist source ok).All P := by
  cases hpending : s.pending source with
  | nil => simpa [FxRuntime.persist, hpending] using h
  | cons rate rest =>
    have hrest : ∀ other, ∀ rate' ∈ Function.update s.pending source rest other,
        rate'.source = other ∧ ∃ currency, rate'.pair = pairFor currency ∧
          P currency other rate'.rate := by
      intro other rate' hrate'
      by_cases hother : other = source
      · subst hother
        rw [Function.update_self] at hrate'
        exact h.pending other rate' (by rw [hpending]; exact List.mem_cons_of_mem _ hrate')
      · rw [Function.update_of_ne hother] at hrate'
        exact h.pending other rate' hrate'
    simp only [FxRuntime.persist, hpending]
    split
    next hok =>
      refine ⟨h.table, hrest, ?_⟩
      intro pair row hrow
      have hput : putFxRate s.cache rate =
          s.cache.insert rate.pair ⟨rate.rate, rate.source, rate.quotedAt⟩ :=
        if_neg (by simp [hok.2])
      dsimp only at hrow
      rw [hput, OrderedDict.get?_insert] at hrow
      split at hrow
      next hpair =>
        obtain rfl := Option.some.inj hrow
        obtain ⟨hsource, currency, hratePair, hP⟩ := h.pending source rate (by simp [hpending])
        exact ⟨currency, hpair.trans hratePair, hsource ▸ hP⟩
      next => exact h.cache pair row hrow
    next => exact ⟨h.table, hrest, h.cache⟩

/-- What is loaded is what was cached. -/
theorem All.restart (h : s.All P) : FxRuntime.All P { s with service := .start s.cache } := by
  refine ⟨?_, h.pending, h.cache⟩
  intro source currency rate hrate
  dsimp only at hrate
  rw [FxService.start_table] at hrate
  obtain ⟨-, hrate⟩ := Option.ite_none_right_eq_some.mp hrate
  obtain ⟨row, hrow, hrate⟩ := Option.bind_eq_some_iff.mp hrate
  obtain ⟨hsource, hrate⟩ := Option.ite_none_right_eq_some.mp hrate
  obtain rfl := Option.some.inj hrate
  obtain ⟨c, hpair, hP⟩ := h.cache _ row hrow
  obtain rfl := pairFor_injective hpair
  exact ⟨rfl, hsource ▸ hP⟩

theorem start_all : (start .empty).All P := by
  refine ⟨?_, ?_, ?_⟩
  · intro source currency rate hrate
    have hnone : ((FxService.start .empty).table source).get? currency = none := by
      simp [FxService.start_table]
    exact absurd (hnone.symm.trans hrate) (by simp)
  · intro source rate hrate
    cases hrate
  · intro pair row hrow
    cases hrow

end FxRuntime

theorem quot_one_finite (q : ℚ) : Python.Float.quot 1 (.finite q) = .finite (1 / q) := by
  simp [Python.Float.quot, OfNat.ofNat]

theorem validateCurrency_error {code : String} {e : Python.Error}
    (h : validateCurrency code = .error e) : e ≠ .zeroDivisionError := by
  unfold validateCurrency at h
  split at h
  next => cases h
  next =>
    split at h
    next =>
      obtain rfl := Except.error.inj h
      simp
    next =>
      split at h
      next =>
        obtain rfl := Except.error.inj h
        simp
      next => cases h

namespace FxProgram

variable {events : List FxProgramEvent} {s : FxProgram}

structure Sound (events : List FxProgramEvent) (s : FxProgram) : Prop where
  rates : s.runtime.All (SoundRate events)
  handlers : ∀ handler ∈ s.handlers, handler.currency ∈ supportedFx ∧
    ∃ direction : Direction, handler.contract.Says (direction.pair handler.currency) ∧
      handler.invert = decide (direction = .usdBase)
  calls : ∀ call ∈ s.calls, call.currency ∈ supportedFx
  raised : Python.Error.zeroDivisionError ∉ s.raised

theorem Sound.mono (h : Sound events s) (e : FxProgramEvent) : Sound (events ++ [e]) s := by
  refine ⟨h.rates.mono ?_, h.handlers, h.calls, h.raised⟩
  intro currency source rate hrate
  refine ⟨hrate.supported, hrate.positive, ?_, hrate.notCnh⟩
  have hquoted := hrate.quoted
  cases source with
  | ib =>
    obtain ⟨now, handler, ticker, direction, quoted, hmem, hrest⟩ := hquoted
    exact ⟨now, handler, ticker, direction, quoted, List.mem_append_left _ hmem, hrest⟩
  | apiFallback =>
    obtain ⟨quotedAt, payload, rates, inverse, hmem, hrest⟩ := hquoted
    exact ⟨quotedAt, payload, rates, inverse, List.mem_append_left _ hmem, hrest⟩

theorem Sound.ensureFrom (h : Sound events s) (id : ℕ) (currencies : List String) :
    Sound events (s.ensureFrom id currencies) := by
  induction currencies generalizing s with
  | nil => exact h
  | cons currency rest ih =>
    unfold FxProgram.ensureFrom
    split
    next => exact ih h
    next hskip =>
      split
      next e hrejected =>
        refine ⟨h.rates, h.handlers, h.calls, ?_⟩
        intro hraised
        rcases List.mem_append.mp hraised with hraised | hraised
        · exact h.raised hraised
        · exact validateCurrency_error hrejected (List.mem_singleton.mp hraised).symm
      next hvalid =>
        split
        next => exact ih ⟨h.rates, h.handlers, h.calls, h.raised⟩
        next =>
          refine ⟨h.rates, h.handlers, ?_, h.raised⟩
          intro call hcall
          rcases List.mem_append.mp hcall with hcall | hcall
          · exact h.calls call hcall
          · obtain rfl := List.mem_singleton.mp hcall
            rcases (validateCurrency_ok_iff currency).mp hvalid with husd | hsupported
            · exact absurd (Or.inl husd) hskip
            · exact hsupported

theorem Sound.subscribe (h : Sound events s) {currency : String} {contract : ForexContract}
    (hsupported : currency ∈ supportedFx) {direction : Direction}
    (hdirection : contract.Says (direction.pair currency)) :
    Sound events (s.subscribe currency contract) := by
  unfold FxProgram.subscribe
  split
  next => exact h
  next ib _ =>
    refine ⟨h.rates, ?_, h.calls, h.raised⟩
    intro handler hhandler
    rcases List.mem_append.mp hhandler with hhandler | hhandler
    · exact h.handlers handler hhandler
    · obtain rfl := List.mem_singleton.mp hhandler
      exact ⟨hsupported, direction, hdirection, contractQuotesUsdBase_eq hdirection hsupported⟩

theorem Sound.qualified (h : Sound events s) (id : ℕ) {reply : String → Option ForexContract}
    (hreply : ∀ currency contract, reply currency = some contract →
      ∃ direction : Direction, contract.Says (direction.pair currency)) (subscribed : Bool) :
    Sound events (s.qualified id reply subscribed) := by
  unfold FxProgram.qualified
  split
  next => exact h
  next call hfind =>
    have hsupported := h.calls call (List.mem_of_find?_eq_some hfind)
    have hrest : Sound events { s with calls := s.calls.filter fun other => other.id ≠ id } :=
      ⟨h.rates, h.handlers, fun other hother => h.calls other (List.mem_of_mem_filter hother),
        h.raised⟩
    dsimp only
    split
    next => exact hrest.ensureFrom id call.rest
    next contract hcontract =>
      obtain ⟨direction, hdirection⟩ := hreply call.currency contract hcontract
      split
      next => exact (hrest.subscribe hsupported hdirection).ensureFrom id call.rest
      next => exact hrest.ensureFrom id call.rest

theorem Sound.quote (h : Sound events s) {q : FxQuote}
    (hq : ∀ currency rate, s.runtime.service.written q = some (currency, rate) →
      SoundRate events currency rate.source rate.rate) : Sound events (s.quote q) := by
  unfold FxProgram.quote
  rw [FxService.writtenDiv_eq]
  exact ⟨h.rates.quote hq, h.handlers, h.calls, h.raised⟩

/-- The rate of a tick is in dollars for a unit, whichever way the contract quotes. -/
theorem Sound.tick (h : Sound events s) {now : Instant} {handler : FxHandler}
    {ticker : ForexTicker} (hmem : .tick now handler ticker ∈ events) (hticker : ticker.NoInf)
    (hhandler : handler ∈ s.handlers) :
    Sound events (s.quote (.ibTick now handler.currency handler.invert ticker)) := by
  obtain ⟨hsupported, direction, hdirection, hinvert⟩ := h.handlers handler hhandler
  refine h.quote ?_
  intro currency rate hwritten
  obtain ⟨rfl, quoted, hquoted, rfl⟩ := FxService.written_ibTick hwritten
  rcases extractForexPrice_pos hquoted with ⟨q, hq, rfl⟩ | ⟨-, hinf⟩
  · have hprice : (if handler.invert then Python.Float.quot 1 (.finite q) else .finite q) =
        direction.usdPerUnit (.finite q) := by
      rw [hinvert]
      cases direction with
      | usdBase => rfl
      | usdQuoted => rfl
    dsimp only
    rw [hprice]
    refine ⟨hsupported, ?_, ⟨now, handler, ticker, direction, _, hmem, rfl, hdirection, hquoted, rfl⟩,
      by simp⟩
    cases direction with
    | usdBase => exact ⟨1 / q, by positivity, quot_one_finite q⟩
    | usdQuoted => exact ⟨q, hq, rfl⟩
  · exact absurd hticker hinf

theorem Sound.payload (h : Sound events s) {quotedAt : Instant} {json : Json} {currency : String}
    (hmem : .payload quotedAt json currency ∈ events) {rates : String → Option Python.Float}
    (hrates : apiRates json = some rates)
    (hfinite : ∀ c x, rates c = some x → x.isFinite = true) :
    Sound events (s.quote (.apiRate quotedAt rates currency)) := by
  refine h.quote ?_
  intro c rate hwritten
  obtain ⟨rfl, hsupported, hrate⟩ := FxService.written_apiRate hwritten
  obtain ⟨hcnh, inverse, hinverse, hpos, rfl⟩ := FxService.apiRate_eq_some.mp hrate
  refine ⟨hsupported, ?_, ⟨quotedAt, json, rates, inverse, hmem, hrates, hinverse, rfl⟩,
    fun _ => hcnh⟩
  have hinverseFinite := hfinite c inverse hinverse
  cases inverse with
  | finite q =>
    have hq : 0 < q := Python.Float.pos_of_not_le_zero hpos
    exact ⟨1 / q, by positivity, quot_one_finite q⟩
  | inf negative => cases hinverseFinite
  | nan => cases hinverseFinite

theorem Sound.step (h : Sound events s) {e : FxProgramEvent} (he : e.Admissible) :
    Sound (events ++ [e]) (s.step e) := by
  have hlater : Sound (events ++ [e]) s := h.mono e
  cases e with
  | ensureSubscribed currencies =>
    change Sound _ (s.ensureSubscribed currencies)
    unfold FxProgram.ensureSubscribed
    split
    next => exact hlater
    next =>
      have hcall : Sound (events ++ [.ensureSubscribed currencies])
          { s with nextId := s.nextId + 1 } :=
        ⟨hlater.rates, hlater.handlers, hlater.calls, hlater.raised⟩
      exact hcall.ensureFrom s.nextId currencies
  | qualified id reply subscribed => exact hlater.qualified id he subscribed
  | attachIb => exact ⟨hlater.rates, hlater.handlers, hlater.calls, hlater.raised⟩
  | tick now handler ticker =>
    unfold FxProgram.step
    dsimp only
    split
    next hhandler => exact hlater.tick (by simp) he hhandler
    next => exact hlater
  | payload quotedAt json currency =>
    unfold FxProgram.step
    dsimp only
    split
    next => exact hlater
    next rates hrates => exact hlater.payload (by simp) hrates fun c x => he rates c x hrates
  | persist source ok =>
    exact ⟨hlater.rates.persist source ok, hlater.handlers, hlater.calls, hlater.raised⟩
  | restart =>
    refine ⟨hlater.rates.restart, ?_, ?_, hlater.raised⟩
    · intro handler hhandler
      cases hhandler
    · intro call hcall
      cases hcall

theorem run_append (cache : FxCache) (events more : List FxProgramEvent) :
    run cache (events ++ more) = more.foldl step (run cache events) := by
  simp [run]

theorem run_sound (events : List FxProgramEvent) (h : ∀ e ∈ events, e.Admissible) :
    Sound events (run .empty events) := by
  induction events using List.reverseRecOn with
  | nil =>
    refine ⟨FxRuntime.start_all, ?_, ?_, ?_⟩
    · intro handler hhandler
      cases hhandler
    · intro call hcall
      cases hcall
    · intro hraised
      cases hraised
  | append_singleton events e ih =>
    rw [run_append]
    exact (ih fun e' he' => h e' (List.mem_append_left _ he')).step (h e (by simp))

end FxProgram

/-- In every run from an empty cache each rate, in memory, on its way to the cache or in it, is
the dollars for a unit of a supported currency, taken from a quote the way its feed quotes; the
fallback has none for CNH, nothing is stored for CNY, and nothing is divided by zero. -/
theorem stored_rates_sound (events : List FxProgramEvent) (h : ∀ e ∈ events, e.Admissible) :
    (FxProgram.run .empty events).runtime.All (SoundRate events) ∧
      (∀ source,
        ((FxProgram.run .empty events).runtime.service.table source).get? "CNY" = none) ∧
      (FxProgram.run .empty events).runtime.cache.get? (pairFor "CNY") = none ∧
      Python.Error.zeroDivisionError ∉ (FxProgram.run .empty events).raised := by
  obtain ⟨hrates, -, -, hraised⟩ := FxProgram.run_sound events h
  have hcny : "CNY" ∉ supportedFx := by decide
  refine ⟨hrates, fun source => ?_, ?_, hraised⟩
  · rw [Option.eq_none_iff_forall_ne_some]
    intro rate hrate
    exact hcny (hrates.table source "CNY" rate hrate).2.supported
  · rw [Option.eq_none_iff_forall_ne_some]
    intro row hrow
    obtain ⟨currency, hpair, hsound⟩ := hrates.cache _ row hrow
    exact hcny (pairFor_injective hpair ▸ hsound.supported)

def sampleHkdContract : ForexContract := ⟨.method none, "USD", "HKD"⟩

def samplePayload : Json :=
  .object [("rates", .object [("CNY", .number 7), ("CNH", .number 7), ("EUR", .bool true),
    ("SGD", .text "2"), ("JPY", .number 0)])]

/-- A tick in HKD for a dollar and a payload, from a first subscription to a restart. -/
def sampleFxDay : List FxProgramEvent :=
  [.attachIb, .ensureSubscribed ["USD", "TWD", "HKD", "CNY"],
    .qualified 1 (fun currency => if currency = "HKD" then some sampleHkdContract else none) true,
    .tick 0 ⟨0, "HKD", sampleHkdContract, true⟩ ⟨some 8, some 8, none, some .nan⟩,
    .payload 0 samplePayload "EUR", .persist .ib true, .restart]

theorem sampleFxDay_admissible : ∀ e ∈ sampleFxDay, e.Admissible := by
  intro e he
  simp only [sampleFxDay, List.mem_cons, List.not_mem_nil, or_false] at he
  rcases he with rfl | rfl | rfl | rfl | rfl | rfl | rfl
  · trivial
  · trivial
  · intro currency contract hcontract
    obtain ⟨rfl, hcontract⟩ := Option.ite_none_right_eq_some.mp hcontract
    obtain rfl := Option.some.inj hcontract
    exact ⟨.usdBase, Or.inr (Or.inr (by decide))⟩
  · unfold FxProgramEvent.Admissible ForexTicker.NoInf
    decide
  · intro rates currency x hrates hx
    obtain rfl := Option.some.inj hrates
    obtain ⟨json, hlookup, hnumber⟩ := Option.bind_eq_some_iff.mp hx
    have hentries : ∀ e ∈ [("CNY", Json.number 7), ("CNH", .number 7), ("EUR", .bool true),
        ("SGD", .text "2"), ("JPY", .number 0)], ∀ x, e.2.number? = some x → x.isFinite = true := by
      simp [Json.number?, Python.Float.isFinite, OfNat.ofNat]
    exact hentries (currency, json) (OrderedDict.mem_of_lookup hlookup) x hnumber
  · trivial
  · trivial

/-- The balance of that day in HKD is loaded again at an eighth of a dollar. -/
theorem tick_is_loaded_sound :
    ∃ rate, ((FxProgram.run .empty sampleFxDay).runtime.service.table .ib).get? "HKD" = some rate ∧
      rate.rate = .finite (1 / 8) ∧ SoundRate sampleFxDay "HKD" .ib rate.rate := by
  have hrate : ((FxProgram.run .empty sampleFxDay).runtime.service.table .ib).get? "HKD" =
      some ⟨"HKDUSD", .finite (1 / 8), 0, false, .ib⟩ := by decide +kernel
  exact ⟨_, hrate, rfl,
    ((stored_rates_sound sampleFxDay sampleFxDay_admissible).1.table .ib "HKD" _ hrate).2⟩

end PortfolioHub
