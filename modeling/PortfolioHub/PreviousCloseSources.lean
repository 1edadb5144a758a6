import PortfolioHub.BoundedGather
import PortfolioHub.IbkrContracts
import PortfolioHub.PreviousCloseCalls

namespace PortfolioHub

namespace Yahoo

/-- `_YAHOO_SUFFIX`. -/
def suffix : List (String × String) := [
  ("TSEJ", ".T"), ("TSE", ".T"), ("OSE", ".T"), ("SEHK", ".HK"), ("SEHKNTL", ".HK"),
  ("SEHKSZSE", ".HK"), ("KRX", ".KS"), ("KSE", ".KS"), ("KOSDAQ", ".KQ"), ("TWSE", ".TW"),
  ("TPEX", ".TWO"), ("SSE", ".SS"), ("SZSE", ".SZ"), ("SGX", ".SI"), ("ASX", ".AX"), ("LSE", ".L"),
  ("IOB", ".IL"), ("IBIS", ".DE"), ("FWB", ".F"), ("SBF", ".PA"), ("AEB", ".AS"), ("BM", ".MC"),
  ("BVME", ".MI"), ("SFB", ".ST"), ("EBS", ".SW"), ("SIX", ".SW"), ("TSX", ".TO"), ("NYSE", ""),
  ("NASDAQ", ""), ("ARCA", ""), ("AMEX", ""), ("BATS", "")]

/-- `_PADDED_EXCHANGES`. -/
def paddedExchanges : List (String × ℕ) := [("SEHK", 4), ("SEHKNTL", 4), ("SEHKSZSE", 4)]

/-- `symbol.isdigit()`. -/
def isDigits (symbol : String) : Bool := symbol ≠ "" && symbol.toList.all Char.isDigit

/-- `symbol.zfill(width)` on digits. -/
def zfill (symbol : String) (width : ℕ) : String :=
  String.ofList (List.replicate (width - symbol.length) '0' ++ symbol.toList)

/-- `yahoo_symbol_for`. -/
def symbolFor (nativeSymbol exchange : String) : Option String := do
  let suffix ← suffix.lookup exchange
  let symbol := match paddedExchanges.lookup exchange with
    | some width => if isDigits nativeSymbol then zfill nativeSymbol width else nativeSymbol
    | none => nativeSymbol
  return symbol ++ suffix

/-- A JSON document. -/
inductive Json where
  | null
  | bool (b : Bool)
  | num (x : Python.Float)
  | str (s : String)
  | arr (items : List Json)
  | obj (fields : List (String × Json))

namespace Json

/-- `payload[name]`; the last field of a name counts. -/
def field? (name : String) : Json → Option Json
  | .obj fields => fields.reverse.lookup name
  | _ => none

/-- `payload[0]`. The first character of a text, which the code would take too, has no fields. -/
def first? : Json → Option Json
  | .arr (item :: _) => some item
  | _ => none

/-- A value above zero; `True` is the number one. -/
def positive? : Json → Option Python.Float
  | .num x => if 0 < x then some x else none
  | .bool true => some 1
  | _ => none

end Json

/-- What `extract_latest_close` takes for the closes. -/
def closes? (payload : Json) : Option Json := do
  let chart ← payload.field? "chart"
  let result ← (← chart.field? "result").first?
  let indicators ← result.field? "indicators"
  let quote ← (← indicators.field? "quote").first?
  quote.field? "close"

/-- `extract_latest_close`. -/
def extractLatestClose (payload : Json) : Option Python.Float :=
  match closes? payload with
  | some (.arr closes) => closes.reverse.findSome? Json.positive?
  | _ => none

end Yahoo

/-- A contract whose close is to be fetched, with the listing exchange that is known of it. -/
structure CloseRequest where
  contract : Contract
  listingExchange : Option String
deriving DecidableEq, Repr

/-- `listing_exchange or contract.primaryExchange or contract.exchange`. -/
def CloseRequest.exchange (r : CloseRequest) : String :=
  Python.orElse (r.listingExchange.getD "")
    (Python.orElse r.contract.primaryExchange r.contract.exchange)

inductive CloseQuestion where
  | chart (symbol : String)
  | bars (conId : ℤ)
deriving DecidableEq, Repr

/-- What a vendor answers: the chart of a symbol, none when the request fails, and the closes of
the daily bars, none when the request fails or there is no session. -/
inductive CloseReply where
  | chart (payload : Option Yahoo.Json)
  | bars (closes : Option (List Python.Float))

/-- `_try_yahoo`, once there is a reply. -/
def tryYahoo : CloseReply → Option Python.Float
  | .chart (some payload) => (Yahoo.extractLatestClose payload).filter fun value => ¬ value ≤ 0
  | _ => none

/-- `_try_ib_historical`, once there is a reply. -/
def tryIbHistorical : CloseReply → Option Python.Float
  | .bars (some closes) => closes.getLast?.filter fun value => 0 < value
  | _ => none

/-- A gated venue is not asked for bars. -/
def askIb (r : CloseRequest) : Turn CloseQuestion (Option Python.Float) :=
  if isPermissionGated r.exchange then .done none else .ask (.bars r.contract.conId)

/-- Yahoo is asked first where it knows the venue. -/
def askVendors (r : CloseRequest) : Turn CloseQuestion (Option Python.Float) :=
  match Yahoo.symbolFor r.contract.symbol r.exchange with
  | some symbol => .ask (.chart symbol)
  | none => askIb r

def afterReply (r : CloseRequest) (question : CloseQuestion) (reply : CloseReply) :
    Turn CloseQuestion (Option Python.Float) :=
  match question with
  | .chart _ =>
    match tryYahoo reply with
    | some value => .done (some value)
    | none => askIb r
  | .bars _ => .done (tryIbHistorical reply)

/-- `_fetch_previous_close`. -/
def fetchPreviousClose :
    Conversation CloseRequest CloseQuestion CloseReply (Option Python.Float) where
  start := askVendors
  next := afterReply

/-- `_PREVIOUS_CLOSE_FALLBACK_CONCURRENCY`. -/
def previousCloseFallbackConcurrency : ℕ := 8

/-- `_fetch_previous_closes` on its way. -/
abbrev CloseFetches := BoundedGather CloseRequest CloseQuestion CloseReply (Option Python.Float)

namespace CloseFetches

def step : CloseFetches → GatherEvent CloseReply → Option CloseFetches :=
  BoundedGather.step fetchPreviousClose previousCloseFallbackConcurrency

/-- What it returns once all fetches are done. -/
def closes (s : CloseFetches) : OrderedDict ℤ Python.Float :=
  freshCloses (s.jobs.map (·.item.contract.conId)) s.results

end CloseFetches

theorem Yahoo.Json.positive?_pos {value : Yahoo.Json} {x : Python.Float}
    (h : value.positive? = some x) : 0 < x := by
  unfold Yahoo.Json.positive? at h
  split at h
  next =>
    split at h
    next hpos =>
      obtain rfl := Option.some.inj h
      exact hpos
    next => cases h
  next =>
    obtain rfl := Option.some.inj h
    decide
  next => cases h

/-- The latest close is the last value of the list that is a number above zero. -/
theorem Yahoo.extractLatestClose_eq_some {payload : Yahoo.Json} {x : Python.Float}
    (h : Yahoo.extractLatestClose payload = some x) :
    0 < x ∧ ∃ before value after, Yahoo.closes? payload = some (.arr (before ++ value :: after)) ∧
      value.positive? = some x ∧ ∀ later ∈ after, later.positive? = none := by
  unfold Yahoo.extractLatestClose at h
  split at h
  next closes hcloses =>
    obtain ⟨before, value, after, hsplit, hvalue, hnone⟩ := List.findSome?_eq_some_iff.mp h
    refine ⟨Yahoo.Json.positive?_pos hvalue, after.reverse, value, before.reverse, ?_, hvalue, ?_⟩
    · rw [hcloses, ← List.reverse_reverse closes, hsplit]
      simp
    · intro later hlater
      exact hnone later (List.mem_reverse.mp hlater)
  next => cases h

theorem tryYahoo_pos {reply : CloseReply} {x : Python.Float} (h : tryYahoo reply = some x) : 0 < x := by
  unfold tryYahoo at h
  split at h
  next payload =>
    obtain ⟨hclose, -⟩ := Option.filter_eq_some_iff.mp h
    exact (Yahoo.extractLatestClose_eq_some hclose).1
  next => cases h

theorem tryIbHistorical_pos {reply : CloseReply} {x : Python.Float}
    (h : tryIbHistorical reply = some x) : 0 < x := by
  unfold tryIbHistorical at h
  split at h
  next closes =>
    obtain ⟨-, hpos⟩ := Option.filter_eq_some_iff.mp h
    simpa using hpos
  next => cases h

/-- How a fetch stands with IB, once there is nothing to be had from Yahoo. -/
inductive IbAsked (r : CloseRequest) :
    List (CloseQuestion × CloseReply) → Turn CloseQuestion (Option Python.Float) → Prop where
  | gated : isPermissionGated r.exchange = true → IbAsked r [] (.done none)
  | asked : isPermissionGated r.exchange = false → IbAsked r [] (.ask (.bars r.contract.conId))
  | answered (reply : CloseReply) : isPermissionGated r.exchange = false →
      IbAsked r [(.bars r.contract.conId, reply)] (.done (tryIbHistorical reply))

/-- How a fetch stands: a venue Yahoo knows is asked of Yahoo first. -/
inductive Fetching (r : CloseRequest) :
    List (CloseQuestion × CloseReply) → Turn CloseQuestion (Option Python.Float) → Prop where
  | unknown {transcript : List (CloseQuestion × CloseReply)}
      {turn : Turn CloseQuestion (Option Python.Float)} :
      Yahoo.symbolFor r.contract.symbol r.exchange = none → IbAsked r transcript turn →
        Fetching r transcript turn
  | asked {symbol : String} : Yahoo.symbolFor r.contract.symbol r.exchange = some symbol →
      Fetching r [] (.ask (.chart symbol))
  | quoted {symbol : String} {reply : CloseReply} {value : Python.Float} :
      Yahoo.symbolFor r.contract.symbol r.exchange = some symbol → tryYahoo reply = some value →
        Fetching r [(.chart symbol, reply)] (.done (some value))
  | passed {symbol : String} {reply : CloseReply} {rest : List (CloseQuestion × CloseReply)}
      {turn : Turn CloseQuestion (Option Python.Float)} :
      Yahoo.symbolFor r.contract.symbol r.exchange = some symbol → tryYahoo reply = none →
        IbAsked r rest turn → Fetching r ((.chart symbol, reply) :: rest) turn

theorem follow_done {r : CloseRequest} {result : Option Python.Float}
    {transcript : List (CloseQuestion × CloseReply)} {turn : Turn CloseQuestion (Option Python.Float)}
    (h : fetchPreviousClose.follow r (.done result) transcript = some turn) :
    transcript = [] ∧ turn = .done result := by
  cases transcript with
  | nil =>
    rw [Conversation.follow] at h
    exact ⟨rfl, (Option.some.inj h).symm⟩
  | cons entry rest =>
    rw [Conversation.follow] at h
    cases h

theorem follow_ask {r : CloseRequest} {question : CloseQuestion}
    {transcript : List (CloseQuestion × CloseReply)} {turn : Turn CloseQuestion (Option Python.Float)}
    (h : fetchPreviousClose.follow r (.ask question) transcript = some turn) :
    transcript = [] ∧ turn = .ask question ∨ ∃ reply rest, transcript = (question, reply) :: rest ∧
      fetchPreviousClose.follow r (afterReply r question reply) rest = some turn := by
  cases transcript with
  | nil =>
    rw [Conversation.follow] at h
    exact Or.inl ⟨rfl, (Option.some.inj h).symm⟩
  | cons entry rest =>
    obtain ⟨asked, reply⟩ := entry
    rw [Conversation.follow] at h
    by_cases hasked : asked = question
    · rw [if_pos hasked] at h
      exact Or.inr ⟨reply, rest, by rw [hasked], h⟩
    · rw [if_neg hasked] at h
      cases h

theorem ibAsked_of_follow {r : CloseRequest} {transcript : List (CloseQuestion × CloseReply)}
    {turn : Turn CloseQuestion (Option Python.Float)}
    (h : fetchPreviousClose.follow r (askIb r) transcript = some turn) : IbAsked r transcript turn := by
  unfold askIb at h
  cases hgated : isPermissionGated r.exchange with
  | true =>
    rw [hgated, if_pos rfl] at h
    obtain ⟨rfl, rfl⟩ := follow_done h
    exact .gated hgated
  | false =>
    rw [hgated, if_neg Bool.false_ne_true] at h
    rcases follow_ask h with hasked | hanswered
    · obtain ⟨rfl, rfl⟩ := hasked
      exact .asked hgated
    · obtain ⟨reply, rest, rfl, hrest⟩ := hanswered
      obtain ⟨rfl, rfl⟩ := follow_done hrest
      exact .answered reply hgated

theorem fetching_of_follow {r : CloseRequest} {transcript : List (CloseQuestion × CloseReply)}
    {turn : Turn CloseQuestion (Option Python.Float)}
    (h : fetchPreviousClose.follow r (askVendors r) transcript = some turn) :
    Fetching r transcript turn := by
  unfold askVendors at h
  cases hsymbol : Yahoo.symbolFor r.contract.symbol r.exchange with
  | none =>
    simp only [hsymbol] at h
    exact .unknown hsymbol (ibAsked_of_follow h)
  | some symbol =>
    simp only [hsymbol] at h
    rcases follow_ask h with hasked | hanswered
    · obtain ⟨rfl, rfl⟩ := hasked
      exact .asked hsymbol
    · obtain ⟨reply, rest, rfl, hrest⟩ := hanswered
      cases hreply : tryYahoo reply with
      | none =>
        simp only [afterReply, hreply] at hrest
        exact .passed hsymbol hreply (ibAsked_of_follow hrest)
      | some value =>
        simp only [afterReply, hreply] at hrest
        obtain ⟨rfl, rfl⟩ := follow_done hrest
        exact .quoted hsymbol hreply

/-- A close that a vendor gave: Yahoo for the symbol of the listing, or IB for the contract of a
venue that is not gated, where Yahoo had nothing. -/
inductive CloseRequest.Given (r : CloseRequest) :
    List (CloseQuestion × CloseReply) → Python.Float → Prop where
  | yahoo {symbol : String} {reply : CloseReply} {value : Python.Float} :
      Yahoo.symbolFor r.contract.symbol r.exchange = some symbol → tryYahoo reply = some value →
        Given r [(.chart symbol, reply)] value
  | ib {reply : CloseReply} {value : Python.Float} :
      Yahoo.symbolFor r.contract.symbol r.exchange = none →
        isPermissionGated r.exchange = false → tryIbHistorical reply = some value →
          Given r [(.bars r.contract.conId, reply)] value
  | ibAfterYahoo {symbol : String} {nothing reply : CloseReply} {value : Python.Float} :
      Yahoo.symbolFor r.contract.symbol r.exchange = some symbol → tryYahoo nothing = none →
        isPermissionGated r.exchange = false → tryIbHistorical reply = some value →
          Given r [(.chart symbol, nothing), (.bars r.contract.conId, reply)] value

theorem given_of_done {r : CloseRequest} {transcript : List (CloseQuestion × CloseReply)}
    {value : Python.Float} (h : Fetching r transcript (.done (some value))) :
    r.Given transcript value := by
  generalize hturn : Turn.done (some value) = turn at h
  cases h with
  | unknown hsymbol hib =>
    cases hib with
    | gated hgated => cases hturn
    | asked hgated => cases hturn
    | answered reply hgated => exact .ib hsymbol hgated (Turn.done.inj hturn).symm
  | asked hsymbol => cases hturn
  | quoted hsymbol hreply =>
    obtain rfl := Option.some.inj (Turn.done.inj hturn)
    exact .yahoo hsymbol hreply
  | passed hsymbol hreply hib =>
    cases hib with
    | gated hgated => cases hturn
    | asked hgated => cases hturn
    | answered reply hgated => exact .ibAfterYahoo hsymbol hreply hgated (Turn.done.inj hturn).symm

theorem done_of_given {r : CloseRequest} {transcript : List (CloseQuestion × CloseReply)}
    {result : Option Python.Float} {value : Python.Float} (h : r.Given transcript value)
    (hdone : Fetching r transcript (.done result)) : result = some value := by
  generalize hturn : Turn.done result = turn at hdone
  cases h with
  | yahoo hsymbol hreply =>
    cases hdone with
    | unknown hnone _ => rw [hsymbol] at hnone; cases hnone
    | quoted hsymbol' hfound =>
      rw [hreply] at hfound
      obtain rfl := Option.some.inj hfound
      exact Turn.done.inj hturn
    | passed hsymbol' hnone _ => rw [hreply] at hnone; cases hnone
  | ib hsymbol hopen hvalue =>
    cases hdone with
    | unknown _ hib =>
      cases hib with
      | answered reply _ => exact (Turn.done.inj hturn).trans hvalue
  | ibAfterYahoo hsymbol hnothing hopen hvalue =>
    cases hdone with
    | unknown hnone _ => rw [hsymbol] at hnone; cases hnone
    | passed hsymbol' _ hib =>
      cases hib with
      | answered reply _ => exact (Turn.done.inj hturn).trans hvalue

theorem given_pos {r : CloseRequest} {transcript : List (CloseQuestion × CloseReply)}
    {value : Python.Float} (h : r.Given transcript value) : 0 < value := by
  cases h with
  | yahoo hsymbol hreply => exact tryYahoo_pos hreply
  | ib hsymbol hopen hvalue => exact tryIbHistorical_pos hvalue
  | ibAfterYahoo hsymbol hnothing hopen hvalue => exact tryIbHistorical_pos hvalue

theorem within_askIb (r : CloseRequest) (n : ℕ) : fetchPreviousClose.Within r (n + 1) (askIb r) := by
  unfold askIb
  cases isPermissionGated r.exchange with
  | true =>
    rw [if_pos rfl]
    exact .done _ _
  | false =>
    rw [if_neg Bool.false_ne_true]
    exact .ask fun reply => .done _ _

theorem within_afterReply (r : CloseRequest) (symbol : String) (reply : CloseReply) :
    fetchPreviousClose.Within r 1 (afterReply r (.chart symbol) reply) := by
  unfold afterReply
  dsimp only
  cases tryYahoo reply with
  | none =>
    dsimp only
    exact within_askIb r 0
  | some value =>
    dsimp only
    exact .done _ _

/-- A fetch asks two questions at most. -/
theorem within_two (r : CloseRequest) : fetchPreviousClose.Within r 2 (askVendors r) := by
  unfold askVendors
  cases Yahoo.symbolFor r.contract.symbol r.exchange with
  | none =>
    dsimp only
    exact within_askIb r 1
  | some symbol =>
    dsimp only
    exact .ask (within_afterReply r symbol)

namespace CloseFetches

/-- What holds of the fetches at any time: at most eight requests are out, and every fetch has
asked Yahoo first and IB only where that is allowed and Yahoo had nothing. -/
structure Fair (requests : List CloseRequest) (s : CloseFetches) : Prop where
  requests : s.jobs.map (·.item) = requests
  inFlight : s.inFlight ≤ 8
  fetching : ∀ job ∈ s.jobs, ∀ turn, job.turn = some turn → Fetching job.item job.transcript turn

theorem fair_of_sound {requests : List CloseRequest} {s : CloseFetches}
    (h : s.Sound fetchPreviousClose previousCloseFallbackConcurrency requests) : s.Fair requests := by
  refine ⟨h.items, h.inFlight, fun job hjob turn hturn => ?_⟩
  have hsound := h.jobs job hjob
  unfold BoundedGather.JobSound at hsound
  rw [hturn] at hsound
  exact fetching_of_follow hsound

theorem given_iff_result {requests : List CloseRequest} {s : CloseFetches} (h : s.Fair requests)
    (hfinished : s.Finished) {job : GatherJob CloseRequest CloseQuestion CloseReply (Option Python.Float)}
    (hjob : job ∈ s.jobs) (value : Python.Float) :
    job.item.Given job.transcript value ↔ job.result? = some (some value) := by
  obtain ⟨result, hresult⟩ := Option.isSome_iff_exists.mp (hfinished job hjob)
  have hdone := h.fetching job hjob _ (GatherJob.result?_eq_some_iff.mp hresult)
  rw [hresult]
  constructor
  · intro hgiven
    rw [done_of_given hgiven hdone]
  · intro hsome
    obtain rfl := Option.some.inj hsome
    exact given_of_done hdone

/-- The closes returned are the ones the vendors gave. -/
theorem get?_closes {requests : List CloseRequest} {s : CloseFetches} (h : s.Fair requests)
    (hfinished : s.Finished) (conId : ℤ) :
    (∀ value, s.closes.get? conId = some value →
      ∃ job ∈ s.jobs, job.item.contract.conId = conId ∧ job.item.Given job.transcript value) ∧
    (s.closes.get? conId = none →
      ∀ job ∈ s.jobs, job.item.contract.conId = conId → ∀ value, ¬ job.item.Given job.transcript value) := by
  have hmem : ∀ value, (conId, some value) ∈ (s.jobs.map (·.item.contract.conId)).zip s.results ↔
      ∃ job ∈ s.jobs, job.item.contract.conId = conId ∧ job.item.Given job.transcript value := by
    intro value
    rw [BoundedGather.results, BoundedGather.mem_zip_results hfinished]
    constructor
    · intro hresults
      obtain ⟨job, hjob, hconId, hresult⟩ := hresults
      exact ⟨job, hjob, hconId, (given_iff_result h hfinished hjob value).mpr hresult⟩
    · intro hgivens
      obtain ⟨job, hjob, hconId, hgiven⟩ := hgivens
      exact ⟨job, hjob, hconId, (given_iff_result h hfinished hjob value).mp hgiven⟩
  constructor
  · intro value hvalue
    exact (hmem value).mp (CloseCache.mem_of_get?_freshCloses hvalue)
  · intro hnone job hjob hconId value hgiven
    exact CloseCache.notMem_of_get?_freshCloses hnone (given_pos hgiven)
      ((hmem value).mpr ⟨job, hjob, hconId, hgiven⟩)

end CloseFetches

/-- However the vendors answer, and in whatever order: the fetches of the previous closes come to
an end once every request is answered, with at most eight requests out at any time, and what they
return is what the vendors gave. -/
theorem previous_closes_gathered {requests : List CloseRequest} {trace : ℕ → CloseFetches}
    (h0 : trace 0 = .init requests)
    (h : MaximalRun (GuardedStep CloseFetches.step fun _ _ => True)
      (GuardedStep CloseFetches.step fun _ _ => True) trace) :
    (∀ n, (trace n).Fair requests) ∧ ∃ n, (trace n).Finished ∧ ∀ conId,
      (∀ value, (trace n).closes.get? conId = some value → 0 < value ∧
        ∃ job ∈ (trace n).jobs, job.item.contract.conId = conId ∧
          job.item.Given job.transcript value) ∧
      ((trace n).closes.get? conId = none → ∀ job ∈ (trace n).jobs,
        job.item.contract.conId = conId → ∀ value, ¬ job.item.Given job.transcript value) := by
  have hsound : ∀ n, (trace n).Sound fetchPreviousClose previousCloseFallbackConcurrency requests := by
    intro n
    have hreached := h.reaches n
    rw [h0] at hreached
    exact BoundedGather.reaches_sound hreached
  have hfair := fun n => CloseFetches.fair_of_sound (hsound n)
  have hpermits : 0 < previousCloseFallbackConcurrency := by decide
  have hnonempty : Nonempty CloseReply := ⟨.bars none⟩
  obtain ⟨n, hn⟩ := BoundedGather.finishes hpermits (fun r _ => within_two r) h0 h
  refine ⟨hfair, n, hn, fun conId => ?_⟩
  obtain ⟨hsome, hnone⟩ := CloseFetches.get?_closes (hfair n) hn conId
  refine ⟨fun value hvalue => ?_, hnone⟩
  obtain ⟨job, hjob, hconId, hgiven⟩ := hsome value hvalue
  exact ⟨given_pos hgiven, job, hjob, hconId, hgiven⟩

/-- A share that Yahoo quotes, and one of Hong Kong that it does not. -/
def sampleRequests : List CloseRequest := [
  ⟨⟨1, "AAPL", "STK", "NASDAQ", "SMART", "USD"⟩, none⟩,
  ⟨⟨2, "700", "STK", "", "SMART", "HKD"⟩, some "SEHK"⟩]

def sampleChart : Yahoo.Json :=
  .obj [("chart", .obj [("result", .arr [.obj [("indicators", .obj [("quote",
    .arr [.obj [("close", .arr [.num 4, .num 5, .null])]])])]])])]

theorem closes_of_two_vendors : ∃ trace : ℕ → CloseFetches, trace 0 = .init sampleRequests ∧
    (∀ n, (trace n).Fair sampleRequests) ∧ ∃ n, (trace n).Finished ∧
      (trace n).closes.get? 1 = some 5 ∧ (trace n).closes.get? 2 = some 11 := by
  have hend : (execute (restrict CloseFetches.step fun _ _ => True) (.init sampleRequests)
      [.start 0, .start 1, .answer 1 (.chart none), .answer 0 (.chart (some sampleChart)),
        .answer 1 (.bars (some [10, 11]))]).any (fun s =>
      s.Finished ∧ s.closes.get? 1 = some 5 ∧ s.closes.get? 2 = some 11) = true := by
    decide +kernel
  obtain ⟨last, hrun, hlast⟩ := (Option.any_eq_true _ _).mp hend
  obtain ⟨hfinished, hcloses⟩ := of_decide_eq_true hlast
  obtain ⟨trace, h0, htrace⟩ := MaximalRun.exists_trace hrun
  obtain ⟨hfair, n, hn, -⟩ :=
    previous_closes_gathered h0 (BoundedGather.maximalRun_of_trace hfinished htrace)
  have hat : trace n = last := by
    rcases htrace n with hstep | hrest
    · obtain ⟨e, -, he⟩ := hstep
      rw [CloseFetches.step, BoundedGather.step_of_finished hn e] at he
      cases he
    · exact hrest.1
  exact ⟨trace, h0, hfair, n, hn, by rw [hat]; exact hcloses⟩

end PortfolioHub
