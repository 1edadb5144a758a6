import PortfolioHub.AdapterCalls
import PortfolioHub.RenderTotal

namespace PortfolioHub

/-- Of what the broker raises, the route tolerates a `NotImplementedError`. -/
def Tolerated : Python.Error → Prop
  | .notImplementedError _ => True
  | _ => False

def tolerate {α : Type} (reply : Except Python.Error (List α)) : Except Python.Error (List α) :=
  match reply with
  | .error (.notImplementedError _) => .ok []
  | reply => reply

/-- The positions of the page: those of the store, or the broker's when it has none. -/
def indexPositions (fx : FxView) (adapters : Adapters) (broker : Broker) (live : LivePositions) :
    Except Python.Error (List Position) :=
  if live.getAll = [] ∧ broker.connectionState adapters = .connected then
    tolerate (broker.getPositions fx adapters)
  else .ok live.getAll

/-- `GET /`. -/
def index (fx : FxView) (adapters : Adapters) (broker : Broker) (live : LivePositions)
    (enabled : List BrokerName) (hours : MarketHours) (query : IndexQuery) :
    Except Python.Error IndexPage := do
  let positions ← indexPositions fx adapters broker live
  let summaries ← tolerate (broker.getAccountSummary fx adapters)
  renderIndex ⟨positions, summaries, enabled, hours⟩ query

/-- The vendors raise nothing but Exceptions. -/
def Adapters.RaiseExceptions (fx : FxView) (adapters : Adapters) : Prop :=
  ∀ name e, (Python.raised ((adapters.get name).getPositions fx) = some e ∨
    Python.raised ((adapters.get name).getAccountSummary fx) = some e) → e.isException = true

theorem tolerate_defined_iff {α : Type} (reply : Except Python.Error (List α)) :
    (∃ rows, tolerate reply = .ok rows) ↔ ∀ e, Python.raised reply = some e → Tolerated e := by
  cases reply with
  | ok rows => simp [tolerate, Python.raised]
  | error e => cases e <;> simp [tolerate, Python.raised, Tolerated]

theorem mem_tolerate {α : Type} {reply : Except Python.Error (List α)} {rows : List α} {a : α}
    (h : tolerate reply = .ok rows) (ha : a ∈ rows) : reply = .ok rows := by
  unfold tolerate at h
  split at h
  next =>
    obtain rfl := Except.ok.inj h
    simp at ha
  next => exact h

/-- The page of all rows renders just when each of them does. -/
theorem renderIndex_defined_iff (positions : List Position) (summaries : List AccountSummary)
    (enabled : List BrokerName) (hours : MarketHours) :
    (∀ query, ∃ page, renderIndex ⟨positions, summaries, enabled, hours⟩ query = .ok page) ↔
      ∀ p ∈ positions, p.Renderable := by
  constructor
  · intro h p hp
    obtain ⟨page, hpage⟩ := h ⟨none, none, none⟩
    obtain ⟨totals, markets, -, -, hrows, -⟩ := renderIndex_parts hpage
    have hshown : p ∈ sortByValue (applyFilters positions .all) := by
      rw [applyFilters_all]
      exact (List.perm_insertionSort _ _).mem_iff.mpr hp
    exact (holdingsRow_defined_iff _ p).mp (Python.mapM_defined_iff.mp ⟨_, hrows⟩ p hshown)
  · exact fun h query => renderIndex_defined query h

/-- A composite always has summaries to show, a sole adapter when nothing worse than a
`NotImplementedError` comes up. -/
theorem summaries_tolerated_iff {fx : FxView} {adapters : Adapters}
    (hvendor : adapters.RaiseExceptions fx) (broker : Broker) :
    (∃ summaries, tolerate (broker.getAccountSummary fx adapters) = .ok summaries) ↔
      ∀ name, broker = .adapter name → ∀ e, (adapters.get name).summaryRaises = some e →
        Tolerated e := by
  cases broker with
  | adapter name =>
    rw [Broker.getAccountSummary, tolerate_defined_iff, Adapter.raised_getAccountSummary]
    constructor
    · intro h other hother
      obtain rfl := Broker.adapter.inj hother
      exact h
    · exact fun h => h name rfl
  | composite names =>
    obtain ⟨summaries, hanswers, -⟩ :=
      gatherRows_map (fun name e he => hvendor name e (Or.inr he)) names
    rw [Broker.getAccountSummary, hanswers]
    simp [tolerate]

/-- The rows fetched for an empty store can be shown. -/
theorem positions_tolerated_iff {fx : FxView} {adapters : Adapters}
    (hvendor : adapters.RaiseExceptions fx) (broker : Broker) :
    (∃ rows, tolerate (broker.getPositions fx adapters) = .ok rows ∧ ∀ p ∈ rows, p.Renderable) ↔
      (∀ name, broker = .adapter name → ∀ e,
        Python.raised ((adapters.get name).getPositions fx) = some e → Tolerated e) ∧
      ∀ name ∈ broker.children, ∀ rows, (adapters.get name).getPositions fx = .ok rows →
        ∀ p ∈ rows, p.Renderable := by
  cases broker with
  | adapter name =>
    have hdefined := tolerate_defined_iff ((adapters.get name).getPositions fx)
    constructor
    · rintro ⟨rows, hrows, hall⟩
      refine ⟨fun other hother => ?_, fun other hother rows' hrows' p hp => ?_⟩
      · obtain rfl := Broker.adapter.inj hother
        exact hdefined.mp ⟨rows, hrows⟩
      · obtain rfl : other = name := by simpa [Broker.children] using hother
        have hsame : tolerate ((adapters.get other).getPositions fx) = .ok rows' := by
          rw [hrows']
          rfl
        obtain rfl := Except.ok.inj (hrows.symm.trans hsame)
        exact hall p hp
    · rintro ⟨hraise, hall⟩
      obtain ⟨rows, hrows⟩ := hdefined.mpr (hraise name rfl)
      refine ⟨rows, hrows, fun p hp => ?_⟩
      exact hall name (by simp [Broker.children]) rows (mem_tolerate hrows hp) p hp
  | composite names =>
    obtain ⟨gathered, hanswers, hmem⟩ :=
      gatherRows_map (fun name e he => hvendor name e (Or.inl he)) names
    rw [Broker.getPositions, hanswers]
    constructor
    · rintro ⟨rows, hrows, hall⟩
      obtain rfl := Except.ok.inj hrows
      refine ⟨fun name hname => absurd hname (by simp), fun name hname rows hget p hp => ?_⟩
      exact hall p ((hmem p).mpr ⟨name, hname, rows, hget, hp⟩)
    · rintro ⟨-, hall⟩
      refine ⟨_, rfl, fun p hp => ?_⟩
      obtain ⟨name, hname, rows, hget, hp⟩ := (hmem p).mp hp
      exact hall name hname rows hget p hp

/-- When the page comes up whatever is asked of it, and shows the store's rows: a sole
adapter's summary raises nothing worse than a `NotImplementedError`, and for an empty
store of a connected broker neither do its positions, whose rows have to render. -/
theorem index_answers_iff {fx : FxView} {adapters : Adapters}
    (hvendor : adapters.RaiseExceptions fx) (broker : Broker) {live : LivePositions}
    (hlive : ∀ p ∈ live.getAll, p.Renderable) (enabled : List BrokerName) (hours : MarketHours) :
    (∀ query, ∃ page, index fx adapters broker live enabled hours query = .ok page ∧
      (live.getAll ≠ [] → ∃ summaries,
        renderIndex ⟨live.getAll, summaries, enabled, hours⟩ query = .ok page)) ↔
      (∀ name, broker = .adapter name → ∀ e, (adapters.get name).summaryRaises = some e →
        Tolerated e) ∧
      (live.getAll = [] → broker.connectionState adapters = .connected →
        (∀ name, broker = .adapter name → ∀ e,
          Python.raised ((adapters.get name).getPositions fx) = some e → Tolerated e) ∧
        ∀ name ∈ broker.children, ∀ rows, (adapters.get name).getPositions fx = .ok rows →
          ∀ p ∈ rows, p.Renderable) := by
  rw [← summaries_tolerated_iff hvendor, ← positions_tolerated_iff hvendor]
  constructor
  · intro h
    obtain ⟨page, hpage, -⟩ := h ⟨none, none, none⟩
    obtain ⟨positions, hpositions, hpage⟩ := Python.bind_eq_ok.mp hpage
    obtain ⟨summaries, hsummaries, -⟩ := Python.bind_eq_ok.mp hpage
    refine ⟨⟨summaries, hsummaries⟩, fun hempty hstate => ⟨positions, ?_, ?_⟩⟩
    · rwa [indexPositions, if_pos ⟨hempty, hstate⟩] at hpositions
    · refine (renderIndex_defined_iff positions summaries enabled hours).mp fun query => ?_
      obtain ⟨page, hpage, -⟩ := h query
      obtain ⟨positions', hpositions', hpage⟩ := Python.bind_eq_ok.mp hpage
      obtain ⟨summaries', hsummaries', hpage⟩ := Python.bind_eq_ok.mp hpage
      obtain rfl := Except.ok.inj (hpositions.symm.trans hpositions')
      obtain rfl := Except.ok.inj (hsummaries.symm.trans hsummaries')
      exact ⟨page, hpage⟩
  · rintro ⟨⟨summaries, hsummaries⟩, hempty⟩ query
    have hpositions : ∃ positions, indexPositions fx adapters broker live = .ok positions ∧
        (∀ p ∈ positions, p.Renderable) ∧ (live.getAll ≠ [] → positions = live.getAll) := by
      unfold indexPositions
      split
      next hcond =>
        obtain ⟨rows, hrows, hall⟩ := hempty hcond.1 hcond.2
        exact ⟨rows, hrows, hall, fun hne => absurd hcond.1 hne⟩
      next => exact ⟨live.getAll, rfl, hlive, fun _ => rfl⟩
    obtain ⟨positions, hpos, hrender, hsame⟩ := hpositions
    obtain ⟨page, hpage⟩ :=
      (renderIndex_defined_iff positions summaries enabled hours).mpr hrender query
    refine ⟨page, ?_, fun hne => ⟨summaries, by rw [← hsame hne]; exact hpage⟩⟩
    unfold index
    rw [hpos]
    change (tolerate (broker.getAccountSummary fx adapters) >>= fun summaries =>
      renderIndex ⟨positions, summaries, enabled, hours⟩ query) = .ok page
    rw [hsummaries]
    exact hpage

/-- Longbridge is connected and holds no stock; its summary gets these answers. -/
def sampleAdapters (summary : LongbridgeReplies) : Adapters where
  get
    | .ibkr => .ibkr .disconnected none
    | .futu => .futu .disconnected [] ⟨fun _ _ => .ok none, fun _ => .ok none⟩
        ⟨fun _ _ => .ok none, fun _ => .ok none⟩
    | .longbridge => .longbridge .connected ⟨"Longbridge", "", "USD"⟩
        ⟨.ok [], fun _ => .ok [], fun _ => .ok [], .ok []⟩ summary
    | .tiger => .tiger .disconnected ⟨"USD", []⟩ []
        ⟨fun _ => .ok [], fun _ => .ok [], fun _ => .ok none, fun _ => .ok none⟩
        ⟨fun _ => .ok [], fun _ => .ok [], fun _ => .ok none, fun _ => .ok none⟩
  name_get name := by cases name <;> rfl

/-- The balance query meets a closed connection. -/
def failingReplies : LongbridgeReplies :=
  ⟨.ok [], fun _ => .ok [], fun _ => .ok [], .error (.vendor "connection refused")⟩

/-- A store with the dollars that Longbridge reported before. -/
def dollarStore : LivePositions :=
  LivePositions.empty.setPosition (cashRow "Longbridge" "Longbridge" "USD" 100 sampleView)

/-- Every venue is closed. -/
def closedHours : MarketHours := ⟨fun code => ⟨code, .closed, "", "", ""⟩⟩

theorem dollarStore_renderable : ∀ p ∈ dollarStore.getAll, p.Renderable := by decide +kernel

theorem sampleAdapters_raise : (sampleAdapters failingReplies).RaiseExceptions sampleView := by
  rintro name e (h | h)
  · have hnone : Python.raised
        (((sampleAdapters failingReplies).get name).getPositions sampleView) = none := by
      cases name <;> rfl
    rw [hnone] at h
    cases h
  · rw [Adapter.raised_getAccountSummary] at h
    cases name with
    | longbridge =>
      obtain rfl : Python.Error.vendor "connection refused" = e := Option.some.inj h
      rfl
    | ibkr => cases h
    | futu => cases h
    | tiger => cases h

/-- With Futu beside it the failing summary of Longbridge is passed over. -/
theorem composite_page_answers :
    ((sampleAdapters failingReplies).get .longbridge).summaryRaises =
        some (.vendor "connection refused") ∧
      ∀ query, ∃ page, index sampleView (sampleAdapters failingReplies)
          (.composite [.futu, .longbridge]) dollarStore [.futu, .longbridge] closedHours query =
            .ok page ∧
        (dollarStore.getAll ≠ [] → ∃ summaries, renderIndex
          ⟨dollarStore.getAll, summaries, [.futu, .longbridge], closedHours⟩ query = .ok page) := by
  refine ⟨rfl, (index_answers_iff sampleAdapters_raise (.composite [.futu, .longbridge])
    dollarStore_renderable _ _).mpr ⟨fun name hname => absurd hname (by simp),
      fun hempty => ?_⟩⟩
  have hrow : dollarStore.getAll ≠ [] := by decide +kernel
  exact absurd hempty hrow

/-- Longbridge alone: its failing balance query takes the page down. -/
theorem failing_summary_breaks_the_page :
    ¬ ∀ (raw : Option String) (broker : Broker) (fx : FxView) (adapters : Adapters)
      (live : LivePositions) (hours : MarketHours) (query : IndexQuery),
      buildProductionBroker (enabledBrokers raw) = .ok broker → adapters.RaiseExceptions fx →
        (∀ p ∈ live.getAll, p.Renderable) →
          ∃ page, index fx adapters broker live (enabledBrokers raw) hours query = .ok page := by
  intro hall
  obtain ⟨page, hpage⟩ := hall (some "longbridge") (.adapter .longbridge) sampleView
    (sampleAdapters failingReplies) dollarStore closedHours
    ⟨none, none, none⟩ (by decide +kernel) sampleAdapters_raise dollarStore_renderable
  obtain ⟨positions, -, hpage⟩ := Python.bind_eq_ok.mp hpage
  obtain ⟨summaries, hsummaries, -⟩ := Python.bind_eq_ok.mp hpage
  exact (tolerate_defined_iff _).mp ⟨summaries, hsummaries⟩ (.vendor "connection refused") rfl

end PortfolioHub
