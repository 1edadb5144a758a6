import PortfolioHub.Holdings
import PortfolioHub.Render

namespace PortfolioHub

/-- On an emitted row the template can miss the currency of a balance and the venue that
Longbridge names. -/
theorem renderable_of_listed {p : Position} (h : p.Listed) :
    p.Renderable ↔ (p.assetClass = .cash → KnownCurrency p.currency) ∧
      (p.assetClass = .stk → p.broker = "Longbridge" → KnownExchange p.exchange) := by
  unfold Position.Renderable
  cases hclass : p.assetClass with
  | cash => simp [h.cash hclass]
  | stk =>
    have hvenue := h.venue hclass
    by_cases hbroker : p.broker = "Longbridge"
    · simp [hvenue, hbroker]
    · simp [hbroker, h.stock hclass hbroker]

/-- When rendering is total on adapter output. -/
theorem render_defined_iff {positions : List Position} (hemitted : ∀ p ∈ positions, Emitted p) :
    ((∀ f, ∃ payload, renderStreamPayload positions f = .ok payload) ∧
      ∀ summaries brokers hours query,
        ∃ page, renderIndex ⟨positions, summaries, brokers, hours⟩ query = .ok page) ↔
    ∀ p ∈ positions, (p.assetClass = .cash → KnownCurrency p.currency) ∧
      (p.assetClass = .stk → p.broker = "Longbridge" → KnownExchange p.exchange) := by
  constructor
  · rintro ⟨hstream, -⟩ p hp
    have hall := (renderStreamPayload_defined_iff positions .all).mp (hstream .all)
    rw [applyFilters_all] at hall
    exact (renderable_of_listed (emitted_listed (hemitted p hp))).mp (hall p hp)
  · intro h
    have hall : ∀ p ∈ positions, p.Renderable :=
      fun p hp => (renderable_of_listed (emitted_listed (hemitted p hp))).mpr (h p hp)
    refine ⟨fun f => ?_, fun summaries brokers hours query => renderIndex_defined query hall⟩
    exact (renderStreamPayload_defined_iff positions f).mpr fun p hp => hall p (mem_applyFilters hp)

/-- The rows of one connect with a balance in the currency. -/
def cashReplies (currency : String) : IbReplies :=
  sampleReplies [sampleIbPosition "U1", ⟨"U1", ⟨0, currency, "CASH", "", "IDEALPRO", currency⟩, 1000, 1⟩]
    []

theorem dollar_balance_renders :
    ∃ rows, (cashReplies "USD").getPositions sampleView = .ok rows ∧
      ((∀ f, ∃ payload, renderStreamPayload rows f = .ok payload) ∧
        ∀ summaries brokers hours query,
          ∃ page, renderIndex ⟨rows, summaries, brokers, hours⟩ query = .ok page) := by
  have hknown : ((cashReplies "USD").getPositions sampleView).toOption.any (fun rows =>
      rows.all fun p => p.broker = "IBKR" ∧ (p.assetClass = .cash → KnownCurrency p.currency)) =
        true := by decide +kernel
  cases hrows : (cashReplies "USD").getPositions sampleView with
  | error e => simp [hrows, Except.toOption] at hknown
  | ok rows =>
    rw [hrows] at hknown
    refine ⟨rows, rfl, (render_defined_iff fun p hp => .ibkr hrows hp).mpr fun p hp => ?_⟩
    have hrow := of_decide_eq_true (List.all_eq_true.mp hknown p hp)
    exact ⟨hrow.2, fun _ hbroker => absurd (hrow.1.symm.trans hbroker) (by decide)⟩

/-- A balance in New Zealand dollars takes the stream and the page down. -/
theorem unknown_currency_breaks_the_page :
    ¬ ∀ positions : List Position, (∀ p ∈ positions, Emitted p) →
      ((∀ f, ∃ payload, renderStreamPayload positions f = .ok payload) ∧
        ∀ summaries brokers hours query,
          ∃ page, renderIndex ⟨positions, summaries, brokers, hours⟩ query = .ok page) := by
  intro hall
  have hraises : ((cashReplies "NZD").getPositions sampleView).toOption.any (fun rows =>
      (renderStreamPayload rows .all).toOption = none) = true := by decide +kernel
  cases hrows : (cashReplies "NZD").getPositions sampleView with
  | error e => simp [hrows, Except.toOption] at hraises
  | ok rows =>
    obtain ⟨payload, hpayload⟩ := (hall rows fun p hp => .ibkr hrows hp).1 .all
    simp [hrows, Except.toOption, hpayload] at hraises

end PortfolioHub
