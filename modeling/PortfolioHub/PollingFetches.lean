import PortfolioHub.PollingSteps

namespace PortfolioHub

/-- In a serial run every list given to `replace_broker` comes from vendor calls on one session
that is still held; so do the lists in progress, whose session is held all the while. -/
theorem publishes_whole_fetches {config : PollingConfig} {s : PollingAdapter}
    (hrun : Reaches (PollingAdapter.step config) (PollingAdapter.Serial config) .init s) :
    (∀ p ∈ s.published, p.Whole) ∧
      ∀ id c observed, s.running id = some c → c.seen? = some observed →
        ∃ n, s.session = some ⟨n, true⟩ ∧ ∀ seen ∈ observed, seen = some n := by
  have htidy : s.Tidy config := hrun.invariant PollingAdapter.init_tidy
    fun _ _ _ h hguard hstep => PollingAdapter.step_tidy h hguard hstep
  refine ⟨htidy.published, fun id c observed hrunning hseen => ?_⟩
  obtain ⟨hi, hc⟩ := PollingAdapter.running_eq_some.mp hrunning
  exact htidy.fetches id c observed hc hi hseen

/-- The fetch of `start()`, and that of the poll loop after a `disconnect()` and a `connect()`. -/
theorem reconnected_session_publishes :
    ∃ s, Reaches (PollingAdapter.step ⟨.tiger, [5], true, true⟩)
        (PollingAdapter.Serial ⟨.tiger, [5], true, true⟩) .init s ∧
      s.published.length = 3 ∧ ∀ p ∈ s.published, p.Whole := by
  obtain ⟨s, hrun, hs⟩ := Reaches.exists_of_execute
    (PollingAdapter.step ⟨.tiger, [5], true, true⟩)
    (PollingAdapter.Serial ⟨.tiger, [5], true, true⟩) .init
    [.start ⟨true, true, .built⟩, .asks 0, .fetchEnds 0 none ⟨true, true, .built⟩,
      .disconnect ⟨true, true, .built⟩, .cancelDelivered 2, .taskAwaited 3 ⟨true, true, .built⟩,
      .closed 3 ⟨true, true, .built⟩, .connect ⟨true, true, .built⟩, .asks 4,
      .fetchEnds 4 none ⟨true, true, .built⟩, .pollWakes 6 ⟨true, true, .built⟩, .asks 6,
      .fetchEnds 6 none ⟨true, true, .built⟩]
    (fun s => s.published.length = 3) (by decide +kernel)
  exact ⟨s, hrun, of_decide_eq_true hs, (publishes_whole_fetches hrun).1⟩

/-- A `disconnect()` between the position rows and the quotes of the fetch of `start()`. -/
theorem disconnect_in_a_fetch_publishes_it :
    ∃ s, Reaches (PollingAdapter.step ⟨.longbridge, [5], true, true⟩) (fun _ _ => True) .init s ∧
      ∃ p ∈ s.published, ¬ p.Whole := by
  obtain ⟨s, hrun, hs⟩ := Reaches.exists_of_execute
    (PollingAdapter.step ⟨.longbridge, [5], true, true⟩) (fun _ _ => True) .init
    [.start ⟨false, true, .built⟩, .disconnect ⟨false, true, .built⟩, .asks 0,
      .fetchEnds 0 none ⟨false, true, .built⟩]
    (fun s => s.published = [⟨[none, some 1], none⟩]) (by decide +kernel)
  refine ⟨s, hrun, ⟨[none, some 1], none⟩, ?_, ?_⟩
  · rw [of_decide_eq_true hs]
    exact List.mem_singleton_self _
  · rintro ⟨n, hsession, -⟩
    cases hsession

end PortfolioHub
