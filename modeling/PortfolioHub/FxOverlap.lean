import PortfolioHub.FxCoverage
import PortfolioHub.Transition

namespace PortfolioHub

namespace FxProgram

variable {s : FxProgram} {id : ℕ}

/-- What has been subscribed to, and on which instance. -/
def subscriptions (s : FxProgram) : List (ℕ × String) :=
  s.handlers.map fun handler => (handler.ib, handler.currency)

/-- A contract comes back to a call only where its currency still has no subscription. -/
def Unraced (s : FxProgram) : FxProgramEvent → Prop
  | .qualified id reply subscribed => subscribed = true →
    ∀ call ∈ s.calls.find? fun call => call.id = id,
      (reply call.currency).isSome = true → call.currency ∉ s.tickers.keys
  | _ => True

instance (s : FxProgram) : (e : FxProgramEvent) → Decidable (s.Unraced e)
  | .ensureSubscribed _ => inferInstanceAs (Decidable True)
  | .qualified _ _ _ => inferInstanceAs (Decidable (_ → ∀ call ∈ s.calls.find? _, _ → _))
  | .attachIb => inferInstanceAs (Decidable True)
  | .tick _ _ _ => inferInstanceAs (Decidable True)
  | .payload _ _ _ => inferInstanceAs (Decidable True)
  | .persist _ _ => inferInstanceAs (Decidable True)
  | .restart => inferInstanceAs (Decidable True)

/-- One subscription for each currency and instance; on the attached one the table knows it. -/
structure Single (s : FxProgram) : Prop where
  nodup : s.subscriptions.Nodup
  known : ∀ ib currency, s.ib = some ib → (ib, currency) ∈ s.subscriptions →
    currency ∈ s.tickers.keys
  fresh : ∀ ib currency, (ib, currency) ∈ s.subscriptions → ib < s.nextId
  attached : ∀ ib, s.ib = some ib → ib < s.nextId

theorem Single.congr {t : FxProgram} (h : s.Single) (hhandlers : t.handlers = s.handlers)
    (hib : t.ib = s.ib) (htickers : t.tickers = s.tickers) (hnext : s.nextId ≤ t.nextId) :
    t.Single := by
  have hsubscriptions : t.subscriptions = s.subscriptions := by
    unfold subscriptions
    rw [hhandlers]
  refine ⟨hsubscriptions ▸ h.nodup, ?_, ?_, ?_⟩
  · rw [hsubscriptions, hib, htickers]
    exact h.known
  · rw [hsubscriptions]
    exact fun ib currency hmem => (h.fresh ib currency hmem).trans_le hnext
  · rw [hib]
    exact fun ib hsome => (h.attached ib hsome).trans_le hnext

theorem Single.ensureFrom (h : s.Single) (hbooked : s.Booked) (id : ℕ) (currencies : List String) :
    (s.ensureFrom id currencies).Single := by
  obtain ⟨done, rest, hloops⟩ := ensureFrom_loops id currencies hbooked.keys
  exact h.congr hloops.handlers hloops.ib hloops.tickers hloops.nextId.ge

/-- A currency that is not in the table has no subscription on the attached instance. -/
theorem Single.subscribe (h : s.Single) {currency : String} (hnew : currency ∉ s.tickers.keys)
    (contract : ForexContract) : (s.subscribe currency contract).Single := by
  unfold FxProgram.subscribe
  split
  next => exact h
  next ib hib =>
    have hmem : ∀ ib' c, (ib', c) ∈ s.subscriptions ++ [(ib, currency)] →
        (ib', c) ∈ s.subscriptions ∨ ib' = ib ∧ c = currency := by
      intro ib' c hc
      rcases List.mem_append.mp hc with hc | hc
      · exact Or.inl hc
      · exact Or.inr (Prod.mk.inj (List.mem_singleton.mp hc))
    have hsubscriptions : ∀ calls tickers, subscriptions { s with
        calls := calls, tickers := tickers,
        handlers := s.handlers ++ [⟨ib, currency, contract, contractQuotesUsdBase currency contract⟩] } =
          s.subscriptions ++ [(ib, currency)] := fun _ _ => List.map_append
    refine ⟨?_, ?_, ?_, h.attached⟩
    · rw [hsubscriptions]
      refine List.Nodup.append h.nodup (List.nodup_singleton _) ?_
      intro p hp hp'
      obtain rfl := List.mem_singleton.mp hp'
      exact hnew (h.known ib currency hib hp)
    · intro ib' c hsome hc
      rw [hsubscriptions] at hc
      obtain ⟨ib'', hget⟩ : ∃ v, (s.tickers.insert currency ib).get? c = some v := by
        rw [OrderedDict.get?_insert]
        split
        next => exact ⟨ib, rfl⟩
        next hne =>
          rcases hmem ib' c hc with hold | ⟨-, rfl⟩
          · exact OrderedDict.mem_keys_iff.mp (h.known ib' c hsome hold)
          · exact absurd rfl hne
      exact OrderedDict.mem_keys_iff.mpr ⟨ib'', hget⟩
    · intro ib' c hc
      rw [hsubscriptions] at hc
      rcases hmem ib' c hc with hold | ⟨rfl, -⟩
      · exact h.fresh ib' c hold
      · exact h.attached _ hib

theorem Single.qualified (h : s.Single) (hbooked : s.Booked) {reply : String → Option ForexContract}
    {subscribed : Bool} (hguard : s.Unraced (.qualified id reply subscribed)) :
    (s.qualified id reply subscribed).Single := by
  unfold FxProgram.qualified
  split
  next => exact h
  next call hfind =>
    have hforget : Single { s with calls := s.calls.filter fun other => other.id ≠ id } :=
      h.congr rfl rfl rfl le_rfl
    have hbooked' := hbooked.forget id
    dsimp only
    split
    next => exact hforget.ensureFrom hbooked' id call.rest
    next contract hcontract =>
      split
      next hsubscribed =>
        have hnew : call.currency ∉ s.tickers.keys :=
          hguard hsubscribed call hfind (by rw [hcontract]; rfl)
        have hquotable := (hbooked.calls call (List.mem_of_find?_eq_some hfind)).1
        exact (hforget.subscribe hnew contract).ensureFrom (hbooked'.subscribe hquotable contract)
          id call.rest
      next => exact hforget.ensureFrom hbooked' id call.rest

theorem Single.quote (h : s.Single) (q : FxQuote) : (s.quote q).Single := by
  unfold FxProgram.quote
  split
  next => exact h.congr rfl rfl rfl le_rfl
  next => exact h.congr rfl rfl rfl le_rfl

theorem Single.step (h : s.Single) (hbooked : s.Booked) {e : FxProgramEvent}
    (hguard : s.Unraced e) : (s.step e).Single := by
  cases e with
  | ensureSubscribed currencies =>
    change (s.ensureSubscribed currencies).Single
    unfold FxProgram.ensureSubscribed
    split
    next => exact h
    next =>
      have hnext : Single { s with nextId := s.nextId + 1 } := h.congr rfl rfl rfl (Nat.le_succ _)
      have hbooked' : Booked { s with nextId := s.nextId + 1 } :=
        ⟨hbooked.tickers, fun call hcall =>
          ⟨(hbooked.calls call hcall).1, Nat.lt_succ_of_lt (hbooked.calls call hcall).2⟩,
          hbooked.attached⟩
      exact hnext.ensureFrom hbooked' s.nextId currencies
  | qualified id reply subscribed => exact h.qualified hbooked hguard
  | attachIb =>
    refine ⟨h.nodup, fun ib currency hib hmem => ?_, fun ib currency hmem => ?_, fun ib hib => ?_⟩
    · -- nothing has been subscribed to on the new instance
      obtain rfl := Option.some.inj hib
      exact absurd (h.fresh _ currency hmem) (lt_irrefl _)
    · exact Nat.lt_succ_of_lt (h.fresh ib currency hmem)
    · obtain rfl := Option.some.inj hib
      exact Nat.lt_succ_self _
  | tick now handler ticker =>
    change Single (if _ then _ else _)
    split
    next => exact h.quote _
    next => exact h
  | payload quotedAt payload currency =>
    unfold FxProgram.step
    dsimp only
    split
    next => exact h
    next => exact h.quote _
  | persist source ok => exact h.congr rfl rfl rfl le_rfl
  | restart => exact ⟨List.nodup_nil, nofun, nofun, nofun⟩

theorem init_single (cache : FxCache) : (init cache).Single :=
  ⟨List.nodup_nil, nofun, nofun, nofun⟩

theorem init_booked (cache : FxCache) : (init cache).Booked :=
  ⟨nofun, nofun, fun hne => absurd rfl hne⟩

end FxProgram

/-- In every run every ticker is of the instance attached last; where no contract comes back for a
currency that another call has subscribed to, none is subscribed to twice on one instance. -/
theorem one_subscription_each (cache : FxCache) {s : FxProgram} :
    (Reaches (fun s e => some (FxProgram.step s e)) (fun _ _ => True) (FxProgram.init cache) s →
      ∀ currency ib, s.tickers.get? currency = some ib → s.ib = some ib) ∧
    (Reaches (fun s e => some (FxProgram.step s e)) FxProgram.Unraced (FxProgram.init cache) s →
      s.subscriptions.Nodup) := by
  constructor
  · intro hrun currency ib hget
    have hbooked : s.Booked := by
      refine hrun.invariant (FxProgram.init_booked cache) ?_
      rintro v e w hv - hstep
      obtain rfl := Option.some.inj hstep
      exact hv.step e
    exact (hbooked.tickers currency ib hget).1
  · intro hrun
    have hboth : s.Booked ∧ s.Single := by
      refine hrun.invariant (I := fun v => v.Booked ∧ v.Single)
        ⟨FxProgram.init_booked cache, FxProgram.init_single cache⟩ ?_
      rintro v e w ⟨hbooked, hsingle⟩ hguard hstep
      obtain rfl := Option.some.inj hstep
      exact ⟨hbooked.step e, hsingle.step hbooked hguard⟩
    exact hboth.2.nodup

/-- Two calls that overlap, an instance attached between, and no currency twice on either. -/
theorem overlapping_calls_share_a_subscription :
    ∃ s : FxProgram, s.subscriptions = [(0, "EUR"), (3, "HKD"), (3, "EUR")] ∧
      s.subscriptions.Nodup := by
  obtain ⟨s, hrun, hs⟩ := Reaches.exists_of_execute (fun s e => some (FxProgram.step s e))
    FxProgram.Unraced (FxProgram.init .empty)
    [.attachIb, .ensureSubscribed ["EUR", "HKD"], .ensureSubscribed ["HKD", "EUR"],
      .qualified 1 (fun _ => some ⟨.text "EURUSD", "", ""⟩) true, .attachIb,
      .qualified 1 (fun _ => some ⟨.text "USDHKD", "", ""⟩) true,
      .qualified 2 (fun _ => none) true,
      .qualified 2 (fun _ => some ⟨.text "EURUSD", "", ""⟩) true]
    (fun s => s.subscriptions = [(0, "EUR"), (3, "HKD"), (3, "EUR")]) (by decide +kernel)
  exact ⟨s, of_decide_eq_true hs, (one_subscription_each .empty).2 hrun⟩

/-- Two calls that wait for the same contract both subscribe. -/
theorem overlapping_calls_subscribe_twice :
    ∃ s : FxProgram, Reaches (fun s e => some (FxProgram.step s e)) (fun _ _ => True)
        (FxProgram.init .empty) s ∧
      s.subscriptions = [(0, "EUR"), (0, "EUR")] ∧ ¬ s.subscriptions.Nodup := by
  obtain ⟨s, hrun, hs⟩ := Reaches.exists_of_execute (fun s e => some (FxProgram.step s e))
    (fun _ _ => True) (FxProgram.init .empty)
    [.attachIb, .ensureSubscribed ["EUR"], .ensureSubscribed ["EUR"],
      .qualified 1 (fun _ => some ⟨.text "EURUSD", "", ""⟩) true,
      .qualified 2 (fun _ => some ⟨.text "EURUSD", "", ""⟩) true]
    (fun s => s.subscriptions = [(0, "EUR"), (0, "EUR")]) (by decide +kernel)
  refine ⟨s, hrun, of_decide_eq_true hs, ?_⟩
  rw [of_decide_eq_true hs]
  decide

end PortfolioHub
