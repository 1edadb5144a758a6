import PortfolioHub.StreamEvents

namespace PortfolioHub

/-- What a suspended client relies on. A client at a yield finds the event set
when it comes back, or has nothing to see; a blocked client has seen everything. -/
def Client.Covered (live : LivePositions) (c : Client) : Prop :=
  match c.phase with
  | .yielded _ captured => live.changed ∨ live.hashes.Same captured
  | .waiting => live.changed = false ∧ live.hashes.Same c.lastHashes
  | .woken => True
  | .throttled => True

def StreamState.Covered (s : StreamState) : Prop :=
  ∀ client c, s.clients.get? client = some c → c.Covered s.live

theorem emitPositions_covered {config : StreamConfig} {live : LivePositions} {c c' : Client}
    (h : emitPositions config live c = some c') : c'.Covered live := by
  unfold emitPositions at h
  split at h
  next data _ =>
    obtain rfl := Option.some.inj h
    exact Or.inr (OrderedDict.Same.refl _)
  next => simp at h

theorem afterWait_covered {config : StreamConfig} {now : ℚ} {live : LivePositions} {c c' : Client}
    (hclear : live.changed = false) (h : afterWait config now live c = some c') :
    c'.Covered live := by
  unfold afterWait at h
  split at h
  next =>
    obtain rfl := Option.some.inj h
    trivial
  next =>
    split at h
    next => exact emitPositions_covered h
    next hnews =>
      obtain rfl := Option.some.inj h
      exact ⟨hclear, not_not.mp hnews⟩

theorem loopHead_covered {config : StreamConfig} {now : ℚ} {live : LivePositions} {c c' : Client}
    (hc : live.changed ∨ live.hashes.Same c.lastHashes)
    (h : (loopHead config now live c).2 = some c') : c'.Covered (loopHead config now live c).1 := by
  unfold loopHead at h ⊢
  split at h
  next hset =>
    rw [if_pos hset]
    exact afterWait_covered rfl h
  next hset =>
    rw [if_neg hset]
    obtain rfl := Option.some.inj h
    exact ⟨by simpa using hset, hc.resolve_left hset⟩

theorem afterSleep_covered {config : StreamConfig} {now : ℚ} {live : LivePositions} {c c' : Client}
    (h : (afterSleep config now live c).2 = some c') :
    c'.Covered (afterSleep config now live c).1 := by
  unfold afterSleep at h ⊢
  split at h
  next hnews =>
    rw [if_pos hnews]
    exact emitPositions_covered h
  next hnews =>
    rw [if_neg hnews]
    exact loopHead_covered (Or.inr (not_not.mp hnews)) h

theorem afterYield_covered {config : StreamConfig} {emitted now : ℚ} {live : LivePositions}
    {c c' : Client} {event : SseEvent} {captured : OrderedDict PositionKey String}
    (hphase : c.phase = .yielded event captured) (hc : c.Covered live)
    (h : (afterYield config emitted now live c event captured).2 = some c') :
    c'.Covered (afterYield config emitted now live c event captured).1 := by
  rw [Client.Covered, hphase] at hc
  exact loopHead_covered hc h

/-- A turn leaves the rows alone, and it leaves the event alone or clears it. -/
theorem loopHead_live (config : StreamConfig) (now : ℚ) (live : LivePositions) (c : Client) :
    (loopHead config now live c).1 = live ∨
      live.changed ∧ (loopHead config now live c).1 = live.clear := by
  unfold loopHead
  split
  next hset => exact Or.inr ⟨hset, rfl⟩
  next => exact Or.inl rfl

/-- A client at a yield has captured the hashes of the store as it stands. -/
def Client.UpToDate (live : LivePositions) (c : Client) : Prop :=
  match c.phase with
  | .yielded _ captured => live.hashes.Same captured
  | _ => True

instance (live : LivePositions) : (c : Client) → Decidable (c.UpToDate live)
  | ⟨_, _, .yielded _ captured⟩ => inferInstanceAs (Decidable (live.hashes.Same captured))
  | ⟨_, _, .waiting⟩ => inferInstanceAs (Decidable True)
  | ⟨_, _, .woken⟩ => inferInstanceAs (Decidable True)
  | ⟨_, _, .throttled⟩ => inferInstanceAs (Decidable True)

def StreamState.OthersUpToDate (s : StreamState) (client : ℕ) : Prop :=
  ∀ e ∈ s.clients.entries, e.1 ≠ client → e.2.UpToDate s.live

instance (s : StreamState) (client : ℕ) : Decidable (s.OthersUpToDate client) :=
  inferInstanceAs (Decidable (∀ e ∈ s.clients.entries, e.1 ≠ client → e.2.UpToDate s.live))

/-- The step takes no update from another client: where it clears the event the
others at a yield have nothing to see, and where a timeout overtakes a wake-up the
event is still set or the client has nothing to see. -/
def TakesNoUpdate (s : StreamState) : StreamStep → Prop
  | .resume client _ _ => s.live.changed → s.OthersUpToDate client
  | .slept client _ =>
    s.live.changed → (∀ c ∈ s.clients.get? client, ¬ hasNews s.live c) → s.OthersUpToDate client
  | .timeout client =>
    ∀ c ∈ s.clients.get? client, c.phase = .woken →
      s.live.changed ∨ s.live.hashes.Same c.lastHashes
  | _ => True

instance (s : StreamState) : (e : StreamStep) → Decidable (TakesNoUpdate s e)
  | .resume client _ _ => inferInstanceAs (Decidable (s.live.changed → s.OthersUpToDate client))
  | .slept client _ =>
    inferInstanceAs (Decidable (s.live.changed →
      (∀ c ∈ s.clients.get? client, ¬ hasNews s.live c) → s.OthersUpToDate client))
  | .timeout client =>
    inferInstanceAs (Decidable (∀ c ∈ s.clients.get? client, c.phase = .woken →
      s.live.changed ∨ s.live.hashes.Same c.lastHashes))
  | .mutate _ => inferInstanceAs (Decidable True)
  | .connect _ => inferInstanceAs (Decidable True)
  | .close _ => inferInstanceAs (Decidable True)

/-- Clearing the event keeps every other client covered: none is blocked while it
is set, and those at a yield have nothing to see. -/
theorem covered_of_cleared {s : StreamState} (hs : s.Covered) {client other : ℕ} {c : Client}
    (hothers : s.live.changed → s.OthersUpToDate client) (hne : other ≠ client)
    (hc : s.clients.get? other = some c) : c.Covered s.live.clear := by
  have hold := hs other c hc
  unfold Client.Covered at hold ⊢
  cases hphase : c.phase with
  | yielded event captured =>
    rw [hphase] at hold
    rcases hold with hset | hsame
    · have hup := hothers hset _ (OrderedDict.get?_eq_some_iff.mp hc) hne
      rw [Client.UpToDate, hphase] at hup
      exact Or.inr hup
    · exact Or.inr hsame
  | waiting =>
    rw [hphase] at hold
    exact ⟨rfl, hold.2⟩
  | woken => trivial
  | throttled => trivial

theorem settle_covered {s : StreamState} {client : ℕ} {r : LivePositions × Option Client}
    (hown : ∀ c', r.2 = some c' → c'.Covered r.1)
    (hothers : ∀ other c, other ≠ client → s.clients.get? other = some c → c.Covered r.1) :
    (s.settle client r).Covered := by
  intro other c hc
  unfold StreamState.settle at hc ⊢
  split at hc
  next c' hr =>
    rw [OrderedDict.get?_insert] at hc
    split at hc
    next =>
      obtain rfl := Option.some.inj hc
      exact hown _ hr
    next hne => exact hothers other c hne hc
  next hr =>
    rw [OrderedDict.get?_filterKeys] at hc
    split at hc
    next hne => exact hothers other c (by simpa using hne) hc
    next => simp at hc

/-- Setting the event leaves nobody blocked. -/
theorem wake_covered {live : LivePositions} (hset : live.changed = true) (c : Client) :
    (wake c).Covered live := by
  by_cases hphase : c.phase = .waiting
  · rw [wake, if_pos hphase]
    trivial
  · rw [wake, if_neg hphase, Client.Covered]
    cases h : c.phase with
    | yielded event captured => exact Or.inl hset
    | waiting => exact absurd h hphase
    | woken => trivial
    | throttled => trivial

theorem mutate_covered {s : StreamState} (hs : s.Covered) (m : Mutation) :
    (s.mutate m).Covered := by
  intro client c hc
  unfold StreamState.mutate at hc ⊢
  dsimp only at hc ⊢
  split at hc
  next hset =>
    rw [if_pos hset]
    rw [OrderedDict.get?_mapValues] at hc
    obtain ⟨old, -, rfl⟩ := Option.map_eq_some_iff.mp hc
    exact wake_covered hset.1 old
  next hset =>
    rw [if_neg hset]
    have hold := hs client c hc
    rcases s.live.apply_changed m with hsame | hch
    · simpa [hsame] using hold
    · have hwas : s.live.changed = true := by simpa [hch] using hset
      unfold Client.Covered at hold ⊢
      cases hphase : c.phase with
      | yielded event captured => exact Or.inl hch
      | waiting => simp [hphase, hwas] at hold
      | woken => trivial
      | throttled => trivial

theorem step_covered {config : StreamConfig} {s s' : StreamState} {e : StreamStep}
    (hs : s.Covered) (hguard : TakesNoUpdate s e) (h : s.step config e = some s') :
    s'.Covered := by
  cases e with
  | mutate m =>
    obtain rfl := Option.some.inj h
    exact mutate_covered hs m
  | connect client =>
    simp only [StreamState.step] at h
    split at h
    next => simp at h
    next =>
      obtain rfl := Option.some.inj h
      unfold StreamState.connect
      split
      next data _ =>
        intro other c hc
        rw [OrderedDict.get?_insert] at hc
        split at hc
        next =>
          obtain rfl := Option.some.inj hc
          exact Or.inr (OrderedDict.Same.refl _)
        next => exact hs other c hc
      next => exact hs
  | resume client emitted now =>
    simp only [StreamState.step] at h
    split at h
    next c hc =>
      split at h
      next event captured hphase =>
        obtain rfl := Option.some.inj h
        apply settle_covered
        · exact fun c' hr => afterYield_covered hphase (hs client c hc) hr
        · intro other c' hne hc'
          rcases loopHead_live config now s.live _ with hlive | ⟨-, hlive⟩
          · rw [afterYield, hlive]
            exact hs other c' hc'
          · rw [afterYield, hlive]
            exact covered_of_cleared hs hguard hne hc'
      next =>
        obtain rfl := Option.some.inj h
        apply settle_covered
        · exact fun c' hr => afterWait_covered rfl hr
        · exact fun other c' hne hc' => covered_of_cleared hs hguard hne hc'
      next => simp at h
    next => simp at h
  | slept client now =>
    simp only [StreamState.step] at h
    split at h
    next c hc =>
      split at h
      next =>
        obtain rfl := Option.some.inj h
        apply settle_covered
        · exact fun c' hr => afterSleep_covered hr
        · intro other c' hne hc'
          unfold afterSleep
          split
          next => exact hs other c' hc'
          next hnews =>
            rcases loopHead_live config now s.live c with hlive | ⟨hset, hlive⟩
            · rw [hlive]
              exact hs other c' hc'
            · rw [hlive]
              refine covered_of_cleared hs (fun _ => hguard hset fun c₁ hc₁ => ?_) hne hc'
              rwa [Option.some.inj (hc₁.symm.trans hc)]
      next => simp at h
    next => simp at h
  | timeout client =>
    simp only [StreamState.step] at h
    split at h
    next c hc =>
      split at h
      next hphase =>
        obtain rfl := Option.some.inj h
        apply settle_covered
        · intro c' hr
          obtain rfl := Option.some.inj hr
          rcases hphase with hwaiting | hwoken
          · have hold := hs client c hc
            rw [Client.Covered, hwaiting] at hold
            exact Or.inr hold.2
          · exact hguard c hc hwoken
        · exact fun other c' _ hc' => hs other c' hc'
      next => simp at h
    next => simp at h
  | close client =>
    obtain rfl := Option.some.inj h
    intro other c hc
    rw [OrderedDict.get?_filterKeys] at hc
    split at hc
    next => exact hs other c hc
    next => simp at hc

/-- No update is lost to a blocked client, in every run whose steps take no update
from another client. -/
theorem no_client_blocked_behind {config : StreamConfig} {live : LivePositions} {s : StreamState}
    (h : Reaches (StreamState.step config) TakesNoUpdate ⟨live, .empty⟩ s) {client : ℕ}
    {c : Client} (hc : s.clients.get? client = some c) (hblocked : c.phase = .waiting) :
    s.live.changed = false ∧ s.live.hashes.Same c.lastHashes := by
  have hinv : s.Covered :=
    h.invariant (I := StreamState.Covered) (by
      intro client c hc
      simp at hc) fun _ _ _ hs hg hstep => step_covered hs hg hstep
  have hcov := hinv client c hc
  rwa [Client.Covered, hblocked] at hcov

/-- A share of one US stock, as the IBKR adapter seeds it. -/
def sampleShare : Position where
  broker := "IBKR"
  accountId := "U1"
  nativeKey := "265598"
  canonicalSymbol := "AAPL.US"
  nativeSymbol := "AAPL"
  exchange := "NASDAQ"
  currency := "USD"
  nameEn := "APPLE INC"
  assetClass := .stk
  quantity := 1
  avgCost := 100
  lastPrice := 110
  marketValueNative := 110
  marketValueUsd := 110
  unrealizedPnlNative := 10
  unrealizedPnlUsd := 10

def sampleConfig : StreamConfig where
  renderRows := fun _ => .ok ""
  minInterval := 1 / 2

theorem one_client_is_up_to_date :
    ∃ s c, Reaches (StreamState.step sampleConfig) TakesNoUpdate ⟨.empty, .empty⟩ s ∧
      s.live.getAll = [sampleShare] ∧ s.clients.get? 0 = some c ∧ c.phase = .waiting ∧
      s.live.changed = false ∧ s.live.hashes.Same c.lastHashes := by
  obtain ⟨s, hs, hp⟩ := Reaches.exists_of_execute (StreamState.step sampleConfig) TakesNoUpdate
    ⟨.empty, .empty⟩
    [.connect 0, .resume 0 0 0, .mutate (.setPosition sampleShare), .resume 0 1 1, .resume 0 2 2]
    (fun s => s.live.getAll = [sampleShare] ∧ (s.clients.get? 0).any (·.phase = .waiting))
    (by decide +kernel)
  obtain ⟨hlive, hany⟩ := of_decide_eq_true hp
  cases hc : s.clients.get? 0 with
  | none => simp [hc] at hany
  | some c =>
    have hphase : c.phase = .waiting := by simpa [hc] using hany
    exact ⟨s, c, hs, hlive, hc, hphase, no_client_blocked_behind hs hc hphase⟩

/-- Client 1 is at the yield of its snapshot while client 0 handles the update and
clears the event for both. -/
theorem client_blocked_behind :
    ¬ ∀ (config : StreamConfig) (live : LivePositions) (s : StreamState),
      Reaches (StreamState.step config) (fun _ _ => True) ⟨live, .empty⟩ s →
        ∀ (client : ℕ) (c : Client), s.clients.get? client = some c → c.phase = .waiting →
          s.live.changed = false → s.live.hashes.Same c.lastHashes := by
  intro hall
  obtain ⟨s, hs, hp⟩ := Reaches.exists_of_execute (StreamState.step sampleConfig)
    (fun _ _ => True) ⟨.empty, .empty⟩
    [.connect 0, .connect 1, .resume 0 0 0, .mutate (.setPosition sampleShare),
      .resume 0 1 1, .resume 1 2 2]
    (fun s => s.live.changed = false ∧
      (s.clients.get? 1).any (fun c => c.phase = .waiting ∧ ¬ s.live.hashes.Same c.lastHashes))
    (by decide +kernel)
  obtain ⟨hclear, hany⟩ := of_decide_eq_true hp
  cases hc : s.clients.get? 1 with
  | none => simp [hc] at hany
  | some c =>
    obtain ⟨hphase, hbehind⟩ : c.phase = .waiting ∧ ¬ s.live.hashes.Same c.lastHashes := by
      simpa [hc] using hany
    exact hbehind (hall _ _ _ hs 1 c hc hphase hclear)

end PortfolioHub
