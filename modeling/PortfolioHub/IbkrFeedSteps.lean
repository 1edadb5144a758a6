import PortfolioHub.IbkrAdapter
import PortfolioHub.IbkrSegments

namespace PortfolioHub

namespace IbkrConnection

/-- The rows of a seed that the step can store. -/
def seedRest (s : IbkrConnection) : ConnectionEvent → List Position
  | .positionsReply _ (.ok rows) => rows
  | .contractReply id _ =>
    match s.tasks.get? id with
    | some (.subscribing _ _ _ _ rest) => rest
    | _ => []
  | _ => []

/-- The step runs the body of a reconnect attempt, which clears `_streaming`. -/
def ClearsStreaming (s : IbkrConnection) : ConnectionEvent → Prop
  | .backoffOver _ => s.state ≠ .connected
  | _ => False

instance (s : IbkrConnection) : (e : ConnectionEvent) → Decidable (s.ClearsStreaming e)
  | .backoffOver _ => inferInstanceAs (Decidable (_ ≠ _))
  | .start => inferInstanceAs (Decidable False)
  | .retryNow => inferInstanceAs (Decidable False)
  | .loopStarts _ => inferInstanceAs (Decidable False)
  | .connectReply _ _ => inferInstanceAs (Decidable False)
  | .positionsReply _ _ => inferInstanceAs (Decidable False)
  | .contractReply _ _ => inferInstanceAs (Decidable False)
  | .disconnectedEvent _ => inferInstanceAs (Decidable False)

/-- What a step does to the rows: it handles a disconnect, clears `_streaming`, or stores
rows of a seed behind at most one subscription. -/
inductive FeedStep (s s' : IbkrConnection) (e : ConnectionEvent) : Prop where
  | marked : s'.feed = s.feed.markLivePositionsStale → s.subscribes e = none → FeedStep s s' e
  | cleared : ¬ s.HandlesDisconnect s' → s.ClearsStreaming e →
      s'.feed = { s.feed with streaming := .empty } → s.subscribes e = none → FeedStep s s' e
  | seeded (written : List Position) : ¬ s.HandlesDisconnect s' →
      (∀ p ∈ written, p ∈ s.seedRest e) →
      s'.feed.live = written.foldl LivePositions.setPosition s.feed.live →
      s'.feed.streaming = (match s.subscribes e with
        | some (conId, p) => s.feed.streaming.insert conId p
        | none => s.feed.streaming) → FeedStep s s' e

variable {s s' : IbkrConnection}

@[simp] theorem feed_ensureLoop (s : IbkrConnection) : s.ensureLoop.feed = s.feed := by
  unfold ensureLoop
  split <;> rfl

@[simp] theorem wakeupEvent_feed (s : IbkrConnection) : s.wakeupEvent.2.feed = s.feed := by
  unfold wakeupEvent
  split <;> rfl

/-- The handler marks the rows, or it does nothing. -/
theorem handleDisconnect_cases (s : IbkrConnection) :
    s.handleDisconnect.feed = s.feed.markLivePositionsStale ∨ s.handleDisconnect = s := by
  unfold handleDisconnect
  split
  next => exact Or.inr rfl
  next => exact Or.inl (feed_ensureLoop _)

/-- A state that keeps the feed and the state apart from a handled disconnect. -/
theorem feedStep_of_handleDisconnect {e : ConnectionEvent} {t : IbkrConnection}
    (hfeed : t.feed = s.feed) (hstate : t.state = s.state) (hnone : s.subscribes e = none) :
    FeedStep s t.handleDisconnect e := by
  rcases handleDisconnect_cases t with hmarked | hsame
  · exact .marked (by rw [hmarked, hfeed]) hnone
  · refine .seeded [] (fun h => h.1 ?_) (by simp) ?_ ?_
    · rw [← hstate, ← h.2, hsame]
    · rw [hsame, hfeed]
      rfl
    · rw [hsame, hfeed, hnone]

theorem feedStep_of_same {e : ConnectionEvent} (hfeed : s'.feed = s.feed)
    (hstate : s.state ≠ .reconnecting → s'.state ≠ .reconnecting)
    (hnone : s.subscribes e = none) : FeedStep s s' e := by
  refine .seeded [] (fun h => hstate h.1 h.2) (by simp) ?_ ?_
  · rw [hfeed]
    rfl
  · rw [hfeed, hnone]

theorem nextDelay_feed (s : IbkrConnection) (id : ℕ) (delays : List ℚ) :
    (s.nextDelay id delays).feed = s.feed ∧
      (s.state ≠ .reconnecting → (s.nextDelay id delays).state ≠ .reconnecting) := by
  cases delays with
  | nil => exact ⟨rfl, fun _ h => by simp [nextDelay] at h⟩
  | cons delay rest =>
    have hsame := (wakeupEvent_same { s with currentBackoffDelay := some delay }).2.2.2.2.1
    refine ⟨wakeupEvent_feed _, fun hstate h => hstate ?_⟩
    exact hsame.symm.trans h

theorem connectFailed_feedStep {e : ConnectionEvent} {t : IbkrConnection} (hfeed : t.feed = s.feed)
    (hstate : t.state = s.state) (hnone : s.subscribes e = none) (id : ℕ) (caller : Caller) :
    FeedStep s (t.connectFailed id caller) e := by
  cases caller with
  | start => exact feedStep_of_handleDisconnect hfeed hstate hnone
  | reconnectLoop rest =>
    obtain ⟨hsame, hkeeps⟩ := nextDelay_feed t id rest
    exact feedStep_of_same (hsame.trans hfeed) (hstate ▸ hkeeps) hnone

theorem streamingFailed_feedStep {e : ConnectionEvent} (hnone : s.subscribes e = none) (id : ℕ)
    (caller : Caller) (ib : ℕ) : FeedStep s (s.streamingFailed id caller ib) e := by
  have hfeed : ({ s with ib := none }.modifyInstance ib fun i =>
      { i with registered := false }).feed = s.feed := by
    unfold modifyInstance
    split <;> rfl
  have hstate := (modifyInstance_same { s with ib := none } ib fun i =>
    { i with registered := false }).2.1
  exact connectFailed_feedStep hfeed hstate hnone id caller

/-- A seed stores rows up to the next lookup, and sets no state but CONNECTED. -/
theorem seedNext_feed (s : IbkrConnection) (id : ℕ) (caller : Caller) (ib : ℕ)
    (rows : List Position) : ∃ written : List Position, (∀ p ∈ written, p ∈ rows) ∧
      (s.seedNext id caller ib rows).feed.live =
        written.foldl LivePositions.setPosition s.feed.live ∧
      (s.seedNext id caller ib rows).feed.streaming = s.feed.streaming ∧
      (s.state ≠ .reconnecting → (s.seedNext id caller ib rows).state ≠ .reconnecting) := by
  induction rows generalizing s with
  | nil =>
    have hstate : (s.seedNext id caller ib []).state = .connected := by cases caller <;> rfl
    have hfeed : (s.seedNext id caller ib []).feed = s.feed := by cases caller <;> rfl
    exact ⟨[], by simp, by rw [hfeed]; rfl, by rw [hfeed], fun _ h => by simp [hstate] at h⟩
  | cons p rest ih =>
    rw [seedNext]
    dsimp only
    split
    next => exact ⟨[p], by simp, rfl, rfl, fun h => h⟩
    next =>
      obtain ⟨written, hwritten, hlive, hstreaming, hstate⟩ :=
        ih { s with feed := { s.feed with live := s.feed.live.setPosition p } }
      refine ⟨p :: written, ?_, hlive, hstreaming, hstate⟩
      exact List.forall_mem_cons.mpr
        ⟨by simp, fun q hq => List.mem_cons_of_mem _ (hwritten q hq)⟩

theorem contractReturned_feedStep {id : ℕ} {caller : Caller} {ib : ℕ} {p : Position} {conId : ℤ}
    {rest : List Position} {subscription : Subscription}
    (htask : s.tasks.get? id = some (.subscribing caller ib p conId rest)) :
    FeedStep s (s.contractReturned id caller ib p conId rest subscription)
      (.contractReply id subscription) := by
  have hrest : s.seedRest (.contractReply id subscription) = rest := by
    simp only [seedRest, htask]
  unfold contractReturned
  split
  next hnone =>
    obtain ⟨written, hwritten, hlive, hstreaming, hstate⟩ := seedNext_feed s id caller ib rest
    refine .seeded written (fun h => hstate h.1 h.2) (by rwa [hrest]) hlive ?_
    simp only [subscribes, htask]
    rw [if_pos hnone]
    exact hstreaming
  next hsome =>
    split
    next hfails =>
      refine streamingFailed_feedStep ?_ id caller ib
      simp only [subscribes, htask]
      rw [if_neg hsome, if_pos hfails]
    next hfine =>
      obtain ⟨written, hwritten, hlive, hstreaming, hstate⟩ := seedNext_feed
        { s with feed := { s.feed with streaming := s.feed.streaming.insert conId p } } id caller ib
          rest
      refine .seeded written (fun h => hstate h.1 h.2) (by rwa [hrest]) hlive ?_
      simp only [subscribes, htask]
      rw [if_neg hsome, if_neg hfine]
      exact hstreaming

/-- The rows behind any step of the connection. -/
theorem step_feed {delays : List ℚ} {e : ConnectionEvent} (h : s.step delays e = some s') :
    FeedStep s s' e := by
  cases e with
  | start =>
    obtain rfl := Option.some.inj h
    exact feedStep_of_same rfl (fun hstate => hstate) rfl
  | retryNow =>
    obtain rfl := Option.some.inj h
    unfold retryNow
    split
    next => exact feedStep_of_same rfl (fun hstate => hstate) rfl
    next =>
      have hsame := (wakeupEvent_same s).2.2.2.2.1
      dsimp only
      split
      next => exact feedStep_of_handleDisconnect (wakeupEvent_feed s) hsame rfl
      next =>
        refine feedStep_of_same ?_ ?_ rfl
        · rw [feed_ensureLoop]
          exact wakeupEvent_feed s
        · rw [state_ensureLoop]
          exact fun hstate h => hstate (hsame.symm.trans h)
  | loopStarts id =>
    simp only [step] at h
    split at h
    next =>
      obtain rfl := Option.some.inj h
      obtain ⟨hfeed, hstate⟩ := nextDelay_feed s id delays
      exact feedStep_of_same hfeed hstate rfl
    next => simp at h
  | backoffOver id =>
    simp only [step] at h
    split at h
    next rest wakeup htask =>
      obtain rfl := Option.some.inj h
      unfold attempt
      dsimp only
      split
      next => exact feedStep_of_same rfl (fun hstate => hstate) rfl
      next hc => exact .cleared (fun h => h.1 h.2) hc rfl rfl
    next => simp at h
  | connectReply id ok =>
    simp only [step] at h
    split at h
    next caller ib htask =>
      cases ok with
      | true =>
        simp only [if_true] at h
        split at h
        next i hi =>
          split at h
          next => simp at h
          next =>
            obtain rfl := Option.some.inj h
            exact feedStep_of_same rfl (fun hstate => hstate) rfl
        next => simp at h
      | false =>
        obtain rfl := Option.some.inj h
        exact connectFailed_feedStep rfl rfl rfl id caller
    next => simp at h
  | positionsReply id reply =>
    simp only [step] at h
    split at h
    next caller ib htask =>
      cases reply with
      | error err =>
        obtain rfl := Option.some.inj h
        exact streamingFailed_feedStep rfl id caller ib
      | ok rows =>
        obtain rfl := Option.some.inj h
        obtain ⟨written, hwritten, hlive, hstreaming, hstate⟩ := seedNext_feed s id caller ib rows
        exact .seeded written (fun h => hstate h.1 h.2) hwritten hlive hstreaming
    next => simp at h
  | contractReply id subscription =>
    simp only [step] at h
    split at h
    next caller ib p conId rest htask =>
      obtain rfl := Option.some.inj h
      exact contractReturned_feedStep htask
    next => simp at h
  | disconnectedEvent ib =>
    simp only [step] at h
    split at h
    next i hi =>
      obtain rfl := Option.some.inj h
      split
      next => exact feedStep_of_handleDisconnect rfl rfl rfl
      next => exact feedStep_of_same rfl (fun hstate => hstate) rfl
    next => simp at h

end IbkrConnection

end PortfolioHub
