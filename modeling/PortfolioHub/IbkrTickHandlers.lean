import PortfolioHub.IbkrFeedSteps

namespace PortfolioHub

namespace IbkrFeed

/-- The handlers write entries of `_streaming` that are there, and drop none. -/
theorem mem_keys_insert {s : IbkrFeed} {conId c : ℤ} (p : Position) (hc : c ∈ s.streaming.keys) :
    c ∈ (s.streaming.insert conId p).keys := by
  obtain ⟨q, hq⟩ := OrderedDict.mem_keys_iff.mp hc
  rw [OrderedDict.mem_keys_iff, OrderedDict.get?_insert]
  split
  next => exact ⟨p, rfl⟩
  next => exact ⟨q, hq⟩

theorem onTickerUpdate_keys {fx : FxView} {s : IbkrFeed} {ticker : Ticker} {c : ℤ}
    (hc : c ∈ s.streaming.keys) : c ∈ (s.onTickerUpdate fx ticker).streaming.keys := by
  unfold onTickerUpdate
  split
  next => exact hc
  next =>
    dsimp only
    split
    next => exact hc
    next =>
      split
      next => exact hc
      next => exact mem_keys_insert _ hc

theorem onPortfolioUpdate_keys {fx : FxView} {s : IbkrFeed} {item : PortfolioItem} {c : ℤ}
    (hc : c ∈ s.streaming.keys) : c ∈ (s.onPortfolioUpdate fx item).streaming.keys := by
  unfold onPortfolioUpdate
  split
  next => exact hc
  next =>
    dsimp only
    split
    next => exact mem_keys_insert _ hc
    next => exact hc

theorem reseedEntry_keys {closes : ℤ → Option Python.Float} {s : IbkrFeed} {entry : ℤ × Position}
    {c : ℤ} (hc : c ∈ s.streaming.keys) : c ∈ (reseedEntry closes s entry).streaming.keys := by
  unfold reseedEntry
  split
  next => exact hc
  next =>
    split
    next => exact hc
    next => exact mem_keys_insert _ hc

theorem foldl_keys {α : Type} {f : IbkrFeed → α → IbkrFeed} {c : ℤ}
    (hf : ∀ t a, c ∈ t.streaming.keys → c ∈ (f t a).streaming.keys) (as : List α) {s : IbkrFeed}
    (hc : c ∈ s.streaming.keys) : c ∈ (as.foldl f s).streaming.keys := by
  induction as generalizing s with
  | nil => exact hc
  | cons a as ih => exact ih (hf s a hc)

end IbkrFeed

namespace IbkrAdapter

/-- The attached tickers are those of entries of `_streaming`, each attached once. -/
structure Tidy (s : IbkrAdapter) : Prop where
  nodup : s.attached.Nodup
  held : ∀ ref ∈ s.attached, s.tickers.get? ref.conId = some ref
  keys : ∀ conId ref, s.tickers.get? conId = some ref → conId ∈ s.feed.streaming.keys

/-- The step subscribes no contract that is streamed already, and clears `_streaming` only
when no handler is left attached. -/
def SubscribesOnce (s : IbkrAdapter) : AdapterEvent → Prop
  | .connection e _ =>
    (∀ entry ∈ s.conn.subscribes e, entry.1 ∉ s.feed.streaming.keys) ∧
      (s.conn.ClearsStreaming e → s.attached = [])
  | _ => True

instance (s : IbkrAdapter) : (e : AdapterEvent) → Decidable (s.SubscribesOnce e)
  | .connection _ _ => inferInstanceAs (Decidable (_ ∧ _))
  | .tick _ _ _ => inferInstanceAs (Decidable True)
  | .portfolioUpdate _ _ _ => inferInstanceAs (Decidable True)
  | .refreshDue => inferInstanceAs (Decidable True)
  | .closesReply _ => inferInstanceAs (Decidable True)
  | .foreign _ => inferInstanceAs (Decidable True)

variable {delays : List ℚ} {s s' : IbkrAdapter}

theorem follow_conn (s : IbkrAdapter) (e : ConnectionEvent) (serial : ℕ) (conn : IbkrConnection) :
    (s.follow e serial conn).conn = conn := by
  unfold follow
  dsimp only
  split <;> rfl

/-- A handled disconnect only takes handlers away. -/
theorem kept_sublist (s : IbkrAdapter) (conn : IbkrConnection) :
    (if s.conn.HandlesDisconnect conn then s.deregistered else s.attached).Sublist s.attached := by
  split
  next => exact List.diff_sublist ..
  next => exact List.Sublist.refl _

theorem Tidy.setFeed (hs : s.Tidy) {feed : IbkrFeed}
    (hkeys : ∀ c ∈ s.feed.streaming.keys, c ∈ feed.streaming.keys) : (s.setFeed feed).Tidy :=
  ⟨hs.nodup, hs.held, fun conId ref h => hkeys conId (hs.keys conId ref h)⟩

theorem Tidy.follow (hs : s.Tidy) {e : ConnectionEvent} {serial : ℕ} {conn : IbkrConnection}
    (honce : s.SubscribesOnce (.connection e serial)) (hfeed : s.conn.FeedStep conn e) :
    (s.follow e serial conn).Tidy := by
  have hsub := kept_sublist s conn
  -- without a subscription the tickers of the entries that are left are left
  have hplain : (∀ c ∈ s.feed.streaming.keys, c ∈ conn.feed.streaming.keys) ∨ s.attached = [] →
      s.conn.subscribes e = none → (s.follow e serial conn).Tidy := by
    intro hkeys hnone
    unfold IbkrAdapter.follow
    rw [hnone]
    dsimp only
    refine ⟨hs.nodup.sublist hsub, fun ref href => ?_, fun conId ref h => ?_⟩
    · have hmem := hsub.subset href
      dsimp only
      rw [OrderedDict.get?_filterKeys, if_pos, hs.held ref hmem]
      rcases hkeys with hkeys | hempty
      · exact decide_eq_true (hkeys _ (hs.keys _ _ (hs.held ref hmem)))
      · simp [hempty] at hmem
    · dsimp only at h
      rw [OrderedDict.get?_filterKeys] at h
      split at h
      next hc => exact of_decide_eq_true hc
      next => simp at h
  cases hfeed with
  | marked hmarked hnone =>
    refine hplain (Or.inl fun c hc => ?_) hnone
    rw [hmarked]
    exact hc
  | cleared _ hclears _ hnone => exact hplain (Or.inr (honce.2 hclears)) hnone
  | seeded written _ _ _ hstreaming =>
    cases hsubscribes : s.conn.subscribes e with
    | none =>
      rw [hsubscribes] at hstreaming
      refine hplain (Or.inl fun c hc => ?_) hsubscribes
      rw [hstreaming]
      exact hc
    | some entry =>
      obtain ⟨conId, p⟩ := entry
      rw [hsubscribes] at hstreaming
      have hnew : conId ∉ s.feed.streaming.keys := honce.1 _ hsubscribes
      have hother : ∀ ref ∈ s.attached, ref.conId ≠ conId := by
        rintro ref href rfl
        exact hnew (hs.keys _ _ (hs.held ref href))
      unfold IbkrAdapter.follow
      rw [hsubscribes]
      dsimp only
      refine ⟨?_, fun ref href => ?_, fun c ref h => ?_⟩
      · rw [List.nodup_append]
        refine ⟨hs.nodup.sublist hsub, by simp, fun ref href other hother' => ?_⟩
        obtain rfl := List.mem_singleton.mp hother'
        exact fun heq => hother ref (hsub.subset href) (by rw [heq])
      · dsimp only
        rw [OrderedDict.get?_insert]
        rcases List.mem_append.mp href with hold | hself
        · rw [if_neg (hother ref (hsub.subset hold))]
          exact hs.held ref (hsub.subset hold)
        · obtain rfl := List.mem_singleton.mp hself
          rw [if_pos rfl]
      · dsimp only at h
        change c ∈ conn.feed.streaming.keys
        rw [hstreaming, OrderedDict.mem_keys_iff, OrderedDict.get?_insert]
        rw [OrderedDict.get?_insert] at h
        split at h
        next heq => exact ⟨p, if_pos heq⟩
        next hne =>
          rw [if_neg hne]
          exact OrderedDict.mem_keys_iff.mp (hs.keys c ref h)

/-- A step that subscribes once keeps the handlers tidy. -/
theorem Tidy.step (hs : s.Tidy) {e : AdapterEvent} (honce : s.SubscribesOnce e)
    (h : s.step delays e = some s') : s'.Tidy := by
  cases e with
  | connection e serial =>
    obtain ⟨conn, hconn, rfl⟩ := Option.map_eq_some_iff.mp h
    exact hs.follow honce (IbkrConnection.step_feed hconn)
  | tick fx serial ticker =>
    obtain rfl := Option.some.inj h
    refine hs.setFeed fun c hc => IbkrFeed.foldl_keys (fun t _ ht => ?_) _ hc
    exact IbkrFeed.onTickerUpdate_keys ht
  | portfolioUpdate ib fx item =>
    simp only [IbkrAdapter.step] at h
    split at h
    next i _ =>
      obtain rfl := Option.some.inj h
      split
      next => exact hs.setFeed fun c hc => IbkrFeed.onPortfolioUpdate_keys hc
      next => exact hs
    next => simp at h
  | refreshDue =>
    simp only [IbkrAdapter.step] at h
    split at h
    next =>
      obtain rfl := Option.some.inj h
      split
      next => exact hs
      next => exact ⟨hs.nodup, hs.held, hs.keys⟩
    next => simp at h
  | closesReply reply =>
    simp only [IbkrAdapter.step] at h
    split at h
    next =>
      cases reply with
      | error err =>
        obtain rfl := Option.some.inj h
        exact ⟨hs.nodup, hs.held, hs.keys⟩
      | ok closes =>
        obtain rfl := Option.some.inj h
        have hkeys : ∀ c ∈ s.feed.streaming.keys,
            c ∈ (s.feed.reseedPreviousCloses closes).streaming.keys := fun c hc =>
          IbkrFeed.foldl_keys (fun t _ ht => IbkrFeed.reseedEntry_keys ht) _ hc
        have hfeed := hs.setFeed hkeys
        exact ⟨hfeed.nodup, hfeed.held, hfeed.keys⟩
    next => simp at h
  | foreign refresh =>
    obtain rfl := Option.some.inj h
    exact hs.setFeed fun c hc => hc

theorem init_tidy (live : LivePositions) : (init live).Tidy :=
  ⟨List.nodup_nil, fun _ h => absurd h (by simp [init]), fun conId ref h => by simp [init] at h⟩

end IbkrAdapter

end PortfolioHub
