import PortfolioHub.ClosePrices
import PortfolioHub.LiveRows

namespace PortfolioHub

/-- The closes fetched so far with their UTC dates, and the dates of the fetches without one. -/
structure CloseCaches where
  previousClose : OrderedDict ℤ (ℕ × Python.Float)
  miss : OrderedDict ℤ ℕ

namespace CloseCaches

def cached (c : CloseCaches) (today : ℕ) (conId : ℤ) : Option Python.Float :=
  (c.previousClose.get? conId).bind fun entry => if entry.1 = today then some entry.2 else none

def misses (c : CloseCaches) (today : ℕ) (contracts : List ℤ) : List ℤ :=
  contracts.filter fun conId => c.cached today conId = none ∧ c.miss.get? conId ≠ some today

/-- `_fetch_previous_closes`; `fetched` is what `_fetch_previous_close` finds for a contract. -/
def fetchPreviousCloses (fetched : ℤ → Option Python.Float) (contracts : List ℤ) :
    OrderedDict ℤ Python.Float :=
  .ofList (contracts.filterMap fun conId =>
    ((fetched conId).filter fun value => 0 < value).map fun value => (conId, value))

/-- The closes of the contracts, and the caches behind the fetch. -/
def fetchPreviousClosesCached (c : CloseCaches) (today : ℕ) (fetched : ℤ → Option Python.Float)
    (contracts : List ℤ) : OrderedDict ℤ Python.Float × CloseCaches :=
  let misses := c.misses today contracts
  let fresh := if misses = [] then .empty else fetchPreviousCloses fetched misses
  let hits : OrderedDict ℤ Python.Float := .ofList (contracts.filterMap fun conId =>
    (c.cached today conId).map fun value => (conId, value))
  (hits.update fresh.entries,
    { previousClose := c.previousClose.update (fresh.mapValues fun value => (today, value)).entries
      miss := (c.miss.filterKeys (· ∉ fresh.keys)).update
        ((misses.filter (· ∉ fresh.keys)).map fun conId => (conId, today)) })

/-- The close the adapter can get for a contract on the day: the cached one, else the one it
fetches, unless it has missed it that day already. -/
def closeOn (c : CloseCaches) (today : ℕ) (fetched : ℤ → Option Python.Float) (conId : ℤ) :
    Option Python.Float :=
  (c.cached today conId).or (if c.miss.get? conId = some today then none
    else (fetched conId).filter fun value => 0 < value)

theorem get?_ofList_filterMap (f : ℤ → Option Python.Float) (contracts : List ℤ) (conId : ℤ) :
    (OrderedDict.ofList (contracts.filterMap fun c => (f c).map fun value => (c, value))).get?
        conId = if conId ∈ contracts then f conId else none := by
  have hlookup : ∀ cs : List ℤ,
      (cs.filterMap fun c => (f c).map fun value => (c, value)).lookup conId =
        if conId ∈ cs then f conId else none := by
    intro cs
    induction cs with
    | nil => rfl
    | cons c cs ih =>
      cases hc : f c with
      | none =>
        rw [List.filterMap_cons_none (by rw [hc]; rfl), ih]
        by_cases heq : conId = c
        · subst heq
          simp [hc]
        · simp [heq]
      | some value =>
        rw [List.filterMap_cons_some (b := (c, value)) (by rw [hc]; rfl),
          OrderedDict.lookup_cons_eq, ih]
        by_cases heq : conId = c
        · subst heq
          simp [hc]
        · simp [heq]
  rw [OrderedDict.get?_ofList, ← List.filterMap_reverse, hlookup]
  simp

/-- The fetch finds the close of the day for every contract it is asked for. -/
theorem get?_fetchPreviousClosesCached (c : CloseCaches) (today : ℕ)
    (fetched : ℤ → Option Python.Float) (contracts : List ℤ) (conId : ℤ) :
    (c.fetchPreviousClosesCached today fetched contracts).1.get? conId =
      if conId ∈ contracts then c.closeOn today fetched conId else none := by
  have hfresh : (if c.misses today contracts = [] then OrderedDict.empty
      else fetchPreviousCloses fetched (c.misses today contracts)).get? conId =
        if conId ∈ c.misses today contracts then (fetched conId).filter fun value => 0 < value
        else none := by
    split
    next hnil =>
      rw [hnil]
      rfl
    next => exact get?_ofList_filterMap (fun c => (fetched c).filter fun value => 0 < value) _ conId
  unfold fetchPreviousClosesCached
  dsimp only
  rw [OrderedDict.get?_update, OrderedDict.lookup_reverse_entries, hfresh,
    get?_ofList_filterMap (c.cached today)]
  unfold closeOn misses
  by_cases hmem : conId ∈ contracts
  · cases hcached : c.cached today conId with
    | some value => simp [hcached, hmem]
    | none =>
      by_cases hmiss : c.miss.get? conId = some today
      · simp [hcached, hmem, hmiss]
      · simp [hcached, hmem, hmiss]
  · simp [hmem]

end CloseCaches

namespace IbkrFeed

/-- A seed begins with an empty table, as behind `_streaming.clear()`. -/
def SeedsOnEmptyTable (s : IbkrFeed) : FeedEvent → Prop
  | .startStreaming _ _ _ => s.streaming.keys = []
  | _ => True

instance (s : IbkrFeed) : (e : FeedEvent) → Decidable (s.SeedsOnEmptyTable e)
  | .startStreaming _ _ _ => inferInstanceAs (Decidable (s.streaming.keys = []))
  | .reseed _ => inferInstanceAs (Decidable True)
  | .tick _ _ => inferInstanceAs (Decidable True)
  | .portfolioUpdate _ _ => inferInstanceAs (Decidable True)
  | .disconnected => inferInstanceAs (Decidable True)
  | .clearStreaming => inferInstanceAs (Decidable True)
  | .foreign _ => inferInstanceAs (Decidable True)

/-- The stock row of the store under the key, if it is one of the contract, holds the close. -/
def ShowsClose (s : IbkrFeed) (key : PositionKey) (nativeKey : String) (close : Python.Float) :
    Prop :=
  ∀ row, s.live.positions.get? key = some row → row.assetClass = .stk →
    row.nativeKey = nativeKey → row.previousClose = close

/-- The entries of the table stand under their contract ids, and the rows of the store hold the
closes of their copies. -/
structure Mirrored (s : IbkrFeed) : Prop where
  named : ∀ conId p, s.streaming.get? conId = some p →
    p.broker = "IBKR" ∧ Python.parseInt p.nativeKey = some conId
  close : ∀ conId p, s.streaming.get? conId = some p → p.assetClass = .stk →
    s.ShowsClose p.key p.nativeKey p.previousClose

variable {s : IbkrFeed}

/-- A row written for another contract does not show the close of this one. -/
theorem ShowsClose.setPosition {key : PositionKey} {nativeKey : String} {close : Python.Float}
    (h : s.ShowsClose key nativeKey close) {p : Position}
    (hp : p.nativeKey = nativeKey → p.assetClass = .stk → p.previousClose = close) :
    ShowsClose { s with live := s.live.setPosition p } key nativeKey close := by
  intro row hrow hclass hnative
  rw [LivePositions.get?_setPosition] at hrow
  split at hrow
  next =>
    obtain rfl := Option.some.inj hrow
    exact hp hnative hclass
  next => exact h row hrow hclass hnative

/-- A handler writes a row to the store and to its entry. -/
theorem Mirrored.write (h : s.Mirrored) {conId : ℤ} {p : Position} (hbroker : p.broker = "IBKR")
    (hparse : Python.parseInt p.nativeKey = some conId) :
    Mirrored ⟨s.live.setPosition p, s.streaming.insert conId p⟩ := by
  have hget : ∀ {c q}, (s.streaming.insert conId p).get? c = some q →
      c = conId ∧ q = p ∨ c ≠ conId ∧ s.streaming.get? c = some q := by
    intro c q hq
    rw [OrderedDict.get?_insert] at hq
    split at hq
    next heq => exact Or.inl ⟨heq, (Option.some.inj hq).symm⟩
    next hne => exact Or.inr ⟨hne, hq⟩
  constructor
  · intro c q hq
    rcases hget hq with ⟨rfl, rfl⟩ | ⟨-, hq⟩
    · exact ⟨hbroker, hparse⟩
    · exact h.named c q hq
  · intro c q hq hclass
    rcases hget hq with ⟨rfl, rfl⟩ | ⟨hne, hq⟩
    · intro row hrow _ _
      have hrow' := (LivePositions.get?_setPosition s.live q q.key).symm.trans hrow
      rw [if_pos rfl] at hrow'
      rw [← Option.some.inj hrow']
    · refine ShowsClose.setPosition (s := { s with streaming := s.streaming.insert conId p })
        (h.close c q hq hclass) fun hnative _ => ?_
      rw [hnative, (h.named c q hq).2] at hparse
      exact absurd (Option.some.inj hparse) hne

theorem Mirrored.congr {t : IbkrFeed} (h : s.Mirrored) (hstreaming : t.streaming = s.streaming)
    (hlive : ∀ conId p, s.streaming.get? conId = some p → ∀ row,
      t.live.positions.get? p.key = some row → ∃ old, s.live.positions.get? p.key = some old ∧
        old.assetClass = row.assetClass ∧ old.nativeKey = row.nativeKey ∧
        old.previousClose = row.previousClose) : t.Mirrored := by
  constructor
  · rw [hstreaming]
    exact h.named
  · rw [hstreaming]
    intro conId p hp hclass row hrow hrowClass hnative
    obtain ⟨old, hold, hc, hn, hclose⟩ := hlive conId p hp row hrow
    rw [← hclose]
    exact h.close conId p hp hclass old hold (hc.trans hrowClass) (hn.trans hnative)

/-- Rows of one reply that stand for the same contract hold the same close. -/
theorem Mirrored.seedRows (h : s.Mirrored) (closes : String → Python.Float)
    {subscribe : ℤ → Subscription} {rows : List Position}
    (hcopies : ∀ conId p, s.streaming.get? conId = some p → p.assetClass = .stk →
      p.previousClose = closes p.nativeKey)
    (hrows : ∀ p ∈ rows, p.broker = "IBKR" ∧
      (p.assetClass = .stk → p.previousClose = closes p.nativeKey)) :
    (IbkrFeed.seedRows subscribe rows s).1.Mirrored := by
  induction rows generalizing s with
  | nil => exact h
  | cons p ps ih =>
    obtain ⟨hbroker, hp⟩ := hrows p (by simp)
    have hps := fun q hq => hrows q (List.mem_cons_of_mem p hq)
    have hstored : Mirrored { s with live := s.live.setPosition p } := by
      refine ⟨h.named, fun conId q hq hclass => ?_⟩
      refine ShowsClose.setPosition (h.close conId q hq hclass) fun hnative hpclass => ?_
      rw [hp hpclass, hnative, hcopies conId q hq hclass]
    rw [IbkrFeed.seedRows]
    dsimp only
    split
    next => exact ih hstored hcopies hps
    next conId hparse =>
      split
      next => exact ih hstored hcopies hps
      next =>
        split
        next => exact hstored
        next =>
          refine ih (h.write hbroker hparse) (fun c q hq hclass => ?_) hps
          have hq' := (OrderedDict.get?_insert s.streaming conId c p).symm.trans hq
          split at hq'
          next =>
            obtain rfl := Option.some.inj hq'
            exact hp hclass
          next => exact hcopies c q hq' hclass

theorem getPositions_previousClose {fx : FxView} {r : IbReplies} {rows : List Position}
    (h : r.getPositions fx = .ok rows) : ∀ p ∈ rows, p.broker = "IBKR" ∧ (p.assetClass = .stk →
      p.previousClose = ((Python.parseInt p.nativeKey).bind r.previousCloses).getD 0) := by
  intro p hp
  refine ⟨getPositions_broker h hp, ?_⟩
  rcases mem_getPositions h hp with
    ⟨_, ibPos, name, quote, -, -, -, -, rfl⟩ | ⟨_, rfl⟩ | ⟨_, rfl⟩
  · intro _
    have hparse : Python.parseInt (buildPosition fx ibPos name quote
        ((r.previousCloses ibPos.contract.conId).getD 0)
        ((portfolioItemsByConid r.portfolio).get? ibPos.contract.conId)).nativeKey =
        some ibPos.contract.conId := Python.parseInt_toString _
    rw [hparse]
    rfl
  · nofun
  · nofun

theorem Mirrored.startStreaming (h : s.Mirrored) (hempty : s.streaming.keys = []) (fx : FxView)
    (replies : IbReplies) (subscribe : ℤ → Subscription) :
    (s.startStreaming fx replies subscribe).1.Mirrored := by
  have hnone : ∀ conId p, s.streaming.get? conId ≠ some p := by
    intro conId p hp
    have hmem := OrderedDict.mem_keys_iff.mpr ⟨p, hp⟩
    rw [hempty] at hmem
    cases hmem
  unfold IbkrFeed.startStreaming
  split
  next => exact h
  next rows hrows =>
    exact h.seedRows (fun key => ((Python.parseInt key).bind replies.previousCloses).getD 0)
      (fun conId p hp => absurd hp (hnone conId p)) (getPositions_previousClose hrows)

theorem Mirrored.onTickerUpdate (h : s.Mirrored) (fx : FxView) (ticker : Ticker) :
    (s.onTickerUpdate fx ticker).Mirrored := by
  unfold IbkrFeed.onTickerUpdate
  split
  next => exact h
  next old hold =>
    obtain ⟨hbroker, hparse⟩ := h.named _ old hold
    dsimp only
    split
    next => exact h
    next =>
      split
      next => exact h
      next => exact h.write hbroker hparse

theorem portfolioRow_previousClose {fx : FxView} {old new : Position} {item : PortfolioItem}
    (h : portfolioRow fx old item = some new) : new.previousClose = old.previousClose := by
  unfold portfolioRow at h
  dsimp only at h
  split at h
  next => cases h
  next =>
    obtain rfl := Option.some.inj h
    rfl

theorem Mirrored.onPortfolioUpdate (h : s.Mirrored) (fx : FxView) (item : PortfolioItem) :
    (s.onPortfolioUpdate fx item).Mirrored := by
  unfold IbkrFeed.onPortfolioUpdate
  split
  next => exact h
  next new hnew =>
    obtain ⟨old, -, hold, ⟨hbroker, hnative⟩, hrow⟩ := portfolioUpdate_eq_some hnew
    obtain ⟨hkey, hnewNative, -, hclass, -⟩ := portfolioRow_same hrow
    have hnewBroker : new.broker = "IBKR" := (congrArg Prod.fst hkey).trans hbroker
    split
    next =>
      refine h.write hnewBroker ?_
      rw [hnewNative, hnative]
      exact Python.parseInt_toString _
    next =>
      refine h.congr rfl fun conId p hp row hrow' => ?_
      have hrow'' := (LivePositions.get?_setPosition s.live new p.key).symm.trans hrow'
      split at hrow''
      next heq =>
        obtain rfl := Option.some.inj hrow''
        refine ⟨old, ?_, hclass.symm, hnewNative.symm, (portfolioRow_previousClose hrow).symm⟩
        rw [heq, hkey]
        exact LivePositions.mem_getAll_iff.mp hold
      next => exact ⟨row, hrow'', rfl, rfl, rfl⟩

theorem Mirrored.reseedEntry (h : s.Mirrored) (closes : ℤ → Option Python.Float)
    {entry : ℤ × Position} (hbroker : entry.2.broker = "IBKR")
    (hparse : Python.parseInt entry.2.nativeKey = some entry.1) :
    (IbkrFeed.reseedEntry closes s entry).Mirrored := by
  unfold IbkrFeed.reseedEntry
  split
  next => exact h
  next =>
    split
    next => exact h
    next => exact h.write hbroker hparse

theorem Mirrored.reseedPreviousCloses (h : s.Mirrored) (closes : ℤ → Option Python.Float) :
    (s.reseedPreviousCloses closes).Mirrored := by
  have hfold : ∀ (entries : List (ℤ × Position)) (t : IbkrFeed), t.Mirrored →
      (∀ entry ∈ entries, entry.2.broker = "IBKR" ∧
        Python.parseInt entry.2.nativeKey = some entry.1) →
      (entries.foldl (IbkrFeed.reseedEntry closes) t).Mirrored := by
    intro entries
    induction entries with
    | nil => exact fun t ht _ => ht
    | cons entry entries ih =>
      intro t ht hentries
      obtain ⟨hbroker, hparse⟩ := hentries entry (by simp)
      exact ih _ (ht.reseedEntry closes hbroker hparse) fun e he =>
        hentries e (List.mem_cons_of_mem _ he)
  exact hfold _ s h fun entry hentry =>
    h.named entry.1 entry.2 (OrderedDict.get?_eq_some_iff.mpr hentry)

theorem mirrored_of_empty (h : s.streaming = .empty) : s.Mirrored := by
  have hnone : ∀ conId p, s.streaming.get? conId ≠ some p := by
    rw [h]
    simp
  exact ⟨fun conId p hp => absurd hp (hnone conId p), fun conId p hp => absurd hp (hnone conId p)⟩

theorem Mirrored.step (h : s.Mirrored) {e : FeedEvent} (hguard : s.SeedsOnEmptyTable e) :
    (s.step e).Mirrored := by
  cases e with
  | startStreaming fx replies subscribe => exact h.startStreaming hguard fx replies subscribe
  | tick fx ticker => exact h.onTickerUpdate fx ticker
  | portfolioUpdate fx item => exact h.onPortfolioUpdate fx item
  | reseed closes => exact h.reseedPreviousCloses closes
  | disconnected =>
    refine h.congr rfl fun conId p hp row hrow => ?_
    obtain ⟨old, hold, rfl⟩ := Option.map_eq_some_iff.mp
      ((get?_markLivePositionsStale s p.key).symm.trans hrow)
    refine ⟨old, hold, ?_⟩
    unfold markedRow
    split <;> exact ⟨rfl, rfl, rfl⟩
  | clearStreaming => exact mirrored_of_empty rfl
  | foreign refresh =>
    refine h.congr rfl fun conId p hp row hrow => ?_
    have hrow' := (LivePositions.get?_replaceBroker s.live refresh.broker refresh.positions
      p.key).symm.trans hrow
    rcases Option.or_eq_some_iff.mp hrow' with hnew | ⟨-, hold⟩
    · obtain ⟨hmem, hkey⟩ := mem_of_get?_byKey hnew
      have hbroker : row.broker = p.broker := congrArg Prod.fst hkey
      rw [(h.named conId p hp).1, refresh.own row hmem] at hbroker
      exact absurd hbroker refresh.notIbkr
    · split at hold
      next => exact ⟨row, hold, rfl, rfl, rfl⟩
      next => cases hold

/-- Entries of other contracts leave what is shown of this one. -/
theorem ShowsClose.reseedOthers {conId : ℤ} {key : PositionKey} {nativeKey : String}
    {close : Python.Float} (closes : ℤ → Option Python.Float)
    (hparse : Python.parseInt nativeKey = some conId) {entries : List (ℤ × Position)}
    (hentries : ∀ entry ∈ entries, Python.parseInt entry.2.nativeKey = some entry.1 ∧
      entry.1 ≠ conId) (h : s.ShowsClose key nativeKey close) :
    (entries.foldl (IbkrFeed.reseedEntry closes) s).ShowsClose key nativeKey close := by
  induction entries generalizing s with
  | nil => exact h
  | cons entry entries ih =>
    refine ih (fun e he => hentries e (List.mem_cons_of_mem _ he)) ?_
    obtain ⟨hentry, hne⟩ := hentries entry (by simp)
    unfold IbkrFeed.reseedEntry
    split
    next => exact h
    next newPrev _ =>
      split
      next => exact h
      next =>
        have hwritten := h.setPosition (p := reseedRow entry.2 newPrev) fun hnative _ => by
          have hsame : entry.2.nativeKey = nativeKey := hnative
          rw [hsame, hparse] at hentry
          exact absurd (Option.some.inj hentry).symm hne
        exact hwritten

/-- The entry of the contract leaves its row with the new close. -/
theorem ShowsClose.reseedOwn {closes : ℤ → Option Python.Float} {conId : ℤ} {p : Position}
    {close : Python.Float} (h : s.ShowsClose p.key p.nativeKey p.previousClose)
    (hclose : closes conId = some close) (hpos : ¬ close ≤ 0) :
    (IbkrFeed.reseedEntry closes s (conId, p)).ShowsClose p.key p.nativeKey close := by
  unfold IbkrFeed.reseedEntry
  rw [hclose]
  dsimp only
  split
  next hkept =>
    rw [(Python.Float.equal_iff.mp (hkept.resolve_left hpos)).1]
    exact h
  next =>
    intro row hrow _ _
    have hkey : p.key = (reseedRow p close).key := rfl
    have hrow' := (LivePositions.get?_setPosition s.live (reseedRow p close) p.key).symm.trans hrow
    rw [if_pos hkey] at hrow'
    rw [← Option.some.inj hrow']
    rfl

/-- The entries before and behind the contract's own write rows of other contracts only. -/
theorem Mirrored.reseed_showsClose (h : s.Mirrored) {closes : ℤ → Option Python.Float} {conId : ℤ}
    {p : Position} {close : Python.Float} (hp : s.streaming.get? conId = some p)
    (hclass : p.assetClass = .stk) (hclose : closes conId = some close) (hpos : ¬ close ≤ 0) :
    (s.reseedPreviousCloses closes).ShowsClose p.key p.nativeKey close := by
  obtain ⟨-, hparse⟩ := h.named conId p hp
  obtain ⟨before, after, hsplit⟩ := List.append_of_mem (OrderedDict.get?_eq_some_iff.mp hp)
  have hnodup := s.streaming.nodup
  rw [hsplit, List.map_append, List.map_cons, List.perm_middle.nodup_iff, ← List.map_append] at hnodup
  have hother : ∀ entry ∈ before ++ after, Python.parseInt entry.2.nativeKey = some entry.1 ∧
      entry.1 ≠ conId := by
    intro entry hentry
    have hmem : entry ∈ s.streaming.entries := by
      rw [hsplit]
      exact List.perm_middle.mem_iff.mpr (List.mem_cons_of_mem _ hentry)
    refine ⟨(h.named _ _ (OrderedDict.get?_eq_some_iff.mpr hmem)).2, fun heq => ?_⟩
    exact (List.nodup_cons.mp hnodup).1 (List.mem_map.mpr ⟨entry, hentry, heq⟩)
  unfold IbkrFeed.reseedPreviousCloses
  rw [hsplit, List.foldl_append, List.foldl_cons]
  refine ShowsClose.reseedOthers closes hparse
    (fun entry hentry => hother entry (List.mem_append_right _ hentry)) ?_
  refine ShowsClose.reseedOwn ?_ hclose hpos
  exact ShowsClose.reseedOthers closes hparse
    (fun entry hentry => hother entry (List.mem_append_left _ hentry)) (h.close conId p hp hclass)

end IbkrFeed

/-- Behind a daily reseed that can get a positive close for every contract it asks for, the stock
row that the table's entry of such a contract holds has that close. -/
theorem reseed_covers_the_table {s : IbkrFeed}
    (hrun : Reaches IbkrFeed.next IbkrFeed.SeedsOnEmptyTable .empty s) (caches : CloseCaches)
    (today : ℕ) (fetched : ℤ → Option Python.Float) (contracts : List ℤ)
    (havailable : ∀ conId ∈ contracts, ∃ close,
      caches.closeOn today fetched conId = some close ∧ 0 < close) :
    ∀ row ∈ (s.reseedPreviousCloses
        (caches.fetchPreviousClosesCached today fetched contracts).1.get?).live.getAll,
      row.assetClass = .stk → ∀ conId ∈ contracts, ∀ p, s.streaming.get? conId = some p →
        p.assetClass = .stk → p.key = row.key → p.nativeKey = row.nativeKey →
          caches.closeOn today fetched conId = some row.previousClose := by
  intro row hrow hrowClass conId hconId p hp hclass hkey hnative
  have hs : s.Mirrored := by
    refine hrun.invariant (IbkrFeed.mirrored_of_empty rfl) fun t e t' ht hguard hstep => ?_
    obtain rfl := Option.some.inj hstep
    exact ht.step hguard
  obtain ⟨close, hclose, hpos⟩ := havailable conId hconId
  have hfetched : (caches.fetchPreviousClosesCached today fetched contracts).1.get? conId =
      some close := by
    rw [CloseCaches.get?_fetchPreviousClosesCached, if_pos hconId, hclose]
  have hshown := hs.reseed_showsClose hp hclass hfetched (Python.Float.not_le_zero_of_pos hpos)
  have hget := LivePositions.mem_getAll_iff.mp hrow
  rw [hclose, hshown row (hkey ▸ hget) hrowClass hnative.symm]

/-- Apple has closed at 108 on the seventh day. -/
theorem reseed_covers_apple :
    ∃ row ∈ ((IbkrFeed.empty.step (sampleSeed [sampleIbPosition "U1"] [])).reseedPreviousCloses
        ((⟨.empty, .empty⟩ : CloseCaches).fetchPreviousClosesCached 7 (fun _ => some 108)
          [265598]).1.get?).live.getAll,
      (⟨.empty, .empty⟩ : CloseCaches).closeOn 7 (fun _ => some 108) 265598 =
        some row.previousClose := by
  have hrun : Reaches IbkrFeed.next IbkrFeed.SeedsOnEmptyTable .empty
      (IbkrFeed.empty.step (sampleSeed [sampleIbPosition "U1"] [])) :=
    Relation.ReflTransGen.single ⟨sampleSeed [sampleIbPosition "U1"] [], rfl, rfl⟩
  have hrow : ∃ row ∈ ((IbkrFeed.empty.step (sampleSeed [sampleIbPosition "U1"]
      [])).reseedPreviousCloses ((⟨.empty, .empty⟩ : CloseCaches).fetchPreviousClosesCached 7
        (fun _ => some 108) [265598]).1.get?).live.getAll,
      row.assetClass = .stk ∧ ∃ p ∈ (IbkrFeed.empty.step (sampleSeed [sampleIbPosition "U1"]
        [])).streaming.get? 265598, p.assetClass = .stk ∧ p.key = row.key ∧
          p.nativeKey = row.nativeKey := by decide +kernel
  obtain ⟨row, hmem, hrowClass, p, hp, hclass, hkey, hnative⟩ := hrow
  refine ⟨row, hmem, reseed_covers_the_table hrun _ 7 _ [265598] (fun conId hconId => ?_) row hmem
    hrowClass 265598 (List.mem_singleton_self _) p hp hclass hkey hnative⟩
  obtain rfl := List.mem_singleton.mp hconId
  exact ⟨108, by decide +kernel, by decide +kernel⟩

/-- A share on an exchange whose quotes need a permission, seeded at its close of 1100. -/
def gatedReplies : IbReplies :=
  { sampleReplies [⟨"U1", ⟨14016494, "6315", "STK", "TSEJ", "SMART", "JPY"⟩, 200, 1000⟩] [] with
    details := fun _ => .ok (some ⟨"TSEJ", "SMART", "TOYO ENGINEERING", 1⟩)
    previousCloses := fun _ => some 1100 }

/-- Its row is never in the table, and keeps the close of the day it was seeded on. -/
theorem reseed_passes_over_gated_rows :
    ¬ ∀ (events : List FeedEvent) (caches : CloseCaches) (today : ℕ)
      (fetched : ℤ → Option Python.Float),
      (∀ conId, ∃ close, caches.closeOn today fetched conId = some close ∧ 0 < close) →
        ∀ row ∈ ((IbkrFeed.run events).reseedPreviousCloses (caches.fetchPreviousClosesCached today
            fetched (IbkrFeed.run events).streaming.keys).1.get?).live.getAll,
          row.assetClass = .stk → ∀ conId, row.Holds conId →
            caches.closeOn today fetched conId = some row.previousClose := by
  intro hall
  let events : List FeedEvent := [.startStreaming sampleView gatedReplies fun _ => .ticker]
  let caches : CloseCaches := ⟨.empty, .empty⟩
  have hrow : ∃ row ∈ ((IbkrFeed.run events).reseedPreviousCloses
      (caches.fetchPreviousClosesCached 7 (fun _ => some 1175)
        (IbkrFeed.run events).streaming.keys).1.get?).live.getAll,
      row.assetClass = .stk ∧ row.Holds 14016494 ∧
        caches.closeOn 7 (fun _ => some 1175) 14016494 ≠ some row.previousClose := by decide +kernel
  obtain ⟨row, hmem, hclass, hholds, hne⟩ := hrow
  refine hne (hall events caches 7 (fun _ => some 1175) (fun conId => ?_) row hmem hclass 14016494
    hholds)
  exact ⟨1175, rfl, by decide +kernel⟩

end PortfolioHub
