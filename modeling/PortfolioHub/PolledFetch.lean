import PortfolioHub.PolledRows

namespace PortfolioHub

/-- The numbers of the replies are finite where they read as numbers. -/
structure LongbridgeReplies.Finite (r : LongbridgeReplies) : Prop where
  stocks : ∀ channels, r.stockPositions = .ok channels → ∀ channel ∈ channels,
    ∀ row ∈ channel.positions, ∀ c ∈ row.numbers, c.Finite
  quotes : ∀ symbols quotes, r.quote symbols = .ok quotes → ∀ e ∈ quotes, e.2.lastDone.Finite
  cash : ∀ balances, r.accountBalance = .ok balances → ∀ balance ∈ balances,
    ∀ cash ∈ balance.cashInfos, ∀ c ∈ cash.numbers, c.Finite

structure TigerReplies.Finite (r : TigerReplies) : Prop where
  stocks : ∀ accountId rows, r.positions accountId = .ok rows → ∀ row ∈ rows,
    ∀ c ∈ row.numbers, c.Finite
  quotes : ∀ symbols quotes, r.stockBriefs symbols = .ok quotes → ∀ quote ∈ quotes,
    quote.latestPrice.Finite ∧ quote.close.Finite
  prime : ∀ accountId segment, r.primeAssets accountId = .ok (some segment) →
    ∀ asset ∈ segment.currencyAssets, asset.cashBalance.Finite
  «global» : ∀ accountId assets, r.globalAssets accountId = .ok (some assets) →
    ∀ asset ∈ assets.marketValues, asset.cashBalance.Finite

structure FutuReplies.Finite (r : FutuReplies) : Prop where
  stocks : ∀ accountId market rows, r.positionList accountId market = .ok (some rows) →
    ∀ row ∈ rows, ∀ c ∈ row.numbers, c.Finite
  cash : ∀ accountId rows, r.accinfo accountId = .ok (some rows) → ∀ row ∈ rows,
    row.cash.Finite ∧ row.usCash.Finite

/-- The answers to the polling adapter's `get_positions` are finite. -/
def Adapter.FinitePositions : Adapter → Prop
  | .ibkr _ _ => False
  | .futu _ _ positions _ => positions.Finite
  | .longbridge _ _ positions _ => positions.Finite
  | .tiger _ _ _ positions _ => positions.Finite

theorem update_values {α : Type} {P : α → Prop} {d : OrderedDict String α}
    {es : List (String × α)} (hd : ∀ k v, d.get? k = some v → P v) (hes : ∀ e ∈ es, P e.2) :
    ∀ k v, (d.update es).get? k = some v → P v := by
  intro k v hv
  rw [OrderedDict.get?_update] at hv
  rcases Option.or_eq_some_iff.mp hv with hnew | ⟨-, hold⟩
  · exact hes _ (List.mem_reverse.mp (OrderedDict.mem_of_lookup hnew))
  · exact hd k v hold

theorem rowsBySymbol_values {α : Type} {P : α → Prop} {rows : List (String × α)}
    (hrows : ∀ e ∈ rows, P e.2) : ∀ e ∈ (rowsBySymbol rows).entries, P e.2 := by
  have hget : ∀ k v, (rowsBySymbol rows).get? k = some v → P v := by
    refine update_values (fun k v hv => by simp at hv) fun e he => ?_
    obtain ⟨row, hrow, rfl⟩ := List.mem_map.mp he
    exact hrows row hrow
  exact fun e he => hget e.1 e.2 (OrderedDict.get?_eq_some_iff.mpr he)

/-- Whichever lookups answer, the quotes found are among the vendor's. -/
theorem longbridge_quotesBySymbol_finite {r : LongbridgeReplies} (hr : r.Finite)
    {symbols : List String} {found : OrderedDict String LongbridgeQuote × List String}
    (h : r.quotesBySymbol symbols = .ok found) :
    ∀ symbol quote, found.1.get? symbol = some quote → quote.lastDone.Finite := by
  unfold LongbridgeReplies.quotesBySymbol at h
  split at h
  next =>
    obtain rfl := Except.ok.inj h
    intro symbol quote hquote
    simp at hquote
  next =>
    split at h
    next quotes hquotes =>
      obtain rfl := Except.ok.inj h
      intro symbol quote hquote
      exact rowsBySymbol_values (P := fun quote : LongbridgeQuote => quote.lastDone.Finite)
        (hr.quotes symbols quotes hquotes) _ (OrderedDict.get?_eq_some_iff.mp hquote)
    next =>
      split at h
      next =>
        obtain ⟨single, hsingle, h⟩ := Python.bind_eq_ok.mp h
        split at h
        next => simp at h
        next =>
          obtain rfl := Python.pure_eq_ok.mp h
          refine Python.foldlM_invariant (I := fun found =>
            ∀ symbol quote, found.1.get? symbol = some quote → quote.lastDone.Finite)
            (fun symbol quote hquote => by simp at hquote)
            (fun found symbol found' hfound hone => ?_) hsingle
          unfold LongbridgeReplies.quoteOne at hone
          split at hone
          next quotes hquotes =>
            obtain rfl := Except.ok.inj hone
            exact update_values (P := fun quote : LongbridgeQuote => quote.lastDone.Finite) hfound
              (rowsBySymbol_values (P := fun quote : LongbridgeQuote => quote.lastDone.Finite)
                (hr.quotes _ quotes hquotes))
          next =>
            split at hone
            next =>
              obtain rfl := Except.ok.inj hone
              exact hfound
            next => simp at hone
      next => simp at h

theorem tiger_quotesBySymbol_finite {r : TigerReplies} (hr : r.Finite) {symbols : List String}
    {found : OrderedDict String TigerQuote} (h : r.quotesBySymbol symbols = .ok found) :
    ∀ symbol quote, found.get? symbol = some quote →
      quote.latestPrice.Finite ∧ quote.close.Finite := by
  refine Python.foldlM_invariant (I := fun found : OrderedDict String TigerQuote =>
    ∀ symbol quote, found.get? symbol = some quote →
      quote.latestPrice.Finite ∧ quote.close.Finite)
    (fun symbol quote hquote => by simp at hquote) (fun found batch found' hfound hone => ?_) h
  unfold TigerReplies.quoteBatch at hone
  split at hone
  next =>
    split at hone
    next =>
      obtain rfl := Except.ok.inj hone
      exact hfound
    next => simp at hone
  next quotes hquotes =>
    obtain rfl := Except.ok.inj hone
    refine update_values (P := fun quote : TigerQuote => quote.latestPrice.Finite ∧
      quote.close.Finite) hfound fun e he => ?_
    obtain ⟨quote, hquote, rfl⟩ := List.mem_map.mp (List.mem_of_mem_filter he)
    exact hr.quotes batch quotes hquotes quote hquote

/-- Sums of finite amounts by currency are finite. -/
theorem addAmount_isFinite {amounts : OrderedDict String Python.Float}
    (hamounts : ∀ k v, amounts.get? k = some v → v.isFinite = true) {currency : String}
    {amount : Python.Float} (hamount : amount.isFinite = true) :
    ∀ k v, (addAmount amounts currency amount).get? k = some v → v.isFinite = true := by
  intro k v hv
  unfold addAmount at hv
  rw [OrderedDict.get?_insert] at hv
  split at hv
  next =>
    obtain rfl := Option.some.inj hv
    refine Python.Float.isFinite_add ?_ hamount
    cases hold : amounts.get? currency with
    | none => rfl
    | some old => exact hamounts currency old hold
  next => exact hamounts k v hv

theorem foldl_addAmount_isFinite {α : Type} {currency : α → String} {amount : α → Python.Float}
    {as : List α} (has : ∀ a ∈ as, (amount a).isFinite = true)
    {amounts : OrderedDict String Python.Float}
    (hamounts : ∀ k v, amounts.get? k = some v → v.isFinite = true) :
    ∀ k v, (as.foldl (fun amounts a => addAmount amounts (currency a) (amount a)) amounts).get? k =
      some v → v.isFinite = true := by
  induction as generalizing amounts with
  | nil => exact hamounts
  | cons a as ih =>
    refine ih (fun b hb => has b (List.mem_cons_of_mem _ hb)) ?_
    exact addAmount_isFinite hamounts (has a (by simp))

theorem sortedAmounts_isFinite {amounts : OrderedDict String Python.Float}
    (hamounts : ∀ k v, amounts.get? k = some v → v.isFinite = true) :
    ∀ e ∈ sortedAmounts amounts, e.2.isFinite = true := by
  intro e he
  have hmem : e ∈ amounts.entries := (List.perm_insertionSort _ _).mem_iff.mp he
  exact hamounts e.1 e.2 (OrderedDict.get?_eq_some_iff.mpr hmem)

theorem longbridgeCashPositions_valued {fx : FxView} (hfx : fx.PositiveRates) (accountId : String)
    {cashInfos : List LongbridgeCashInfo}
    (hcash : ∀ cash ∈ cashInfos, ∀ c ∈ cash.numbers, c.Finite) :
    ∀ p ∈ longbridgeCashPositions fx accountId cashInfos, p.Valued := by
  intro p hp
  obtain ⟨e, he, rfl⟩ := List.mem_map.mp hp
  refine cashRow_valued hfx _ _ _ (sortedAmounts_isFinite ?_ e he)
  refine foldl_addAmount_isFinite (fun cash hmem => ?_) fun k v hv => by simp at hv
  have hcells := hcash cash (List.mem_of_mem_filter hmem)
  exact Python.Float.isFinite_add
    (Python.Float.isFinite_add (hcells _ (by simp [LongbridgeCashInfo.numbers])).safeFloat
      (hcells _ (by simp [LongbridgeCashInfo.numbers])).safeFloat)
    (hcells _ (by simp [LongbridgeCashInfo.numbers])).safeFloat

theorem tigerCashPositions_valued {fx : FxView} (hfx : fx.PositiveRates) (accountId : String)
    {assets : List TigerCurrencyAsset} (hassets : ∀ asset ∈ assets, asset.cashBalance.Finite) :
    ∀ p ∈ tigerCashPositions fx accountId assets, p.Valued := by
  intro p hp
  obtain ⟨e, he, rfl⟩ := List.mem_map.mp hp
  refine cashRow_valued hfx _ _ _ (sortedAmounts_isFinite ?_ e (List.mem_of_mem_filter he))
  refine foldl_addAmount_isFinite (fun asset hasset => ?_) fun k v hv => by simp at hv
  exact (hassets asset hasset).safeFloat

theorem stockPositionRows_mem {settings : LongbridgeSettings} {r : LongbridgeReplies}
    {rows : List LongbridgeStockRow} (h : r.stockPositionRows settings = .ok rows)
    {row : LongbridgeStockRow} (hrow : row ∈ rows) :
    ∃ channels, r.stockPositions = .ok channels ∧ ∃ channel ∈ channels, row ∈ channel.positions := by
  obtain ⟨channels, hchannels, h⟩ := Python.bind_eq_ok.mp h
  refine ⟨channels, hchannels, ?_⟩
  dsimp only at h
  have hmatching : ∀ channel ∈ (if longbridgeNormaliseChannel settings.positionChannel = "" then
      channels else channels.filter fun c => longbridgeNormaliseChannel c.name =
        longbridgeNormaliseChannel settings.positionChannel), channel ∈ channels := by
    intro channel hchannel
    split at hchannel
    next => exact hchannel
    next => exact List.mem_of_mem_filter hchannel
  generalize (if longbridgeNormaliseChannel settings.positionChannel = "" then channels
    else channels.filter fun c => longbridgeNormaliseChannel c.name =
      longbridgeNormaliseChannel settings.positionChannel) = matching at h hmatching
  split at h
  next =>
    obtain rfl := Python.pure_eq_ok.mp h
    simp at hrow
  next =>
    split at h
    next => simp at h
    next =>
      split at h
      next => simp at h
      next =>
        obtain rfl := Python.pure_eq_ok.mp h
        obtain ⟨channel, hchannel, hmem⟩ := List.mem_flatMap.mp (List.mem_of_mem_filter hrow)
        exact ⟨channel, hmatching channel hchannel, hmem⟩

theorem longbridge_fetchPositions_valued {fx : FxView} (hfx : fx.PositiveRates)
    {settings : LongbridgeSettings} {r : LongbridgeReplies} (hr : r.Finite) {rows : List Position}
    (h : r.fetchPositions fx settings = .ok rows) : ∀ p ∈ rows, p.Valued := by
  obtain ⟨stocks, hstocks, h⟩ := Python.bind_eq_ok.mp h
  obtain ⟨quotes, hquotes, h⟩ := Python.bind_eq_ok.mp h
  obtain ⟨statics, -, h⟩ := Python.bind_eq_ok.mp h
  obtain ⟨balances, hbalances, h⟩ := Python.bind_eq_ok.mp h
  obtain rfl := Python.pure_eq_ok.mp h
  intro p hp
  rcases List.mem_append.mp hp with hstock | hcash
  · obtain ⟨row, hrow, hfound⟩ := List.mem_filterMap.mp hstock
    obtain ⟨channels, hchannels, channel, hchannel, hmem⟩ :=
      stockPositionRows_mem hstocks (List.mem_of_mem_filter hrow)
    dsimp only at hfound
    split at hfound
    next => simp at hfound
    next =>
      split at hfound
      next position hposition =>
        obtain rfl := hfound
        exact longbridgePositionFromStockRow_valued hfx (hr.stocks channels hchannels channel
          hchannel row hmem) (longbridge_quotesBySymbol_finite hr hquotes _) hposition
      next => simp at hfound
  · refine longbridgeCashPositions_valued hfx _ (fun cash hmem => ?_) p hcash
    obtain ⟨balance, hbalance, hin⟩ := List.mem_flatMap.mp hmem
    exact hr.cash balances hbalances balance hbalance cash hin

/-- The cash assets of a snapshot are those of the account's segment or market values. -/
theorem assetSnapshot_finite {settings : TigerSettings} {r : TigerReplies} (hr : r.Finite)
    {account : TigerAccountRef} {snapshot : TigerAssetSnapshot}
    (h : r.assetSnapshot settings account = .ok (some snapshot)) :
    ∀ asset ∈ snapshot.cashAssets, asset.cashBalance.Finite := by
  unfold TigerReplies.assetSnapshot at h
  split at h
  next =>
    cases hassets : r.globalAssets account.accountId with
    | error e => simp [hassets, Except.map] at h
    | ok assets =>
      rw [hassets] at h
      obtain ⟨assets', hsome, rfl⟩ := Option.map_eq_some_iff.mp (Except.ok.inj h)
      exact hr.global account.accountId assets' (hassets.trans (congrArg Except.ok hsome))
  next =>
    cases hsegment : r.primeAssets account.accountId with
    | error e => simp [hsegment, Except.map] at h
    | ok segment =>
      rw [hsegment] at h
      obtain ⟨segment', hsome, rfl⟩ := Option.map_eq_some_iff.mp (Except.ok.inj h)
      exact hr.prime account.accountId segment' (hsegment.trans (congrArg Except.ok hsome))

theorem tiger_fetchPositions_valued {fx : FxView} (hfx : fx.PositiveRates) {settings : TigerSettings}
    {r : TigerReplies} (hr : r.Finite) {accounts : List TigerAccountRef} {rows : List Position}
    (h : r.fetchPositions fx settings accounts = .ok rows) : ∀ p ∈ rows, p.Valued := by
  obtain ⟨accountRows, haccounts, h⟩ := Python.bind_eq_ok.mp h
  obtain ⟨quotes, hquotes, h⟩ := Python.bind_eq_ok.mp h
  obtain ⟨snapshots, hsnapshots, h⟩ := Python.bind_eq_ok.mp h
  obtain rfl := Python.pure_eq_ok.mp h
  intro p hp
  rcases List.mem_append.mp hp with hstock | hcash
  · obtain ⟨row, hrow, hfound⟩ := List.mem_filterMap.mp hstock
    obtain ⟨group, hgroup, hmem⟩ := List.mem_flatten.mp hrow
    obtain ⟨account, -, hpositions⟩ := (Python.mem_mapM_iff haccounts).mp hgroup
    obtain ⟨vendorRows, hvendor, hpositions⟩ := Python.bind_eq_ok.mp hpositions
    obtain rfl := Python.pure_eq_ok.mp hpositions
    obtain ⟨vendorRow, hin, rfl⟩ := List.mem_map.mp hmem
    split at hfound
    next position hposition =>
      obtain rfl := hfound
      exact tigerPositionFromRow_valued hfx (hr.stocks account.accountId vendorRows hvendor vendorRow
        (List.mem_of_mem_filter hin)) (tiger_quotesBySymbol_finite hr hquotes) hposition
    next => simp at hfound
  · obtain ⟨snapshot, hsnapshot, hrow⟩ := List.mem_flatMap.mp hcash
    obtain ⟨found, hfound, hsnapshots⟩ := Python.bind_eq_ok.mp hsnapshots
    obtain rfl := Python.pure_eq_ok.mp hsnapshots
    have hin : some snapshot ∈ found := by simpa using List.mem_filterMap.mp hsnapshot
    obtain ⟨account, -, hasset⟩ := (Python.mem_mapM_iff hfound).mp hin
    exact tigerCashPositions_valued hfx _ (assetSnapshot_finite hr hasset) p hrow

theorem futu_getPositions_valued {fx : FxView} (hfx : fx.PositiveRates) {r : FutuReplies}
    (hr : r.Finite) {accounts : List FutuAccount} {rows : List Position}
    (h : r.getPositions fx accounts = .ok rows) : ∀ p ∈ rows, p.Valued := by
  obtain ⟨replies, hreplies, h⟩ := Python.bind_eq_ok.mp h
  dsimp only at h
  split at h
  next => simp at h
  next =>
    obtain ⟨infoRows, hinfo, h⟩ := Python.bind_eq_ok.mp h
    obtain rfl := Python.pure_eq_ok.mp h
    intro p hp
    rcases List.mem_append.mp hp with hstock | hcash
    · obtain ⟨k, hk⟩ := OrderedDict.mem_values_iff.mp hstock
      rw [OrderedDict.get?_ofList] at hk
      obtain ⟨q, hq, heq⟩ := List.mem_map.mp (List.mem_reverse.mp (OrderedDict.mem_of_lookup hk))
      obtain ⟨-, rfl⟩ := Prod.mk.inj heq
      obtain ⟨row, hrow, hfound⟩ := List.mem_filterMap.mp hq
      obtain ⟨group, hgroup, hmem⟩ := List.mem_flatten.mp hrow
      have hin : some group ∈ replies := by simpa using List.mem_filterMap.mp hgroup
      obtain ⟨context, -, hpositions⟩ := (Python.mem_mapM_iff hreplies).mp hin
      obtain ⟨-, -, hpositions⟩ := Python.bind_eq_ok.mp hpositions
      obtain ⟨reply, hreply, hpositions⟩ := Python.bind_eq_ok.mp hpositions
      obtain ⟨vendorRows, hsome, rfl⟩ := Option.map_eq_some_iff.mp (Python.pure_eq_ok.mp hpositions)
      obtain ⟨vendorRow, hvendorRow, rfl⟩ := List.mem_map.mp hmem
      exact futuPositionFromRow_valued hfx (hr.stocks context.1 context.2 vendorRows
        (hreply.trans (congrArg Except.ok hsome)) vendorRow hvendorRow) hfound
    · obtain ⟨row, hrow, hfound⟩ := List.mem_filterMap.mp hcash
      obtain ⟨found, hfoundRows, hinfo⟩ := Python.bind_eq_ok.mp hinfo
      obtain rfl := Python.pure_eq_ok.mp hinfo
      have hin : some row ∈ found := by simpa using List.mem_filterMap.mp hrow
      obtain ⟨account, -, haccount⟩ := (Python.mem_mapM_iff hfoundRows).mp hin
      obtain ⟨-, -, haccount⟩ := Python.bind_eq_ok.mp haccount
      obtain ⟨reply, hreply, haccount⟩ := Python.bind_eq_ok.mp haccount
      obtain ⟨info, hinfoRow, rfl⟩ := Option.map_eq_some_iff.mp (Python.pure_eq_ok.mp haccount)
      obtain ⟨vendorRows, hsome, hhead⟩ := Option.bind_eq_some_iff.mp hinfoRow
      have hmem : info ∈ vendorRows := List.mem_of_mem_head? hhead
      obtain ⟨hcashCell, husCash⟩ := hr.cash account.accountId vendorRows
        (hreply.trans (congrArg Except.ok hsome)) info hmem
      obtain rfl := futuCashPositionFromAccountRow_eq hfound
      refine cashRow_valued hfx _ _ _ (firstFloat_isFinite fun c hc => ?_)
      rcases List.mem_pair.mp hc with rfl | rfl
      · exact hcashCell
      · exact husCash

/-- What a poll gives for finite answers is valued. -/
theorem Adapter.getPositions_valued {fx : FxView} (hfx : fx.PositiveRates) {a : Adapter}
    (ha : a.FinitePositions) {rows : List Position} (h : a.getPositions fx = .ok rows) :
    ∀ p ∈ rows, p.Valued := by
  cases a with
  | ibkr state session => exact absurd ha (by simp [FinitePositions])
  | futu state accounts positions summary =>
    dsimp only [getPositions] at h
    split at h
    next =>
      obtain rfl := Except.ok.inj h
      simp
    next => exact futu_getPositions_valued hfx ha h
  | longbridge state settings positions summary =>
    dsimp only [getPositions] at h
    split at h
    next =>
      obtain rfl := Except.ok.inj h
      simp
    next => exact longbridge_fetchPositions_valued hfx ha h
  | tiger state settings accounts positions summary =>
    dsimp only [getPositions] at h
    split at h
    next =>
      obtain rfl := Except.ok.inj h
      simp
    next => exact tiger_fetchPositions_valued hfx ha h

end PortfolioHub
