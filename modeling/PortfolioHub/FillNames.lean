import PortfolioHub.FillRow
import PortfolioHub.SymbolForms

namespace PortfolioHub

/-- An execution of the contract, bought or sold. -/
structure Fill.Of (fill : Fill) (contract : Contract) : Prop where
  conId : fill.conId = contract.conId
  symbol : fill.symbol = contract.symbol
  secType : fill.secType = contract.secType
  primaryExchange : fill.primaryExchange = contract.primaryExchange
  currency : fill.currency = contract.currency
  side : fill.side = "BOT" ∨ fill.side = "SLD"

/-- The rate lookup of a fill in the currency does not raise. -/
def FxView.AcceptsCurrency (fx : FxView) (currency : String) : Prop :=
  fx.service = none ∨ Python.orElse currency "USD" = "USD" ∨
    Python.orElse currency "USD" ∈ supportedFx

/-- The contract's own primary exchange is a key of the exchange table, and names the suffix
the holding is listed under: the cached name's, and without one that of the primary exchange of
the details, which comes before the contract's own. -/
def SameVenue (cached : Option NameEntry) (details : Except Python.Error (Option ContractDetails))
    (contract : Contract) : Prop :=
  ∃ suffix, ibExchangeToSuffix.lookup contract.primaryExchange = some suffix ∧
    match cached with
    | some entry => entry.canonical = contract.symbol ++ "." ++ suffix
    | none => ∀ found, details = .ok (some found) →
        Python.strip found.primaryExchange = "" ∨ Python.strip found.primaryExchange = "SMART" ∨
          ibExchangeToSuffix.lookup (Python.strip found.primaryExchange) = some suffix

theorem canonicalSymbol_eq_ok_iff {symbol exchange canonical : String} :
    canonicalSymbol symbol exchange = .ok canonical ↔
      ∃ suffix, ibExchangeToSuffix.lookup exchange = some suffix ∧
        canonical = symbol ++ "." ++ suffix := by
  unfold canonicalSymbol
  cases ibExchangeToSuffix.lookup exchange with
  | none => simp
  | some suffix => simp [eq_comm]

theorem fillRate_defined_iff (fx : FxView) (currency : String) :
    (∃ rate, fillRate fx (Python.orElse currency "USD") = .ok rate) ↔
      fx.AcceptsCurrency currency := by
  have hraises := fillRate_error_iff fx (Python.orElse currency "USD")
  unfold FxView.AcceptsCurrency
  cases hrate : fillRate fx (Python.orElse currency "USD") with
  | error e =>
    obtain ⟨hservice, husd, hsupported⟩ := hraises.mp ⟨e, hrate⟩
    simp [husd, hsupported, Option.isSome_iff_ne_none.mp hservice]
  | ok rate =>
    rw [hrate] at hraises
    refine iff_of_true ⟨rate, rfl⟩ ?_
    by_contra hnot
    obtain ⟨hservice, hrest⟩ := not_or.mp hnot
    obtain ⟨e, he⟩ := hraises.mpr ⟨Option.isSome_iff_ne_none.mpr hservice, not_or.mp hrest⟩
    cases he

/-- A bought or sold execution is recorded where its own primary exchange and its currency are
known, under its symbol and the suffix of that exchange. -/
theorem buildFillRow_named_iff {broker : String} {fx : FxView} {fill : Fill}
    (hside : fill.side = "BOT" ∨ fill.side = "SLD") {canonical : String} :
    (∃ row, buildFillRow broker fx fill = .ok (some row) ∧ row.canonicalSymbol = canonical) ↔
      fx.AcceptsCurrency fill.currency ∧
        canonicalSymbol fill.symbol fill.primaryExchange = .ok canonical := by
  obtain ⟨side, hlookup⟩ : ∃ side, sideMap.lookup fill.side = some side := by
    rcases hside with h | h
    · exact ⟨"BUY", by rw [h]; rfl⟩
    · exact ⟨"SELL", by rw [h]; rfl⟩
  rw [← fillRate_defined_iff]
  unfold buildFillRow
  rw [hlookup]
  dsimp only
  cases canonicalSymbol fill.symbol fill.primaryExchange with
  | error e => simp
  | ok found =>
    cases fillRate fx (Python.orElse fill.currency "USD") with
    | error e => simp [bind, Except.bind]
    | ok rate => simp [bind, Except.bind, pure, Except.pure]

theorem known_of_lookup {exchange suffix : String}
    (h : ibExchangeToSuffix.lookup exchange = some suffix) :
    Python.strip exchange = exchange ∧ exchange ≠ "" ∧ exchange ≠ "SMART" := by
  have hall : ∀ e ∈ ibExchangeToSuffix,
      Python.strip e.1 = e.1 ∧ e.1 ≠ "" ∧ e.1 ≠ "SMART" := by decide +kernel
  exact hall (exchange, suffix) (OrderedDict.mem_of_lookup h)

/-- The primary exchange of the details decides where it is a venue, and the contract's own
behind it. -/
theorem firstKnownListingExchange_suffix {detailsPrimary detailsExchange primary exchange found
    suffix : String}
    (h : firstKnownListingExchange detailsPrimary detailsExchange primary exchange = some found)
    (hprimary : ibExchangeToSuffix.lookup primary = some suffix) :
    ibExchangeToSuffix.lookup found = some suffix ↔
      Python.strip detailsPrimary = "" ∨ Python.strip detailsPrimary = "SMART" ∨
        ibExchangeToSuffix.lookup (Python.strip detailsPrimary) = some suffix := by
  obtain ⟨hstrip, hempty, hrouting⟩ := known_of_lookup hprimary
  have hknown : KnownExchange primary := by
    unfold KnownExchange
    rw [hprimary]
    rfl
  unfold firstKnownListingExchange firstKnown at h
  dsimp only at h
  split at h
  next hskip =>
    rw [firstKnown] at h
    simp only [hstrip, hempty, hrouting, hknown, or_self, if_true, if_false] at h
    obtain rfl := Option.some.inj h
    exact iff_of_true hprimary (hskip.imp id Or.inl)
  next hvenue =>
    split at h
    next =>
      obtain rfl := Option.some.inj h
      obtain ⟨hne, hnotRouting⟩ := not_or.mp hvenue
      simp [hne, hnotRouting]
    next => simp at h

/-- The details' venue and the symbol make the name that is fetched. -/
theorem fetchContractDetails_canonical {contract : Contract} {details : Option ContractDetails}
    {entry : NameEntry} (h : fetchContractDetails contract details = some entry) :
    ∃ found venue, details = some found ∧
      firstKnownListingExchange found.primaryExchange found.exchange contract.primaryExchange
        contract.exchange = some venue ∧
      canonicalSymbol contract.symbol venue = .ok entry.canonical := by
  obtain ⟨found, hfound, h⟩ := Option.bind_eq_some_iff.mp h
  obtain ⟨venue, hvenue, h⟩ := Option.bind_eq_some_iff.mp h
  split at h
  next => simp at h
  next canonical hcanonical =>
    obtain rfl := Option.some.inj h
    exact ⟨found, venue, hfound, hvenue, hcanonical⟩

/-- A resolved holding has the symbol its contract's own primary exchange gives exactly where
both name one venue. -/
theorem resolved_sameVenue_iff {cached : Option NameEntry}
    {details : Except Python.Error (Option ContractDetails)} {contract : Contract}
    {resolved : ResolvedName} (h : resolveName cached details contract = .ok (some resolved)) :
    canonicalSymbol contract.symbol contract.primaryExchange = .ok resolved.canonical ↔
      SameVenue cached details contract := by
  rw [canonicalSymbol_eq_ok_iff]
  refine exists_congr fun suffix => and_congr_right fun hprimary => ?_
  unfold resolveName at h
  split at h
  next entry =>
    obtain ⟨exchange, -, rfl⟩ := Option.map_eq_some_iff.mp (Except.ok.inj h)
    rfl
  next =>
    obtain ⟨found, hdetails, h⟩ := Python.bind_eq_ok.mp h
    obtain ⟨entry, hentry, h⟩ := Option.bind_eq_some_iff.mp (Python.pure_eq_ok.mp h)
    obtain ⟨exchange, -, rfl⟩ := Option.map_eq_some_iff.mp h
    obtain ⟨reply, venue, rfl, hvenue, hcanonical⟩ := fetchContractDetails_canonical hentry
    obtain ⟨suffix', hlookup, hcanonical⟩ := canonicalSymbol_eq_ok_iff.mp hcanonical
    have hsuffix : entry.canonical = contract.symbol ++ "." ++ suffix ↔
        ibExchangeToSuffix.lookup venue = some suffix := by
      rw [hcanonical, hlookup, Option.some.injEq]
      exact ⟨append_right_injective, fun heq => by rw [heq]⟩
    rw [hdetails]
    simp only [Except.ok.injEq, Option.some.injEq, forall_eq']
    exact hsuffix.trans (firstKnownListingExchange_suffix hvenue hprimary)

/-- The fills of a resolved contract are recorded under the symbol of its holding exactly where
the fill's own primary exchange names the venue the holding is resolved to. -/
theorem fill_named_like_holding_iff (broker : String) (fx fxThen : FxView) (ibPos : IbPosition)
    {cached : Option NameEntry} {details : Except Python.Error (Option ContractDetails)}
    {resolved : ResolvedName} (quote : Quote) (previousClose : Python.Float)
    (item : Option PortfolioItem) {fill : Fill} (hfill : fill.Of ibPos.contract)
    (h : resolveName cached details ibPos.contract = .ok (some resolved)) :
    (∃ row, buildFillRow broker fxThen fill = .ok (some row) ∧ row.canonicalSymbol =
      (buildPosition fx ibPos resolved quote previousClose item).canonicalSymbol) ↔
        fxThen.AcceptsCurrency ibPos.contract.currency ∧
          SameVenue cached details ibPos.contract := by
  have hcanonical : (buildPosition fx ibPos resolved quote previousClose item).canonicalSymbol =
      resolved.canonical := rfl
  rw [hcanonical, buildFillRow_named_iff hfill.side, hfill.symbol, hfill.primaryExchange,
    hfill.currency, resolved_sameVenue_iff h]

def fillOf (contract : Contract) : Fill where
  execId := "0001"
  acctNumber := "U1"
  side := "BOT"
  shares := 100
  price := 380
  time := 0
  symbol := contract.symbol
  primaryExchange := contract.primaryExchange
  currency := contract.currency
  secType := contract.secType
  conId := contract.conId
  commission := 1

theorem fillOf_of (contract : Contract) : (fillOf contract).Of contract :=
  ⟨rfl, rfl, rfl, rfl, rfl, Or.inl rfl⟩

def tencentDetails : Except Python.Error (Option ContractDetails) :=
  .ok (some ⟨"SEHK", "SEHK", "TENCENT HOLDINGS LTD", 1⟩)

def tencentName : ResolvedName := ⟨"700.HK", "TENCENT HOLDINGS LTD", "SEHK", .one⟩

theorem listed_fill_named_like_holding :
    ∃ row, buildFillRow "IBKR" sampleView (fillOf ⟨1, "700", "STK", "SEHK", "SMART", "HKD"⟩) =
        .ok (some row) ∧
      row.canonicalSymbol = (buildPosition sampleView
        ⟨"U1", ⟨1, "700", "STK", "SEHK", "SMART", "HKD"⟩, 100, 380⟩ tencentName .missing 0
          none).canonicalSymbol := by
  have hresolved : resolveName none tencentDetails ⟨1, "700", "STK", "SEHK", "SMART", "HKD"⟩ =
      .ok (some tencentName) := by rfl
  refine (fill_named_like_holding_iff "IBKR" sampleView sampleView
    ⟨"U1", ⟨1, "700", "STK", "SEHK", "SMART", "HKD"⟩, 100, 380⟩ .missing 0 none (fillOf_of _)
    hresolved).mpr ⟨Or.inr (Or.inr (by decide)), "HK", by rfl, fun found hfound => ?_⟩
  obtain rfl := Option.some.inj (Except.ok.inj hfound)
  exact Or.inr (Or.inr (by rfl))

/-- A holding whose venue is in `exchange` alone resolves by its details; its fills are dropped. -/
theorem fill_without_primary_exchange_is_dropped :
    resolveName none tencentDetails ⟨1, "700", "STK", "", "SEHK", "HKD"⟩ = .ok (some tencentName) ∧
      (fillOf ⟨1, "700", "STK", "", "SEHK", "HKD"⟩).Of ⟨1, "700", "STK", "", "SEHK", "HKD"⟩ ∧
      buildFillRow "IBKR" sampleView (fillOf ⟨1, "700", "STK", "", "SEHK", "HKD"⟩) = .ok none ∧
      ¬ ∃ row, buildFillRow "IBKR" sampleView (fillOf ⟨1, "700", "STK", "", "SEHK", "HKD"⟩) =
          .ok (some row) ∧
        row.canonicalSymbol = (buildPosition sampleView
          ⟨"U1", ⟨1, "700", "STK", "", "SEHK", "HKD"⟩, 100, 380⟩ tencentName .missing 0
            none).canonicalSymbol := by
  have hdropped : buildFillRow "IBKR" sampleView (fillOf ⟨1, "700", "STK", "", "SEHK", "HKD"⟩) =
      .ok none := by rfl
  refine ⟨by rfl, fillOf_of _, hdropped, ?_⟩
  rintro ⟨row, hrow, -⟩
  rw [hdropped] at hrow
  cases hrow

end PortfolioHub
