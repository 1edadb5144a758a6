import PortfolioHub.Emitted

namespace PortfolioHub

/-- The venue is in the table and the canonical symbol is the native one with its suffix. -/
def Position.Normalised (p : Position) : Prop :=
  ∃ suffix, ibExchangeToSuffix.lookup p.exchange = some suffix ∧
    p.canonicalSymbol = p.nativeSymbol ++ "." ++ suffix

/-- The hint of a Longbridge symbol is missing, or a venue with the suffix of the symbol. -/
def LongbridgeHintAgrees (symbol exchangeHint : String) : Prop :=
  Python.upper (Python.strip exchangeHint) = "" ∨
    ∃ rawSymbol suffix, Python.rsplitDot (Python.strip symbol) = some (rawSymbol, suffix) ∧
      ibExchangeToSuffix.lookup (Python.upper (Python.strip exchangeHint)) =
        some (Python.upper suffix)

/-- A cached name belongs to the symbol the contract carries now. -/
def CachedNameAgrees (cached : Option NameEntry) (contract : Contract) : Prop :=
  ∀ entry, cached = some entry → ∃ suffix,
    Python.rsplitDot entry.canonical = some (contract.symbol, suffix)

theorem append_right_injective {a b c : String} (h : a ++ b = a ++ c) : b = c := by
  have hlist := congrArg String.toList h
  rw [String.toList_append, String.toList_append] at hlist
  exact String.toList_injective (List.append_cancel_left hlist)

theorem append_left_injective {a b c : String} (h : a ++ c = b ++ c) : a = b := by
  have hlist := congrArg String.toList h
  rw [String.toList_append, String.toList_append] at hlist
  exact String.toList_injective (List.append_cancel_right hlist)

theorem suffix_no_dot {exchange suffix : String}
    (h : ibExchangeToSuffix.lookup exchange = some suffix) : '.' ∉ suffix.toList := by
  have hall : ∀ e ∈ ibExchangeToSuffix, '.' ∉ e.2.toList := by decide +kernel
  exact hall _ (OrderedDict.mem_of_lookup h)

theorem suffixToExchange_suffix {suffix exchange : String}
    (h : suffixToExchange.lookup suffix = some exchange) :
    ibExchangeToSuffix.lookup exchange = some suffix := by
  have hall : ∀ e ∈ suffixToExchange, ibExchangeToSuffix.lookup e.2 = some e.1 := by
    decide +kernel
  exact hall _ (OrderedDict.mem_of_lookup h)

/-- The Longbridge symbol is in normal form just when its hint agrees with it. -/
theorem longbridgeNormaliseSymbol_iff {symbol hint nativeSymbol canonical exchange : String}
    (h : longbridgeNormaliseSymbol symbol hint = .ok (nativeSymbol, canonical, exchange)) :
    (∃ suffix, ibExchangeToSuffix.lookup exchange = some suffix ∧
      canonical = nativeSymbol ++ "." ++ suffix) ↔ LongbridgeHintAgrees symbol hint := by
  unfold longbridgeNormaliseSymbol at h
  unfold LongbridgeHintAgrees
  dsimp only at h
  split at h
  next => simp at h
  next rawSymbol rawSuffix hsplit =>
    split at h
    next hhint =>
      obtain ⟨hnative, hrest⟩ := Prod.mk.inj (Except.ok.inj h)
      obtain ⟨hcanonical, hexchange⟩ := Prod.mk.inj hrest
      rw [← hnative, ← hcanonical, ← hexchange]
      constructor
      · rintro ⟨suffix, hlookup, heq⟩
        have hsame := append_right_injective heq
        exact Or.inr ⟨rawSymbol, rawSuffix, hsplit, by rw [hlookup, hsame]⟩
      · rintro (hempty | ⟨rawSymbol', suffix, hsplit', hlookup⟩)
        · exact absurd hempty hhint
        · obtain ⟨-, hsuffix⟩ := Prod.mk.inj (Option.some.inj (hsplit.symm.trans hsplit'))
          exact ⟨_, hlookup, by rw [hsuffix]⟩
    next hhint =>
      split at h
      next found hfound =>
        obtain ⟨hnative, hrest⟩ := Prod.mk.inj (Except.ok.inj h)
        obtain ⟨hcanonical, hexchange⟩ := Prod.mk.inj hrest
        rw [← hnative, ← hcanonical, ← hexchange]
        refine iff_of_true ⟨_, suffixToExchange_suffix hfound, rfl⟩ (Or.inl ?_)
        exact not_not.mp hhint
      next => simp at h

theorem tigerNormaliseContractSymbol_suffix {symbol market hint nativeSymbol canonical
    exchange : String}
    (h : tigerNormaliseContractSymbol symbol market hint =
      .ok (nativeSymbol, canonical, exchange)) :
    ∃ suffix, ibExchangeToSuffix.lookup exchange = some suffix ∧
      canonical = nativeSymbol ++ "." ++ suffix := by
  unfold tigerNormaliseContractSymbol at h
  dsimp only at h
  split at h
  next => simp at h
  next =>
    obtain ⟨found, -, h⟩ := Python.bind_eq_ok.mp h
    obtain ⟨symbol', hcanonical, h⟩ := Python.bind_eq_ok.mp h
    obtain ⟨hnative, hrest⟩ := Prod.mk.inj (Python.pure_eq_ok.mp h)
    obtain ⟨hsymbol, hexchange⟩ := Prod.mk.inj hrest
    rw [← hnative, ← hsymbol, ← hexchange]
    unfold canonicalSymbol at hcanonical
    split at hcanonical
    next suffix hsuffix => exact ⟨suffix, hsuffix, (Except.ok.inj hcanonical).symm⟩
    next => simp at hcanonical

/-- The two tables of the Futu markets name the same listings. -/
theorem futuNormaliseCode_suffix {code hint nativeSymbol canonical exchange : String}
    (h : futuNormaliseCode code hint = .ok (nativeSymbol, canonical, exchange)) :
    ∃ suffix, ibExchangeToSuffix.lookup exchange = some suffix ∧
      canonical = nativeSymbol ++ "." ++ suffix := by
  unfold futuNormaliseCode at h
  dsimp only at h
  split at h
  next found suffix hfound hsuffix =>
    obtain ⟨hnative, hrest⟩ := Prod.mk.inj (Except.ok.inj h)
    obtain ⟨hcanonical, hexchange⟩ := Prod.mk.inj hrest
    rw [← hnative, ← hcanonical, ← hexchange]
    have hall : ∀ e ∈ futuExchangeToIb, ibExchangeToSuffix.lookup e.2 = futuSuffix.lookup e.1 := by
      decide +kernel
    have hsame := hall _ (OrderedDict.mem_of_lookup hfound)
    dsimp only at hsame
    rw [hsuffix] at hsame
    exact ⟨suffix, hsame, rfl⟩
  next => simp at h

/-- A resolved name is cut at its last dot, and its venue is one of the suffix. -/
theorem resolve_suffix {entry : NameEntry} {name : ResolvedName} (h : entry.resolve = some name) :
    ∃ stem suffix, Python.rsplitDot entry.canonical = some (stem, suffix) ∧
      ibExchangeToSuffix.lookup name.primaryExchange = some suffix ∧
      name.canonical = stem ++ "." ++ suffix := by
  obtain ⟨exchange, hexchange, rfl⟩ := Option.map_eq_some_iff.mp h
  unfold primaryExchangeFromCanonical at hexchange
  split at hexchange
  next => simp at hexchange
  next stem suffix hsplit =>
    obtain ⟨e, he, rfl⟩ := Option.map_eq_some_iff.mp hexchange
    have hall : ∀ e ∈ ibExchangeToSuffix, ibExchangeToSuffix.lookup e.1 = some e.2 := by
      decide +kernel
    have hsuffix : e.2 = suffix := by simpa using List.find?_some he
    refine ⟨stem, suffix, hsplit, ?_, (Python.rsplitDot_eq_some.mp hsplit).1⟩
    rw [← hsuffix]
    exact hall e (List.mem_of_find?_eq_some he)

theorem fetched_name_agrees {contract : Contract} {found : Option ContractDetails}
    {entry : NameEntry} (h : fetchContractDetails contract found = some entry) :
    CachedNameAgrees (some entry) contract := by
  obtain ⟨details, -, h⟩ := Option.bind_eq_some_iff.mp h
  obtain ⟨exchange, -, h⟩ := Option.bind_eq_some_iff.mp h
  unfold canonicalSymbol at h
  split at h
  next => simp at h
  next canonical hcanonical =>
    split at hcanonical
    next suffix hsuffix =>
      obtain rfl := Except.ok.inj hcanonical
      obtain rfl := Option.some.inj h
      rintro entry' hentry
      obtain rfl := Option.some.inj hentry
      exact ⟨suffix, Python.rsplitDot_eq_some.mpr ⟨rfl, suffix_no_dot hsuffix⟩⟩
    next => simp at hcanonical

/-- A name that agrees with the contract resolves to its normal form, and only such a one. -/
theorem resolve_normalised_iff {entry : NameEntry} {name : ResolvedName} {contract : Contract}
    (h : entry.resolve = some name) :
    (∃ suffix, ibExchangeToSuffix.lookup name.primaryExchange = some suffix ∧
      name.canonical = contract.symbol ++ "." ++ suffix) ↔
        CachedNameAgrees (some entry) contract := by
  obtain ⟨stem, suffix, hsplit, hlookup, hcanonical⟩ := resolve_suffix h
  constructor
  · rintro ⟨suffix', hlookup', hcanonical'⟩ entry' hentry
    obtain rfl := Option.some.inj hentry
    obtain rfl := Option.some.inj (hlookup.symm.trans hlookup')
    have hstem : stem = contract.symbol := by
      have heq := hcanonical.symm.trans hcanonical'
      exact append_left_injective (append_left_injective heq)
    exact ⟨suffix, by rw [hsplit, hstem]⟩
  · intro hagrees
    obtain ⟨suffix', hsplit'⟩ := hagrees entry rfl
    obtain ⟨hstem, -⟩ := Prod.mk.inj (Option.some.inj (hsplit.symm.trans hsplit'))
    exact ⟨suffix, hlookup, by rw [hcanonical, hstem]⟩

theorem resolveName_normalised_iff {cached : Option NameEntry}
    {details : Except Python.Error (Option ContractDetails)} {contract : Contract}
    {name : ResolvedName} (h : resolveName cached details contract = .ok (some name)) :
    (∃ suffix, ibExchangeToSuffix.lookup name.primaryExchange = some suffix ∧
      name.canonical = contract.symbol ++ "." ++ suffix) ↔ CachedNameAgrees cached contract := by
  unfold resolveName at h
  split at h
  next entry => exact resolve_normalised_iff (Except.ok.inj h)
  next =>
    obtain ⟨found, -, h⟩ := Python.bind_eq_ok.mp h
    obtain ⟨entry, hentry, h⟩ := Option.bind_eq_some_iff.mp (Python.pure_eq_ok.mp h)
    have hfetched := fetched_name_agrees hentry
    refine iff_of_true ((resolve_normalised_iff h).mpr hfetched) ?_
    intro other hother
    simp at hother

/-- A stock row and what decides whether its symbol is in normal form: the name cached
under its contract, the exchange hint of Longbridge, or nothing. -/
inductive SymbolSource : Position → Prop → Prop where
  | ibkr {fx : FxView} {ibPos : IbPosition} {cached : Option NameEntry}
      {details : Except Python.Error (Option ContractDetails)} {name : ResolvedName} {quote : Quote}
      {previousClose : Python.Float} {item : Option PortfolioItem} :
      resolveName cached details ibPos.contract = .ok (some name) →
        SymbolSource (buildPosition fx ibPos name quote previousClose item)
          (CachedNameAgrees cached ibPos.contract)
  | tick {old : Position} {agrees : Prop} (fx : FxView) (price : Python.Float) (delayed : Bool) :
      SymbolSource old agrees → SymbolSource (tickRow fx old price delayed) agrees
  | portfolio {fx : FxView} {old new : Position} {agrees : Prop} {item : PortfolioItem} :
      SymbolSource old agrees → portfolioRow fx old item = some new → SymbolSource new agrees
  | reseed {old : Position} {agrees : Prop} (newPrev : Python.Float) :
      SymbolSource old agrees → SymbolSource (reseedRow old newPrev) agrees
  | stale {old : Position} {agrees : Prop} :
      SymbolSource old agrees → SymbolSource (staleRow old) agrees
  | longbridge {fx : FxView} {accountId : String} {row : LongbridgeStockRow}
      {quote : Option LongbridgeQuote} {static : Option LongbridgeStatic} {p : Position} :
      longbridgePositionFromStockRow fx accountId row quote static = .ok (some p) →
        SymbolSource p (LongbridgeHintAgrees (Python.strip (row.symbol.strOr ""))
          ((attr static (·.exchange)).textOr ""))
  | tiger {fx : FxView} {markets : List String} {accountId : String} {row : TigerRow}
      {quotes : OrderedDict String TigerQuote} {p : Position} :
      tigerPositionFromRow fx markets accountId row quotes = .ok (some p) → SymbolSource p True
  | futu {fx : FxView} {accountId : String} {row : FutuRow} {p : Position} :
      futuPositionFromRow fx accountId row = some p → SymbolSource p True

/-- New figures leave the symbol of a row in the form it has. -/
theorem normalised_of_same {p q : Position} (hsymbol : q.canonicalSymbol = p.canonicalSymbol)
    (hnative : q.nativeSymbol = p.nativeSymbol) (hexchange : q.exchange = p.exchange) :
    q.Normalised ↔ p.Normalised := by
  unfold Position.Normalised
  rw [hsymbol, hnative, hexchange]

theorem portfolioRow_nativeSymbol {fx : FxView} {old new : Position} {item : PortfolioItem}
    (h : portfolioRow fx old item = some new) : new.nativeSymbol = old.nativeSymbol := by
  unfold portfolioRow at h
  dsimp only at h
  split at h
  next => simp at h
  next =>
    obtain rfl := Option.some.inj h
    rfl

/-- The symbol is in normal form just when what it came from agrees. -/
theorem symbolSource_normalised_iff {p : Position} {agrees : Prop} (h : SymbolSource p agrees) :
    p.Normalised ↔ agrees := by
  induction h with
  | ibkr hname => exact resolveName_normalised_iff hname
  | tick fx price delayed _ ih => exact (normalised_of_same rfl rfl rfl).trans ih
  | portfolio _ hrow ih =>
    obtain ⟨hkey, -, hexchange, -, -⟩ := portfolioRow_same hrow
    have hsymbol := congrArg (·.2.2) hkey
    exact (normalised_of_same hsymbol (portfolioRow_nativeSymbol hrow) hexchange).trans ih
  | reseed newPrev _ ih => exact (normalised_of_same rfl rfl rfl).trans ih
  | stale _ ih => exact (normalised_of_same rfl rfl rfl).trans ih
  | longbridge hrow =>
    exact longbridgeNormaliseSymbol_iff (longbridgePositionFromStockRow_stockOf hrow).symbols
  | tiger hrow =>
    obtain ⟨contract, -, hstock⟩ := tigerPositionFromRow_stockOf hrow
    exact iff_of_true (tigerNormaliseContractSymbol_suffix hstock.symbols) trivial
  | futu hrow =>
    have hstock := futuPositionFromRow_stockOf hrow
    exact iff_of_true (futuNormaliseCode_suffix hstock.symbols) trivial

theorem cashRow_not_stk {broker accountId currency : String} {amount : Python.Float} {fx : FxView} :
    (cashRow broker accountId currency amount fx).assetClass ≠ .stk := by
  intro h
  exact AssetClass.noConfusion h

/-- Every stock row an adapter emits has a source. -/
theorem emitted_symbolSource {p : Position} (h : Emitted p) (hstk : p.assetClass = .stk) :
    ∃ agrees, SymbolSource p agrees := by
  induction h with
  | ibkr hrows hp =>
    rcases mem_getPositions hrows hp with
      ⟨_, ibPos, name, quote, -, -, -, hname, rfl⟩ | ⟨ibPos, rfl⟩ | ⟨cash, rfl⟩
    · exact ⟨_, .ibkr hname⟩
    · exact absurd hstk cashRow_not_stk
    · exact absurd hstk cashRow_not_stk
  | tick fx ticker _ _ _ ih =>
    obtain ⟨agrees, hold⟩ := ih hstk
    exact ⟨agrees, .tick fx _ _ hold⟩
  | portfolio _ _ hrow ih =>
    obtain ⟨-, -, -, hclass, -⟩ := portfolioRow_same hrow
    obtain ⟨agrees, hold⟩ := ih (hclass.symm.trans hstk)
    exact ⟨agrees, .portfolio hold hrow⟩
  | reseed _ _ _ ih =>
    obtain ⟨agrees, hold⟩ := ih hstk
    exact ⟨agrees, .reseed _ hold⟩
  | stale _ ih =>
    obtain ⟨agrees, hold⟩ := ih hstk
    exact ⟨agrees, .stale hold⟩
  | longbridgeStock hrow => exact ⟨_, .longbridge hrow⟩
  | longbridgeCash hp =>
    obtain ⟨e, -, rfl⟩ := List.mem_map.mp hp
    exact absurd hstk cashRow_not_stk
  | tigerStock hrow => exact ⟨True, .tiger hrow⟩
  | tigerCash hp =>
    obtain ⟨e, -, rfl⟩ := List.mem_map.mp hp
    exact absurd hstk cashRow_not_stk
  | futuStock hrow => exact ⟨True, .futu hrow⟩
  | futuCash hrow =>
    obtain rfl := futuCashPositionFromAccountRow_eq hrow
    exact absurd hstk cashRow_not_stk

/-- Every stock row has a source, and is in normal form just when the source agrees:
always for Tiger and Futu, for IBKR when the name cached under the contract is one of the
contract's symbol, for Longbridge when the hint is missing or fits the symbol. -/
theorem stock_symbols_normalised_iff {p : Position} (h : Emitted p) (hstk : p.assetClass = .stk) :
    (∃ agrees, SymbolSource p agrees) ∧
      ∀ agrees, SymbolSource p agrees → (p.Normalised ↔ agrees) :=
  ⟨emitted_symbolSource h hstk, fun _ hsource => symbolSource_normalised_iff hsource⟩

/-- A Longbridge holding of a hundred shares. -/
def sharesRow (symbol : String) : LongbridgeStockRow :=
  ⟨.text symbol, .number 100, .text "USD", .text "", .number 1⟩

/-- Static information that names a venue. -/
def venueStatic (exchange : String) : LongbridgeStatic :=
  ⟨.text exchange, .text "USD", .text ""⟩

/-- Longbridge says SEHK of a Hong Kong share. -/
theorem agreeing_hint_is_normalised :
    ∃ p, longbridgePositionFromStockRow sampleView "U1" (sharesRow "0700.HK") none
        (some (venueStatic "SEHK")) = .ok (some p) ∧ p.canonicalSymbol = "700.HK" ∧ p.Normalised := by
  have hrow : ((longbridgePositionFromStockRow sampleView "U1" (sharesRow "0700.HK") none
      (some (venueStatic "SEHK"))).toOption.bind id).map (fun p => (p.assetClass, p.canonicalSymbol)) =
        some (.stk, "700.HK") := by decide +kernel
  cases hp : longbridgePositionFromStockRow sampleView "U1" (sharesRow "0700.HK") none
      (some (venueStatic "SEHK")) with
  | error e => simp [hp, Except.toOption] at hrow
  | ok found =>
    cases found with
    | none => simp [hp, Except.toOption] at hrow
    | some p =>
      have hfields : (p.assetClass, p.canonicalSymbol) = (.stk, "700.HK") := by
        simpa [hp, Except.toOption] using hrow
      obtain ⟨hstk, hsymbol⟩ := Prod.mk.inj hfields
      refine ⟨p, rfl, hsymbol, ?_⟩
      refine ((stock_symbols_normalised_iff (.longbridgeStock hp) hstk).2 _
        (.longbridge hp)).mpr (Or.inr ?_)
      exact ⟨"0700", "HK", by decide +kernel, by decide +kernel⟩

/-- Longbridge says NASD of an American share, which is a key of no table. -/
theorem unchecked_hint_is_emitted :
    ¬ ∀ p, Emitted p → p.assetClass = .stk → p.Normalised := by
  intro hall
  have hrow : ((longbridgePositionFromStockRow sampleView "U1" (sharesRow "AAPL.US") none
      (some (venueStatic "NASD"))).toOption.bind id).map (fun p => (p.assetClass, p.exchange)) =
        some (.stk, "NASD") := by decide +kernel
  have hvenue : ibExchangeToSuffix.lookup "NASD" = none := by decide +kernel
  cases hp : longbridgePositionFromStockRow sampleView "U1" (sharesRow "AAPL.US") none
      (some (venueStatic "NASD")) with
  | error e => simp [hp, Except.toOption] at hrow
  | ok found =>
    cases found with
    | none => simp [hp, Except.toOption] at hrow
    | some p =>
      have hfields : (p.assetClass, p.exchange) = (.stk, "NASD") := by
        simpa [hp, Except.toOption] using hrow
      obtain ⟨hstk, hexchange⟩ := Prod.mk.inj hfields
      obtain ⟨suffix, hlookup, -⟩ := hall p (.longbridgeStock hp) hstk
      rw [hexchange, hvenue] at hlookup
      exact absurd hlookup (by simp)

end PortfolioHub
