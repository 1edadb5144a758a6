import PortfolioHub.Symbols

namespace PortfolioHub

/-- What the adapter reads of an IB contract. -/
structure Contract where
  conId : ℤ
  symbol : String
  secType : String
  primaryExchange : String
  exchange : String
  currency : String
deriving DecidableEq, Repr

structure ContractDetails where
  primaryExchange : String
  exchange : String
  longName : String
  priceMagnifier : ℤ
deriving DecidableEq, Repr

/-- `_IB_HISTORICAL_PERMISSION_GATED_EXCHANGES`, which is the set of the live
quotes and of the streaming too. -/
def permissionGatedExchanges : List String :=
  ["AEB", "IBIS", "KOSDAQ", "KRX", "KSE", "LSE", "SBF", "SFB", "SGX", "TPEX", "TSEJ", "TWSE"]

def isPermissionGated (exchange : String) : Bool :=
  Python.strip exchange ∈ permissionGatedExchanges

/-- Empty fields and the routing destination SMART are passed over; an unknown
venue ends the search. -/
def firstKnown : List String → Option String
  | [] => none
  | candidate :: candidates =>
    let exchange := Python.strip candidate
    if exchange = "" ∨ exchange = "SMART" then firstKnown candidates
    else if KnownExchange exchange then some exchange
    else none

def firstKnownListingExchange (detailsPrimaryExchange detailsExchange contractPrimaryExchange
    contractExchange : String) : Option String :=
  firstKnown [detailsPrimaryExchange, contractPrimaryExchange, detailsExchange, contractExchange]

/-- The first exchange of the table with the suffix of the symbol. -/
def primaryExchangeFromCanonical (canonical : String) : Option String :=
  match Python.rsplitDot canonical with
  | none => none
  | some (_, suffix) => (ibExchangeToSuffix.find? fun e => e.2 = suffix).map (·.1)

/-- `int(priceMagnifier or 1)`. -/
def PriceMagnifier.ofInt (n : ℤ) : PriceMagnifier := if h : n = 0 then .one else ⟨n, h⟩

/-- A row of the name cache. -/
structure NameEntry where
  canonical : String
  nameEn : String
  priceMagnifier : PriceMagnifier
deriving DecidableEq, Repr

structure ResolvedName where
  canonical : String
  nameEn : String
  primaryExchange : String
  priceMagnifier : PriceMagnifier
deriving DecidableEq, Repr

/-- `_fetch_contract_details` behind the lookup of the details. -/
def fetchContractDetails (contract : Contract) (details : Option ContractDetails) :
    Option NameEntry :=
  details.bind fun details =>
    (firstKnownListingExchange details.primaryExchange details.exchange contract.primaryExchange
        contract.exchange).bind fun primaryExchange =>
      match canonicalSymbol contract.symbol primaryExchange with
      | .error _ => none
      | .ok canonical =>
        some ⟨canonical, Python.strip details.longName, .ofInt details.priceMagnifier⟩

def NameEntry.resolve (entry : NameEntry) : Option ResolvedName :=
  (primaryExchangeFromCanonical entry.canonical).map fun primaryExchange =>
    ⟨entry.canonical, entry.nameEn, primaryExchange, entry.priceMagnifier⟩

/-- `_resolve_name`: the cached name, else the one fetched; a lookup that raises
escapes. -/
def resolveName (cached : Option NameEntry)
    (details : Except Python.Error (Option ContractDetails)) (contract : Contract) :
    Except Python.Error (Option ResolvedName) :=
  match cached with
  | some entry => .ok entry.resolve
  | none => do
    let found ← details
    return (fetchContractDetails contract found).bind NameEntry.resolve

/-- `_listing_exchange_for_contract`; here a lookup that raises is swallowed. -/
def listingExchangeForContract (details : Except Python.Error (Option ContractDetails))
    (contract : Contract) : Option String :=
  match firstKnownListingExchange "" "" contract.primaryExchange contract.exchange with
  | some exchange => some exchange
  | none =>
    match details with
    | .ok (some found) =>
      firstKnownListingExchange found.primaryExchange found.exchange contract.primaryExchange
        contract.exchange
    | _ => none

theorem primaryExchangeFromCanonical_known {canonical exchange : String}
    (h : primaryExchangeFromCanonical canonical = some exchange) : KnownExchange exchange := by
  unfold primaryExchangeFromCanonical at h
  split at h
  next => simp at h
  next _ suffix _ =>
    obtain ⟨e, he, rfl⟩ := Option.map_eq_some_iff.mp h
    exact OrderedDict.lookup_isSome_iff.mpr (List.mem_map_of_mem (List.mem_of_find?_eq_some he))

/-- Whatever the cache and the vendor say, a resolved name has a known exchange. -/
theorem resolveName_known {cached : Option NameEntry}
    {details : Except Python.Error (Option ContractDetails)} {contract : Contract}
    {resolved : ResolvedName} (h : resolveName cached details contract = .ok (some resolved)) :
    KnownExchange resolved.primaryExchange := by
  have hentry : ∀ entry : NameEntry, entry.resolve = some resolved →
      KnownExchange resolved.primaryExchange := by
    intro entry he
    obtain ⟨exchange, hex, rfl⟩ := Option.map_eq_some_iff.mp he
    exact primaryExchangeFromCanonical_known hex
  unfold resolveName at h
  split at h
  next entry => exact hentry entry (Except.ok.inj h)
  next =>
    obtain ⟨found, -, h⟩ := Python.bind_eq_ok.mp h
    obtain ⟨entry, -, he⟩ := Option.bind_eq_some_iff.mp (Python.pure_eq_ok.mp h)
    exact hentry entry he

end PortfolioHub
