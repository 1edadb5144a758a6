import PortfolioHub.LinkText
import PortfolioHub.PageStream

namespace PortfolioHub

/-- `{% if value and value != 'All' %}{{ parts.append(name ~ value) or '' }}{% endif %}`. -/
def filterPart (name value : String) : List String :=
  if value ≠ "" ∧ value ≠ "All" then [name ++ value] else []

/-- `chip_url(account, asset, broker)`. -/
def chipUrl (f : Filters) : String :=
  let parts := filterPart "broker=" f.broker ++ filterPart "account=" f.account ++
    filterPart "asset=" f.asset
  "/" ++ if parts = [] then "" else "?" ++ "&".intercalate parts

/-- The stream that the table of the page connects to. -/
def sseConnect (f : Filters) : String :=
  let sseQs := filterPart "account=" f.account ++ filterPart "asset=" f.asset ++
    filterPart "broker=" f.broker
  "/stream/holdings" ++ if sseQs = [] then "" else "?" ++ "&".intercalate sseQs

/-- `{{ url }}`, inside an attribute. -/
def attributeText (url : String) : String := String.ofList (Web.escapeMarkup url.toList)

/-- The parameters that a route receives when the link that an attribute holds is followed. -/
def IndexQuery.ofLink (text : String) : IndexQuery :=
  let query := Web.urlQuery (Web.attributeValue text.toList)
  let param (name : String) : Option String :=
    (Web.queryParam query name.toList).map String.ofList
  ⟨param "account", param "asset", param "broker"⟩

/-- The asset and broker filters of the chips. -/
def assetFilter (asset : Option AssetClass) : String := (asset.map (·.text)).getD "All"

def brokerFilter (broker : Option BrokerName) : String := (broker.map (·.text)).getD "All"

/-- The active filters of an account and a selection of the chips. -/
def Filters.select (account : String) (asset : Option AssetClass) (broker : Option BrokerName) :
    Filters :=
  ⟨account, assetFilter asset, brokerFilter broker⟩

/-- Both links are read back as the filters that they are built from, and select the rows of the
page on which these are active. -/
structure Filters.RoundTrips (f : Filters) : Prop where
  chip : (IndexQuery.ofLink (attributeText (chipUrl f))).streamFilters = f
  stream : (IndexQuery.ofLink (attributeText (sseConnect f))).streamFilters = f
  chipRows : ∀ (input : IndexInput) (query : IndexQuery), input.filters query = f →
    input.shown (IndexQuery.ofLink (attributeText (chipUrl f))) = input.shown query
  streamRows : ∀ (input : IndexInput) (query : IndexQuery), input.filters query = f →
    applyFilters input.positions (IndexQuery.ofLink (attributeText (sseConnect f))).streamFilters =
      input.shown query

/-- The parameter that a filter part writes. -/
def filterParam (name value : String) : List (List Char × List Char) :=
  if value ≠ "" ∧ value ≠ "All" then [(name.toList, value.toList)] else []

theorem map_filterPart {label name : String} (h : label = name ++ "=") (value : String) :
    (filterPart label value).map String.toList = (filterParam name value).map Web.fieldText := by
  unfold filterPart filterParam
  split <;> simp [Web.fieldText, h]

def chipParams (f : Filters) : List (List Char × List Char) :=
  filterParam "broker" f.broker ++ (filterParam "account" f.account ++ filterParam "asset" f.asset)

def sseParams (f : Filters) : List (List Char × List Char) :=
  filterParam "account" f.account ++ (filterParam "asset" f.asset ++ filterParam "broker" f.broker)

theorem toList_url (path : String) {parts : List String} {params : List (List Char × List Char)}
    (h : parts.map String.toList = params.map Web.fieldText) :
    (path ++ if parts = [] then "" else "?" ++ "&".intercalate parts).toList =
      Web.linkUrl path.toList params := by
  have hempty : parts = [] ↔ params = [] := by
    rw [← List.map_eq_nil_iff (f := String.toList), h, List.map_eq_nil_iff]
  rw [String.toList_append, Web.linkUrl]
  by_cases hnone : parts = []
  · simp [hnone, hempty.mp hnone]
  · rw [if_neg hnone, if_neg (hempty.not.mp hnone), String.toList_append,
      String.toList_intercalate, h]
    rfl

theorem toList_chipUrl (f : Filters) :
    (chipUrl f).toList = Web.linkUrl "/".toList (chipParams f) := by
  refine toList_url "/" ?_
  have hbroker : "broker=" = "broker" ++ "=" := rfl
  have haccount : "account=" = "account" ++ "=" := rfl
  have hasset : "asset=" = "asset" ++ "=" := rfl
  simp only [chipParams, List.map_append, List.append_assoc, map_filterPart hbroker,
    map_filterPart haccount, map_filterPart hasset]

theorem toList_sseConnect (f : Filters) :
    (sseConnect f).toList = Web.linkUrl "/stream/holdings".toList (sseParams f) := by
  refine toList_url "/stream/holdings" ?_
  have hbroker : "broker=" = "broker" ++ "=" := rfl
  have haccount : "account=" = "account" ++ "=" := rfl
  have hasset : "asset=" = "asset" ++ "=" := rfl
  simp only [sseParams, List.map_append, List.append_assoc, map_filterPart hbroker,
    map_filterPart haccount, map_filterPart hasset]

theorem ofLink_attributeText {url : String} {path : List Char}
    {params : List (List Char × List Char)} (h : url.toList = Web.linkUrl path params) :
    IndexQuery.ofLink (attributeText url) =
      ⟨(Web.queryParam (Web.linkQuery path params) "account".toList).map String.ofList,
        (Web.queryParam (Web.linkQuery path params) "asset".toList).map String.ofList,
        (Web.queryParam (Web.linkQuery path params) "broker".toList).map String.ofList⟩ := by
  simp only [IndexQuery.ofLink, attributeText, String.toList_ofList, Web.linkQuery, h]

theorem lookup_filterParam (name value : String) :
    orAll (((filterParam name value).reverse.lookup name.toList).map String.ofList) =
      Python.orElse value "All" := by
  unfold filterParam
  split
  next hactive => simp [orAll]
  next hnone =>
    rw [not_and_or, not_ne_iff, not_ne_iff] at hnone
    rcases hnone with rfl | rfl <;> simp [orAll, Python.orElse]

theorem lookup_filterParam_of_ne {name other : String} (h : name ≠ other) (value : String) :
    (filterParam other value).reverse.lookup name.toList = none := by
  have hne : (name.toList == other.toList) = false := by
    simpa using fun heq => h (String.toList_inj.mp heq)
  unfold filterParam
  split
  · simp [List.lookup_cons, hne]
  · rfl

/-- The query parameters of a link whose parameters are those of the filters, in some order. -/
def IndexQuery.ofParams (params : List (List Char × List Char)) : IndexQuery :=
  let param (name : String) : Option String :=
    (params.reverse.lookup name.toList).map String.ofList
  ⟨param "account", param "asset", param "broker"⟩

theorem ofLink_of_parseQsl {url : String} {path : List Char}
    {params : List (List Char × List Char)} (h : url.toList = Web.linkUrl path params)
    (hparse : Web.parseQsl (Web.linkQuery path params) = params) :
    IndexQuery.ofLink (attributeText url) = IndexQuery.ofParams params := by
  rw [ofLink_attributeText h]
  simp only [Web.queryParam, hparse, IndexQuery.ofParams]

/-- What the filters come to when each is written and read back. -/
def Filters.reread (f : Filters) : Filters :=
  ⟨Python.orElse f.account "All", Python.orElse f.asset "All", Python.orElse f.broker "All"⟩

theorem streamFilters_chipParams (f : Filters) :
    (IndexQuery.ofParams (chipParams f)).streamFilters = f.reread := by
  simp (disch := decide) only [IndexQuery.ofParams, IndexQuery.streamFilters, chipParams,
    List.reverse_append, List.lookup_append, lookup_filterParam_of_ne, Option.or_none,
    Option.none_or, lookup_filterParam, Filters.reread]

theorem streamFilters_sseParams (f : Filters) :
    (IndexQuery.ofParams (sseParams f)).streamFilters = f.reread := by
  simp (disch := decide) only [IndexQuery.ofParams, IndexQuery.streamFilters, sseParams,
    List.reverse_append, List.lookup_append, lookup_filterParam_of_ne, Option.or_none,
    Option.none_or, lookup_filterParam, Filters.reread]

theorem filterParam_of_not_active {value : String} (h : value = "" ∨ value = "All")
    (name : String) : filterParam name value = [] := by
  refine if_neg ?_
  rintro ⟨hempty, hall⟩
  exact h.elim hempty hall

theorem filterParam_of_active {value : String} (hempty : value ≠ "") (hall : value ≠ "All")
    (name : String) : filterParam name value = [(name.toList, value.toList)] :=
  if_pos ⟨hempty, hall⟩

theorem safe_filterParam {name value : String} (hname : name.toList.all Char.isAlpha = true)
    (hvalue : value.toList.all Char.isAlpha = true) :
    ∀ p ∈ filterParam name value, Web.SafeParam p ∧ p.1 = name.toList := by
  intro p hp
  unfold filterParam at hp
  split at hp
  · rw [List.mem_singleton] at hp
    subst hp
    have hequals : '=' ∉ name.toList := by
      intro hmem
      exact absurd (List.all_eq_true.mp hname _ hmem) (by decide)
    exact ⟨⟨Web.safe_of_isAlpha hname, hequals, Web.safe_of_isAlpha hvalue⟩, rfl⟩
  · simp at hp

theorem assetFilter_isAlpha (asset : Option AssetClass) :
    assetFilter asset ≠ "" ∧ (assetFilter asset).toList.all Char.isAlpha = true := by
  cases asset with
  | none => decide
  | some asset => cases asset <;> decide

theorem brokerFilter_isAlpha (broker : Option BrokerName) :
    brokerFilter broker ≠ "" ∧ (brokerFilter broker).toList.all Char.isAlpha = true := by
  cases broker with
  | none => decide
  | some broker => cases broker <;> decide

theorem assetParam_eq_nil_iff (asset : Option AssetClass) :
    filterParam "asset" (assetFilter asset) = [] ↔ asset = none := by
  cases asset with
  | none => decide
  | some asset => cases asset <;> decide

theorem linkPath_index : Web.LinkPath "/".toList where
  solid := Web.Solid.cons (by decide) Web.solid_nil
  ne_nil := by decide
  mark := by decide

theorem linkPath_stream : Web.LinkPath "/stream/holdings".toList where
  solid := by simp [Web.Solid, Web.isEdge]
  ne_nil := by decide
  mark := by decide

section
variable (account : String) (asset : Option AssetClass) (broker : Option BrokerName)

theorem reread_select (h : account ≠ "") :
    (Filters.select account asset broker).reread = Filters.select account asset broker := by
  have haccount : Python.orElse account "All" = account := if_neg h
  have hasset : Python.orElse (assetFilter asset) "All" = assetFilter asset :=
    if_neg (assetFilter_isAlpha asset).1
  have hbroker : Python.orElse (brokerFilter broker) "All" = brokerFilter broker :=
    if_neg (brokerFilter_isAlpha broker).1
  simp only [Filters.reread, Filters.select, haccount, hasset, hbroker]

theorem safe_assetParam : ∀ p ∈ filterParam "asset" (assetFilter asset),
    Web.SafeParam p ∧ p.1 = "asset".toList :=
  safe_filterParam (by decide) (assetFilter_isAlpha asset).2

theorem safe_brokerParam : ∀ p ∈ filterParam "broker" (brokerFilter broker),
    Web.SafeParam p ∧ p.1 = "broker".toList :=
  safe_filterParam (by decide) (brokerFilter_isAlpha broker).2

theorem safe_account : Web.Safe "account".toList := Web.safe_of_isAlpha (by decide)

/-- The chip's parameters are received as they are. -/
theorem parseQsl_chip (h : account = "" ∨ account = "All" ∨
      Web.Readable (asset = none) account.toList) :
    Web.parseQsl (Web.linkQuery "/".toList (chipParams (Filters.select account asset broker))) =
      chipParams (Filters.select account asset broker) := by
  by_cases hactive : account ≠ "" ∧ account ≠ "All"
  · have hread := (h.resolve_left hactive.1).resolve_left hactive.2
    rw [chipParams, Filters.select, filterParam_of_active hactive.1 hactive.2,
      List.singleton_append]
    refine Web.parseQsl_linkQuery linkPath_index (fun p hp => (safe_brokerParam broker p hp).1)
      (fun p hp => (safe_assetParam asset p hp).1) safe_account (by decide) ?_
    exact hread.mono (assetParam_eq_nil_iff asset).mp
  · refine Web.parseQsl_linkQuery_of_safe linkPath_index fun p hp => ?_
    have hnone : account = "" ∨ account = "All" := by tauto
    rw [chipParams, Filters.select, filterParam_of_not_active hnone, List.nil_append,
      List.mem_append] at hp
    rcases hp with hp | hp
    · exact (safe_brokerParam broker p hp).1
    · exact (safe_assetParam asset p hp).1

/-- So are the stream's. -/
theorem parseQsl_sse (h : account = "" ∨ account = "All" ∨
      Web.Readable (asset = none) account.toList) :
    Web.parseQsl (Web.linkQuery "/stream/holdings".toList
        (sseParams (Filters.select account asset broker))) =
      sseParams (Filters.select account asset broker) := by
  have hothers : ∀ p ∈ filterParam "asset" (assetFilter asset) ++
      filterParam "broker" (brokerFilter broker), Web.SafeParam p := by
    intro p hp
    rcases List.mem_append.mp hp with hp | hp
    · exact (safe_assetParam asset p hp).1
    · exact (safe_brokerParam broker p hp).1
  by_cases hactive : account ≠ "" ∧ account ≠ "All"
  · have hread := (h.resolve_left hactive.1).resolve_left hactive.2
    rw [sseParams, Filters.select, filterParam_of_active hactive.1 hactive.2,
      List.singleton_append]
    refine Web.parseQsl_linkQuery_cons linkPath_stream hothers safe_account (by decide)
      (hread.mono fun hnone => ?_)
    exact (assetParam_eq_nil_iff asset).mp (List.append_eq_nil_iff.mp hnone).1
  · have hnone : account = "" ∨ account = "All" := by tauto
    rw [sseParams, Filters.select, filterParam_of_not_active hnone, List.nil_append]
    exact Web.parseQsl_linkQuery_of_safe linkPath_stream hothers

theorem streamFilters_chip (h : account = "" ∨ account = "All" ∨
      Web.Readable (asset = none) account.toList) :
    (IndexQuery.ofLink (attributeText (chipUrl (Filters.select account asset broker)))).streamFilters
      = (Filters.select account asset broker).reread := by
  rw [ofLink_of_parseQsl (toList_chipUrl _) (parseQsl_chip account asset broker h),
    streamFilters_chipParams]

theorem streamFilters_sse (h : account = "" ∨ account = "All" ∨
      Web.Readable (asset = none) account.toList) :
    (IndexQuery.ofLink
        (attributeText (sseConnect (Filters.select account asset broker)))).streamFilters
      = (Filters.select account asset broker).reread := by
  rw [ofLink_of_parseQsl (toList_sseConnect _) (parseQsl_sse account asset broker h),
    streamFilters_sseParams]

end

/-- An account that the chip's link brings back is readable. -/
theorem readable_of_chip {account : String} {asset : Option AssetClass}
    {broker : Option BrokerName} (hempty : account ≠ "") (hall : account ≠ "All")
    (h : (IndexQuery.ofLink
      (attributeText (chipUrl (Filters.select account asset broker)))).streamFilters.account =
        account) : Web.Readable (asset = none) account.toList := by
  rw [ofLink_attributeText (toList_chipUrl _)] at h
  have hparam : Web.queryParam (Web.linkQuery "/".toList
      (chipParams (Filters.select account asset broker))) "account".toList =
        some account.toList := by
    cases hread : Web.queryParam (Web.linkQuery "/".toList
        (chipParams (Filters.select account asset broker))) "account".toList with
    | none =>
      rw [hread] at h
      exact absurd h.symm hall
    | some value =>
      rw [hread] at h
      simp only [IndexQuery.streamFilters, Option.map_some, orAll, Python.orElse] at h
      split at h
      next => exact absurd h.symm hall
      next => rw [← h, String.toList_ofList]
  rw [chipParams, Filters.select, filterParam_of_active hempty hall, List.singleton_append] at hparam
  refine (Web.readable_of_queryParam linkPath_index (fun p hp => (safe_brokerParam broker p hp).1)
    (fun p hp => (safe_assetParam asset p hp).1) ?_ safe_account (by decide) hparam).mono
      (assetParam_eq_nil_iff asset).mpr
  intro p hp
  rcases List.mem_append.mp hp with hp | hp
  · rw [(safe_brokerParam broker p hp).2]
    decide
  · rw [(safe_assetParam asset p hp).2]
    decide

theorem known_eq_all_or_mem (values : List String) (value : Option String) :
    known values value = "All" ∨ known values value ∈ values := by
  unfold known
  split
  · split
    next hmem => exact Or.inr hmem
    next => exact Or.inl rfl
  · exact Or.inl rfl

/-- A value that comes to a filter of the page resolves there. -/
theorem resolves_of_orAll {values : List String} {value : Option String} {active : String}
    (h : orAll value = active) (hactive : active = "All" ∨ active ∈ values) :
    Resolves values value := by
  rintro v rfl
  by_cases hempty : v = ""
  · exact Or.inl hempty
  · have hv : v = active := by simpa [orAll, Python.orElse, hempty] using h
    exact Or.inr (hv ▸ hactive)

/-- A link that is read back as the filters of the page selects them again. -/
theorem filters_of_streamFilters {input : IndexInput} {query link : IndexQuery}
    (h : link.streamFilters = input.filters query) : input.filters link = input.filters query := by
  have haccount : orAll link.account = (input.filters query).account := by rw [← h]; rfl
  have hasset : orAll link.asset = (input.filters query).asset := by rw [← h]; rfl
  have hbroker : orAll link.broker = (input.filters query).broker := by rw [← h]; rfl
  have hactive : (input.filters query).account = "All" ∨
      (input.filters query).account ∈ input.knownAccounts := by
    rw [filters_account]
    split
    · exact Or.inl rfl
    · exact known_eq_all_or_mem _ _
  have haccount' : (input.filters link).account = orAll link.account :=
    account_eq_orAll (resolves_of_orAll haccount hactive)
  have hasset' : (input.filters link).asset = orAll link.asset := by
    refine asset_eq_orAll (resolves_of_orAll hasset ?_)
    rw [filters_asset]
    exact known_eq_all_or_mem _ _
  have hbroker' : (input.filters link).broker = orAll link.broker := by
    refine broker_eq_orAll (resolves_of_orAll hbroker ?_)
    rw [filters_broker]
    exact known_eq_all_or_mem _ _
  have hfields : input.filters link = ⟨(input.filters link).account, (input.filters link).asset,
      (input.filters link).broker⟩ := rfl
  rw [hfields, haccount', hasset', hbroker']
  exact h

/-- The links of the filters come back as these exactly when the account's id stands for itself in
a URL; as the last parameter of the chip it may not end in a blank either. -/
theorem filter_links_round_trip_iff (account : String) (asset : Option AssetClass)
    (broker : Option BrokerName) :
    (Filters.select account asset broker).RoundTrips ↔
      account = "All" ∨ account ≠ "" ∧ Web.Readable (asset = none) account.toList := by
  constructor
  · intro h
    by_cases hall : account = "All"
    · exact Or.inl hall
    by_cases hempty : account = ""
    · -- an empty account is left out of the link
      have hchip := h.chip
      rw [streamFilters_chip account asset broker (Or.inl hempty)] at hchip
      have haccount : Python.orElse account "All" = account := congrArg Filters.account hchip
      rw [hempty] at haccount
      exact absurd haccount (by decide)
    · exact Or.inr ⟨hempty, readable_of_chip hempty hall (congrArg Filters.account h.chip)⟩
  · intro h
    have hempty : account ≠ "" := by
      rcases h with rfl | ⟨hempty, -⟩
      · decide
      · exact hempty
    have hread : account = "" ∨ account = "All" ∨ Web.Readable (asset = none) account.toList :=
      Or.inr (h.imp_right And.right)
    have hchip := streamFilters_chip account asset broker hread
    have hstream := streamFilters_sse account asset broker hread
    rw [reread_select account asset broker hempty] at hchip hstream
    refine ⟨hchip, hstream, ?_, ?_⟩
    · intro input query hfilters
      rw [← hfilters] at hchip ⊢
      rw [IndexInput.shown, filters_of_streamFilters hchip]
      rfl
    · intro input query hfilters
      rw [hstream, ← hfilters]
      rfl

example : (IndexQuery.ofLink (attributeText (sseConnect
    (Filters.select "U 1" (some .stk) (some .futu))))).streamFilters = ⟨"U 1", "STK", "Futu"⟩ := by
  decide

/-- The chip of an account `A&B` asks for an account `A`. -/
theorem ampersand_cuts_the_account :
    ¬ ∀ (input : IndexInput) (account : String), account ∈ input.knownAccounts →
      ∀ (asset : Option AssetClass) (broker : Option BrokerName),
        (Filters.select account asset broker).RoundTrips := by
  intro hall
  have hchip := (hall ⟨[], [⟨"IBKR", "A&B", "USD", 0, 0, 0, 0, 0⟩], [.ibkr], closedHours⟩ "A&B"
    (by decide) none none).chip
  exact absurd hchip (by decide)

end PortfolioHub
