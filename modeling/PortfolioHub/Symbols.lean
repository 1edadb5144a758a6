import PortfolioHub.OrderedDict
import PortfolioHub.Position

namespace PortfolioHub

/-- `IB_EXCHANGE_TO_SUFFIX`, in the order of the source. -/
def ibExchangeToSuffix : List (String × String) := [
  ("NASDAQ", "US"), ("NYSE", "US"), ("ARCA", "US"), ("AMEX", "US"), ("BATS", "US"),
  ("IEX", "US"), ("PINK", "US"), ("ISLAND", "US"),
  ("SEHK", "HK"), ("HKEX", "HK"), ("SEHKNTL", "HK"), ("SEHKSZSE", "HK"),
  ("TWSE", "TW"), ("TPEX", "TW"),
  ("SSE", "SH"), ("SZSE", "SZ"),
  ("TSEJ", "JP"), ("TSE", "JP"), ("OSE", "JP"),
  ("KSE", "KR"), ("KRX", "KR"), ("KOSDAQ", "KR"),
  ("ASX", "AU"),
  ("LSE", "UK"), ("IOB", "UK"), ("LSEETF", "UK"),
  ("SGX", "SG"),
  ("EBS", "CH"), ("SIX", "CH"),
  ("TSX", "CA"), ("TSXV", "CA"),
  ("IBIS", "DE"), ("FWB", "DE"),
  ("SBF", "FR"), ("AEB", "NL"), ("BM", "ES"), ("BVME", "IT"), ("SFB", "SE")]

def suffixToFlag : List (String × String) := [
  ("US", "🇺🇸"), ("HK", "🇭🇰"), ("TW", "🇹🇼"), ("SH", "🇨🇳"), ("SZ", "🇨🇳"), ("JP", "🇯🇵"),
  ("KR", "🇰🇷"), ("AU", "🇦🇺"), ("UK", "🇬🇧"), ("SG", "🇸🇬"), ("CH", "🇨🇭"), ("CA", "🇨🇦"),
  ("DE", "🇩🇪"), ("FR", "🇫🇷"), ("NL", "🇳🇱"), ("ES", "🇪🇸"), ("IT", "🇮🇹"), ("SE", "🇸🇪")]

def currencyNames : List (String × String) := [
  ("USD", "US Dollar"), ("HKD", "Hong Kong Dollar"), ("JPY", "Japanese Yen"),
  ("KRW", "South Korean Won"), ("TWD", "Taiwan Dollar"), ("CNH", "Offshore Renminbi (CNH)"),
  ("AUD", "Australian Dollar"), ("GBP", "British Pound"), ("EUR", "Euro"),
  ("SGD", "Singapore Dollar"), ("CHF", "Swiss Franc"), ("CAD", "Canadian Dollar"),
  ("SEK", "Swedish Krona")]

def currencyToFlag : List (String × String) := [
  ("USD", "🇺🇸"), ("HKD", "🇭🇰"), ("JPY", "🇯🇵"), ("KRW", "🇰🇷"), ("TWD", "🇹🇼"),
  ("CNH", "🇨🇳"), ("AUD", "🇦🇺"), ("GBP", "🇬🇧"), ("EUR", "🇪🇺"), ("SGD", "🇸🇬"),
  ("CHF", "🇨🇭"), ("CAD", "🇨🇦"), ("SEK", "🇸🇪")]

/-- `CURRENCY_NAMES.get(currency, currency)`. -/
def currencyName (currency : String) : String := (currencyNames.lookup currency).getD currency

def unknown (what value : String) : Python.Error :=
  .valueError ("unknown " ++ what ++ ": " ++ Python.repr value)

def flagForCurrency (currency : String) : Except Python.Error String :=
  match currencyToFlag.lookup currency with
  | some flag => .ok flag
  | none => .error (unknown "currency" currency)

def canonicalSymbol (nativeSymbol primaryExchange : String) : Except Python.Error String :=
  match ibExchangeToSuffix.lookup primaryExchange with
  | some suffix => .ok (nativeSymbol ++ "." ++ suffix)
  | none => .error (unknown "exchange" primaryExchange)

def suffixForExchange (primaryExchange : String) : Except Python.Error String :=
  if primaryExchange = "" then .ok ""
  else match ibExchangeToSuffix.lookup primaryExchange with
    | some suffix => .ok suffix
    | none => .error (unknown "exchange" primaryExchange)

def flagForExchange (primaryExchange : String) : Except Python.Error String :=
  match ibExchangeToSuffix.lookup primaryExchange with
  | none => .error (unknown "exchange" primaryExchange)
  | some suffix =>
    match suffixToFlag.lookup suffix with
    | some flag => .ok flag
    | none => .error (.keyError suffix)

/-- The exchange is a key of `IB_EXCHANGE_TO_SUFFIX`. -/
def KnownExchange (exchange : String) : Prop := (ibExchangeToSuffix.lookup exchange).isSome

/-- The currency is a key of `_CURRENCY_TO_FLAG`. -/
def KnownCurrency (currency : String) : Prop := (currencyToFlag.lookup currency).isSome

instance (exchange : String) : Decidable (KnownExchange exchange) :=
  inferInstanceAs (Decidable (_ = true))

instance (currency : String) : Decidable (KnownCurrency currency) :=
  inferInstanceAs (Decidable (_ = true))

/-- Every suffix of the exchange table has a flag, so the second lookup of
`flag_for_exchange` never fails. -/
theorem suffix_has_flag {exchange suffix : String}
    (h : ibExchangeToSuffix.lookup exchange = some suffix) :
    ∃ flag, suffixToFlag.lookup suffix = some flag := by
  have hall : ∀ e ∈ ibExchangeToSuffix, (suffixToFlag.lookup e.2).isSome := by decide +kernel
  exact Option.isSome_iff_exists.mp (hall _ (OrderedDict.mem_of_lookup h))

theorem flagForCurrency_defined_iff (currency : String) :
    (∃ flag, flagForCurrency currency = .ok flag) ↔ KnownCurrency currency := by
  unfold flagForCurrency KnownCurrency
  cases currencyToFlag.lookup currency <;> simp

theorem flagForExchange_defined_iff (exchange : String) :
    (∃ flag, flagForExchange exchange = .ok flag) ↔ KnownExchange exchange := by
  unfold flagForExchange KnownExchange
  cases h : ibExchangeToSuffix.lookup exchange with
  | none => simp
  | some suffix =>
    obtain ⟨flag, hf⟩ := suffix_has_flag h
    simp [hf]

theorem suffixForExchange_defined_iff (exchange : String) :
    (∃ suffix, suffixForExchange exchange = .ok suffix) ↔
      (exchange ≠ "" → KnownExchange exchange) := by
  unfold suffixForExchange KnownExchange
  by_cases he : exchange = ""
  · simp [he]
  · cases ibExchangeToSuffix.lookup exchange <;> simp [he]

end PortfolioHub
