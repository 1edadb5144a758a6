import PortfolioHub.FxCache

namespace PortfolioHub

/-- What a usable tick of the currency quotes, in USD for one unit, and when it came. -/
def FxQuote.ibPrice? (currency : String) : FxQuote → Option (Instant × Python.Float)
  | .ibTick now c invert ticker =>
    if c = currency then
      (extractForexPrice ticker).map fun quoted =>
        (now, if invert then Python.Float.quot 1 quoted else quoted)
    else none
  | .apiRate _ _ _ => none

/-- The cached price of the currency, if it is one of IB. -/
def FxCache.ibPrice? (cache : FxCache) (currency : String) : Option (Instant × Python.Float) :=
  (cache.get? (pairFor currency)).bind fun row =>
    if row.source = .ib then some (row.quotedAt, row.rate) else none

/-- The prices IB has quoted for the currency, the cached one first. -/
def ibPrices (cache : FxCache) (quotes : List FxQuote) (currency : String) :
    List (Instant × Python.Float) :=
  (cache.ibPrice? currency).toList ++ quotes.filterMap (FxQuote.ibPrice? currency)

/-- The price came at the moment, was another one than before, and has been repeated since. -/
def LastMove (prices : List (Instant × Python.Float)) (moment : Instant) (price : Python.Float) :
    Prop :=
  ∃ before repeats, prices = before ++ (moment, price) :: repeats ∧
    (∀ p ∈ repeats, price.equal p.2 = true) ∧ ∀ p ∈ before.getLast?, p.2.equal price = false

/-- A first price, or another one than before, came at the moment or later. -/
def MovedSince (prices : List (Instant × Python.Float)) (since : Instant) : Prop :=
  ∃ before moment price after, prices = before ++ (moment, price) :: after ∧ since ≤ moment ∧
    ∀ p ∈ before.getLast?, p.2.equal price = false

theorem LastMove.getLast_price {prices : List (Instant × Python.Float)} {moment : Instant}
    {price : Python.Float} (h : LastMove prices moment price) :
    ∀ p ∈ prices.getLast?, p.2 = price := by
  obtain ⟨before, repeats, rfl, hrepeats, -⟩ := h
  intro p hp
  rw [List.getLast?_append, List.getLast?_cons] at hp
  obtain rfl : repeats.getLastD (moment, price) = p := by simpa using hp
  rcases List.eq_nil_or_concat repeats with rfl | ⟨rest, q, rfl⟩
  · rfl
  · have hq : price.equal q.2 = true := hrepeats q (by simp)
    simpa using (Python.Float.equal_iff.mp hq).1.symm

theorem LastMove.repeated {prices : List (Instant × Python.Float)} {moment : Instant}
    {price : Python.Float} (h : LastMove prices moment price) {p : Instant × Python.Float}
    (hp : price.equal p.2 = true) : LastMove (prices ++ [p]) moment price := by
  obtain ⟨before, repeats, rfl, hrepeats, hbefore⟩ := h
  refine ⟨before, repeats ++ [p], by simp, ?_, hbefore⟩
  intro q hq
  rcases List.mem_append.mp hq with hq | hq
  · exact hrepeats q hq
  · exact List.mem_singleton.mp hq ▸ hp

theorem LastMove.first (p : Instant × Python.Float) : LastMove [p] p.1 p.2 :=
  ⟨[], [], rfl, by simp, by simp⟩

theorem LastMove.moved {prices : List (Instant × Python.Float)} {moment : Instant}
    {price : Python.Float} (h : LastMove prices moment price) {p : Instant × Python.Float}
    (hp : price.equal p.2 = false) : LastMove (prices ++ [p]) p.1 p.2 :=
  ⟨prices, [], rfl, by simp, fun q hq => by rw [h.getLast_price q hq]; exact hp⟩

/-- In the order of the clock, the last move is the one that counts. -/
theorem LastMove.since_iff {prices : List (Instant × Python.Float)} {moment since : Instant}
    {price : Python.Float} (h : LastMove prices moment price)
    (hclock : (prices.map Prod.fst).Pairwise (· ≤ ·)) :
    since ≤ moment ↔ MovedSince prices since := by
  obtain ⟨before, repeats, rfl, hrepeats, hbefore⟩ := h
  constructor
  · exact fun hsince => ⟨before, moment, price, repeats, rfl, hsince, hbefore⟩
  · rintro ⟨before', moment', price', after, heq, hsince, hbefore'⟩
    rcases List.append_eq_append_iff.mp heq with ⟨mid, rfl, hmid⟩ | ⟨mid, rfl, hmid⟩
    · cases mid with
      | nil =>
        obtain ⟨⟨rfl, rfl⟩, rfl⟩ : (moment = moment' ∧ price = price') ∧ repeats = after := by
          simpa using hmid
        exact hsince
      | cons q mid =>
        -- a repeat is no move: the price before it is the same
        exfalso
        obtain ⟨rfl, rfl⟩ := List.cons.inj hmid
        have hsame : price = price' :=
          (Python.Float.equal_iff.mp (hrepeats (moment', price') (by simp))).1
        have hlast : ∀ p ∈ (before ++ (moment, price) :: mid).getLast?, p.2 = price :=
          LastMove.getLast_price ⟨before, mid, rfl,
            fun p hp => hrepeats p (List.mem_append_left _ hp), hbefore⟩
        obtain ⟨p, hp⟩ : ∃ p, (before ++ (moment, price) :: mid).getLast? = some p := by
          simp [List.getLast?_append, List.getLast?_cons]
        have hmoved := hbefore' p hp
        rw [hlast p hp, hsame] at hmoved
        have hrepeat := hrepeats (moment', price') (by simp)
        rw [hsame] at hrepeat
        rw [hrepeat] at hmoved
        cases hmoved
    · cases mid with
      | nil =>
        obtain ⟨⟨rfl, rfl⟩, rfl⟩ : (moment' = moment ∧ price' = price) ∧ after = repeats := by
          simpa using hmid
        exact hsince
      | cons q mid =>
        obtain ⟨rfl, rfl⟩ := List.cons.inj hmid
        have hearlier : moment' ≤ moment := by
          rw [List.map_append, List.pairwise_append] at hclock
          exact hclock.2.2 moment' (by simp) moment (by simp)
        exact hsince.trans hearlier

namespace FxService

/-- The IB rate of the currency is the price that moved last, as of that move. -/
def HoldsLastMove (fx : FxService) (currency : String) (prices : List (Instant × Python.Float)) :
    Prop :=
  (fx.ibRates.get? currency = none → prices = []) ∧
    ∀ rate, fx.ibRates.get? currency = some rate → LastMove prices rate.quotedAt rate.rate

theorem start_holdsLastMove (cache : FxCache) {currency : String} (h : currency ∈ supportedFx) :
    (start cache).HoldsLastMove currency (cache.ibPrice? currency).toList := by
  have hstart : (start cache).ibRates.get? currency = _ := get?_start cache .ib h
  unfold HoldsLastMove FxCache.ibPrice?
  rw [hstart]
  cases cache.get? (pairFor currency) with
  | none => simp
  | some row =>
    by_cases hsource : row.source = .ib
    · simp only [Option.bind_some, if_pos hsource]
      refine ⟨by simp, ?_⟩
      intro rate hrate
      obtain rfl := Option.some.inj hrate
      exact LastMove.first (row.quotedAt, row.rate)
    · simp [hsource]

theorem handle_holdsLastMove {fx : FxService} {currency : String}
    {prices : List (Instant × Python.Float)} (h : fx.HoldsLastMove currency prices)
    (quote : FxQuote) :
    (fx.handle quote).HoldsLastMove currency (prices ++ (quote.ibPrice? currency).toList) := by
  cases quote with
  | apiRate quotedAt rates c =>
    have hib : (fx.handle (.apiRate quotedAt rates c)).ibRates.get? currency =
        fx.ibRates.get? currency := by
      unfold handle
      split
      next => rfl
      next c' rate hwritten =>
        obtain ⟨-, -, hrate⟩ := written_apiRate hwritten
        obtain ⟨-, -, -, -, rfl⟩ := apiRate_eq_some.mp hrate
        rfl
    have hnone : (FxQuote.apiRate quotedAt rates c).ibPrice? currency = none := rfl
    unfold HoldsLastMove
    rw [hib, hnone, Option.toList_none, List.append_nil]
    exact h
  | ibTick now c invert ticker =>
    rw [handle_ibTick]
    unfold tickerHandler
    cases hquoted : extractForexPrice ticker with
    | none => simpa [FxQuote.ibPrice?, hquoted] using h
    | some quoted =>
      dsimp only
      by_cases hc : c = currency
      · subst hc
        have hprice : (FxQuote.ibTick now c invert ticker).ibPrice? c =
            some (now, if invert then Python.Float.quot 1 quoted else quoted) := by
          simp [FxQuote.ibPrice?, hquoted]
        rw [hprice, Option.toList_some]
        generalize (if invert then Python.Float.quot 1 quoted else quoted) = price
        cases hheld : fx.ibRates.get? c with
        | none =>
          rw [h.1 hheld, List.nil_append]
          refine ⟨fun hnone => by simp at hnone, ?_⟩
          intro rate hrate
          obtain rfl : _ = rate := by simpa using hrate
          exact LastMove.first (now, price)
        | some held =>
          have hmove : LastMove prices held.quotedAt held.rate := h.2 held hheld
          cases hrepeat : held.rate.equal price with
          | true =>
            rw [Option.any_some, hrepeat, if_pos rfl]
            refine ⟨fun hnone => by simp [hheld] at hnone, ?_⟩
            intro rate hrate
            obtain rfl : held = rate := by simpa [hheld] using hrate
            exact hmove.repeated hrepeat
          | false =>
            rw [Option.any_some, hrepeat, if_neg (by simp)]
            refine ⟨fun hnone => by simp at hnone, ?_⟩
            intro rate hrate
            obtain rfl : _ = rate := by simpa using hrate
            exact hmove.moved hrepeat
      · have hprice : (FxQuote.ibTick now c invert ticker).ibPrice? currency = none := if_neg hc
        rw [hprice, Option.toList_none, List.append_nil]
        generalize (if invert then Python.Float.quot 1 quoted else quoted) = price
        cases (fx.ibRates.get? c).any fun existing => existing.rate.equal price with
        | true => exact h
        | false =>
          have hother := OrderedDict.get?_insert_of_ne fx.ibRates
            ⟨pairFor c, price, now, false, .ib⟩ (Ne.symm hc)
          unfold HoldsLastMove
          rw [if_neg (by simp), hother]
          exact h

theorem handleAll_holdsLastMove {fx : FxService} {currency : String}
    {prices : List (Instant × Python.Float)} (h : fx.HoldsLastMove currency prices)
    (quotes : List FxQuote) :
    (fx.handleAll quotes).HoldsLastMove currency
      (prices ++ quotes.filterMap (FxQuote.ibPrice? currency)) := by
  induction quotes generalizing fx prices with
  | nil => simpa [handleAll] using h
  | cons quote quotes ih =>
    have hnext := ih (handle_holdsLastMove h quote)
    rw [List.append_assoc] at hnext
    have hlist : (quote.ibPrice? currency).toList ++ quotes.filterMap (FxQuote.ibPrice? currency) =
        (quote :: quotes).filterMap (FxQuote.ibPrice? currency) := by
      cases hprice : quote.ibPrice? currency with
      | none => simp [hprice]
      | some p => simp [hprice]
    rw [hlist] at hnext
    exact hnext

end FxService

/-- A quote of the dollar in Hong Kong: so many HKD. -/
def sampleHkdTick (now : Instant) (price : Python.Float) : FxQuote :=
  .ibTick now "HKD" true ⟨some price, some price, none, none⟩

end PortfolioHub
