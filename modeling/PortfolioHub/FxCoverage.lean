import PortfolioHub.FxSubscriptions

namespace PortfolioHub

/-- IB quotes the currency against the dollar. -/
def Quotable (currency : String) : Prop := currency ∈ supportedFx ∧ currency ∉ ibFxUnsupported

instance (currency : String) : Decidable (Quotable currency) :=
  inferInstanceAs (Decidable (currency ∈ supportedFx ∧ currency ∉ ibFxUnsupported))

/-- `validate_currency` does not raise. -/
def Accepted (currency : String) : Prop := currency = "USD" ∨ currency ∈ supportedFx

instance (currency : String) : Decidable (Accepted currency) :=
  inferInstanceAs (Decidable (currency = "USD" ∨ currency ∈ supportedFx))

theorem Quotable.accepted {currency : String} (h : Quotable currency) : Accepted currency :=
  Or.inr h.1

/-- A turn in which the vendor does what the call asks of it, or of something else. -/
def FxProgramEvent.Serves (id : ℕ) : FxProgramEvent → Prop
  | .qualified call reply subscribed =>
    call = id ∧ subscribed = true ∧ ∀ currency, (reply currency).isSome = true
  | .tick _ _ _ => True
  | .payload _ _ _ => True
  | .persist _ _ => True
  | _ => False

namespace FxProgram

variable {s t : FxProgram} {id : ℕ} {currencies : List String}

/-- The ticker table is of the attached instance, and each of its entries has a handler. -/
structure Booked (s : FxProgram) : Prop where
  tickers : ∀ currency ib, s.tickers.get? currency = some ib →
    s.ib = some ib ∧ Quotable currency ∧
      ∃ handler ∈ s.handlers, handler.ib = ib ∧ handler.currency = currency
  calls : ∀ call ∈ s.calls, Quotable call.currency ∧ call.id < s.nextId
  attached : s.calls ≠ [] → s.ib ≠ none

/-- Where the loop stops: at a currency to be qualified, at one that is refused, or at the end. -/
structure Loops (s t : FxProgram) (id : ℕ) (currencies done rest : List String) : Prop where
  ib : t.ib = s.ib
  tickers : t.tickers = s.tickers
  handlers : t.handlers = s.handlers
  nextId : t.nextId = s.nextId
  split : currencies = done ++ rest
  done : ∀ currency ∈ done, Accepted currency ∧
    (Quotable currency → currency ∈ s.tickers.keys)
  stops : (∃ currency later, rest = currency :: later ∧ Quotable currency ∧
      currency ∉ s.tickers.keys ∧ t.calls = s.calls ++ [⟨id, currency, later⟩]) ∨
    t.calls = s.calls ∧ ∀ currency later, rest = currency :: later → ¬ Accepted currency

/-- The loop is past one currency more. -/
theorem Loops.cons {s' : FxProgram} {currency : String} {done rest : List String}
    (h : Loops s' t id currencies done rest) (hib : s'.ib = s.ib) (htickers : s'.tickers = s.tickers)
    (hhandlers : s'.handlers = s.handlers) (hnext : s'.nextId = s.nextId)
    (hcalls : s'.calls = s.calls) (haccepted : Accepted currency)
    (hquotable : Quotable currency → currency ∈ s.tickers.keys) :
    Loops s t id (currency :: currencies) (currency :: done) rest := by
  refine ⟨h.ib.trans hib, h.tickers.trans htickers, h.handlers.trans hhandlers,
    h.nextId.trans hnext, congrArg _ h.split, ?_, ?_⟩
  · intro other hother
    rcases List.mem_cons.mp hother with rfl | hother
    · exact ⟨haccepted, hquotable⟩
    · rw [← htickers]
      exact h.done other hother
  · rw [← htickers, ← hcalls]
    exact h.stops

theorem ensureFrom_loops (id : ℕ) (currencies : List String)
    (hkeys : ∀ currency ∈ s.tickers.keys, Accepted currency) :
    ∃ done rest, Loops s (s.ensureFrom id currencies) id currencies done rest := by
  induction currencies generalizing s with
  | nil => exact ⟨[], [], rfl, rfl, rfl, rfl, rfl, nofun, Or.inr ⟨rfl, nofun⟩⟩
  | cons currency rest ih =>
    unfold FxProgram.ensureFrom
    split
    next hskip =>
      obtain ⟨done, later, hloops⟩ := ih hkeys
      refine ⟨currency :: done, later, hloops.cons rfl rfl rfl rfl rfl ?_ fun hquotable => ?_⟩
      · exact hskip.elim Or.inl (hkeys currency)
      · refine hskip.resolve_left ?_
        rintro rfl
        exact absurd hquotable (by decide)
    next hnew =>
      split
      next e hrefused =>
        refine ⟨[], currency :: rest, rfl, rfl, rfl, rfl, rfl, nofun, Or.inr ⟨rfl, ?_⟩⟩
        rintro other later heq haccepted
        obtain ⟨rfl, rfl⟩ := List.cons.inj heq
        exact absurd (hrefused.symm.trans ((validateCurrency_ok_iff _).mpr haccepted)) (by simp)
      next hvalid =>
        have haccepted : Accepted currency := (validateCurrency_ok_iff currency).mp hvalid
        have hsupported : currency ∈ supportedFx := haccepted.resolve_left fun h => hnew (Or.inl h)
        split
        next hunsupported =>
          have hstep := ih (s := { s with unsupportedSeen :=
            if currency ∈ s.unsupportedSeen then s.unsupportedSeen
            else s.unsupportedSeen ++ [currency] }) hkeys
          obtain ⟨done, later, hloops⟩ := hstep
          exact ⟨currency :: done, later, hloops.cons rfl rfl rfl rfl rfl haccepted
            fun hquotable => absurd hunsupported hquotable.2⟩
        next hsupportedIb =>
          exact ⟨[], currency :: rest, rfl, rfl, rfl, rfl, rfl, nofun,
            Or.inl ⟨currency, rest, rfl, ⟨hsupported, hsupportedIb⟩, fun h => hnew (Or.inr h), rfl⟩⟩

theorem Booked.keys (h : s.Booked) : ∀ currency ∈ s.tickers.keys, Accepted currency := by
  intro currency hcurrency
  obtain ⟨ib, hib⟩ := OrderedDict.mem_keys_iff.mp hcurrency
  exact (h.tickers currency ib hib).2.1.accepted

theorem Booked.ensureFrom (h : s.Booked) (hib : s.ib ≠ none) (hid : id < s.nextId) :
    (s.ensureFrom id currencies).Booked := by
  obtain ⟨done, rest, hloops⟩ := ensureFrom_loops id currencies h.keys
  refine ⟨?_, ?_, fun _ => hloops.ib ▸ hib⟩
  · rw [hloops.tickers, hloops.ib, hloops.handlers]
    exact h.tickers
  · rw [hloops.nextId]
    rcases hloops.stops with ⟨currency, later, -, hquotable, -, hcalls⟩ | ⟨hcalls, -⟩
    · rw [hcalls]
      intro call hcall
      rcases List.mem_append.mp hcall with hcall | hcall
      · exact h.calls call hcall
      · obtain rfl := List.mem_singleton.mp hcall
        exact ⟨hquotable, hid⟩
    · rw [hcalls]
      exact h.calls

theorem Booked.subscribe (h : s.Booked) {currency : String} (hquotable : Quotable currency)
    (contract : ForexContract) : (s.subscribe currency contract).Booked := by
  unfold FxProgram.subscribe
  split
  next => exact h
  next ib hib =>
    refine ⟨?_, h.calls, h.attached⟩
    intro c ib' hget
    rw [OrderedDict.get?_insert] at hget
    split at hget
    next heq =>
      subst heq
      obtain rfl := Option.some.inj hget
      exact ⟨hib, hquotable, _, List.mem_append_right _ (List.mem_singleton_self _), rfl, rfl⟩
    next =>
      obtain ⟨hcurrent, hc, handler, hhandler, hrest⟩ := h.tickers c ib' hget
      exact ⟨hcurrent, hc, handler, List.mem_append_left _ hhandler, hrest⟩

theorem Booked.forget (h : s.Booked) (id : ℕ) :
    Booked { s with calls := s.calls.filter fun other => other.id ≠ id } := by
  refine ⟨h.tickers, fun call hcall => h.calls call (List.mem_of_mem_filter hcall), fun hne => ?_⟩
  refine h.attached ?_
  rintro hnil
  exact hne (by rw [hnil]; rfl)

theorem Booked.qualified (h : s.Booked) (id : ℕ) (reply : String → Option ForexContract)
    (subscribed : Bool) : (s.qualified id reply subscribed).Booked := by
  unfold FxProgram.qualified
  split
  next => exact h
  next call hfind =>
    have hcall : call ∈ s.calls := List.mem_of_find?_eq_some hfind
    have hid : call.id = id := by simpa using List.find?_some hfind
    obtain ⟨hquotable, hlt⟩ := h.calls call hcall
    have hib : s.ib ≠ none := h.attached (List.ne_nil_of_mem hcall)
    have hforget := h.forget id
    dsimp only
    split
    next => exact hforget.ensureFrom hib (hid ▸ hlt)
    next contract _ =>
      split
      next =>
        have hsubscribe := hforget.subscribe hquotable contract
        refine hsubscribe.ensureFrom ?_ ?_
        · unfold FxProgram.subscribe
          split
          next => exact hib
          next => exact hib
        · unfold FxProgram.subscribe
          split
          next => exact hid ▸ hlt
          next => exact hid ▸ hlt
      next => exact hforget.ensureFrom hib (hid ▸ hlt)

theorem Booked.step (h : s.Booked) (e : FxProgramEvent) : (s.step e).Booked := by
  cases e with
  | ensureSubscribed currencies =>
    change (s.ensureSubscribed currencies).Booked
    unfold FxProgram.ensureSubscribed
    split
    next => exact h
    next hib =>
      have hnext : Booked { s with nextId := s.nextId + 1 } :=
        ⟨h.tickers, fun call hcall =>
          ⟨(h.calls call hcall).1, Nat.lt_succ_of_lt (h.calls call hcall).2⟩, h.attached⟩
      exact hnext.ensureFrom hib (Nat.lt_succ_self _)
  | qualified id reply subscribed => exact h.qualified id reply subscribed
  | attachIb =>
    refine ⟨fun currency ib hget => ?_, fun call hcall => ?_, fun _ => by simp [FxProgram.step, attachIb]⟩
    · exact absurd hget (by simp [FxProgram.step, attachIb])
    · exact ⟨(h.calls call hcall).1, Nat.lt_succ_of_lt (h.calls call hcall).2⟩
  | tick now handler ticker =>
    change Booked (if _ then _ else _)
    split
    next =>
      unfold FxProgram.quote
      split
      next => exact ⟨h.tickers, h.calls, h.attached⟩
      next => exact ⟨h.tickers, h.calls, h.attached⟩
    next => exact h
  | payload quotedAt payload currency =>
    unfold FxProgram.step
    dsimp only
    split
    next => exact h
    next =>
      unfold FxProgram.quote
      split
      next => exact ⟨h.tickers, h.calls, h.attached⟩
      next => exact ⟨h.tickers, h.calls, h.attached⟩
  | persist source ok => exact ⟨h.tickers, h.calls, h.attached⟩
  | restart => exact ⟨nofun, nofun, fun hne => absurd rfl hne⟩

theorem run_booked (cache : FxCache) (events : List FxProgramEvent) :
    (run cache events).Booked := by
  unfold run
  have hinit : (init cache).Booked := ⟨nofun, nofun, fun hne => absurd rfl hne⟩
  generalize init cache = s at hinit ⊢
  induction events generalizing s with
  | nil => exact hinit
  | cons e events ih => exact ih _ (hinit.step e)

/-- The currency has a subscription on the attached instance, and a tick handler. -/
def Subscribed (s : FxProgram) (currency : String) : Prop :=
  ∃ ib, s.ib = some ib ∧ s.tickers.get? currency = some ib ∧
    ∃ handler ∈ s.handlers, handler.ib = ib ∧ handler.currency = currency

theorem Booked.subscribed_iff (h : s.Booked) {currency : String} :
    s.Subscribed currency ↔ currency ∈ s.tickers.keys := by
  constructor
  · rintro ⟨ib, -, hget, -⟩
    exact OrderedDict.mem_keys_iff.mpr ⟨ib, hget⟩
  · intro hmem
    obtain ⟨ib, hget⟩ := OrderedDict.mem_keys_iff.mp hmem
    obtain ⟨hib, -, hhandler⟩ := h.tickers currency ib hget
    exact ⟨ib, hib, hget, hhandler⟩

/-- The call is past `done`, whose currencies it has subscribed to, and waits for the first of
`rest`, has raised at it, or is at its end. -/
structure Serving (s t : FxProgram) (id : ℕ) (currencies done rest : List String) : Prop where
  booked : t.Booked
  ib : t.ib = s.ib
  fresh : id < t.nextId
  split : currencies = done ++ rest
  accepted : ∀ currency ∈ done, Accepted currency
  tickers : ∀ currency, currency ∈ t.tickers.keys ↔
    currency ∈ s.tickers.keys ∨ currency ∈ done ∧ Quotable currency
  waits : (∃ currency later, rest = currency :: later ∧ Quotable currency ∧
      t.calls.filter (fun call => call.id = id) = [⟨id, currency, later⟩]) ∨
    t.calls.filter (fun call => call.id = id) = [] ∧
      ∀ currency later, rest = currency :: later → ¬ Accepted currency

/-- The loop goes on from where the call was. -/
theorem Serving.loops {u : FxProgram} {done rest : List String} (hbooked : u.Booked)
    (hib : u.ib = s.ib) (hattached : s.ib ≠ none) (hfresh : id < u.nextId)
    (hsplit : currencies = done ++ rest)
    (haccepted : ∀ currency ∈ done, Accepted currency)
    (htickers : ∀ currency, currency ∈ u.tickers.keys ↔
      currency ∈ s.tickers.keys ∨ currency ∈ done ∧ Quotable currency)
    (hidle : u.calls.filter (fun call => call.id = id) = []) :
    ∃ more later, rest = more ++ later ∧
      Serving s (u.ensureFrom id rest) id currencies (done ++ more) later := by
  obtain ⟨more, later, hloops⟩ := ensureFrom_loops id rest hbooked.keys
  refine ⟨more, later, hloops.split, hbooked.ensureFrom (hib ▸ hattached) hfresh,
    hloops.ib.trans hib, hloops.nextId ▸ hfresh, ?_, ?_, ?_, ?_⟩
  · rw [hsplit, hloops.split, List.append_assoc]
  · intro currency hcurrency
    rcases List.mem_append.mp hcurrency with hcurrency | hcurrency
    · exact haccepted currency hcurrency
    · exact (hloops.done currency hcurrency).1
  · intro currency
    rw [hloops.tickers, htickers]
    constructor
    · exact Or.imp_right fun h => ⟨List.mem_append_left _ h.1, h.2⟩
    · rintro (hold | ⟨hmem, hquotable⟩)
      · exact Or.inl hold
      · rcases List.mem_append.mp hmem with hmem | hmem
        · exact Or.inr ⟨hmem, hquotable⟩
        · exact (htickers currency).mp ((hloops.done currency hmem).2 hquotable)
  · rcases hloops.stops with ⟨currency, after, heq, hquotable, -, hcalls⟩ | ⟨hcalls, hstop⟩
    · refine Or.inl ⟨currency, after, heq, hquotable, ?_⟩
      rw [hcalls, List.filter_append, hidle]
      simp
    · exact Or.inr ⟨hcalls ▸ hidle, hstop⟩

/-- The contract of the first currency left comes back. -/
theorem Serving.qualified {done later : List String} {currency : String}
    (h : Serving s t id currencies done (currency :: later)) (hattached : s.ib ≠ none)
    (hwaits : t.calls.filter (fun call => call.id = id) = [⟨id, currency, later⟩])
    (hquotable : Quotable currency) {reply : String → Option ForexContract}
    {contract : ForexContract} (hreply : reply currency = some contract) :
    ∃ more rest, later = more ++ rest ∧
      Serving s (t.qualified id reply true) id currencies (done ++ [currency] ++ more) rest := by
  have hfind : t.calls.find? (fun call => call.id = id) = some ⟨id, currency, later⟩ := by
    rw [← List.head?_filter, hwaits]
    rfl
  obtain ⟨ib, hib⟩ := Option.ne_none_iff_exists'.mp hattached
  have htib : t.ib = some ib := h.ib.trans hib
  have hqualified : t.qualified id reply true =
      (({ t with calls := t.calls.filter fun other => other.id ≠ id }).subscribe currency
        contract).ensureFrom id later := by
    unfold FxProgram.qualified
    rw [hfind]
    simp only [hreply, if_true]
  have hsubscribe : ({ t with calls := t.calls.filter fun other => other.id ≠ id }).subscribe
      currency contract = { t with
        calls := t.calls.filter fun other => other.id ≠ id
        handlers := t.handlers ++
          [⟨ib, currency, contract, contractQuotesUsdBase currency contract⟩]
        tickers := t.tickers.insert currency ib } := by
    unfold FxProgram.subscribe
    simp only [htib]
  rw [hqualified]
  have hbooked := (h.booked.forget id).subscribe hquotable contract
  rw [hsubscribe] at hbooked ⊢
  refine Serving.loops hbooked h.ib hattached h.fresh ?_ ?_ ?_ ?_
  · rw [h.split, List.append_assoc]
    rfl
  · intro c hc
    rcases List.mem_append.mp hc with hc | hc
    · exact h.accepted c hc
    · obtain rfl := List.mem_singleton.mp hc
      exact hquotable.accepted
  · intro c
    have hinsert : c ∈ (t.tickers.insert currency ib).keys ↔ c = currency ∨ c ∈ t.tickers.keys := by
      simp only [OrderedDict.mem_keys_iff, OrderedDict.get?_insert]
      by_cases hc : c = currency
      · simp [hc]
      · simp [hc]
    rw [hinsert, h.tickers]
    constructor
    · rintro (rfl | hold | ⟨hmem, hc⟩)
      · exact Or.inr ⟨by simp, hquotable⟩
      · exact Or.inl hold
      · exact Or.inr ⟨List.mem_append_left _ hmem, hc⟩
    · rintro (hold | ⟨hmem, hc⟩)
      · exact Or.inr (Or.inl hold)
      · rcases List.mem_append.mp hmem with hmem | hmem
        · exact Or.inr (Or.inr ⟨hmem, hc⟩)
        · exact Or.inl (List.mem_singleton.mp hmem)
  · rw [List.filter_filter, List.filter_eq_nil_iff]
    intro call _
    simp

theorem Serving.quote {done rest : List String} (h : Serving s t id currencies done rest)
    (q : FxQuote) : Serving s (t.quote q) id currencies done rest := by
  unfold FxProgram.quote
  split
  next =>
    exact ⟨⟨h.booked.tickers, h.booked.calls, h.booked.attached⟩, h.ib, h.fresh, h.split,
      h.accepted, h.tickers, h.waits⟩
  next =>
    exact ⟨⟨h.booked.tickers, h.booked.calls, h.booked.attached⟩, h.ib, h.fresh, h.split,
      h.accepted, h.tickers, h.waits⟩

theorem Serving.step {done rest : List String} (h : Serving s t id currencies done rest)
    (hattached : s.ib ≠ none) {e : FxProgramEvent} (he : e.Serves id) :
    ∃ done rest, Serving s (t.step e) id currencies done rest := by
  cases e with
  | ensureSubscribed currencies => exact he.elim
  | qualified call reply subscribed =>
    obtain ⟨rfl, rfl, hreply⟩ := he
    rcases h.waits with ⟨currency, later, rfl, hquotable, hwaits⟩ | ⟨hidle, -⟩
    · obtain ⟨contract, hcontract⟩ := Option.isSome_iff_exists.mp (hreply currency)
      obtain ⟨more, rest, -, hmore⟩ := h.qualified hattached hwaits hquotable hcontract
      exact ⟨_, _, hmore⟩
    · have hfind : t.calls.find? (fun other => other.id = call) = none := by
        rw [← List.head?_filter, hidle]
        rfl
      refine ⟨done, rest, ?_⟩
      change Serving s (t.qualified call reply true) call currencies done rest
      unfold FxProgram.qualified
      rw [hfind]
      exact h
  | attachIb => exact he.elim
  | tick now handler ticker =>
    refine ⟨done, rest, ?_⟩
    change Serving s (if _ then _ else _) id currencies done rest
    split
    next => exact h.quote _
    next => exact h
  | payload quotedAt payload currency =>
    refine ⟨done, rest, ?_⟩
    unfold FxProgram.step
    dsimp only
    split
    next => exact h
    next => exact h.quote _
  | persist source ok =>
    exact ⟨done, rest, ⟨h.booked.tickers, h.booked.calls, h.booked.attached⟩, h.ib, h.fresh,
      h.split, h.accepted, h.tickers, h.waits⟩
  | restart => exact he.elim

theorem Serving.run {done rest : List String} (h : Serving s t id currencies done rest)
    (hattached : s.ib ≠ none) {later : List FxProgramEvent} (hlater : ∀ e ∈ later, e.Serves id) :
    ∃ done rest, Serving s (later.foldl FxProgram.step t) id currencies done rest := by
  induction later generalizing t done rest with
  | nil => exact ⟨done, rest, h⟩
  | cons e later ih =>
    obtain ⟨done', rest', hstep⟩ := h.step hattached (hlater e List.mem_cons_self)
    exact ih hstep fun e' he' => hlater e' (List.mem_cons_of_mem _ he')

/-- With the replies of the vendor the call comes to its end. -/
theorem Serving.ends {done rest : List String} (h : Serving s t id currencies done rest)
    (hattached : s.ib ≠ none) {reply : String → Option ForexContract}
    (hreply : ∀ currency, (reply currency).isSome = true) :
    ∃ later : List FxProgramEvent, (∀ e ∈ later, e.Serves id) ∧
      ∀ call ∈ (later.foldl FxProgram.step t).calls, call.id ≠ id := by
  induction hn : rest.length using Nat.strong_induction_on generalizing t done rest with
  | _ n ih =>
    rcases h.waits with ⟨currency, after, rfl, hquotable, hwaits⟩ | ⟨hidle, -⟩
    · obtain ⟨contract, hcontract⟩ := Option.isSome_iff_exists.mp (hreply currency)
      obtain ⟨more, rest, hafter, hmore⟩ := h.qualified hattached hwaits hquotable hcontract
      have hlt : rest.length < n := by
        rw [← hn, hafter]
        simp only [List.length_cons, List.length_append]
        omega
      obtain ⟨later, hlater, hends⟩ := ih rest.length hlt hmore rfl
      refine ⟨.qualified id reply true :: later, ?_, ?_⟩
      · intro e he
        rcases List.mem_cons.mp he with rfl | he
        · exact ⟨rfl, rfl, hreply⟩
        · exact hlater e he
      · exact hends
    · refine ⟨[], List.forall_mem_nil _, fun call hcall heq => ?_⟩
      have hmem : call ∈ t.calls.filter fun call => call.id = id :=
        List.mem_filter.mpr ⟨hcall, decide_eq_true heq⟩
      rw [hidle] at hmem
      cases hmem

theorem Booked.serving (h : s.Booked) (hattached : s.ib ≠ none) (currencies : List String) :
    ∃ done rest, Serving s (s.step (.ensureSubscribed currencies)) s.nextId currencies done rest := by
  have hnext : Booked { s with nextId := s.nextId + 1 } :=
    ⟨h.tickers, fun call hcall =>
      ⟨(h.calls call hcall).1, Nat.lt_succ_of_lt (h.calls call hcall).2⟩, h.attached⟩
  have hidle : s.calls.filter (fun call => call.id = s.nextId) = [] := by
    rw [List.filter_eq_nil_iff]
    intro call hcall heq
    exact absurd (of_decide_eq_true heq) (h.calls call hcall).2.ne
  obtain ⟨more, later, -, hserving⟩ := Serving.loops (s := s) hnext rfl hattached
    (Nat.lt_succ_self _) (List.nil_append currencies).symm nofun (fun currency => by simp) hidle
  have hcall : s.step (.ensureSubscribed currencies) =
      { s with nextId := s.nextId + 1 }.ensureFrom s.nextId currencies := if_neg hattached
  rw [hcall]
  exact ⟨_, _, hserving⟩

end FxProgram

/-- A call that the vendor serves returns or raises; then its quotable currencies are all
subscribed just where each was so before or comes before the first code that is refused. -/
theorem quotable_subscribed_iff (cache : FxCache) (events : List FxProgramEvent)
    (currencies : List String) (hattached : (FxProgram.run cache events).ib ≠ none) :
    (∃ later : List FxProgramEvent, (∀ e ∈ later, FxProgramEvent.Serves (FxProgram.run cache events).nextId e) ∧
      ∀ call ∈ (later.foldl FxProgram.step
        ((FxProgram.run cache events).step (.ensureSubscribed currencies))).calls,
          call.id ≠ (FxProgram.run cache events).nextId) ∧
    ∀ (later : List FxProgramEvent) (t : FxProgram), (∀ e ∈ later, FxProgramEvent.Serves (FxProgram.run cache events).nextId e) →
      t = later.foldl FxProgram.step
        ((FxProgram.run cache events).step (.ensureSubscribed currencies)) →
      (∀ call ∈ t.calls, call.id ≠ (FxProgram.run cache events).nextId) →
      ((∀ currency ∈ currencies, Quotable currency → t.Subscribed currency) ↔
        ∀ currency ∈ currencies, Quotable currency →
          currency ∈ (FxProgram.run cache events).tickers.keys ∨
            currency ∈ currencies.takeWhile fun code => Accepted code) := by
  obtain ⟨done, rest, hserving⟩ :=
    (FxProgram.run_booked cache events).serving hattached currencies
  have hreply : ∀ currency : String,
      ((fun _ => some ⟨.absent, "", ""⟩ : String → Option ForexContract) currency).isSome = true :=
    fun _ => rfl
  refine ⟨hserving.ends hattached hreply, ?_⟩
  rintro later t hlater rfl hends
  obtain ⟨done, rest, hserved⟩ := hserving.run hattached hlater
  have hstop : ∀ currency later, rest = currency :: later → ¬ Accepted currency := by
    rcases hserved.waits with ⟨currency, after, -, -, hwaits⟩ | ⟨-, hstop⟩
    · have hmem : (⟨(FxProgram.run cache events).nextId, currency, after⟩ : SubscribeCall) ∈
          [⟨(FxProgram.run cache events).nextId, currency, after⟩] := List.mem_singleton_self _
      rw [← hwaits] at hmem
      exact absurd rfl (hends _ (List.mem_of_mem_filter hmem))
    · exact hstop
  have hearlier : currencies.takeWhile (fun code => Accepted code) = done := by
    rw [hserved.split, List.takeWhile_append_of_pos fun code hcode =>
      decide_eq_true (hserved.accepted code hcode)]
    cases rest with
    | nil => simp
    | cons code rest => simp [hstop code rest rfl]
  rw [hearlier]
  refine forall₃_congr fun currency _ hquotable => ?_
  rw [hserved.booked.subscribed_iff, hserved.tickers]
  simp [hquotable]

/-- CNY behind the euro: the call raises, and the euro is subscribed. -/
theorem euro_before_cny_subscribed :
    ∃ t : FxProgram, t.raised ≠ [] ∧ t.Subscribed "EUR" := by
  have hattached : (FxProgram.run .empty [.attachIb]).ib ≠ none := by decide
  have hserves : ∀ e ∈ [FxProgramEvent.qualified 1 (fun _ => some ⟨.text "EURUSD", "", ""⟩) true],
      e.Serves (FxProgram.run .empty [.attachIb]).nextId := by
    intro e he
    obtain rfl := List.mem_singleton.mp he
    exact ⟨rfl, rfl, fun _ => rfl⟩
  obtain ⟨-, hiff⟩ := quotable_subscribed_iff .empty [.attachIb] ["EUR", "CNY"] hattached
  refine ⟨_, ?_, (hiff _ _ hserves rfl ?_).mpr ?_ "EUR" (by decide) (by decide)⟩
  · decide +kernel
  · decide +kernel
  · intro currency hcurrency hquotable
    right
    revert currency
    decide +kernel

/-- CNY before the euro: the call has raised, and the euro is not subscribed. -/
theorem cny_starves_the_euro :
    ((FxProgram.run .empty [.attachIb]).step (.ensureSubscribed ["CNY", "EUR"])).calls = [] ∧
      Quotable "EUR" ∧ ¬ ((FxProgram.run .empty [.attachIb]).step
        (.ensureSubscribed ["CNY", "EUR"])).Subscribed "EUR" := by
  refine ⟨by decide +kernel, by decide, ?_⟩
  rintro ⟨ib, -, hget, -⟩
  have hnone : ((FxProgram.run .empty [.attachIb]).step
      (.ensureSubscribed ["CNY", "EUR"])).tickers.get? "EUR" = none := by decide +kernel
  exact absurd (hnone.symm.trans hget) (by simp)

end PortfolioHub
