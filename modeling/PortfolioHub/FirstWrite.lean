import PortfolioHub.FillsCounted

namespace PortfolioHub

/-- `fees_native`, `fees_usd` and `fx_rate_at_fill`. -/
def FillRow.fees (row : FillRow) : Option Python.Float × Option Python.Float × Option Python.Float :=
  (row.feesNative, row.feesUsd, row.fxRateAtFill)

/-- What the table keeps of a commission in the currency at the rate. -/
def storedFees (commission : Python.Float) (currency : String) (rate : Option Python.Float) :
    Option Python.Float × Option Python.Float × Option Python.Float :=
  (nullIfNan (some commission),
    nullIfNan (if currency = "USD" then some commission else rate.map (commission * ·)),
    nullIfNan rate)

theorem Converts.stored_fees {broker : String} {fx : FxView} {fill : Fill} {row : FillRow}
    (h : Converts broker fx fill row) :
    ∃ rate, fillRate fx (Python.orElse fill.currency "USD") = .ok rate ∧
      row.stored.fees =
        storedFees fill.commission (Python.orElse fill.currency "USD") rate := by
  unfold Converts buildFillRow at h
  split at h
  next => cases h
  next =>
    split at h
    next => cases h
    next =>
      obtain ⟨rate, hrate, h⟩ := Python.bind_eq_ok.mp h
      obtain rfl := Option.some.inj (Python.pure_eq_ok.mp h)
      exact ⟨rate, hrate, rfl⟩

/-- The row that the run is about to insert. -/
def ReconcileRun.row? : ReconcileRun → Option FillRow
  | .inserting row _ _ => some row
  | _ => none

namespace FillCapture

/-- The rows on their way to the table. -/
def rowsInFlight (s : FillCapture) : List FillRow :=
  s.pendingWrites ++ s.runs.filterMap ReconcileRun.row?

/-- The conversion of an event: the execution, and the rates it is converted at. -/
def conversion (s : FillCapture) : FillEvent → Option (FxView × Fill)
  | .execDetails fx fill => some (fx, fill)
  | .nextFill i fx =>
    match s.runs[i]? with
    | some (.looping (fill :: _) _) => some (fx, fill)
    | _ => none
  | _ => none

/-- The conversions of a run, in their order. -/
def conversions (s : FillCapture) : List FillEvent → List (FxView × Fill)
  | [] => []
  | e :: events => (s.conversion e).toList ++
    match s.step e with
    | some s' => s'.conversions events
    | none => []

theorem mem_rowsInFlight {s : FillCapture} {row : FillRow} :
    row ∈ s.rowsInFlight ↔ row ∈ s.pendingWrites ∨ ∃ run ∈ s.runs, run.row? = some row := by
  simp [rowsInFlight, List.mem_filterMap]

/-- A run that is taken up: the other runs and the writes are as before. -/
theorem rowsInFlight_of_run (s : FillCapture) {s' : FillCapture} (i : ℕ)
    (news : List ReconcileRun) {row : FillRow} (h : row ∈ s'.rowsInFlight)
    (hpending : s'.pendingWrites = s.pendingWrites)
    (hruns : s'.runs = news ++ s.runs.eraseIdx i) :
    row ∈ s.rowsInFlight ∨ ∃ run ∈ news, run.row? = some row := by
  rw [mem_rowsInFlight, hpending, hruns] at h
  rw [mem_rowsInFlight]
  rcases h with hwrite | ⟨run, hrun, hrow⟩
  · exact Or.inl (Or.inl hwrite)
  · rcases List.mem_append.mp hrun with hnew | hold
    · exact Or.inr ⟨run, hnew, hrow⟩
    · exact Or.inl (Or.inr ⟨run, List.mem_of_mem_eraseIdx hold, hrow⟩)

/-- A row comes on its way by a conversion. -/
theorem step_rowsInFlight {s s' : FillCapture} {e : FillEvent} (h : s.step e = some s')
    {row : FillRow} (hrow : row ∈ s'.rowsInFlight) :
    row ∈ s.rowsInFlight ∨
      ∃ c, s.conversion e = some c ∧ Converts "IBKR" c.1 c.2 row := by
  unfold step at h
  cases e with
  | execDetails fx fill =>
    obtain rfl := Option.some.inj h
    unfold onExecDetails at hrow
    split at hrow
    next => exact Or.inl hrow
    next => exact Or.inl hrow
    next written hbuild =>
      rw [mem_rowsInFlight, List.mem_cons, or_assoc] at hrow
      rcases hrow with rfl | hold
      · exact Or.inr ⟨(fx, fill), rfl, hbuild⟩
      · exact Or.inl (mem_rowsInFlight.mpr hold)
  | persistFill i =>
    dsimp only at h
    split at h
    next written hwritten =>
      obtain rfl := Option.some.inj h
      refine Or.inl (mem_rowsInFlight.mpr ?_)
      rcases mem_rowsInFlight.mp hrow with hwrite | hrun
      · exact Or.inl (List.mem_of_mem_eraseIdx hwrite)
      · exact Or.inr hrun
    next => cases h
  | reconcileFills =>
    obtain rfl := Option.some.inj h
    refine Or.inl (mem_rowsInFlight.mpr ?_)
    rcases mem_rowsInFlight.mp hrow with hwrite | ⟨run, hrun, hrow⟩
    · exact Or.inl hwrite
    · rcases List.mem_cons.mp hrun with rfl | hold
      · cases hrow
      · exact Or.inr ⟨run, hold, hrow⟩
  | executionsReply i reply =>
    dsimp only at h
    split at h
    next =>
      obtain rfl := Option.some.inj h
      cases reply with
      | error e =>
        obtain hold | ⟨run, hrun, -⟩ := rowsInFlight_of_run s i [] hrow rfl rfl
        · exact Or.inl hold
        · cases hrun
      | ok fills =>
        obtain hold | ⟨run, hrun, hnew⟩ :=
          rowsInFlight_of_run s i [.looping fills 0] hrow rfl rfl
        · exact Or.inl hold
        · obtain rfl := List.mem_singleton.mp hrun
          cases hnew
    next => cases h
  | nextFill i fx =>
    dsimp only at h
    split at h
    next fills newCount hrun =>
      obtain rfl := Option.some.inj h
      cases fills with
      | nil =>
        obtain hold | ⟨run, hnil, -⟩ := rowsInFlight_of_run s i [] hrow rfl rfl
        · exact Or.inl hold
        · cases hnil
      | cons fill rest =>
        have hconversion : s.conversion (.nextFill i fx) = some (fx, fill) := by
          simp only [conversion, hrun]
        rw [nextFill] at hrow
        split at hrow
        next =>
          obtain hold | ⟨run, hnil, -⟩ := rowsInFlight_of_run s i [] hrow rfl rfl
          · exact Or.inl hold
          · cases hnil
        next =>
          obtain hold | ⟨run, hnew, hnone⟩ :=
            rowsInFlight_of_run s i [.looping rest newCount] hrow rfl rfl
          · exact Or.inl hold
          · obtain rfl := List.mem_singleton.mp hnew
            cases hnone
        next written hbuild =>
          obtain hold | ⟨run, hnew, hwritten⟩ :=
            rowsInFlight_of_run s i [.inserting written rest newCount] hrow rfl rfl
          · exact Or.inl hold
          · obtain rfl := List.mem_singleton.mp hnew
            obtain rfl := Option.some.inj hwritten
            exact Or.inr ⟨(fx, fill), hconversion, hbuild⟩
    next => cases h
  | insertFill i =>
    dsimp only at h
    split at h
    next written fills newCount hrun =>
      obtain rfl := Option.some.inj h
      obtain hold | ⟨run, hnew, hnone⟩ := rowsInFlight_of_run s i [.looping fills
        (if (insertFill s.table written).2 then newCount + 1 else newCount)] hrow rfl rfl
      · exact Or.inl hold
      · obtain rfl := List.mem_singleton.mp hnew
        cases hnone
    next => cases h

/-- An event leaves the table or inserts a row that was on its way. -/
theorem step_table {s s' : FillCapture} {e : FillEvent} (h : s.step e = some s') :
    s'.table = s.table ∨ ∃ row ∈ s.rowsInFlight, s'.table = (insertFill s.table row).1 := by
  unfold step at h
  cases e with
  | execDetails fx fill =>
    obtain rfl := Option.some.inj h
    unfold onExecDetails
    split
    next => exact Or.inl rfl
    next => exact Or.inl rfl
    next => exact Or.inl rfl
  | persistFill i =>
    dsimp only at h
    split at h
    next row hrow =>
      obtain rfl := Option.some.inj h
      exact Or.inr ⟨row, mem_rowsInFlight.mpr (Or.inl (List.mem_of_getElem? hrow)), rfl⟩
    next => cases h
  | reconcileFills =>
    obtain rfl := Option.some.inj h
    exact Or.inl rfl
  | executionsReply i reply =>
    dsimp only at h
    split at h
    next =>
      obtain rfl := Option.some.inj h
      cases reply with
      | error e => exact Or.inl rfl
      | ok fills => exact Or.inl rfl
    next => cases h
  | nextFill i fx =>
    dsimp only at h
    split at h
    next fills newCount hrun =>
      obtain rfl := Option.some.inj h
      unfold nextFill
      split
      next => exact Or.inl rfl
      next =>
        split
        next => exact Or.inl rfl
        next => exact Or.inl rfl
        next => exact Or.inl rfl
    next => cases h
  | insertFill i =>
    dsimp only at h
    split at h
    next row fills newCount hrun =>
      obtain rfl := Option.some.inj h
      have hinserting : ∃ run ∈ s.runs, run.row? = some row :=
        ⟨_, List.mem_of_getElem? hrun, rfl⟩
      exact Or.inr ⟨row, mem_rowsInFlight.mpr (Or.inr hinserting), rfl⟩
    next => cases h

theorem execute_cons {s s' : FillCapture} {e : FillEvent} {events : List FillEvent} :
    execute step s (e :: events) = some s' ↔
      ∃ mid, s.step e = some mid ∧ execute step mid events = some s' := by
  rw [execute, Option.bind_eq_some_iff]

/-- A row that is in the table stays as it is. -/
theorem step_keeps_row {s s' : FillCapture} {e : FillEvent} (h : s.step e = some s')
    {k : String × String} {row : FillRow} (hrow : s.table.get? k = some row) :
    s'.table.get? k = some row := by
  rcases step_table h with hsame | ⟨written, -, hinsert⟩
  · rw [hsame, hrow]
  · rw [hinsert, get?_insertFill, hrow]
    rfl

theorem run_keeps_row {s s' : FillCapture} {events : List FillEvent}
    (h : execute step s events = some s') {k : String × String} {row : FillRow}
    (hrow : s.table.get? k = some row) : s'.table.get? k = some row := by
  induction events generalizing s with
  | nil =>
    obtain rfl : s = s' := by simpa [execute] using h
    exact hrow
  | cons e events ih =>
    obtain ⟨mid, hmid, hrest⟩ := execute_cons.mp h
    exact ih hrest (step_keeps_row hmid hrow)

/-- A row that is new in the table was on its way to it. -/
theorem step_new_row {s s' : FillCapture} {e : FillEvent} (h : s.step e = some s')
    {k : String × String} (hnone : s.table.get? k = none) {row : FillRow}
    (hrow : s'.table.get? k = some row) :
    ∃ written ∈ s.rowsInFlight, written.key = k ∧ row = written.stored := by
  rcases step_table h with hsame | ⟨written, hwritten, hinsert⟩
  · rw [hsame, hnone] at hrow
    cases hrow
  · rw [hinsert, get?_insertFill, hnone, Option.none_or] at hrow
    split at hrow
    next hkey => exact ⟨written, hwritten, hkey.2, (Option.some.inj hrow).symm⟩
    next => cases hrow

/-- What is on its way after a run has been converted in it, or was on its way before. -/
theorem run_rowsInFlight {s s' : FillCapture} {events : List FillEvent}
    (h : execute step s events = some s') {row : FillRow} (hrow : row ∈ s'.rowsInFlight) :
    row ∈ s.rowsInFlight ∨
      ∃ c ∈ s.conversions events, Converts "IBKR" c.1 c.2 row := by
  induction events generalizing s with
  | nil =>
    obtain rfl : s = s' := by simpa [execute] using h
    exact Or.inl hrow
  | cons e events ih =>
    obtain ⟨mid, hmid, hrest⟩ := execute_cons.mp h
    have hsplit : s.conversions (e :: events) =
        (s.conversion e).toList ++ mid.conversions events := by
      rw [conversions, hmid]
    rw [hsplit]
    rcases ih hrest with hold | ⟨c, hc, hconverts⟩
    · rcases step_rowsInFlight hmid hold with hbefore | ⟨c, hc, hconverts⟩
      · exact Or.inl hbefore
      · exact Or.inr ⟨c, List.mem_append_left _ (Option.mem_toList.mpr hc), hconverts⟩
    · exact Or.inr ⟨c, List.mem_append_right _ hc, hconverts⟩

theorem conversions_append {s mid : FillCapture} {before after : List FillEvent}
    (h : execute step s before = some mid) :
    s.conversions (before ++ after) = s.conversions before ++ mid.conversions after := by
  induction before generalizing s with
  | nil =>
    obtain rfl : s = mid := by simpa [execute] using h
    rfl
  | cons e before ih =>
    obtain ⟨next, hnext, hrest⟩ := execute_cons.mp h
    rw [List.cons_append, conversions, conversions, hnext, List.append_assoc]
    exact congrArg _ (ih hrest)

/-- A row that comes in during a run comes in at one event of it, and stays. -/
theorem run_new_row {s s' : FillCapture} {events : List FillEvent}
    (h : execute step s events = some s') {k : String × String} (hnone : s.table.get? k = none)
    {row : FillRow} (hrow : s'.table.get? k = some row) :
    ∃ before e after mid mid', events = before ++ e :: after ∧
      execute step s before = some mid ∧ mid.step e = some mid' ∧
      mid.table.get? k = none ∧ mid'.table.get? k = some row := by
  induction events generalizing s with
  | nil =>
    obtain rfl : s = s' := by simpa [execute] using h
    rw [hnone] at hrow
    cases hrow
  | cons e events ih =>
    obtain ⟨mid, hmid, hrest⟩ := execute_cons.mp h
    cases hfirst : mid.table.get? k with
    | none =>
      obtain ⟨before, e', after, late, late', rfl, hbefore, hstep, habsent, hpresent⟩ :=
        ih hrest hfirst
      exact ⟨e :: before, e', after, late, late', rfl, execute_cons.mpr ⟨mid, hmid, hbefore⟩,
        hstep, habsent, hpresent⟩
    | some first =>
      have hstays := run_keeps_row hrest hfirst
      obtain rfl := Option.some.inj (hstays.symm.trans hrow)
      exact ⟨[], e, events, s, mid, rfl, rfl, hmid, hnone, hfirst⟩

/-- The first write of an execution stays: the row is that of a conversion whose insert found
no row of the key, and where the conversions of the execution agree in the commission, the
currency and the rate, their order makes no difference to the fees. -/
theorem first_write_stays {table : FillsTable} {events : List FillEvent} {s : FillCapture}
    (h : execute step (init table) events = some s) {execId : String}
    (hnew : ("IBKR", execId) ∉ table.keys) {row : FillRow}
    (hrow : s.table.get? ("IBKR", execId) = some row) :
    (∃ before e after mid mid' c written, events = before ++ e :: after ∧
      execute step (init table) before = some mid ∧ mid.step e = some mid' ∧
      mid.table.get? ("IBKR", execId) = none ∧ mid'.table.get? ("IBKR", execId) = some row ∧
      c ∈ (init table).conversions before ∧ c.2.execId = execId ∧
      Converts "IBKR" c.1 c.2 written ∧ row = written.stored) ∧
    ∀ commission currency rate,
      (∀ c ∈ (init table).conversions events, c.2.execId = execId →
        c.2.commission = commission ∧ Python.orElse c.2.currency "USD" = currency ∧
          fillRate c.1 currency = .ok rate) →
      row.fees = storedFees commission currency rate := by
  have hnone : (init table).table.get? ("IBKR", execId) = none :=
    OrderedDict.get?_eq_none_iff.mpr hnew
  obtain ⟨before, e, after, mid, mid', rfl, hbefore, hstep, habsent, hpresent⟩ :=
    run_new_row h hnone hrow
  obtain ⟨written, hwritten, hkey, rfl⟩ := step_new_row hstep habsent hpresent
  obtain ⟨c, hc, hconverts⟩ : ∃ c ∈ (init table).conversions before,
      Converts "IBKR" c.1 c.2 written := by
    rcases run_rowsInFlight hbefore hwritten with hinit | hlater
    · cases hinit
    · exact hlater
  have hexec : c.2.execId = execId := by
    rw [buildFillRow_key hconverts] at hkey
    exact (Prod.mk.inj hkey).2
  refine ⟨⟨before, e, after, mid, mid', c, written, rfl, hbefore, hstep, habsent, hpresent, hc,
    hexec, hconverts, rfl⟩, ?_⟩
  intro commission currency rate hagree
  have hmem : c ∈ (init table).conversions (before ++ e :: after) := by
    rw [conversions_append hbefore]
    exact List.mem_append_left _ hc
  obtain ⟨rfl, rfl, hrate⟩ := hagree c hmem hexec
  obtain ⟨rate', hrate', hfees⟩ := hconverts.stored_fees
  obtain rfl := Except.ok.inj (hrate.symm.trans hrate')
  exact hfees

end FillCapture

/-- The live event comes before the commission report. -/
def earlyFill : Fill := { sampleFill with commission := 0 }

/-- The live write is done before a reconcile run finds the execution with its commission. -/
def liveFirst : List FillEvent :=
  [.execDetails sampleView earlyFill, .persistFill 0, .reconcileFills,
    .executionsReply 0 (.ok [sampleFill]), .nextFill 0 sampleView, .insertFill 0,
    .nextFill 0 sampleView]

/-- The live write is done after the insert of the reconcile run. -/
def reconcileFirst : List FillEvent :=
  [.execDetails sampleView earlyFill, .reconcileFills, .executionsReply 0 (.ok [sampleFill]),
    .nextFill 0 sampleView, .insertFill 0, .nextFill 0 sampleView, .persistFill 0]

theorem live_write_stays :
    ∃ s row, execute FillCapture.step (.init .empty) liveFirst = some s ∧
      s.table.get? ("IBKR", sampleFill.execId) = some row ∧
      (∃ before e after mid mid' c written, liveFirst = before ++ e :: after ∧
        execute FillCapture.step (.init .empty) before = some mid ∧
        mid.step e = some mid' ∧ mid.table.get? ("IBKR", sampleFill.execId) = none ∧
        mid'.table.get? ("IBKR", sampleFill.execId) = some row ∧
        c ∈ (FillCapture.init .empty).conversions before ∧ c.2.execId = sampleFill.execId ∧
        Converts "IBKR" c.1 c.2 written ∧ row = written.stored) ∧
      ∀ commission currency rate,
        (∀ c ∈ (FillCapture.init .empty).conversions liveFirst, c.2.execId = sampleFill.execId →
          c.2.commission = commission ∧ Python.orElse c.2.currency "USD" = currency ∧
            fillRate c.1 currency = .ok rate) →
        row.fees = storedFees commission currency rate := by
  obtain ⟨s, row, hs, hrow⟩ : ∃ s row,
      execute FillCapture.step (.init .empty) liveFirst = some s ∧
        s.table.get? ("IBKR", sampleFill.execId) = some row := by
    have hstored : ((execute FillCapture.step (.init .empty) liveFirst).bind fun s =>
        s.table.get? ("IBKR", sampleFill.execId)).isSome = true := by decide +kernel
    obtain ⟨row, hbind⟩ := Option.isSome_iff_exists.mp hstored
    obtain ⟨s, hs, hrow⟩ := Option.bind_eq_some_iff.mp hbind
    exact ⟨s, row, hs, hrow⟩
  exact ⟨s, row, hs, hrow, FillCapture.first_write_stays hs (by decide) hrow⟩

/-- The live write first: no fee is stored. The reconcile run first: the fee of a dollar is. -/
theorem delivery_order_changes_the_fees :
    ¬ ∀ (events events' : List FillEvent) (s s' : FillCapture),
      execute FillCapture.step (.init .empty) events = some s →
      execute FillCapture.step (.init .empty) events' = some s' →
      (events.flatMap FillEvent.delivered).Perm (events'.flatMap FillEvent.delivered) →
      s.pendingWrites = [] → s.runs = [] → s'.pendingWrites = [] → s'.runs = [] →
      ∀ k row row', s.table.get? k = some row → s'.table.get? k = some row' →
        row.fees = row'.fees := by
  intro h
  obtain ⟨s, hs, hpending, hruns, hrow⟩ : ∃ s,
      execute FillCapture.step (.init .empty) liveFirst = some s ∧ s.pendingWrites = [] ∧
        s.runs = [] ∧ (s.table.get? ("IBKR", sampleFill.execId)).map FillRow.fees =
          some (some 0, some 0, none) :=
    ⟨_, rfl, rfl, rfl, by decide +kernel⟩
  obtain ⟨s', hs', hpending', hruns', hrow'⟩ : ∃ s',
      execute FillCapture.step (.init .empty) reconcileFirst = some s' ∧ s'.pendingWrites = [] ∧
        s'.runs = [] ∧ (s'.table.get? ("IBKR", sampleFill.execId)).map FillRow.fees =
          some (some 1, some 1, none) :=
    ⟨_, rfl, rfl, rfl, by decide +kernel⟩
  obtain ⟨row, hget, hfees⟩ := Option.map_eq_some_iff.mp hrow
  obtain ⟨row', hget', hfees'⟩ := Option.map_eq_some_iff.mp hrow'
  have hsame := h liveFirst reconcileFirst s s' hs hs' (List.Perm.refl _) hpending hruns hpending'
    hruns' _ row row' hget hget'
  rw [hfees, hfees'] at hsame
  exact absurd hsame (by decide)

end PortfolioHub
