import PortfolioHub.FillCapture

namespace PortfolioHub

theorem not_isNan_of_isFinite {x : Python.Float} (h : x.isFinite = true) : x.isNan = false := by
  cases x with
  | finite q => rfl
  | inf neg => rfl
  | nan => cases h

/-- A conversion that does not raise gives a row just when the execution is convertible, and
the row of finite numbers can be stored. -/
theorem buildFillRow_of_clean {fx : FxView} {fill : Fill} (hclean : ¬ RateLookupRaises fx fill) :
    (¬ fill.Convertible ∧ buildFillRow "IBKR" fx fill = .ok none) ∨
      ∃ row, fill.Convertible ∧ buildFillRow "IBKR" fx fill = .ok (some row) ∧
        row.key = fill.key ∧ (fill.Finite → row.storable = true) := by
  have hraises := buildFillRow_error_iff "IBKR" fx fill
  cases hbuild : buildFillRow "IBKR" fx fill with
  | error e => exact absurd (hraises.mp ⟨e, hbuild⟩) hclean
  | ok row? =>
    have hkeep := hbuild
    unfold buildFillRow canonicalSymbol at hbuild
    unfold Fill.Convertible KnownExchange
    split at hbuild
    next hside =>
      obtain rfl := Except.ok.inj hbuild
      exact Or.inl ⟨by simp [hside], rfl⟩
    next side hside =>
      cases hsuffix : ibExchangeToSuffix.lookup fill.primaryExchange with
      | none =>
        rw [hsuffix] at hbuild
        obtain rfl := Except.ok.inj hbuild
        exact Or.inl ⟨by simp, rfl⟩
      | some suffix =>
        rw [hsuffix] at hbuild
        obtain ⟨rate, -, hrow⟩ := Python.bind_eq_ok.mp hbuild
        obtain rfl := Python.pure_eq_ok.mp hrow
        refine Or.inr ⟨_, by simp [hside], rfl, buildFillRow_key hkeep, ?_⟩
        rintro ⟨hshares, hprice, -⟩
        simp [FillRow.storable, not_isNan_of_isFinite hshares, not_isNan_of_isFinite hprice]

theorem perm_eraseIdx {α : Type} {l : List α} {i : ℕ} {a : α} (h : l[i]? = some a) :
    (a :: l.eraseIdx i).Perm l := by
  obtain ⟨hi, rfl⟩ := List.getElem?_eq_some_iff.mp h
  exact List.getElem_cons_eraseIdx_perm hi

namespace ReconcileRun

/-- The keys of the rows the run has yet to insert. -/
def keys : ReconcileRun → List (String × String)
  | .requesting => []
  | .looping fills _ => (fills.filter (·.Convertible)).map Fill.key
  | .inserting row fills _ => row.key :: (fills.filter (·.Convertible)).map Fill.key

/-- What the run has counted so far. -/
def newCount : ReconcileRun → ℕ
  | .requesting => 0
  | .looping _ newCount => newCount
  | .inserting _ _ newCount => newCount

/-- What the run has yet to insert can be stored. -/
def Storable : ReconcileRun → Prop
  | .requesting => True
  | .looping fills _ => ∀ fill ∈ fills, fill.Finite
  | .inserting row fills _ => row.storable = true ∧ ∀ fill ∈ fills, fill.Finite

end ReconcileRun

namespace FillCapture

/-- The keys of the rows on their way to the table. -/
def inFlight (s : FillCapture) : List (String × String) :=
  s.pendingWrites.map FillRow.key ++ s.runs.flatMap ReconcileRun.keys

/-- Every row on its way can be stored. -/
structure Storable (s : FillCapture) : Prop where
  pendingWrites : ∀ row ∈ s.pendingWrites, row.storable = true
  runs : ∀ run ∈ s.runs, run.Storable

/-- The inserts counted so far, by the live path, the runs that are over and those that go on. -/
def counted (s : FillCapture) : ℕ :=
  s.captured + s.newCounts.sum + (s.runs.map ReconcileRun.newCount).sum

/-- The key has a row, or a row of it is on its way. -/
def Held (s : FillCapture) (key : String × String) : Prop := key ∈ s.table.keys ∨ key ∈ s.inFlight

/-- What a stretch of a run in which the executions are delivered does: none of their keys is
lost, no other comes in, and every new row is counted once. -/
structure Advances (s s' : FillCapture) (delivered : List Fill) : Prop where
  storable : s'.Storable
  held : ∀ key, s'.Held key ↔ s.Held key ∨ ∃ fill ∈ delivered, fill.Convertible ∧ key = fill.key
  counted : s'.counted + s.table.keys.length = s.counted + s'.table.keys.length
  grows : ∀ key ∈ s.table.keys, key ∈ s'.table.keys

theorem Advances.refl {s : FillCapture} (hs : s.Storable) : Advances s s [] :=
  ⟨hs, by simp, rfl, fun _ h => h⟩

theorem Advances.trans {s s' s'' : FillCapture} {delivered delivered' : List Fill}
    (h : Advances s s' delivered) (h' : Advances s' s'' delivered') :
    Advances s s'' (delivered ++ delivered') := by
  refine ⟨h'.storable, fun key => ?_, ?_, fun key hkey => h'.grows key (h.grows key hkey)⟩
  · rw [h'.held, h.held, or_assoc]
    simp only [List.mem_append, or_and_right, exists_or]
  · have := h.counted
    have := h'.counted
    omega

/-- A run goes on, or is over: what it does to the table and to its own keys is all. -/
theorem Advances.of_run {s s' : FillCapture} {i : ℕ} {run : ReconcileRun}
    (news : List ReconcileRun) {delivered : List Fill} (hs : s.Storable)
    (hrun : s.runs[i]? = some run) (hpending : s'.pendingWrites = s.pendingWrites)
    (hcaptured : s'.captured = s.captured) (hruns : s'.runs = news ++ s.runs.eraseIdx i)
    (hstorable : ∀ r ∈ news, r.Storable)
    (hkeys : ∀ key, key ∈ s'.table.keys ∨ key ∈ news.flatMap ReconcileRun.keys ↔
      (key ∈ s.table.keys ∨ key ∈ run.keys) ∨
        ∃ fill ∈ delivered, fill.Convertible ∧ key = fill.key)
    (hcount : s'.newCounts.sum + (news.map ReconcileRun.newCount).sum + s.table.keys.length =
      s.newCounts.sum + run.newCount + s'.table.keys.length)
    (hgrows : ∀ key ∈ s.table.keys, key ∈ s'.table.keys) : Advances s s' delivered := by
  have hperm := perm_eraseIdx hrun
  refine ⟨⟨?_, ?_⟩, fun key => ?_, ?_, hgrows⟩
  · rw [hpending]
    exact hs.pendingWrites
  · intro r hr
    rw [hruns] at hr
    rcases List.mem_append.mp hr with hnew | hold
    · exact hstorable r hnew
    · exact hs.runs r (hperm.mem_iff.mp (List.mem_cons_of_mem _ hold))
  · have hold : key ∈ s.runs.flatMap ReconcileRun.keys ↔
        key ∈ run.keys ∨ key ∈ (s.runs.eraseIdx i).flatMap ReconcileRun.keys := by
      rw [← (hperm.flatMap_right ReconcileRun.keys).mem_iff, List.flatMap_cons, List.mem_append]
    have hkey := hkeys key
    simp only [Held, inFlight, hpending, hruns, List.flatMap_append, List.mem_append, hold]
    grind
  · have hsum := (hperm.map ReconcileRun.newCount).sum_eq
    rw [List.map_cons, List.sum_cons] at hsum
    simp only [FillCapture.counted, hcaptured, hruns, List.map_append, List.sum_append]
    omega

theorem onExecDetails_advances {s : FillCapture} (hs : s.Storable) {fx : FxView} {fill : Fill}
    (hfinite : fill.Finite) (hclean : ¬ RateLookupRaises fx fill) :
    Advances s (s.onExecDetails fx fill) [fill] := by
  unfold onExecDetails
  rcases buildFillRow_of_clean hclean with ⟨hnot, hbuild⟩ | ⟨row, hconv, hbuild, hkey, hstorable⟩
  · rw [hbuild]
    refine ⟨hs, fun key => ?_, rfl, fun _ h => h⟩
    simp [hnot]
  · rw [hbuild]
    refine ⟨⟨?_, hs.runs⟩, fun key => ?_, rfl, fun _ h => h⟩
    · intro r hr
      rcases List.mem_cons.mp hr with rfl | hold
      · exact hstorable hfinite
      · exact hs.pendingWrites r hold
    · have hcomes : (∃ f ∈ [fill], f.Convertible ∧ key = f.key) ↔ key = fill.key := by
        simp [hconv]
      rw [hcomes]
      simp only [Held, inFlight, List.map_cons, List.mem_append, List.mem_cons, hkey]
      grind

theorem persistFill_advances {s : FillCapture} (hs : s.Storable) {i : ℕ} {row : FillRow}
    (hrow : s.pendingWrites[i]? = some row) : Advances s (s.persistFill i row) [] := by
  have hperm := perm_eraseIdx hrow
  have hstorable := hs.pendingWrites row (List.mem_of_getElem? hrow)
  refine ⟨⟨?_, hs.runs⟩, fun key => ?_, ?_, ?_⟩
  · intro r hr
    exact hs.pendingWrites r (hperm.mem_iff.mp (List.mem_cons_of_mem _ hr))
  · have hold : key ∈ s.pendingWrites.map FillRow.key ↔
        key = row.key ∨ key ∈ (s.pendingWrites.eraseIdx i).map FillRow.key := by
      rw [← (hperm.map FillRow.key).mem_iff, List.map_cons, List.mem_cons]
    simp only [Held, inFlight, persistFill, mem_keys_insertFill, hstorable, true_and,
      List.mem_append, hold, List.not_mem_nil, false_and, exists_false, or_false]
    grind
  · have hlength := length_keys_insertFill s.table row
    simp only [FillCapture.counted, persistFill]
    split at hlength
    next htrue =>
      rw [if_pos htrue]
      omega
    next hfalse =>
      rw [if_neg hfalse]
      omega
  · intro key hkey
    exact mem_keys_insertFill.mpr (Or.inl hkey)

theorem executionsReturned_advances {s : FillCapture} (hs : s.Storable) {i : ℕ}
    (hrun : s.runs[i]? = some .requesting) {reply : Except Python.Error (List Fill)}
    (hfinite : ∀ fills, reply = .ok fills → ∀ fill ∈ fills, fill.Finite) :
    Advances s (s.executionsReturned i reply) (FillEvent.executionsReply i reply).delivered := by
  cases reply with
  | error e =>
    refine Advances.of_run [] hs hrun rfl rfl rfl (by simp) (fun key => ?_) ?_
      (fun _ h => h)
    · simp [executionsReturned, FillEvent.delivered, ReconcileRun.keys]
    · simp [executionsReturned, ReconcileRun.newCount]
  | ok fills =>
    refine Advances.of_run [.looping fills 0] hs hrun rfl rfl rfl ?_ (fun key => ?_) ?_
      (fun _ h => h)
    · intro r hr
      obtain rfl := List.mem_singleton.mp hr
      exact hfinite fills rfl
    · simp [executionsReturned, FillEvent.delivered, ReconcileRun.keys, and_assoc, eq_comm]
    · simp [executionsReturned, ReconcileRun.newCount]

theorem nextFill_advances {s : FillCapture} (hs : s.Storable) {i : ℕ} {fills : List Fill}
    {newCount : ℕ} (hrun : s.runs[i]? = some (.looping fills newCount)) {fx : FxView}
    (hclean : ∀ fill rest, fills = fill :: rest → ¬ RateLookupRaises fx fill) :
    Advances s (s.nextFill i fx newCount fills) [] := by
  have hfinite : ∀ fill ∈ fills, fill.Finite := hs.runs _ (List.mem_of_getElem? hrun)
  cases fills with
  | nil =>
    refine Advances.of_run [] hs hrun rfl rfl rfl (by simp) (fun key => ?_) ?_
      (fun _ h => h)
    · simp [nextFill, ReconcileRun.keys]
    · simp only [nextFill, ReconcileRun.newCount, List.sum_cons, List.map_nil, List.sum_nil]
      omega
  | cons fill rest =>
    have hrest : ∀ fill ∈ rest, fill.Finite := fun f hf => hfinite f (List.mem_cons_of_mem _ hf)
    unfold nextFill
    dsimp only
    rcases buildFillRow_of_clean (hclean fill rest rfl) with
      ⟨hnot, hbuild⟩ | ⟨row, hconv, hbuild, hkey, hstorable⟩
    · rw [hbuild]
      refine Advances.of_run [.looping rest newCount] hs hrun rfl rfl rfl ?_
        (fun key => ?_) rfl (fun _ h => h)
      · intro r hr
        obtain rfl := List.mem_singleton.mp hr
        exact hrest
      · simp [ReconcileRun.keys, hnot]
    · rw [hbuild]
      refine Advances.of_run [.inserting row rest newCount] hs hrun rfl rfl rfl ?_
        (fun key => ?_) rfl (fun _ h => h)
      · intro r hr
        obtain rfl := List.mem_singleton.mp hr
        exact ⟨hstorable (hfinite fill List.mem_cons_self), hrest⟩
      · simp [ReconcileRun.keys, hconv, hkey]

theorem insertReturned_advances {s : FillCapture} (hs : s.Storable) {i : ℕ} {row : FillRow}
    {fills : List Fill} {newCount : ℕ}
    (hrun : s.runs[i]? = some (.inserting row fills newCount)) :
    Advances s (s.insertReturned i row fills newCount) [] := by
  obtain ⟨hstorable, hfinite⟩ : row.storable = true ∧ ∀ fill ∈ fills, fill.Finite :=
    hs.runs _ (List.mem_of_getElem? hrun)
  refine Advances.of_run [.looping fills
    (if (insertFill s.table row).2 then newCount + 1 else newCount)] hs hrun rfl rfl rfl ?_
    (fun key => ?_) ?_ fun key hkey => mem_keys_insertFill.mpr (Or.inl hkey)
  · intro r hr
    obtain rfl := List.mem_singleton.mp hr
    exact hfinite
  · simp [insertReturned, ReconcileRun.keys, mem_keys_insertFill, hstorable, or_assoc]
  · have hlength := length_keys_insertFill s.table row
    simp only [insertReturned, ReconcileRun.newCount, List.map_cons, List.map_nil, List.sum_cons,
      List.sum_nil]
    split at hlength
    next htrue =>
      rw [if_pos htrue]
      omega
    next hfalse =>
      rw [if_neg hfalse]
      omega

/-- What one clean event does. -/
theorem step_advances {s s' : FillCapture} {e : FillEvent} (hs : s.Storable)
    (hclean : FillEvent.Clean s e) (h : s.step e = some s') : Advances s s' e.delivered := by
  unfold step at h
  cases e with
  | execDetails fx fill =>
    obtain rfl := Option.some.inj h
    exact onExecDetails_advances hs hclean.1 hclean.2
  | persistFill i =>
    dsimp only at h
    split at h
    next row hrow =>
      obtain rfl := Option.some.inj h
      exact persistFill_advances hs hrow
    next => cases h
  | reconcileFills =>
    obtain rfl := Option.some.inj h
    refine ⟨⟨hs.pendingWrites, ?_⟩, fun key => ?_, by simp [counted, ReconcileRun.newCount],
      fun _ h => h⟩
    · intro run hrun
      rcases List.mem_cons.mp hrun with rfl | hold
      · trivial
      · exact hs.runs run hold
    · simp [Held, inFlight, ReconcileRun.keys, FillEvent.delivered]
  | executionsReply i reply =>
    dsimp only at h
    split at h
    next hrun =>
      obtain rfl := Option.some.inj h
      refine executionsReturned_advances hs hrun ?_
      rintro fills rfl
      exact hclean
    next => cases h
  | nextFill i fx =>
    dsimp only at h
    split at h
    next fills newCount hrun =>
      obtain rfl := Option.some.inj h
      refine nextFill_advances hs hrun ?_
      rintro fill rest rfl
      simpa only [FillEvent.Clean, hrun] using hclean
    next => cases h
  | insertFill i =>
    dsimp only at h
    split at h
    next row fills newCount hrun =>
      obtain rfl := Option.some.inj h
      exact insertReturned_advances hs hrun
    next => cases h

theorem run_advances {s s' : FillCapture} {events : List FillEvent} (hs : s.Storable)
    (h : execute (restrict step FillEvent.Clean) s events = some s') :
    Advances s s' (events.flatMap FillEvent.delivered) := by
  induction events generalizing s with
  | nil =>
    obtain rfl : s = s' := by simpa [execute] using h
    exact Advances.refl hs
  | cons e events ih =>
    obtain ⟨mid, hclean, hmid, hrest⟩ := Reaches.execute_restrict_cons.mp h
    have hstep := step_advances hs hclean hmid
    rw [List.flatMap_cons]
    exact hstep.trans (ih hstep.storable hrest)

/-- Fills are captured exactly once: when the writes have drained and the reconcile runs are
over, the table has the convertible executions delivered, each in one row, and the inserts
counted are the keys that came in. -/
theorem fills_captured_once {table : FillsTable} {events : List FillEvent} {s : FillCapture}
    (h : execute (restrict step FillEvent.Clean) (init table) events = some s)
    (hpending : s.pendingWrites = []) (hruns : s.runs = []) :
    (∀ key, key ∈ s.table.keys ↔ key ∈ table.keys ∨
      ∃ fill ∈ events.flatMap FillEvent.delivered, fill.Convertible ∧ key = fill.key) ∧
    s.table.keys.Nodup ∧
    s.captured + s.newCounts.sum = (s.table.keys.toFinset \ table.keys.toFinset).card := by
  have hinit : (init table).Storable := ⟨by simp [init], by simp [init]⟩
  obtain ⟨-, hheld, hcounted, hgrows⟩ := run_advances hinit h
  refine ⟨fun key => ?_, s.table.nodup, ?_⟩
  · have hkey := hheld key
    simp only [Held, inFlight, hpending, hruns] at hkey
    simpa [init] using hkey
  · have hsubset : table.keys.toFinset ⊆ s.table.keys.toFinset := by
      intro key hkey
      exact List.mem_toFinset.mpr (hgrows key (List.mem_toFinset.mp hkey))
    have hnew : s.table.keys.toFinset.card = s.table.keys.length :=
      List.toFinset_card_of_nodup s.table.nodup
    have hold : table.keys.toFinset.card = table.keys.length :=
      List.toFinset_card_of_nodup table.nodup
    rw [Finset.card_sdiff_of_subset hsubset, hnew, hold]
    simp only [counted, hruns, init] at hcounted
    simp only [List.map_nil, List.sum_nil, Nat.add_zero] at hcounted
    omega

end FillCapture

/-- The share is bought live, and a reconcile run that was under way finds it as well as a
purchase that the live stream missed. -/
theorem missed_fill_is_captured :
    ∃ s, execute (restrict FillCapture.step FillEvent.Clean) (.init .empty)
        [.reconcileFills, .execDetails sampleView sampleFill,
          .executionsReply 0 (.ok [sampleFill, { sampleFill with execId := "2" }]),
          .nextFill 0 sampleView, .persistFill 0, .insertFill 0, .nextFill 0 sampleView,
          .insertFill 0, .nextFill 0 sampleView] = some s ∧
      s.newCounts = [1] ∧
      (∀ key, key ∈ s.table.keys ↔ key ∈ (OrderedDict.empty : FillsTable).keys ∨
        ∃ fill ∈ [sampleFill, sampleFill, { sampleFill with execId := "2" }],
          fill.Convertible ∧ key = fill.key) ∧
      s.table.keys.Nodup ∧ s.captured + s.newCounts.sum =
        (s.table.keys.toFinset \ (OrderedDict.empty : FillsTable).keys.toFinset).card := by
  obtain ⟨s, hs, hpending, hruns, hcounts⟩ : ∃ s,
      execute (restrict FillCapture.step FillEvent.Clean) (.init .empty)
        [.reconcileFills, .execDetails sampleView sampleFill,
          .executionsReply 0 (.ok [sampleFill, { sampleFill with execId := "2" }]),
          .nextFill 0 sampleView, .persistFill 0, .insertFill 0, .nextFill 0 sampleView,
          .insertFill 0, .nextFill 0 sampleView] = some s ∧
        s.pendingWrites = [] ∧ s.runs = [] ∧ s.newCounts = [1] :=
    ⟨_, rfl, by decide +kernel, by decide +kernel, by decide +kernel⟩
  exact ⟨s, hs, hcounts, FillCapture.fills_captured_once hs hpending hruns⟩

end PortfolioHub
