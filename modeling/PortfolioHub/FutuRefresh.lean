import PortfolioHub.PollRefresh
import PortfolioHub.PolledFetch

namespace PortfolioHub

/-- `_refresh_live_positions`: the store behind it, and what it raises. -/
def FutuReplies.refreshLivePositions (fx : FxView) (r : FutuReplies) (state : ConnectionState)
    (accounts : List FutuAccount) (live : LivePositions) : LivePositions × Option Python.Error :=
  if state ≠ .connected then (live, none)
  else
    match r.getPositions fx accounts with
    | .error e => (live, some e)
    | .ok positions => (live.replaceBroker "Futu" positions, none)

/-- The contexts that a refresh queries positions on. -/
def futuContexts (accounts : List FutuAccount) : List (String × String) :=
  accounts.flatMap fun account => account.markets.map fun market => (account.accountId, market)

/-- The position query of the context raises or answers with an error code. -/
def FutuReplies.PositionFails (r : FutuReplies) (context : String × String) : Prop :=
  ∀ rows, r.positionRows context ≠ .ok (some rows)

/-- The account-info query answers with an error code. -/
def FutuReplies.InfoRefused (r : FutuReplies) (account : FutuAccount) : Prop :=
  account.markets ≠ [] ∧ r.infoRaises account = none ∧ r.accinfo account.accountId = .ok none

/-- A query of the refresh fails. -/
def FutuReplies.Fails (r : FutuReplies) (accounts : List FutuAccount) : Prop :=
  (∃ context ∈ futuContexts accounts, r.PositionFails context) ∨
    ∃ account ∈ accounts, r.infoRaises account ≠ none ∨ r.InfoRefused account

/-- An account-info query answers with an error code, and every other failure is of this kind. -/
def FutuReplies.OnlyRefused (r : FutuReplies) (accounts : List FutuAccount) : Prop :=
  (∀ context ∈ futuContexts accounts, ¬ r.PositionFails context) ∧
    (∀ account ∈ accounts, r.infoRaises account = none) ∧
    ∃ account ∈ accounts, r.InfoRefused account

variable {fx : FxView} {r : FutuReplies} {accounts : List FutuAccount}

theorem accountInfoRows_defined_iff :
    (∃ rows, r.accountInfoRows accounts = .ok rows) ↔
      ∀ account ∈ accounts, r.infoRaises account = none := by
  have hraised : Python.raised (r.accountInfoRows accounts) = accounts.findSome? r.infoRaises := by
    have hsummary := raised_futu_accountSummary ⟨none, 0⟩ r accounts
    unfold FutuReplies.accountSummary at hsummary
    rwa [Python.raised_bind_pure] at hsummary
  have hok : (∃ rows, r.accountInfoRows accounts = .ok rows) ↔
      Python.raised (r.accountInfoRows accounts) = none := by
    cases r.accountInfoRows accounts with
    | ok rows => simp [Python.raised]
    | error e => simp [Python.raised]
  rw [hok, hraised, List.findSome?_eq_none_iff]

/-- The fetch returns just where no position query fails and no account-info query raises. -/
theorem futu_getPositions_defined_iff :
    (∃ positions, r.getPositions fx accounts = .ok positions) ↔
      (∀ context ∈ futuContexts accounts, ¬ r.PositionFails context) ∧
        ∀ account ∈ accounts, r.infoRaises account = none := by
  rw [← accountInfoRows_defined_iff]
  constructor
  · rintro ⟨positions, h⟩
    obtain ⟨replies, hreplies, h⟩ := Python.bind_eq_ok.mp h
    dsimp only at h
    split at h
    next => simp at h
    next hfailures =>
      obtain ⟨infoRows, hinfo, -⟩ := Python.bind_eq_ok.mp h
      refine ⟨fun context hcontext hfails => ?_, infoRows, hinfo⟩
      obtain ⟨reply, hrow⟩ := Python.mapM_defined_iff.mp ⟨replies, hreplies⟩ context hcontext
      have hreply := (Python.mem_mapM_iff hreplies).mpr ⟨context, hcontext, hrow⟩
      cases reply with
      | none => exact hfailures (List.ne_nil_of_mem (List.mem_filter.mpr ⟨hreply, rfl⟩))
      | some rows => exact hfails rows hrow
  · rintro ⟨hpositions, infoRows, hinfo⟩
    have hdefined : ∀ context ∈ futuContexts accounts, ∃ rows, r.positionRows context = .ok rows := by
      intro context hcontext
      by_contra hnone
      exact hpositions context hcontext fun rows hrows => hnone ⟨some rows, hrows⟩
    obtain ⟨replies, hreplies⟩ := Python.mapM_defined_iff.mpr hdefined
    have hfailures : replies.filter (· = none) = [] := by
      rw [List.filter_eq_nil_iff]
      intro reply hreply hnone
      obtain ⟨context, hcontext, hrow⟩ :=
        (Python.mem_mapM_iff hreplies).mp hreply
      rw [of_decide_eq_true hnone] at hrow
      refine hpositions context hcontext fun rows hrows => ?_
      exact absurd (hrow.symm.trans hrows) (by simp)
    refine Python.bind_defined ⟨replies, hreplies⟩ fun replies' hreplies' => ?_
    obtain rfl := Except.ok.inj (hreplies.symm.trans hreplies')
    dsimp only
    rw [if_neg (by simp [hfailures])]
    exact Python.bind_defined ⟨infoRows, hinfo⟩ fun rows _ => ⟨_, rfl⟩

/-- Where only account-info queries are refused, a store without a Futu row gets the rows
fetched, or one with a row loses it. -/
theorem FutuReplies.OnlyRefused.changes (h : r.OnlyRefused accounts) (fx : FxView) :
    ∃ live key, key.1 = "Futu" ∧
      ((r.refreshLivePositions fx .connected accounts live).1.positions.get? key) ≠
        live.positions.get? key := by
  obtain ⟨positions, hpositions⟩ := futu_getPositions_defined_iff.mpr ⟨h.1, h.2.1⟩
  have hrefresh : ∀ live, r.refreshLivePositions fx .connected accounts live =
      (live.replaceBroker "Futu" positions, none) := by
    intro live
    unfold FutuReplies.refreshLivePositions
    rw [if_neg (by simp), hpositions]
  cases positions with
  | nil =>
    refine ⟨LivePositions.empty.setPosition (cashRow "Futu" "" "USD" 1 fx),
      (cashRow "Futu" "" "USD" 1 fx).key, rfl, ?_⟩
    rw [hrefresh, LivePositions.get?_replaceBroker, LivePositions.get?_setPosition, if_pos rfl]
    exact Option.some_ne_none _ |>.symm
  | cons position positions =>
    have hown : position.broker = "Futu" :=
      Adapter.getPositions_own (a := .futu .connected accounts r r) hpositions position (by simp)
    refine ⟨.empty, position.key, hown, ?_⟩
    obtain ⟨row, hrow⟩ := get?_byKey_of_mem (List.mem_cons_self (a := position) (l := positions))
    rw [hrefresh, LivePositions.get?_replaceBroker, hrow]
    exact Option.some_ne_none _

/-- A refresh with a failing query leaves the Futu rows of every store as they were, just where
no query is made or the failures are not account-info queries alone that are refused. -/
theorem failed_refresh_keeps_rows_iff (fx : FxView) (r : FutuReplies) (state : ConnectionState)
    (accounts : List FutuAccount) :
    (r.Fails accounts → ∀ (live : LivePositions) (key : PositionKey), key.1 = "Futu" →
      (r.refreshLivePositions fx state accounts live).1.positions.get? key =
        live.positions.get? key) ↔
      state ≠ .connected ∨ ¬ r.OnlyRefused accounts := by
  constructor
  · intro hkeeps
    by_contra hnot
    obtain ⟨hstate, honly⟩ := not_or.mp hnot
    obtain rfl := not_not.mp hstate
    obtain ⟨account, haccount, hrefused⟩ := (not_not.mp honly).2.2
    obtain ⟨live, key, hkey, hchanges⟩ := (not_not.mp honly).changes fx
    exact hchanges (hkeeps (Or.inr ⟨account, haccount, Or.inr hrefused⟩) live key hkey)
  · rintro hcondition hfails live key -
    unfold FutuReplies.refreshLivePositions
    split
    next => rfl
    next hstate =>
      have honly : ¬ r.OnlyRefused accounts := hcondition.resolve_left hstate
      cases hpositions : r.getPositions fx accounts with
      | error e => rfl
      | ok positions =>
        obtain ⟨hqueries, hinfo⟩ := futu_getPositions_defined_iff.mp ⟨positions, hpositions⟩
        refine absurd ⟨hqueries, hinfo, ?_⟩ honly
        rcases hfails with ⟨context, hcontext, hfails⟩ | ⟨account, haccount, hraises | hrefused⟩
        · exact absurd hfails (hqueries context hcontext)
        · exact absurd (hinfo account haccount) hraises
        · exact ⟨account, haccount, hrefused⟩

/-- The positions are answered, the account info is not. -/
def refusedInfoReplies : FutuReplies where
  positionList _ _ := .ok (some [])
  accinfo _ := .ok none

/-- The cash row that the account has in the store is gone behind the refresh. -/
theorem refused_info_query_drops_the_cash_row :
    refusedInfoReplies.Fails [⟨"1", ["US"]⟩] ∧
      (LivePositions.empty.setPosition (cashRow "Futu" "1" "USD" 100 ⟨none, 0⟩)).positions.get?
        ("Futu", "1", "USD") = some (cashRow "Futu" "1" "USD" 100 ⟨none, 0⟩) ∧
      (refusedInfoReplies.refreshLivePositions ⟨none, 0⟩ .connected [⟨"1", ["US"]⟩]
        (LivePositions.empty.setPosition
          (cashRow "Futu" "1" "USD" 100 ⟨none, 0⟩))).1.positions.get? ("Futu", "1", "USD") = none := by
  refine ⟨Or.inr ⟨_, List.mem_singleton_self _, Or.inr ⟨by simp, by decide +kernel, rfl⟩⟩, ?_, ?_⟩
  · decide +kernel
  · decide +kernel

end PortfolioHub
