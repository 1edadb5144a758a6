import PortfolioHub.AdapterCalls
import PortfolioHub.Emitted

namespace PortfolioHub

/-- An adapter publishes rows under its own name. -/
theorem Adapter.getPositions_own {fx : FxView} {a : Adapter} {rows : List Position}
    (h : a.getPositions fx = .ok rows) : ∀ p ∈ rows, p.broker = a.name.text := by
  intro p hp
  cases a with
  | ibkr state session =>
    cases session with
    | none =>
      obtain rfl := Except.ok.inj h
      simp at hp
    | some session => exact getPositions_broker h hp
  | futu state accounts positions summary =>
    dsimp only [getPositions] at h
    split at h
    next =>
      obtain rfl := Except.ok.inj h
      simp at hp
    next =>
      obtain ⟨replies, -, h⟩ := Python.bind_eq_ok.mp h
      dsimp only at h
      split at h
      next => simp at h
      next =>
        obtain ⟨infoRows, -, h⟩ := Python.bind_eq_ok.mp h
        obtain rfl := Python.pure_eq_ok.mp h
        rcases List.mem_append.mp hp with hstock | hcash
        · obtain ⟨k, hk⟩ := OrderedDict.mem_values_iff.mp hstock
          rw [OrderedDict.get?_ofList] at hk
          obtain ⟨q, hq, heq⟩ := List.mem_map.mp (List.mem_reverse.mp (OrderedDict.mem_of_lookup hk))
          obtain ⟨-, rfl⟩ := Prod.mk.inj heq
          obtain ⟨row, -, hfound⟩ := List.mem_filterMap.mp hq
          exact (futuPositionFromRow_stockOf hfound).broker
        · obtain ⟨row, -, hfound⟩ := List.mem_filterMap.mp hcash
          obtain rfl := futuCashPositionFromAccountRow_eq hfound
          rfl
  | longbridge state settings positions summary =>
    dsimp only [getPositions] at h
    split at h
    next =>
      obtain rfl := Except.ok.inj h
      simp at hp
    next =>
      obtain ⟨stocks, -, h⟩ := Python.bind_eq_ok.mp h
      obtain ⟨quotes, -, h⟩ := Python.bind_eq_ok.mp h
      obtain ⟨statics, -, h⟩ := Python.bind_eq_ok.mp h
      obtain ⟨balances, -, h⟩ := Python.bind_eq_ok.mp h
      obtain rfl := Python.pure_eq_ok.mp h
      rcases List.mem_append.mp hp with hstock | hcash
      · obtain ⟨row, -, hfound⟩ := List.mem_filterMap.mp hstock
        dsimp only at hfound
        split at hfound
        next => simp at hfound
        next =>
          split at hfound
          next position hposition =>
            obtain rfl := hfound
            exact (longbridgePositionFromStockRow_stockOf hposition).broker
          next => simp at hfound
      · obtain ⟨e, -, rfl⟩ := List.mem_map.mp hcash
        rfl
  | tiger state settings accounts positions summary =>
    dsimp only [getPositions] at h
    split at h
    next =>
      obtain rfl := Except.ok.inj h
      simp at hp
    next =>
      obtain ⟨accountRows, -, h⟩ := Python.bind_eq_ok.mp h
      obtain ⟨quotes, -, h⟩ := Python.bind_eq_ok.mp h
      obtain ⟨snapshots, -, h⟩ := Python.bind_eq_ok.mp h
      obtain rfl := Python.pure_eq_ok.mp h
      rcases List.mem_append.mp hp with hstock | hcash
      · obtain ⟨row, -, hfound⟩ := List.mem_filterMap.mp hstock
        split at hfound
        next position hposition =>
          obtain rfl := hfound
          obtain ⟨contract, -, hstock⟩ := tigerPositionFromRow_stockOf hposition
          exact hstock.broker
        next => simp at hfound
      · obtain ⟨snapshot, -, hrow⟩ := List.mem_flatMap.mp hcash
        obtain ⟨e, -, rfl⟩ := List.mem_map.mp hrow
        rfl

theorem BrokerName.text_ne_ibkr {name : BrokerName} (h : name ≠ .ibkr) : name.text ≠ "IBKR" := by
  cases name with
  | ibkr => exact absurd rfl h
  | futu => decide
  | tiger => decide
  | longbridge => decide

/-- The rows a polling adapter has fetched, as a refresh of its namespace. -/
def Adapter.refresh {fx : FxView} {a : Adapter} {rows : List Position}
    (h : a.getPositions fx = .ok rows) (hpolling : a.name ≠ .ibkr) : ForeignRefresh where
  broker := a.name.text
  positions := rows
  notIbkr := BrokerName.text_ne_ibkr hpolling
  own := getPositions_own h

end PortfolioHub
