import PortfolioHub.GatewayRestart
import PortfolioHub.IndexRoute

namespace PortfolioHub

/-- `state_to_string`. -/
def ConnectionState.text : ConnectionState → String
  | .connected => "connected"
  | .reconnecting => "reconnecting"
  | .disconnected => "disconnected"

/-- `_env_bool`. -/
def envBool (env : Environ) (name : String) (default : Bool) : Bool :=
  match env name with
  | none => default
  | some raw => Python.lower (Python.strip raw) ∈ ["1", "true", "yes", "on"]

def isAscii (s : String) : Bool := s.toList.all fun c => decide (c.toNat < 128)

def internalServerError : AdminAnswer := .error 500 "Internal Server Error"

/-- `_require_admin_token`, on the `X-Admin-Token` of the request. `compare_digest` raises on
texts outside ASCII. -/
def requireAdminToken (env : Environ) (header : Option String) : Except AdminAnswer Unit :=
  let expected := (env "ADMIN_TOKEN").getD ""
  if expected = "" then
    if envBool env "ADMIN_ALLOW_NO_AUTH" false then .ok ()
    else .error (.error 503 ("admin auth not configured: set ADMIN_TOKEN, or " ++
      "ADMIN_ALLOW_NO_AUTH=1 for trusted local/dev use"))
  else
    let provided := header.getD ""
    if !(isAscii provided && isAscii expected) then .error internalServerError
    else if provided = expected then .ok ()
    else .error (.error 401 "invalid admin token")

/-- What `admin_ibkr_gateway_restart` makes of an error of `restart_gateway()`. -/
def GatewayError.answer : GatewayError → AdminAnswer
  | .disabled message => .error 503 message
  | .failed _ _ _ _ => .error 502 "gateway restart command failed"

/-- `admin_ibkr_gateway_restart` up to the command: the answer to the request, or the arguments
and the timeout the command is run with. -/
def adminGatewayRestart (env : Environ) (header : Option String) :
    Except AdminAnswer (List (List Char) × Python.Float) := do
  requireAdminToken env header
  (gatewayArguments env).mapError GatewayError.answer

namespace Broker

/-- `get_connection_states` of a composite. -/
def connectionStates (adapters : Adapters) (names : List BrokerName) :
    OrderedDict String ConnectionState :=
  .ofList (names.map fun name => (name.text, (adapters.get name).connectionState))

/-- `broker_status_map`. -/
def statusMap (adapters : Adapters) : Broker → OrderedDict String String
  | .adapter name => .ofList [(Python.lower name.text, (adapters.get name).connectionState.text)]
  | .composite names =>
    .ofList ((connectionStates adapters names).entries.map fun e => (Python.lower e.1, e.2.text))

/-- `current_backoff_delay`, from the delays of the adapters. -/
def currentBackoffDelay (delays : BrokerName → Option ℚ) : Broker → Option ℚ
  | .adapter name => delays name
  | .composite names => names.findSome? delays

end Broker

/-- `_status_label`. -/
def statusLabel (statuses : OrderedDict String String) : String :=
  if statuses.entries.length ≤ 1 then
    let name := statuses.keys.head?.getD "ibkr"
    ([("ibkr", "IBKR"), ("futu", "Futu"), ("tiger", "Tiger"), ("longbridge", "Longbridge")].lookup
      name).getD (Python.upper name)
  else "Brokers"

def gatewayRestartVisible (statuses : OrderedDict String String) (env : Environ) : Bool :=
  gatewayCommand env ≠ "" && envBool env "ADMIN_ALLOW_NO_AUTH" false &&
    (env "ADMIN_TOKEN").getD "" = "" &&
      (statuses.get? "ibkr" = some "reconnecting" ∨ statuses.get? "ibkr" = some "disconnected")

/-- The buttons of the badge with the requests they post. -/
inductive BadgeAction where
  | retryNow
  | restartGateway
deriving DecidableEq, Repr

/-- The fragment of `status_badge.html`. -/
structure StatusBadge where
  state : ConnectionState
  text : String
  banner : Option String
  actions : List BadgeAction
deriving DecidableEq, Repr

def statusBadge (state : ConnectionState) (backoffDelay : Option ℚ) (label : String)
    (restartVisible : Bool) : StatusBadge :=
  let actions := .retryNow :: if restartVisible then [.restartGateway] else []
  match state with
  | .connected => ⟨state, "🟢 " ++ label ++ " connected", none, []⟩
  | .reconnecting =>
    let delay := match backoffDelay with
      | some delay => " (" ++ toString (Int.tdiv delay.num delay.den) ++ "s)"
      | none => ""
    ⟨state, "🟡 " ++ label ++ " reconnecting" ++ delay,
      some (label ++ " reconnecting… showing last-known prices."), actions⟩
  | .disconnected => ⟨state, "🔴 " ++ label ++ " disconnected", none, actions⟩

/-- What a request to `/healthz` is answered: the states of the brokers, or the badge to a request
of the page. -/
inductive HealthAnswer where
  | states (statuses : OrderedDict String String)
  | badge (badge : StatusBadge)

/-- The badge of `healthz` and of `healthz_retry`: the state of the broker is read at one moment,
the states by broker at a later one. -/
def healthBadge (env : Environ) (broker : Broker) (delays : BrokerName → Option ℚ)
    (first second : Adapters) : StatusBadge :=
  let statuses := broker.statusMap second
  statusBadge (broker.connectionState first) (broker.currentBackoffDelay delays)
    (statusLabel statuses) (gatewayRestartVisible statuses env)

def healthz (env : Environ) (broker : Broker) (htmx : Option String) (delays : BrokerName → Option ℚ)
    (first second : Adapters) : HealthAnswer :=
  if Python.lower (htmx.getD "") = "true" then .badge (healthBadge env broker delays first second)
  else .states (broker.statusMap second)

/-- A dictionary of pairs with different keys has these pairs. -/
theorem entries_ofList_of_nodup {κ α : Type} [DecidableEq κ] {es : List (κ × α)}
    (h : (es.map Prod.fst).Nodup) : (OrderedDict.ofList es).entries = es := by
  have hfold : ∀ (more : List (κ × α)) (d : OrderedDict κ α),
      ((d.entries ++ more).map Prod.fst).Nodup → (d.update more).entries = d.entries ++ more := by
    intro more
    induction more with
    | nil => simp [OrderedDict.update]
    | cons e more ih =>
      intro d hd
      have hnew : e.1 ∉ d.entries.map Prod.fst := by
        rw [List.map_append, List.map_cons, List.nodup_middle, List.nodup_cons] at hd
        exact fun hmem => hd.1 (List.mem_append_left _ hmem)
      have hinsert : (d.insert e.1 e.2).entries = d.entries ++ [e] := OrderedDict.upsert_of_notMem hnew
      have hrest := ih (d.insert e.1 e.2) (by rwa [hinsert, List.append_assoc])
      rw [hinsert, List.append_assoc] at hrest
      exact hrest
  exact hfold es .empty h

theorem lower_text_injective : Function.Injective fun name : BrokerName => Python.lower name.text := by
  intro a b hab
  revert hab
  cases a <;> cases b <;> decide

theorem text_injective : Function.Injective BrokerName.text := by
  intro a b hab
  exact lower_text_injective (congrArg Python.lower hab)

section Built

variable {enabled : List BrokerName} {broker : Broker}

theorem children_of_built (h : buildProductionBroker enabled = .ok broker) :
    broker.children = enabledAdapters enabled := by
  unfold buildProductionBroker at h
  split at h
  next => cases h
  next name hnames =>
    obtain rfl := Except.ok.inj h
    exact hnames.symm
  next =>
    obtain rfl := Except.ok.inj h
    rfl

theorem mem_enabledAdapters {name : BrokerName} : name ∈ enabledAdapters enabled ↔ name ∈ enabled := by
  unfold enabledAdapters
  rw [List.mem_filter]
  cases name <;> simp

theorem nodup_enabledAdapters : (enabledAdapters enabled).Nodup := by
  have hall : [BrokerName.ibkr, .futu, .longbridge, .tiger].Nodup := by decide
  exact hall.filter _

end Built

section States

variable {broker : Broker} {adapters : Adapters}

theorem compositeState_connected_iff {states : List ConnectionState} (h : states ≠ []) :
    compositeState states = .connected ↔ ∀ state ∈ states, state = .connected := by
  unfold compositeState
  rw [if_neg h]
  split
  next hall => exact iff_of_true rfl hall
  next hnot =>
    split
    · simp [hnot]
    · simp [hnot]

theorem compositeState_disconnected_iff {states : List ConnectionState} (h : states ≠ []) :
    compositeState states = .disconnected ↔ ∀ state ∈ states, state = .disconnected := by
  unfold compositeState
  rw [if_neg h]
  split
  next hall =>
    obtain ⟨state, hstate⟩ := List.exists_mem_of_ne_nil _ h
    have hup := hall state hstate
    constructor
    · intro heq
      cases heq
    · intro hdown
      rw [hdown state hstate] at hup
      cases hup
  next =>
    split
    next hany =>
      obtain ⟨state, hstate, hup⟩ := hany
      constructor
      · intro heq
        cases heq
      · intro hdown
        rw [hdown state hstate] at hup
        simp at hup
    next hnone =>
      refine iff_of_true rfl fun state hstate => ?_
      cases state with
      | disconnected => rfl
      | connected => exact absurd ⟨_, hstate, Or.inl rfl⟩ hnone
      | reconnecting => exact absurd ⟨_, hstate, Or.inr rfl⟩ hnone

theorem Broker.connected_iff (h : broker.children ≠ []) :
    broker.connectionState adapters = .connected ↔
      ∀ name ∈ broker.children, (adapters.get name).connectionState = .connected := by
  cases broker with
  | adapter name => simp [Broker.connectionState, Broker.children]
  | composite names =>
    have hne : names.map (fun name => (adapters.get name).connectionState) ≠ [] := by
      simpa [Broker.children] using h
    have hstates := compositeState_connected_iff hne
    simpa [Broker.connectionState, Broker.children] using hstates

theorem Broker.disconnected_iff (h : broker.children ≠ []) :
    broker.connectionState adapters = .disconnected ↔
      ∀ name ∈ broker.children, (adapters.get name).connectionState = .disconnected := by
  cases broker with
  | adapter name => simp [Broker.connectionState, Broker.children]
  | composite names =>
    have hne : names.map (fun name => (adapters.get name).connectionState) ≠ [] := by
      simpa [Broker.children] using h
    have hstates := compositeState_disconnected_iff hne
    simpa [Broker.connectionState, Broker.children] using hstates

/-- The health view has the state of every adapter under its name in lower case. -/
theorem Broker.entries_statusMap (h : broker.children.Nodup) :
    (broker.statusMap adapters).entries = broker.children.map fun name =>
      (Python.lower name.text, (adapters.get name).connectionState.text) := by
  cases broker with
  | adapter name => rfl
  | composite names =>
    have hnodup : names.Nodup := h
    have hstates : (Broker.connectionStates adapters names).entries =
        names.map fun name => (name.text, (adapters.get name).connectionState) := by
      apply entries_ofList_of_nodup
      rw [List.map_map]
      exact List.Nodup.map text_injective hnodup
    unfold Broker.statusMap
    dsimp only [Broker.children]
    rw [hstates, List.map_map]
    apply entries_ofList_of_nodup
    rw [List.map_map]
    exact List.Nodup.map lower_text_injective hnodup

theorem Broker.get?_statusMap (h : broker.children.Nodup) (name : BrokerName)
    (state : ConnectionState) :
    (broker.statusMap adapters).get? (Python.lower name.text) = some state.text ↔
      name ∈ broker.children ∧ (adapters.get name).connectionState = state := by
  have hstate : ∀ a b : ConnectionState, a.text = b.text ↔ a = b := by
    intro a b
    cases a <;> cases b <;> decide
  rw [OrderedDict.get?_eq_some_iff, Broker.entries_statusMap h, List.mem_map]
  constructor
  · intro hmem
    obtain ⟨other, hother, heq⟩ := hmem
    obtain ⟨hname, htext⟩ := Prod.mk.inj heq
    obtain rfl := lower_text_injective hname
    exact ⟨hother, (hstate _ _).mp htext⟩
  · intro hmem
    exact ⟨name, hmem.1, by rw [hmem.2]⟩

end States

/-- A request for the restart gets as far as trying the configured command. -/
def RestartTried (env : Environ) (header : Option String) : Prop :=
  ∀ answer, adminGatewayRestart env header = .error answer →
    answer = .error 502 "gateway restart command failed"

/-- Who may use the admin routes: anyone where no token is set and that is allowed, else who
sends the token. -/
theorem requireAdminToken_eq_ok_iff (env : Environ) (header : Option String) :
    requireAdminToken env header = .ok () ↔
      ((env "ADMIN_TOKEN").getD "" = "" ∧ envBool env "ADMIN_ALLOW_NO_AUTH" false = true) ∨
        ((env "ADMIN_TOKEN").getD "" ≠ "" ∧ isAscii ((env "ADMIN_TOKEN").getD "") = true ∧
          header.getD "" = (env "ADMIN_TOKEN").getD "") := by
  unfold requireAdminToken
  generalize (env "ADMIN_TOKEN").getD "" = expected
  generalize header.getD "" = provided
  dsimp only
  by_cases htoken : expected = ""
  · rw [if_pos htoken]
    cases envBool env "ADMIN_ALLOW_NO_AUTH" false <;> simp [htoken]
  · rw [if_neg htoken]
    by_cases hsame : provided = expected
    · subst hsame
      cases isAscii provided <;> simp [htoken]
    · cases isAscii provided <;> cases isAscii expected <;> simp [htoken, hsame]

/-- A refusal is one of three answers, none of them that of a command that failed. -/
theorem requireAdminToken_error {env : Environ} {header : Option String} {answer : AdminAnswer}
    (h : requireAdminToken env header = .error answer) :
    answer ≠ .error 502 "gateway restart command failed" := by
  unfold requireAdminToken at h
  dsimp only at h
  split at h
  · split at h
    · cases h
    · obtain rfl := Except.error.inj h
      simp
  · split at h
    · obtain rfl := Except.error.inj h
      simp [internalServerError]
    · split at h
      · cases h
      · obtain rfl := Except.error.inj h
        simp

theorem gatewayArguments_error {env : Environ} {e : GatewayError} (h : gatewayArguments env = .error e) :
    e.answer = .error 502 "gateway restart command failed" ↔ gatewayCommand env ≠ "" := by
  unfold gatewayArguments at h
  dsimp only at h
  split at h
  next hempty =>
    obtain rfl := Except.error.inj h
    simp [GatewayError.answer, hempty]
  next hcommand =>
    refine iff_of_true ?_ hcommand
    split at h
    next =>
      obtain rfl := Except.error.inj h
      rfl
    next =>
      split at h
      next =>
        obtain rfl := Except.error.inj h
        rfl
      next =>
        split at h
        · obtain rfl := Except.error.inj h
          rfl
        · obtain rfl := Except.error.inj h
          rfl
        · cases h

theorem restartTried_iff (env : Environ) (header : Option String) :
    RestartTried env header ↔ requireAdminToken env header = .ok () ∧ gatewayCommand env ≠ "" := by
  unfold RestartTried adminGatewayRestart
  cases hauth : requireAdminToken env header with
  | error refusal =>
    have hrefused := requireAdminToken_error hauth
    constructor
    · intro htried
      exact absurd (htried refusal rfl) hrefused
    · intro hok
      cases hok.1
  | ok _ =>
    cases harguments : gatewayArguments env with
    | ok arguments =>
      have hcommand := (gatewayArguments_eq_ok.mp harguments).1
      exact iff_of_true (fun answer hanswer => (by cases hanswer)) ⟨rfl, hcommand⟩
    | error e =>
      have herror := gatewayArguments_error harguments
      constructor
      · intro htried
        exact ⟨rfl, herror.mp (htried _ rfl)⟩
      · intro hok answer hanswer
        obtain rfl := Except.error.inj hanswer
        exact herror.mpr hok.2

theorem gatewayRestartVisible_iff (statuses : OrderedDict String String) (env : Environ) :
    gatewayRestartVisible statuses env = true ↔ gatewayCommand env ≠ "" ∧
      envBool env "ADMIN_ALLOW_NO_AUTH" false = true ∧ (env "ADMIN_TOKEN").getD "" = "" ∧
        (statuses.get? "ibkr" = some "reconnecting" ∨ statuses.get? "ibkr" = some "disconnected") := by
  unfold gatewayRestartVisible
  rw [Bool.and_eq_true, Bool.and_eq_true, Bool.and_eq_true, decide_eq_true_eq, decide_eq_true_eq,
    decide_eq_true_eq, and_assoc, and_assoc]

theorem mem_actions_statusBadge (state : ConnectionState) (delay : Option ℚ) (label : String)
    (visible : Bool) :
    (statusBadge state delay label visible).state = state ∧
      (.retryNow ∈ (statusBadge state delay label visible).actions ↔ state ≠ .connected) ∧
      (.restartGateway ∈ (statusBadge state delay label visible).actions ↔
        state ≠ .connected ∧ visible = true) := by
  cases state <;> cases visible <;> simp [statusBadge]

/-- The button that restarts the gateway is on the badge exactly when the broker is not up, IBKR
is down and a click, which sends no token, would get as far as the command. -/
theorem badge_offers_restart_iff {raw : Option String} {broker : Broker}
    (h : buildProductionBroker (enabledBrokers raw) = .ok broker) (env : Environ)
    (delays : BrokerName → Option ℚ) (first second : Adapters) :
    let badge := healthBadge env broker delays first second
    (badge.state = .connected ↔
      ∀ name ∈ enabledBrokers raw, (first.get name).connectionState = .connected) ∧
      (badge.state = .disconnected ↔
        ∀ name ∈ enabledBrokers raw, (first.get name).connectionState = .disconnected) ∧
      (∀ name state, (broker.statusMap second).get? (Python.lower name.text) = some state.text ↔
        name ∈ enabledBrokers raw ∧ (second.get name).connectionState = state) ∧
      (.retryNow ∈ badge.actions ↔ badge.state ≠ .connected) ∧
      (.restartGateway ∈ badge.actions ↔ badge.state ≠ .connected ∧ .ibkr ∈ enabledBrokers raw ∧
        (second.get .ibkr).connectionState ≠ .connected ∧ RestartTried env none) := by
  have hchildren := children_of_built h
  have hnodup : broker.children.Nodup := by
    rw [hchildren]
    exact nodup_enabledAdapters
  have hmem : ∀ name, name ∈ broker.children ↔ name ∈ enabledBrokers raw := by
    intro name
    rw [hchildren]
    exact mem_enabledAdapters
  have hne : broker.children ≠ [] := by
    obtain ⟨name, hname⟩ := List.exists_mem_of_ne_nil _ (enabledBrokers_ne_nil raw)
    exact List.ne_nil_of_mem ((hmem name).mpr hname)
  have hstatus : ∀ name state,
      (broker.statusMap second).get? (Python.lower name.text) = some state.text ↔
        name ∈ enabledBrokers raw ∧ (second.get name).connectionState = state := by
    intro name state
    rw [Broker.get?_statusMap hnodup, hmem]
  have hvisible : gatewayRestartVisible (broker.statusMap second) env = true ↔
      .ibkr ∈ enabledBrokers raw ∧ (second.get .ibkr).connectionState ≠ .connected ∧
        RestartTried env none := by
    have hreconnecting := hstatus .ibkr .reconnecting
    have hdisconnected := hstatus .ibkr .disconnected
    rw [show Python.lower BrokerName.ibkr.text = "ibkr" by decide] at hreconnecting hdisconnected
    have hdown : (broker.statusMap second).get? "ibkr" = some "reconnecting" ∨
        (broker.statusMap second).get? "ibkr" = some "disconnected" ↔
          .ibkr ∈ enabledBrokers raw ∧ (second.get .ibkr).connectionState ≠ .connected := by
      rw [show "reconnecting" = ConnectionState.reconnecting.text from rfl, hreconnecting,
        show "disconnected" = ConnectionState.disconnected.text from rfl, hdisconnected]
      cases (second.get .ibkr).connectionState <;> simp
    have hclick : RestartTried env none ↔ gatewayCommand env ≠ "" ∧
        envBool env "ADMIN_ALLOW_NO_AUTH" false = true ∧ (env "ADMIN_TOKEN").getD "" = "" := by
      rw [restartTried_iff, requireAdminToken_eq_ok_iff]
      have hnone : (none : Option String).getD "" = "" := rfl
      constructor
      · intro htried
        rcases htried.1 with hopen | htoken
        · exact ⟨htried.2, hopen.2, hopen.1⟩
        · exact absurd (hnone.symm.trans htoken.2.2).symm htoken.1
      · intro hopen
        exact ⟨Or.inl ⟨hopen.2.2, hopen.2.1⟩, hopen.1⟩
    rw [gatewayRestartVisible_iff, hdown, hclick]
    constructor
    · intro hshown
      exact ⟨hshown.2.2.2.1, hshown.2.2.2.2, hshown.1, hshown.2.1, hshown.2.2.1⟩
    · intro hopen
      exact ⟨hopen.2.2.1, hopen.2.2.2.1, hopen.2.2.2.2, hopen.1, hopen.2.1⟩
  obtain ⟨hstate, hretry, hrestart⟩ := mem_actions_statusBadge (broker.connectionState first)
    (broker.currentBackoffDelay delays) (statusLabel (broker.statusMap second))
    (gatewayRestartVisible (broker.statusMap second) env)
  dsimp only [healthBadge]
  rw [hstate]
  refine ⟨?_, ?_, hstatus, hretry, ?_⟩
  · rw [Broker.connected_iff hne]
    exact forall_congr' fun name => by rw [hmem]
  · rw [Broker.disconnected_iff hne]
    exact forall_congr' fun name => by rw [hmem]
  · rw [hrestart, hvisible]

def openEnviron : Environ := fun name =>
  [("IBKR_GATEWAY_RESTART_COMMAND", "docker restart ib-gateway"), ("ADMIN_ALLOW_NO_AUTH", "1")].lookup
    name

/-- With Longbridge up and IBKR down the badge shows that the brokers reconnect, and a click on the
button it offers is let through. -/
theorem offered_restart_is_tried : ∃ broker,
    buildProductionBroker (enabledBrokers (some "ibkr,longbridge")) = .ok broker ∧
      (healthBadge openEnviron broker (fun _ => none) (sampleAdapters failingReplies)
        (sampleAdapters failingReplies)).text = "🟡 Brokers reconnecting" ∧
      RestartTried openEnviron none := by
  have hbuilt : buildProductionBroker (enabledBrokers (some "ibkr,longbridge")) =
      .ok (.composite [.ibkr, .longbridge]) := by decide +kernel
  have hoffered := (badge_offers_restart_iff hbuilt openEnviron (fun _ => none)
    (sampleAdapters failingReplies) (sampleAdapters failingReplies)).2.2.2.2.mp (by decide +kernel)
  exact ⟨_, hbuilt, by decide +kernel, hoffered.2.2.2⟩

end PortfolioHub
