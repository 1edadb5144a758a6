import PortfolioHub.Deployment
import PortfolioHub.FloatText
import PortfolioHub.ShellWords
import PortfolioHub.Transition
import PortfolioHub.UrlQuoting

namespace PortfolioHub

/-- `os.environ`. -/
abbrev Environ := String → Option String

structure GatewayRestartResult where
  exitCode : ℤ
  stdout : List Char
  stderr : List Char
deriving DecidableEq, Repr

/-- `GatewayRestartDisabled` and `GatewayRestartFailed`. -/
inductive GatewayError where
  | disabled (message : String)
  | failed (message : String) (exitCode : Option ℤ) (stdout stderr : List Char)
deriving DecidableEq, Repr

def gatewayCommand (env : Environ) : String :=
  Python.strip ((env "IBKR_GATEWAY_RESTART_COMMAND").getD "")

/-- The arguments and the timeout of the command, as `restart_gateway()` reads them. -/
def gatewayArguments (env : Environ) : Except GatewayError (List (List Char) × Python.Float) :=
  let command := gatewayCommand env
  if command = "" then .error (.disabled "gateway restart command is disabled")
  else match Python.parseFloat ((env "IBKR_GATEWAY_RESTART_TIMEOUT_S").getD "30") with
    | none => .error (.failed "invalid gateway restart timeout" none [] [])
    | some timeout =>
      if timeout ≤ 0 then
        .error (.failed "gateway restart timeout must be positive" none [] [])
      else match Shell.split command.toList with
        | .error _ => .error (.failed "invalid gateway restart command" none [] [])
        | .ok [] => .error (.failed "invalid gateway restart command" none [] [])
        | .ok args => .ok (args, timeout)

/-- A process the command has started: whether it is in the group the child leads, whether the
app's user may signal it, whether it holds a write end of the pipes, and whether it, or the process
it comes from, was there when the group was killed. -/
inductive OsProcess where
  | running (inGroup ours holds missed : Bool)
  | exited (code : ℤ)
deriving DecidableEq, Repr

/-- What `SIGKILL` to the group does to a process. -/
def OsProcess.killed : OsProcess → OsProcess
  | .running true true _ _ => .exited (-9)
  | .running inGroup ours holds _ => .running inGroup ours holds true
  | .exited code => .exited code

def OsProcess.isHolder : OsProcess → Bool
  | .running _ _ holds _ => holds
  | .exited _ => false

def OsProcess.isMember : OsProcess → Bool
  | .running inGroup _ _ _ => inGroup
  | .exited _ => false

/-- A process of the group that a signal to the group reaches. -/
def OsProcess.isTarget : OsProcess → Bool
  | .running inGroup ours _ _ => inGroup && ours
  | .exited _ => false

/-- A process that runs without having been missed. -/
def OsProcess.isUntouched : OsProcess → Bool
  | .running _ _ _ missed => !missed
  | .exited _ => false

inductive RestartOutcome where
  | result (result : GatewayRestartResult)
  | raised (error : GatewayError)
  | cancelled
  | permissionError
deriving DecidableEq, Repr

/-- Why `_kill_and_drain` was called. -/
inductive KillCause where
  | timedOut
  | cancelled
deriving DecidableEq, Repr

def failedToStart : RestartOutcome :=
  .raised (.failed "gateway restart command failed to start" none [] [])

/-- The end of the call once its pipes are drained. -/
def KillCause.outcome : KillCause → RestartOutcome
  | .timedOut => .raised (.failed "gateway restart command timed out" none [] [])
  | .cancelled => .cancelled

/-- The answer of `admin_ibkr_gateway_restart`. -/
inductive AdminAnswer where
  | ok (exitCode : ℤ)
  | error (status : ℕ) (detail : String)
deriving DecidableEq, Repr

/-- The answer to the request, none when it was cancelled. -/
def RestartOutcome.answer : RestartOutcome → Option AdminAnswer
  | .result r => some (.ok r.exitCode)
  | .raised (.disabled message) => some (.error 503 message)
  | .raised (.failed _ _ _ _) => some (.error 502 "gateway restart command failed")
  | .cancelled => none
  | .permissionError => some (.error 500 "Internal Server Error")

def selectIbkrBroker : Broker → Option BrokerName
  | .adapter name => if Python.lower name.text = "ibkr" then some name else none
  | .composite adapters => adapters.find? fun name => Python.lower name.text = "ibkr"

/-- The adapter that `restart_gateway_then_retry_ibkr` wakes. -/
def RestartOutcome.retried (outcome : RestartOutcome) (broker : Broker) : Option BrokerName :=
  match outcome with
  | .result _ => selectIbkrBroker broker
  | _ => none

/-- Where the call of `restart_gateway()` stands. -/
inductive RestartPhase where
  | spawning
  | communicating
  | draining (cause : KillCause)
  | ended (outcome : RestartOutcome)
deriving DecidableEq, Repr

/-- A call of `restart_gateway()` and the processes of its command by their pids, the child's
being 0. -/
structure GatewayRestart where
  phase : RestartPhase
  processes : OrderedDict ℕ OsProcess
  stdout : List ℕ
  stderr : List ℕ
  /-- `process.returncode` -/
  returncode : Option ℤ
  elapsed : ℚ
  /-- Whether the group has been sent its `SIGKILL`. -/
  signalled : Bool

inductive RestartEvent where
  | spawned (ours : Bool)
  | spawnRefused
  | fork (parent pid : ℕ)
  /-- `setsid()` or `setpgid()` of a process other than the child, which leads its session -/
  | changeGroup (pid : ℕ)
  /-- a program that runs as another user, or as the app's again -/
  | changeUser (pid : ℕ)
  | closePipes (pid : ℕ)
  | write (pid : ℕ) (toStderr : Bool) (bytes : List ℕ)
  | exits (pid : ℕ) (code : ℤ)
  | exitNoticed
  | wait (seconds : ℚ)
  | communicated
  | timeout
  | cancel
deriving DecidableEq, Repr

/-- The events of the processes and the clock. -/
def RestartEvent.isOutside : RestartEvent → Bool
  | .fork _ _ | .changeGroup _ | .changeUser _ | .closePipes _ | .write _ _ _ | .exits _ _
  | .wait _ => true
  | _ => false

namespace GatewayRestart

def init : GatewayRestart := ⟨.spawning, .empty, [], [], none, 0, false⟩

/-- What `bytes.decode(errors="replace")` makes of an output. -/
def decoded (bytes : List ℕ) : List Char := Web.decodeUnits none (bytes.map .byte)

/-- No process has a write end of the pipes: reading them ends. -/
def AtEof (s : GatewayRestart) : Prop := ∀ process ∈ s.processes.values, process.isHolder = false

instance (s : GatewayRestart) : Decidable s.AtEof := inferInstanceAs (Decidable (∀ _ ∈ _, _))

def setProcess (s : GatewayRestart) (pid : ℕ) (process : OsProcess) : GatewayRestart :=
  { s with processes := s.processes.insert pid process }

/-- `_kill_process_group_or_child(process)`: none where `process.kill()` is not permitted. -/
def killProcessGroupOrChild (s : GatewayRestart) : Option GatewayRestart :=
  let killed := { s with processes := s.processes.mapValues OsProcess.killed, signalled := true }
  if s.returncode ≠ none then some s
  else if s.processes.values.any OsProcess.isTarget ∨ ¬ s.processes.values.any OsProcess.isMember then
    some killed
  else match s.processes.get? 0 with
    | some (.running _ _ _ _) => none
    | _ => some killed

/-- The call goes on with `_kill_and_drain`. -/
def killAndDrain (s : GatewayRestart) (cause : KillCause) : GatewayRestart :=
  match s.killProcessGroupOrChild with
  | some killed => { killed with phase := .draining cause }
  | none => { s with phase := .ended .permissionError }

/-- The end of the call once `communicate()` has returned. -/
def outcome (s : GatewayRestart) : RestartOutcome :=
  let exitCode := s.returncode.getD (-1)
  if exitCode ≠ 0 then
    .raised (.failed ("gateway restart command exited with code " ++ toString exitCode)
      (some exitCode) (decoded s.stdout) (decoded s.stderr))
  else .result ⟨exitCode, decoded s.stdout, decoded s.stderr⟩

/-- The timer of `wait_for` is due: `asyncio` runs a timer that is not in the future. -/
def Due (timeout : Python.Float) (s : GatewayRestart) : Prop := ¬ .finite s.elapsed < timeout

instance (timeout : Python.Float) (s : GatewayRestart) : Decidable (s.Due timeout) :=
  inferInstanceAs (Decidable (¬ _))

def step (timeout : Python.Float) (s : GatewayRestart) : RestartEvent → Option GatewayRestart
  | .spawned ours =>
    if s.phase = .spawning then
      let spawned := s.setProcess 0 (.running true ours true false)
      some { spawned with phase := .communicating }
    else none
  | .spawnRefused =>
    if s.phase = .spawning then
      some { s with phase := .ended failedToStart }
    else none
  | .fork parent pid =>
    match s.processes.get? parent, s.processes.get? pid with
    | some (.running inGroup ours holds missed), none =>
      some (s.setProcess pid (.running inGroup ours holds missed))
    | _, _ => none
  | .changeGroup pid =>
    match s.processes.get? pid with
    | some (.running inGroup ours holds missed) =>
      if pid ≠ 0 then some (s.setProcess pid (.running (!inGroup) ours holds missed)) else none
    | _ => none
  | .changeUser pid =>
    match s.processes.get? pid with
    | some (.running inGroup ours holds missed) =>
      some (s.setProcess pid (.running inGroup (!ours) holds missed))
    | _ => none
  | .closePipes pid =>
    match s.processes.get? pid with
    | some (.running inGroup ours true missed) =>
      some (s.setProcess pid (.running inGroup ours false missed))
    | _ => none
  | .write pid toStderr bytes =>
    match s.processes.get? pid with
    | some (.running _ _ true _) =>
      if toStderr then some { s with stderr := s.stderr ++ bytes }
      else some { s with stdout := s.stdout ++ bytes }
    | _ => none
  | .exits pid code =>
    match s.processes.get? pid with
    | some (.running _ _ _ _) => some (s.setProcess pid (.exited code))
    | _ => none
  | .exitNoticed =>
    match s.processes.get? 0 with
    | some (.exited code) => some { s with returncode := some code }
    | _ => none
  | .wait seconds => if 0 ≤ seconds then some { s with elapsed := s.elapsed + seconds } else none
  | .communicated =>
    if s.AtEof ∧ s.returncode ≠ none then
      match s.phase with
      | .communicating => some { s with phase := .ended s.outcome }
      | .draining cause => some { s with phase := .ended cause.outcome }
      | _ => none
    else none
  | .timeout =>
    if s.phase = .communicating ∧ s.Due timeout then some (s.killAndDrain .timedOut) else none
  | .cancel =>
    match s.phase with
    | .spawning => some { s with phase := .ended .cancelled }
    | .communicating => some (s.killAndDrain .cancelled)
    | .draining _ => some { s with phase := .ended .cancelled }
    | .ended _ => none

variable {timeout : Python.Float} {s t : GatewayRestart}

/-- The child is there, and leads its group as long as it runs. -/
def Led (s : GatewayRestart) : Prop :=
  ∃ child, s.processes.get? 0 = some child ∧
    ∀ inGroup ours holds missed, child = .running inGroup ours holds missed → inGroup = true

theorem Led.inGroup {inGroup ours holds missed : Bool} (h : s.Led)
    (hchild : s.processes.get? 0 = some (.running inGroup ours holds missed)) : inGroup = true := by
  obtain ⟨child, hget, hgroup⟩ := h
  obtain rfl : child = .running inGroup ours holds missed := Option.some.inj (hget.symm.trans hchild)
  exact hgroup inGroup ours holds missed rfl

/-- What runs has been missed by the kill, or comes from a process that was. -/
def Spent (s : GatewayRestart) : Prop :=
  ∀ process ∈ s.processes.values, process.isUntouched = false

/-- What the processes and the clock do beside the call. -/
structure Evolves (s t : GatewayRestart) : Prop where
  phase : t.phase = s.phase
  returncode : t.returncode = s.returncode
  signalled : t.signalled = s.signalled
  elapsed : s.elapsed ≤ t.elapsed
  eof : s.AtEof → t.AtEof ∧ t.stdout = s.stdout ∧ t.stderr = s.stderr
  spent : s.Spent → t.Spent
  exited : ∀ code, s.processes.get? 0 = some (.exited code) →
    t.processes.get? 0 = some (.exited code)
  led : s.Led → t.Led
  empty : s.processes = .empty → t.processes = .empty

theorem mem_values_setProcess {pid : ℕ} {process p : OsProcess}
    (h : p ∈ (s.setProcess pid process).processes.values) :
    p = process ∨ p ∈ s.processes.values := by
  obtain ⟨j, hj⟩ := OrderedDict.mem_values_iff.mp h
  have hget : (s.processes.insert pid process).get? j = some p := hj
  rw [OrderedDict.get?_insert] at hget
  split at hget
  next => exact Or.inl (Option.some.inj hget).symm
  next => exact Or.inr (OrderedDict.mem_values_iff.mpr ⟨j, hget⟩)

/-- A process that goes on, and holds no more, and was missed no less, than an earlier one. -/
theorem Evolves.setProcess {parent pid : ℕ} {old process : OsProcess}
    (hold : s.processes.get? parent = some old)
    (hholder : process.isHolder = true → old.isHolder = true)
    (huntouched : process.isUntouched = true → old.isUntouched = true)
    (hexited : ∀ code, s.processes.get? pid ≠ some (.exited code))
    (hled : pid = 0 → s.Led → ∀ inGroup ours holds missed,
      process = .running inGroup ours holds missed → inGroup = true) : s.Evolves (s.setProcess pid process) := by
  have hmem : old ∈ s.processes.values := OrderedDict.mem_values_iff.mpr ⟨parent, hold⟩
  refine ⟨rfl, rfl, rfl, le_refl _, fun heof => ⟨fun p hp => ?_, rfl, rfl⟩, fun hspent p hp => ?_,
    fun code hcode => ?_, fun hs => ?_, fun hempty => ?_⟩
  · rcases mem_values_setProcess hp with rfl | hp
    · by_contra hne
      have htrue := hholder (by simpa using hne)
      rw [heof old hmem] at htrue
      cases htrue
    · exact heof p hp
  · rcases mem_values_setProcess hp with rfl | hp
    · by_contra hne
      have htrue := huntouched (by simpa using hne)
      rw [hspent old hmem] at htrue
      cases htrue
    · exact hspent p hp
  · have hne : 0 ≠ pid := fun heq => hexited code (heq ▸ hcode)
    exact (OrderedDict.get?_insert_of_ne _ _ hne).trans hcode
  · by_cases hpid : pid = 0
    · subst hpid
      exact ⟨process, OrderedDict.get?_insert_self _ _ _, hled rfl hs⟩
    · obtain ⟨child, hchild, hgroup⟩ := hs
      exact ⟨child, (OrderedDict.get?_insert_of_ne _ _ (Ne.symm hpid)).trans hchild, hgroup⟩
  · rw [hempty] at hold
    cases hold

theorem Evolves.write {pid : ℕ} {inGroup ours missed : Bool} {out err : List ℕ}
    (h : s.processes.get? pid = some (.running inGroup ours true missed)) :
    s.Evolves { s with stdout := out, stderr := err } := by
  refine ⟨rfl, rfl, rfl, le_refl _, fun heof => ?_, fun hspent => hspent, fun _ hcode => hcode,
    fun hled => hled, fun hempty => hempty⟩
  have hfalse := heof _ (OrderedDict.mem_values_iff.mpr ⟨pid, h⟩)
  cases hfalse

theorem Evolves.step {e : RestartEvent} (he : e.isOutside = true) (h : step timeout s e = some t) :
    s.Evolves t := by
  cases e with
  | spawned _ | spawnRefused | exitNoticed | communicated | timeout | cancel => cases he
  | fork parent pid =>
    simp only [GatewayRestart.step] at h
    split at h
    next inGroup ours holds missed hparent hpid =>
      obtain rfl := Option.some.inj h
      refine .setProcess hparent id id (fun code hcode => by simp [hpid] at hcode)
        fun hzero hled => ?_
      obtain ⟨child, hchild, -⟩ := hled
      rw [hzero] at hpid
      simp [hpid] at hchild
    next => cases h
  | changeGroup pid =>
    simp only [GatewayRestart.step] at h
    split at h
    next inGroup ours holds missed hpid =>
      split at h
      next hne =>
        obtain rfl := Option.some.inj h
        exact .setProcess hpid id id (fun code hcode => by simp [hpid] at hcode)
          fun hzero => absurd hzero hne
      next => cases h
    next => cases h
  | changeUser pid =>
    simp only [GatewayRestart.step] at h
    split at h
    next inGroup ours holds missed hpid =>
      obtain rfl := Option.some.inj h
      refine .setProcess hpid id id (fun code hcode => by simp [hpid] at hcode) fun hzero hled => ?_
      intro inGroup' ours' holds' missed' heq
      cases heq
      exact hled.inGroup (hzero ▸ hpid)
    next => cases h
  | closePipes pid =>
    simp only [GatewayRestart.step] at h
    split at h
    next inGroup ours missed hpid =>
      obtain rfl := Option.some.inj h
      refine .setProcess hpid (fun _ => rfl) id (fun code hcode => by simp [hpid] at hcode)
        fun hzero hled => ?_
      intro inGroup' ours' holds' missed' heq
      cases heq
      exact hled.inGroup (hzero ▸ hpid)
    next => cases h
  | write pid toStderr bytes =>
    simp only [GatewayRestart.step] at h
    split at h
    next inGroup ours missed hpid =>
      split at h
      next =>
        obtain rfl := Option.some.inj h
        exact .write hpid
      next =>
        obtain rfl := Option.some.inj h
        exact .write hpid
    next => cases h
  | exits pid code =>
    simp only [GatewayRestart.step] at h
    split at h
    next inGroup ours holds missed hpid =>
      obtain rfl := Option.some.inj h
      exact .setProcess hpid (fun htrue => by cases htrue) (fun htrue => by cases htrue)
        (fun code hcode => by simp [hpid] at hcode)
        fun _ _ inGroup ours holds missed heq => by cases heq
    next => cases h
  | wait seconds =>
    simp only [GatewayRestart.step] at h
    split at h
    next hseconds =>
      obtain rfl := Option.some.inj h
      refine ⟨rfl, rfl, rfl, ?_, fun heof => ⟨heof, rfl, rfl⟩, id, fun _ hcode => hcode, id, id⟩
      have hle : s.elapsed + 0 ≤ s.elapsed + seconds := by gcongr
      simpa using hle
    next => cases h

/-- What the end of the call says about its processes. -/
structure Explains (timeout : Python.Float) (s : GatewayRestart) (outcome : RestartOutcome) :
    Prop where
  result : ∀ r, outcome = .result r → s.AtEof ∧ s.returncode = some r.exitCode ∧ r.exitCode = 0 ∧
    r.stdout = decoded s.stdout ∧ r.stderr = decoded s.stderr
  exited : ∀ message code out err, outcome = .raised (.failed message (some code) out err) →
    s.AtEof ∧ s.returncode = some code ∧ code ≠ 0 ∧ out = decoded s.stdout ∧
      err = decoded s.stderr
  timedOut : outcome = KillCause.timedOut.outcome → s.Due timeout ∧ s.AtEof ∧ s.returncode ≠ none
  killed : outcome = KillCause.timedOut.outcome ∨ outcome = .cancelled →
    s.processes = .empty ∨ s.signalled = true ∨ s.returncode ≠ none

def PhaseSound (timeout : Python.Float) (s : GatewayRestart) : RestartPhase → Prop
  | .spawning => s.processes = .empty ∧ s.signalled = false
  | .communicating => s.Led
  | .draining cause => s.Led ∧ (s.signalled = true ∨ s.returncode ≠ none) ∧
      (cause = .timedOut → s.Due timeout)
  | .ended outcome => Explains timeout s outcome

structure Sound (timeout : Python.Float) (s : GatewayRestart) : Prop where
  rooted : s.processes = .empty ∨ s.Led
  noticed : ∀ code, s.returncode = some code → s.processes.get? 0 = some (.exited code)
  spent : s.signalled = true → s.Spent
  phase : s.PhaseSound timeout s.phase

theorem Due.mono (h : s.Due timeout) (hle : s.elapsed ≤ t.elapsed) : t.Due timeout := by
  intro hlt
  apply h
  cases timeout with
  | finite q =>
    have hq : t.elapsed < q := of_decide_eq_true hlt
    exact decide_eq_true (lt_of_le_of_lt hle hq)
  | inf negative => exact hlt
  | nan => cases hlt

theorem Explains.mono {outcome : RestartOutcome} (h : s.Explains timeout outcome)
    (hevolves : s.Evolves t) : t.Explains timeout outcome := by
  refine ⟨fun r hr => ?_, fun message code out err hr => ?_, fun hr => ?_, fun hr => ?_⟩
  · obtain ⟨heof, hcode, hzero, hout, herr⟩ := h.result r hr
    obtain ⟨heof', hout', herr'⟩ := hevolves.eof heof
    exact ⟨heof', hevolves.returncode.trans hcode, hzero, by rw [hout', hout], by rw [herr', herr]⟩
  · obtain ⟨heof, hcode, hne, hout, herr⟩ := h.exited message code out err hr
    obtain ⟨heof', hout', herr'⟩ := hevolves.eof heof
    exact ⟨heof', hevolves.returncode.trans hcode, hne, by rw [hout', hout], by rw [herr', herr]⟩
  · obtain ⟨hdue, heof, hcode⟩ := h.timedOut hr
    exact ⟨hdue.mono hevolves.elapsed, (hevolves.eof heof).1, hevolves.returncode ▸ hcode⟩
  · rw [hevolves.returncode, hevolves.signalled]
    rcases h.killed hr with hempty | hrest
    · exact Or.inl (hevolves.empty hempty)
    · exact Or.inr hrest

theorem Sound.evolve (h : s.Sound timeout) (hevolves : s.Evolves t) : t.Sound timeout := by
  refine ⟨h.rooted.imp hevolves.empty hevolves.led, fun code hcode => ?_, fun hsig => ?_, ?_⟩
  · rw [hevolves.returncode] at hcode
    exact hevolves.exited code (h.noticed code hcode)
  · rw [hevolves.signalled] at hsig
    exact hevolves.spent (h.spent hsig)
  · have hphase := h.phase
    rw [hevolves.phase]
    cases hp : s.phase with
    | spawning =>
      rw [hp] at hphase
      exact ⟨hevolves.empty hphase.1, hevolves.signalled.trans hphase.2⟩
    | communicating =>
      rw [hp] at hphase
      exact hevolves.led hphase
    | draining cause =>
      rw [hp] at hphase
      obtain ⟨hled, hkilled, hdue⟩ := hphase
      refine ⟨hevolves.led hled, ?_, fun hcause => (hdue hcause).mono hevolves.elapsed⟩
      rwa [hevolves.signalled, hevolves.returncode]
    | ended outcome =>
      rw [hp] at hphase
      exact Explains.mono hphase hevolves

/-- What is left after the signal could not be reached, and is marked. -/
theorem killed_left (process : OsProcess) :
    process.killed.isTarget = false ∧ process.killed.isUntouched = false := by
  cases process with
  | running inGroup ours holds missed => cases inGroup <;> cases ours <;> exact ⟨rfl, rfl⟩
  | exited code => exact ⟨rfl, rfl⟩

/-- The group has been sent its `SIGKILL`. -/
def killedGroup (s : GatewayRestart) : GatewayRestart :=
  { s with processes := s.processes.mapValues OsProcess.killed, signalled := true }

theorem mem_killedGroup {process : OsProcess} (h : process ∈ s.killedGroup.processes.values) :
    ∃ old : OsProcess, old.killed = process := by
  obtain ⟨pid, hpid⟩ := OrderedDict.mem_values_iff.mp h
  have hget : ((s.processes.get? pid).map OsProcess.killed) = some process :=
    (OrderedDict.get?_mapValues _ _ _).symm.trans hpid
  obtain ⟨old, -, hold⟩ := Option.map_eq_some_iff.mp hget
  exact ⟨old, hold⟩

theorem spent_killedGroup (s : GatewayRestart) : s.killedGroup.Spent := by
  intro process hprocess
  obtain ⟨old, rfl⟩ := mem_killedGroup hprocess
  exact (killed_left old).2

theorem Led.killedGroup (hled : s.Led) : s.killedGroup.Led := by
  obtain ⟨child, hchild, hgroup⟩ := hled
  refine ⟨child.killed, ?_, fun inGroup ours holds missed heq => ?_⟩
  · exact (OrderedDict.get?_mapValues _ _ _).trans (by rw [hchild]; rfl)
  · cases child with
    | running inGroup' ours' holds' missed' =>
      obtain rfl := hgroup inGroup' ours' holds' missed' rfl
      cases ours' with
      | true => cases heq
      | false => exact (OsProcess.running.inj heq).1.symm
    | exited code => cases heq

/-- The ways a kill can go: the child is known to be over, the group is killed as far as the app's
user may, or the signal is refused for the child, too. -/
theorem killProcessGroupOrChild_cases (s : GatewayRestart) :
    s.returncode ≠ none ∧ s.killProcessGroupOrChild = some s ∨
      s.returncode = none ∧ s.killProcessGroupOrChild = some s.killedGroup ∨
      s.killProcessGroupOrChild = none := by
  unfold killProcessGroupOrChild
  by_cases hcode : s.returncode ≠ none
  · exact Or.inl ⟨hcode, if_pos hcode⟩
  have hnone : s.returncode = none := by simpa using hcode
  dsimp only
  rw [if_neg hcode]
  split
  next => exact Or.inr (Or.inl ⟨hnone, rfl⟩)
  next =>
    split
    next => exact Or.inr (Or.inr rfl)
    next => exact Or.inr (Or.inl ⟨hnone, rfl⟩)

theorem Sound.killAndDrain {cause : KillCause} (h : s.Sound timeout) (hled : s.Led)
    (hdue : cause = .timedOut → s.Due timeout) : (s.killAndDrain cause).Sound timeout := by
  unfold GatewayRestart.killAndDrain
  rcases s.killProcessGroupOrChild_cases with ⟨hcode, heq⟩ | ⟨hnone, heq⟩ | heq
  · rw [heq]
    exact ⟨Or.inr hled, h.noticed, h.spent, hled, Or.inr hcode, hdue⟩
  · rw [heq]
    refine ⟨Or.inr hled.killedGroup, fun code hcode => ?_, fun _ => s.spent_killedGroup,
      hled.killedGroup, Or.inl rfl, hdue⟩
    have hcode' : s.returncode = some code := hcode
    rw [hnone] at hcode'
    cases hcode'
  · rw [heq]
    refine ⟨Or.inr hled, h.noticed, h.spent, ?_⟩
    refine ⟨fun r hr => ?_, fun message code out err hr => ?_, fun hr => ?_, fun hr => ?_⟩
    · cases hr
    · cases hr
    · cases hr
    · rcases hr with hr | hr
      · cases hr
      · cases hr

theorem Explains.of_outcome (heof : s.AtEof) (hcode : s.returncode ≠ none) :
    s.Explains timeout s.outcome := by
  obtain ⟨code, hsome⟩ := Option.ne_none_iff_exists'.mp hcode
  unfold outcome
  rw [hsome, Option.getD_some]
  dsimp only
  split
  next hne =>
    refine ⟨fun r hr => (by cases hr), fun message code' out err hr => ?_, fun hr => ?_,
      fun hr => Or.inr (Or.inr hcode)⟩
    · obtain ⟨-, hcode', rfl, rfl⟩ := GatewayError.failed.inj (RestartOutcome.raised.inj hr)
      obtain rfl := Option.some.inj hcode'
      exact ⟨heof, hsome, hne, rfl, rfl⟩
    · obtain ⟨-, hcode', -⟩ := GatewayError.failed.inj (RestartOutcome.raised.inj hr)
      cases hcode'
  next hzero =>
    refine ⟨fun r hr => ?_, fun message code' out err hr => (by cases hr),
      fun hr => (by cases hr), fun hr => Or.inr (Or.inr hcode)⟩
    obtain rfl := RestartOutcome.result.inj hr
    exact ⟨heof, hsome, not_not.mp hzero, rfl, rfl⟩

theorem Explains.of_cause {cause : KillCause} (heof : s.AtEof) (hcode : s.returncode ≠ none)
    (hdue : cause = .timedOut → s.Due timeout) : s.Explains timeout cause.outcome := by
  refine ⟨fun r hr => ?_, fun message code out err hr => ?_, fun hr => ?_,
    fun _ => Or.inr (Or.inr hcode)⟩
  · cases cause <;> cases hr
  · cases cause <;> cases hr
  · cases cause with
    | timedOut => exact ⟨hdue rfl, heof, hcode⟩
    | cancelled => cases hr

theorem Explains.failedToStart : s.Explains timeout failedToStart := by
  refine ⟨fun r hr => (by cases hr), fun message code out err hr => (by cases hr), fun hr => ?_,
    fun hr => ?_⟩
  · exact absurd hr (by decide)
  · exact absurd hr (by decide)

theorem Explains.cancelled (h : s.processes = .empty ∨ s.signalled = true ∨ s.returncode ≠ none) :
    s.Explains timeout .cancelled :=
  ⟨fun r hr => (by cases hr), fun message code out err hr => (by cases hr),
    fun hr => (by cases hr), fun _ => h⟩

/-- The exit of the child reaches the event loop. -/
theorem Sound.notice {code : ℤ} (hs : s.Sound timeout)
    (hchild : s.processes.get? 0 = some (.exited code)) :
    ({ s with returncode := some code } : GatewayRestart).Sound timeout := by
  cases hcode : s.returncode with
  | some known =>
    have hsame : some (OsProcess.exited known) = some (.exited code) :=
      (hs.noticed known hcode).symm.trans hchild
    obtain rfl := OsProcess.exited.inj (Option.some.inj hsame)
    rwa [← hcode]
  | none =>
    have hphase := hs.phase
    refine ⟨hs.rooted, fun c hc => ?_, hs.spent, ?_⟩
    · obtain rfl := Option.some.inj hc
      exact hchild
    · show PhaseSound timeout { s with returncode := some code } s.phase
      cases hp : s.phase with
      | spawning =>
        rw [hp] at hphase
        exact hphase
      | communicating =>
        rw [hp] at hphase
        exact hphase
      | draining cause =>
        rw [hp] at hphase
        obtain ⟨hled, -, hdue⟩ := hphase
        exact ⟨hled, Or.inr (by simp), hdue⟩
      | ended outcome =>
        rw [hp] at hphase
        refine ⟨fun r hr => ?_, fun message c out err hr => ?_, fun hr => ?_,
          fun _ => Or.inr (Or.inr (by simp))⟩
        · obtain ⟨-, hknown, -⟩ := hphase.result r hr
          rw [hcode] at hknown
          cases hknown
        · obtain ⟨-, hknown, -⟩ := hphase.exited message c out err hr
          rw [hcode] at hknown
          cases hknown
        · exact absurd hcode (hphase.timedOut hr).2.2

theorem Sound.step {e : RestartEvent} (hs : s.Sound timeout) (h : step timeout s e = some t) :
    t.Sound timeout := by
  have hphase := hs.phase
  cases e with
  | fork _ _ | changeGroup _ | changeUser _ | closePipes _ | write _ _ _ | exits _ _ | wait _ =>
    exact hs.evolve (.step rfl h)
  | spawned ours =>
    simp only [GatewayRestart.step] at h
    split at h
    next hspawning =>
      obtain rfl := Option.some.inj h
      rw [hspawning] at hphase
      have hled : ({ s.setProcess 0 (.running true ours true false) with
          phase := .communicating } : GatewayRestart).Led := by
        refine ⟨_, OrderedDict.get?_insert_self _ _ _, fun inGroup ours' holds missed heq => ?_⟩
        exact (OsProcess.running.inj heq).1.symm
      refine ⟨Or.inr hled, fun code hcode => ?_, fun hsig => ?_, hled⟩
      · have hget := hs.noticed code hcode
        rw [hphase.1] at hget
        cases hget
      · have hsig' : s.signalled = true := hsig
        rw [hphase.2] at hsig'
        cases hsig'
    next => cases h
  | spawnRefused =>
    simp only [GatewayRestart.step] at h
    split at h
    next hspawning =>
      obtain rfl := Option.some.inj h
      exact ⟨hs.rooted, hs.noticed, hs.spent, .failedToStart⟩
    next => cases h
  | exitNoticed =>
    simp only [GatewayRestart.step] at h
    split at h
    next code hchild =>
      obtain rfl := Option.some.inj h
      exact hs.notice hchild
    next => cases h
  | communicated =>
    simp only [GatewayRestart.step] at h
    split at h
    next hready =>
      obtain ⟨heof, hcode⟩ := hready
      split at h
      next hcommunicating =>
        obtain rfl := Option.some.inj h
        exact ⟨hs.rooted, hs.noticed, hs.spent, .of_outcome heof hcode⟩
      next cause hdraining =>
        obtain rfl := Option.some.inj h
        rw [hdraining] at hphase
        exact ⟨hs.rooted, hs.noticed, hs.spent, .of_cause heof hcode hphase.2.2⟩
      next => cases h
    next => cases h
  | timeout =>
    simp only [GatewayRestart.step] at h
    split at h
    next hready =>
      obtain ⟨hcommunicating, hdue⟩ := hready
      obtain rfl := Option.some.inj h
      rw [hcommunicating] at hphase
      exact hs.killAndDrain hphase fun _ => hdue
    next => cases h
  | cancel =>
    simp only [GatewayRestart.step] at h
    split at h
    next hspawning =>
      obtain rfl := Option.some.inj h
      rw [hspawning] at hphase
      exact ⟨hs.rooted, hs.noticed, hs.spent, .cancelled (Or.inl hphase.1)⟩
    next hcommunicating =>
      obtain rfl := Option.some.inj h
      rw [hcommunicating] at hphase
      exact hs.killAndDrain hphase fun hcause => by cases hcause
    next cause hdraining =>
      obtain rfl := Option.some.inj h
      rw [hdraining] at hphase
      exact ⟨hs.rooted, hs.noticed, hs.spent, .cancelled (Or.inr hphase.2.1)⟩
    next => cases h

theorem init_sound : init.Sound timeout :=
  ⟨Or.inl rfl, fun _ hcode => (by cases hcode), fun hsig => (by cases hsig), rfl, rfl⟩

theorem step_communicated_of_draining {cause : KillCause} (h : s.phase = .draining cause)
    (heof : s.AtEof) (hcode : s.returncode ≠ none) :
    step timeout s .communicated = some { s with phase := .ended cause.outcome } := by
  simp only [step, h, if_pos (And.intro heof hcode)]

/-- The one step that kills the group ends what of it the app's user may signal. -/
theorem step_kills {e : RestartEvent} (h : step timeout s e = some t) (hbefore : s.signalled = false)
    (hafter : t.signalled = true) : t.processes = s.processes.mapValues OsProcess.killed := by
  have hunsignalled : s.signalled ≠ true := by simp [hbefore]
  have hkill : ∀ {cause}, (s.killAndDrain cause).signalled = true →
      (s.killAndDrain cause).processes = s.processes.mapValues OsProcess.killed := by
    intro cause hsig
    unfold killAndDrain at hsig ⊢
    rcases s.killProcessGroupOrChild_cases with ⟨-, heq⟩ | ⟨-, heq⟩ | heq
    · rw [heq] at hsig
      exact absurd hsig hunsignalled
    · rw [heq]
      rfl
    · rw [heq] at hsig
      exact absurd hsig hunsignalled
  cases e with
  | fork _ _ | changeGroup _ | changeUser _ | closePipes _ | write _ _ _ | exits _ _ | wait _ =>
    have hevolves : s.Evolves t := .step rfl h
    exact absurd (hevolves.signalled.symm.trans hafter) hunsignalled
  | spawned _ | spawnRefused | exitNoticed =>
    simp only [step] at h
    split at h <;> cases h
    exact absurd hafter hunsignalled
  | communicated =>
    simp only [step] at h
    split at h
    next =>
      split at h <;> cases h <;> exact absurd hafter hunsignalled
    next => cases h
  | timeout =>
    simp only [step] at h
    split at h
    next =>
      obtain rfl := Option.some.inj h
      exact hkill hafter
    next => cases h
  | cancel =>
    simp only [step] at h
    split at h
    next =>
      obtain rfl := Option.some.inj h
      exact absurd hafter hunsignalled
    next =>
      obtain rfl := Option.some.inj h
      exact hkill hafter
    next =>
      obtain rfl := Option.some.inj h
      exact absurd hafter hunsignalled
    next => cases h

/-- A draining call ends without the help of a process, unless the child or one that holds the
pipes still runs: one that the kill missed, or there was none. -/
theorem Sound.drains {cause : KillCause} (hs : s.Sound timeout) (hdraining : s.phase = .draining cause) :
    (∃ es t, (∀ e ∈ es, e = RestartEvent.exitNoticed ∨ e = .communicated) ∧
        execute (GatewayRestart.step timeout) s es = some t ∧ t.phase = .ended cause.outcome) ∨
      ∃ pid inGroup ours holds missed,
        s.processes.get? pid = some (.running inGroup ours holds missed) ∧
          (pid = 0 ∨ holds = true) ∧ (missed = true ∨ s.signalled = false) := by
  have hphase := hs.phase
  rw [hdraining] at hphase
  obtain ⟨hled, hkilled, -⟩ := hphase
  have hmissed : ∀ pid inGroup ours holds missed,
      s.processes.get? pid = some (.running inGroup ours holds missed) →
        missed = true ∨ s.signalled = false := by
    intro pid inGroup ours holds missed hpid
    cases hsig : s.signalled with
    | false => exact Or.inr rfl
    | true =>
      have huntouched := hs.spent hsig _ (OrderedDict.mem_values_iff.mpr ⟨pid, hpid⟩)
      exact Or.inl (by simpa [OsProcess.isUntouched] using huntouched)
  by_cases heof : s.AtEof
  · obtain ⟨child, hchild, -⟩ := hled
    cases child with
    | running inGroup ours holds missed =>
      exact Or.inr ⟨0, inGroup, ours, holds, missed, hchild, Or.inl rfl,
        hmissed 0 inGroup ours holds missed hchild⟩
    | exited code =>
      refine Or.inl ⟨[.exitNoticed, .communicated],
        { s with returncode := some code, phase := .ended cause.outcome }, by simp, ?_, rfl⟩
      have hnotice : GatewayRestart.step timeout s .exitNoticed = some { s with returncode := some code } := by
        simp only [GatewayRestart.step, hchild]
      have hend : GatewayRestart.step timeout { s with returncode := some code } .communicated =
          some { s with returncode := some code, phase := .ended cause.outcome } :=
        step_communicated_of_draining hdraining heof (Option.some_ne_none code)
      rw [execute, hnotice, Option.bind_some, execute, hend, Option.bind_some, execute]
  · unfold AtEof at heof
    push Not at heof
    obtain ⟨process, hmem, hholder⟩ := heof
    obtain ⟨pid, hpid⟩ := OrderedDict.mem_values_iff.mp hmem
    cases process with
    | exited code => exact absurd rfl hholder
    | running inGroup ours holds missed =>
      have hholds : holds = true := by simpa [OsProcess.isHolder] using hholder
      exact Or.inr ⟨pid, inGroup, ours, holds, missed, hpid, Or.inr hholds,
        hmissed pid inGroup ours holds missed hpid⟩

/-- Whatever the processes of the command do, and whenever the call times out or is cancelled. -/
theorem gateway_restart_accounts_for_processes
    (h : Reaches (step timeout) (fun _ _ => True) init s) :
    (∀ outcome, s.phase = .ended outcome →
      (∀ broker, outcome.retried broker ≠ none → ∃ code, outcome.answer = some (.ok code)) ∧
      (∀ code, outcome.answer = some (.ok code) → s.processes.get? 0 = some (.exited 0) ∧ s.AtEof ∧
        outcome = .result ⟨0, decoded s.stdout, decoded s.stderr⟩) ∧
      (∀ message code out err, outcome = .raised (.failed message (some code) out err) →
        code ≠ 0 ∧ s.processes.get? 0 = some (.exited code) ∧ s.AtEof ∧ out = decoded s.stdout ∧
          err = decoded s.stderr) ∧
      (outcome = KillCause.timedOut.outcome → s.Due timeout ∧ s.AtEof)) ∧
    (∀ cause, s.phase = .draining cause ∨ s.phase = .ended cause.outcome →
      s.Spent ∨ s.signalled = false ∧ ∃ code, s.processes.get? 0 = some (.exited code)) ∧
    (∀ e t, step timeout s e = some t → s.signalled = false → t.signalled = true →
      t.processes = s.processes.mapValues OsProcess.killed ∧
        ∀ process ∈ t.processes.values, process.isTarget = false) ∧
    ∀ cause, s.phase = .draining cause →
      (∃ es t, (∀ e ∈ es, e = RestartEvent.exitNoticed ∨ e = .communicated) ∧
          execute (step timeout) s es = some t ∧ t.phase = .ended cause.outcome) ∨
        ∃ pid inGroup ours holds missed,
          s.processes.get? pid = some (.running inGroup ours holds missed) ∧
            (pid = 0 ∨ holds = true) ∧ (missed = true ∨ s.signalled = false) := by
  have hs : s.Sound timeout := h.invariant init_sound fun _ _ _ hi _ he => hi.step he
  refine ⟨fun outcome hended => ?_, fun cause hcause => ?_, fun e t hstep hbefore hafter => ?_,
    fun cause hdraining => hs.drains hdraining⟩
  · have hphase := hs.phase
    rw [hended] at hphase
    refine ⟨fun broker hretried => ?_, fun code hanswer => ?_, fun message code out err hr => ?_,
      fun hr => ?_⟩
    · cases outcome with
      | result r => exact ⟨r.exitCode, rfl⟩
      | raised _ | cancelled | permissionError => exact absurd rfl hretried
    · cases outcome with
      | result r =>
        obtain ⟨heof, hcode, hzero, hout, herr⟩ := hphase.result r rfl
        rw [hzero] at hcode
        refine ⟨hs.noticed 0 hcode, heof, ?_⟩
        rw [← hout, ← herr, ← hzero]
      | raised error => cases error <;> cases hanswer
      | cancelled => cases hanswer
      | permissionError => cases hanswer
    · obtain ⟨heof, hcode, hne, hout, herr⟩ := hphase.exited message code out err hr
      exact ⟨hne, hs.noticed code hcode, heof, hout, herr⟩
    · obtain ⟨hdue, heof, -⟩ := hphase.timedOut hr
      exact ⟨hdue, heof⟩
  · have hkilled : s.processes = .empty ∨ s.signalled = true ∨ s.returncode ≠ none := by
      have hphase := hs.phase
      rcases hcause with hdraining | hended
      · rw [hdraining] at hphase
        exact Or.inr hphase.2.1
      · rw [hended] at hphase
        exact hphase.killed (by cases cause <;> simp [KillCause.outcome])
    cases hsig : s.signalled with
    | true => exact Or.inl (hs.spent hsig)
    | false =>
      rcases hkilled with hempty | hsig' | hcode
      · refine Or.inl fun process hprocess => ?_
        rw [hempty] at hprocess
        cases hprocess
      · rw [hsig] at hsig'
        cases hsig'
      · obtain ⟨code, hcode⟩ := Option.ne_none_iff_exists'.mp hcode
        exact Or.inr ⟨rfl, code, hs.noticed code hcode⟩
  · have hkilled := step_kills hstep hbefore hafter
    refine ⟨hkilled, fun process hprocess => ?_⟩
    rw [hkilled] at hprocess
    obtain ⟨old, rfl⟩ := mem_killedGroup (s := s) hprocess
    exact (killed_left old).1

/-- One process has left the group, and one was another user's when the group was killed. -/
theorem timed_out_group_is_killed :
    ∃ s, Reaches (step 30) (fun _ _ => True) init s ∧
      s.phase = .ended KillCause.timedOut.outcome ∧
      s.processes.values = [.exited (-9), .exited (-9), .running false true false true,
        .running true true false true] ∧
      s.Due 30 ∧ s.AtEof := by
  obtain ⟨s, hs, hp⟩ := Reaches.exists_of_execute (step 30) (fun _ _ => True) init
    [.spawned true, .fork 0 1, .fork 1 2, .changeGroup 2, .closePipes 2, .fork 0 3, .changeUser 3,
      .wait 30, .timeout, .changeUser 3, .closePipes 3, .exitNoticed, .communicated]
    (fun s => s.phase = .ended KillCause.timedOut.outcome ∧
      s.processes.values = [.exited (-9), .exited (-9), .running false true false true,
        .running true true false true])
    (by decide +kernel)
  obtain ⟨hended, hprocesses⟩ := of_decide_eq_true hp
  obtain ⟨-, -, -, htimedOut⟩ := (gateway_restart_accounts_for_processes hs).1 _ hended
  obtain ⟨hdue, heof⟩ := htimedOut rfl
  exact ⟨s, hs, hended, hprocesses, hdue, heof⟩

/-- A child that is over shields what it has started: the timeout kills nothing, and the call
waits until the last process lets go of the pipes. -/
theorem finished_child_shields_its_group :
    ∃ s, Reaches (step 30) (fun _ _ => True) init s ∧ s.phase = .draining .timedOut ∧
      s.processes.values = [.exited 0, .running true true true false] ∧
      step 30 s .communicated = none := by
  obtain ⟨s, hs, hp⟩ := Reaches.exists_of_execute (step 30) (fun _ _ => True) init
    [.spawned true, .fork 0 1, .exits 0 0, .exitNoticed, .wait 30, .timeout]
    (fun s => s.phase = .draining .timedOut ∧
      s.processes.values = [.exited 0, .running true true true false])
    (by decide +kernel)
  obtain ⟨hdraining, hprocesses⟩ := of_decide_eq_true hp
  have hopen : ¬ s.AtEof := by
    intro heof
    have hholder := heof (.running true true true false) (by simp [hprocesses])
    cases hholder
  refine ⟨s, hs, hdraining, hprocesses, ?_⟩
  exact if_neg fun hready => hopen hready.1

end GatewayRestart

theorem strip_of_edges {s : String} (hhead : ∀ c, s.toList.head? = some c → Python.isSpace c = false)
    (hlast : ∀ c, s.toList.getLast? = some c → Python.isSpace c = false) : Python.strip s = s := by
  have hdrop : ∀ cs : List Char, (∀ c, cs.head? = some c → Python.isSpace c = false) →
      cs.dropWhile Python.isSpace = cs := by
    intro cs hcs
    cases cs with
    | nil => rfl
    | cons c cs => simp [hcs c rfl]
  unfold Python.strip
  rw [hdrop _ hhead, hdrop s.toList.reverse fun c hc => hlast c (by rwa [← List.head?_reverse]),
    List.reverse_reverse, String.ofList_toList]

theorem isSpace_of_isSafe {c : Char} (h : Shell.isSafe c = true) : Python.isSpace c = false := by
  unfold Shell.isSafe at h
  rcases (Bool.or_eq_true _ _).mp h with halnum | hmark
  · have hrange : 48 ≤ c.toNat ∧ c.toNat ≤ 122 := by
      simp only [Char.isAlphanum, Char.isAlpha, Char.isUpper, Char.isLower, Char.isDigit, ge_iff_le,
        Bool.or_eq_true, Bool.and_eq_true, decide_eq_true_eq] at halnum
      rcases halnum with (⟨hlow, hhigh⟩ | ⟨hlow, hhigh⟩) | ⟨hlow, hhigh⟩ <;>
        exact ⟨le_trans (by decide) hlow, le_trans hhigh (by decide)⟩
    unfold Python.isSpace
    simp
    omega
  · have hall : ∀ d ∈ ['_', '@', '%', '+', '=', ':', ',', '.', '/', '-'],
        Python.isSpace d = false := by simp [Python.isSpace]
    exact hall c (of_decide_eq_true hmark)

/-- A quoted word starts and ends with what `strip()` leaves. -/
theorem quote_edges (word : List Char) :
    Shell.quote word ≠ [] ∧ (∀ c, (Shell.quote word).head? = some c → Python.isSpace c = false) ∧
      ∀ c, (Shell.quote word).getLast? = some c → Python.isSpace c = false := by
  have hquote : Python.isSpace Shell.singleQuote = false := by decide
  unfold Shell.quote
  split
  next hplain =>
    have hsafe : ∀ c ∈ word, Shell.isSafe c = true := List.all_eq_true.mp hplain.2
    refine ⟨hplain.1, fun c hc => ?_, fun c hc => ?_⟩
    · exact isSpace_of_isSafe (hsafe c (List.mem_of_head? hc))
    · exact isSpace_of_isSafe (hsafe c (List.mem_of_getLast? hc))
  next =>
    refine ⟨by simp, fun c hc => ?_, fun c hc => ?_⟩
    · obtain rfl : Shell.singleQuote = c := by simpa using hc
      exact hquote
    · rw [← List.cons_append, List.getLast?_append] at hc
      obtain rfl : Shell.singleQuote = c := by simpa using hc
      exact hquote

theorem join_edges {words : List (List Char)} (hne : words ≠ []) :
    Shell.join words ≠ [] ∧
      (∀ c, (Shell.join words).head? = some c → Python.isSpace c = false) ∧
      ∀ c, (Shell.join words).getLast? = some c → Python.isSpace c = false := by
  induction words with
  | nil => exact absurd rfl hne
  | cons word words ih =>
    obtain ⟨hquote, hhead, hlast⟩ := quote_edges word
    cases words with
    | nil => exact ⟨hquote, hhead, hlast⟩
    | cons next words =>
      obtain ⟨hrest, -, hlast'⟩ := ih (by simp)
      rw [Shell.join]
      refine ⟨by simp, fun c hc => ?_, fun c hc => ?_⟩
      · rw [List.head?_append_of_ne_nil _ hquote] at hc
        exact hhead c hc
      · rw [List.getLast?_append, List.getLast?_cons_of_ne_nil hrest] at hc
        refine hlast' c ?_
        rw [List.getLast?_eq_some_getLast hrest] at hc ⊢
        simpa using hc

theorem head?_strip {s : String} {c : Char} (h : (Python.strip s).toList.head? = some c) :
    Python.isSpace c = false := by
  unfold Python.strip at h
  rw [String.toList_ofList] at h
  set left := s.toList.dropWhile Python.isSpace with hleft
  have hprefix : (left.reverse.dropWhile Python.isSpace).reverse <+: left := by
    rw [← List.reverse_suffix, List.reverse_reverse]
    exact List.dropWhile_suffix _
  have hhead : left.head? = some c := by
    obtain ⟨rest, hrest⟩ := hprefix
    rw [← hrest, List.head?_append, h]
    rfl
  have hnot := List.head?_dropWhile_not Python.isSpace s.toList
  rw [← hleft, hhead] at hnot
  simpa using hnot

theorem isSpace_of_isBlank {c : Char} (h : Shell.isBlank c = true) : Python.isSpace c = true := by
  simp only [Shell.isBlank, Bool.or_eq_true, decide_eq_true_eq] at h
  rcases h with ((rfl | rfl) | rfl) | rfl <;> rfl

/-- A configured command has a word to run, or cannot be split. -/
theorem split_gatewayCommand_ne_nil {env : Environ} (h : gatewayCommand env ≠ "") :
    Shell.split (gatewayCommand env).toList ≠ .ok [] := by
  cases htext : (gatewayCommand env).toList with
  | nil =>
    refine absurd ?_ h
    rw [← String.ofList_toList (s := gatewayCommand env), htext]
  | cons c rest =>
    apply Shell.split_ne_nil
    have hspace : Python.isSpace c = false :=
      head?_strip (s := (env "IBKR_GATEWAY_RESTART_COMMAND").getD "") (by
        show (gatewayCommand env).toList.head? = some c
        rw [htext]
        rfl)
    by_contra hblank
    rw [isSpace_of_isBlank (by simpa using hblank)] at hspace
    cases hspace

theorem gatewayArguments_eq_ok {env : Environ} {words : List (List Char)} {timeout : Python.Float} :
    gatewayArguments env = .ok (words, timeout) ↔ gatewayCommand env ≠ "" ∧
      Shell.split (gatewayCommand env).toList = .ok words ∧
        Python.parseFloat ((env "IBKR_GATEWAY_RESTART_TIMEOUT_S").getD "30") = some timeout ∧
          ¬ timeout ≤ 0 := by
  unfold gatewayArguments
  dsimp only
  by_cases hcommand : gatewayCommand env = ""
  · simp [hcommand]
  rw [if_neg hcommand]
  cases hparse : Python.parseFloat ((env "IBKR_GATEWAY_RESTART_TIMEOUT_S").getD "30") with
  | none => simp
  | some read =>
    dsimp only
    by_cases hpos : read ≤ 0
    · rw [if_pos hpos]
      constructor
      · intro h
        cases h
      · intro h
        obtain ⟨-, -, heq, hnot⟩ := h
        obtain rfl := Option.some.inj heq
        exact absurd hpos hnot
    rw [if_neg hpos]
    have hne := split_gatewayCommand_ne_nil hcommand
    cases hsplit : Shell.split (gatewayCommand env).toList with
    | error message => simp
    | ok read' =>
      cases read' with
      | nil => exact absurd hsplit hne
      | cons word rest =>
        constructor
        · intro h
          obtain ⟨rfl, rfl⟩ := Prod.mk.inj (Except.ok.inj h)
          exact ⟨hcommand, rfl, rfl, hpos⟩
        · intro h
          obtain ⟨-, hwords, heq, -⟩ := h
          obtain rfl := Except.ok.inj hwords
          obtain rfl := Option.some.inj heq
          rfl

/-- What is run is the command as `shlex.split` splits it, and every list of arguments can be
configured. -/
theorem gateway_command_configurable (env : Environ) :
    (∀ words timeout, gatewayArguments env = .ok (words, timeout) ↔ gatewayCommand env ≠ "" ∧
      Shell.split (gatewayCommand env).toList = .ok words ∧
        Python.parseFloat ((env "IBKR_GATEWAY_RESTART_TIMEOUT_S").getD "30") = some timeout ∧
          ¬ timeout ≤ 0) ∧
    ∀ words, words ≠ [] →
      env "IBKR_GATEWAY_RESTART_COMMAND" = some (String.ofList (Shell.join words)) →
        gatewayCommand env ≠ "" ∧ Shell.split (gatewayCommand env).toList = .ok words := by
  refine ⟨fun words timeout => gatewayArguments_eq_ok, fun words hne hcommand => ?_⟩
  obtain ⟨hjoin, hhead, hlast⟩ := join_edges hne
  have hstrip : gatewayCommand env = String.ofList (Shell.join words) := by
    unfold gatewayCommand
    rw [hcommand, Option.getD_some]
    exact strip_of_edges (by rwa [String.toList_ofList]) (by rwa [String.toList_ofList])
  refine ⟨fun hempty => hjoin ?_, ?_⟩
  · rw [← String.toList_ofList (l := Shell.join words), ← hstrip, hempty]
    rfl
  · rw [hstrip, String.toList_ofList]
    exact Shell.split_join words

end PortfolioHub
