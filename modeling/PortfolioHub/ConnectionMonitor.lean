import PortfolioHub.Position
import PortfolioHub.PythonFloat

namespace PortfolioHub

/-- `_DOWN_STATES`. -/
inductive DownState where
  | reconnecting
  | disconnected
deriving DecidableEq, Repr

def ConnectionState.down? : ConnectionState → Option DownState
  | .connected => none
  | .reconnecting => some .reconnecting
  | .disconnected => some .disconnected

/-- A state of `_DOWN_STATES`. -/
def ConnectionState.isDown (state : ConnectionState) : Bool := state.down?.isSome

/-- `_state_label`. -/
def DownState.stateLabel : DownState → String
  | .reconnecting => "reconnecting"
  | .disconnected => "disconnected"

def stateMessage (down : DownState) : String := "IBKR " ++ down.stateLabel ++ "..."

def recoveredMessage : String := "IBKR recovered."

def attentionMessage : String :=
  "IBKR manual auth may be needed. Use the dashboard retry/restart controls to recover the Gateway."

/-- `ConnectionMonitorState`. -/
structure ConnectionMonitorState where
  lastState : Option ConnectionState
  downSince : Option ℚ
  attentionSent : Bool
  pendingMessages : List String
deriving DecidableEq

/-- A poll: the state the broker reports, the monotonic time, and which sends, counted within the
poll, the notifier does not fail. -/
structure ConnectionPoll where
  current : ConnectionState
  now : ℚ
  accepts : ℕ → Bool

namespace ConnectionMonitorState

def init : ConnectionMonitorState := ⟨none, none, false, []⟩

/-- `_queue_message`. -/
def queueMessage (s : ConnectionMonitorState) (message : String) : ConnectionMonitorState :=
  if message ∈ s.pendingMessages then s
  else { s with pendingMessages := s.pendingMessages ++ [message] }

/-- `_send_notifications`: a failed send does not keep the ones after it from being tried. -/
def sendNotifications (accepts : ℕ → Bool) (messages : List String) : List (String × Bool) :=
  messages.zipIdx.map fun m => (m.1, accepts m.2)

/-- `_send_pending_notifications`: the sends, and the state unless the first error is raised. -/
def sendPendingNotifications (s : ConnectionMonitorState) (accepts : ℕ → Bool) :
    List (String × Bool) × Option ConnectionMonitorState :=
  let sends := sendNotifications accepts s.pendingMessages
  (sends, if sends.all (·.2) then some { s with pendingMessages := [] } else none)

/-- The attention message is due, for an outage that the state already has. -/
def attentionDue (s : ConnectionMonitorState) (attentionAfter : Python.Float) (now : ℚ) : Bool :=
  s.downSince.any fun since => !s.attentionSent && decide (attentionAfter ≤ .finite (now - since))

/-- The outage starts now, unless one is on. -/
def noticeDown (s : ConnectionMonitorState) (now : ℚ) : ConnectionMonitorState :=
  { s with downSince := some (s.downSince.getD now) }

/-- `poll_connection_once` as far as its sends. -/
def queueNotifications (attentionAfter : Python.Float) (s : ConnectionMonitorState)
    (poll : ConnectionPoll) : ConnectionMonitorState :=
  match poll.current.down? with
  | none =>
    if s.lastState.any (·.isDown) ∨ s.downSince.isSome then s.queueMessage recoveredMessage else s
  | some down =>
    let s := s.noticeDown poll.now
    let s := if s.lastState ≠ some poll.current then s.queueMessage (stateMessage down) else s
    if s.attentionDue attentionAfter poll.now then s.queueMessage attentionMessage else s

/-- `poll_connection_once`: the sends, and the state it leaves. A failed send ends the poll, and
what had been written by then stays. -/
def pollConnectionOnce (attentionAfter : Python.Float) (s : ConnectionMonitorState)
    (poll : ConnectionPoll) : List (String × Bool) × ConnectionMonitorState :=
  let queued := s.queueNotifications attentionAfter poll
  match queued.sendPendingNotifications poll.accepts with
  | (sends, none) => (sends, queued)
  | (sends, some sent) =>
    if poll.current.isDown then
      (sends, { sent with
        lastState := some poll.current
        attentionSent := sent.attentionSent || queued.attentionDue attentionAfter poll.now })
    else
      (sends, { sent with lastState := some poll.current, downSince := none, attentionSent := false })

end ConnectionMonitorState

/-- What a poll puts on the queue, and what it sends. -/
structure PollRecord where
  queued : List String
  sends : List (String × Bool)
deriving DecidableEq

namespace ConnectionMonitorState

/-- The state after a poll. -/
def after (attentionAfter : Python.Float) (s : ConnectionMonitorState) (poll : ConnectionPoll) :
    ConnectionMonitorState :=
  (s.pollConnectionOnce attentionAfter poll).2

def record (attentionAfter : Python.Float) (s : ConnectionMonitorState) (poll : ConnectionPoll) :
    PollRecord where
  queued := (s.queueNotifications attentionAfter poll).pendingMessages.drop s.pendingMessages.length
  sends := (s.pollConnectionOnce attentionAfter poll).1

/-- The state after the polls. -/
def monitor (attentionAfter : Python.Float) (s : ConnectionMonitorState)
    (polls : List ConnectionPoll) : ConnectionMonitorState :=
  polls.foldl (after attentionAfter) s

/-- The records of the polls. -/
def records (attentionAfter : Python.Float) :
    ConnectionMonitorState → List ConnectionPoll → List PollRecord
  | _, [] => []
  | s, poll :: polls =>
    s.record attentionAfter poll :: (s.after attentionAfter poll).records attentionAfter polls

variable {attentionAfter : Python.Float} {s : ConnectionMonitorState} {poll : ConnectionPoll}

@[simp]
theorem queueMessage_lastState (message : String) :
    (s.queueMessage message).lastState = s.lastState := by
  unfold queueMessage
  split <;> rfl

@[simp]
theorem queueMessage_downSince (message : String) :
    (s.queueMessage message).downSince = s.downSince := by
  unfold queueMessage
  split <;> rfl

@[simp]
theorem queueMessage_attentionSent (message : String) :
    (s.queueMessage message).attentionSent = s.attentionSent := by
  unfold queueMessage
  split <;> rfl

theorem queueMessage_pendingMessages (message : String) :
    (s.queueMessage message).pendingMessages =
      s.pendingMessages ++ if message ∈ s.pendingMessages then [] else [message] := by
  unfold queueMessage
  split <;> simp

@[simp]
theorem queueMessage_attentionDue (message : String) (now : ℚ) :
    (s.queueMessage message).attentionDue attentionAfter now =
      s.attentionDue attentionAfter now := by
  simp [attentionDue]

/-- The messages of a poll, in the order in which they are put on the queue. -/
def notices (attentionAfter : Python.Float) (s : ConnectionMonitorState)
    (poll : ConnectionPoll) : List String :=
  match poll.current.down? with
  | none => if s.lastState.any (·.isDown) ∨ s.downSince.isSome then [recoveredMessage] else []
  | some down =>
    (if s.lastState ≠ some poll.current then [stateMessage down] else []) ++
      if (s.noticeDown poll.now).attentionDue attentionAfter poll.now then [attentionMessage] else []

/-- Before its sends a poll writes the start of an outage and the queue, and nothing else. -/
theorem queueNotifications_eq (attentionAfter : Python.Float) (s : ConnectionMonitorState)
    (poll : ConnectionPoll) :
    s.queueNotifications attentionAfter poll = (s.notices attentionAfter poll).foldl queueMessage
      (if poll.current.isDown then s.noticeDown poll.now else s) := by
  unfold queueNotifications notices ConnectionState.isDown
  cases hdown : poll.current.down? with
  | none => dsimp only; split <;> simp
  | some down =>
    have hlast : (s.noticeDown poll.now).lastState = s.lastState := rfl
    simp only [hlast]
    by_cases hchanged : s.lastState ≠ some poll.current
    · simp only [if_pos hchanged, queueMessage_attentionDue]
      split <;> simp
    · simp only [if_neg hchanged]
      split <;> simp

theorem foldl_queueMessage_fields (messages : List String) :
    (messages.foldl queueMessage s).lastState = s.lastState ∧
      (messages.foldl queueMessage s).downSince = s.downSince ∧
      (messages.foldl queueMessage s).attentionSent = s.attentionSent := by
  induction messages generalizing s with
  | nil => exact ⟨rfl, rfl, rfl⟩
  | cons message messages ih => simpa using ih (s := s.queueMessage message)

/-- The queue takes, in their order, the messages that it does not have. -/
theorem foldl_queueMessage_pendingMessages {messages : List String} (h : messages.Nodup) :
    (messages.foldl queueMessage s).pendingMessages =
      s.pendingMessages ++ messages.filter (· ∉ s.pendingMessages) := by
  induction messages generalizing s with
  | nil => simp
  | cons m messages ih =>
    obtain ⟨hm, hrest⟩ := List.nodup_cons.mp h
    rw [List.foldl_cons, ih hrest, queueMessage_pendingMessages]
    by_cases hmem : m ∈ s.pendingMessages
    · simp [hmem]
    · have hothers : messages.filter (· ∉ s.pendingMessages ++ [m]) =
          messages.filter (· ∉ s.pendingMessages) := by
        refine List.filter_congr fun m' hm' => ?_
        have hne : m' ≠ m := fun heq => hm (heq ▸ hm')
        simp [hne]
      rw [if_neg hmem, hothers, List.filter_cons_of_pos (by simpa using hmem), List.append_assoc,
        List.singleton_append]

theorem notices_nodup : (s.notices attentionAfter poll).Nodup := by
  unfold notices
  split
  next => split <;> simp
  next down _ =>
    have hne : stateMessage down ≠ attentionMessage := by cases down <;> decide
    split <;> split <;> simp [hne]

/-- What is new on the queue stands behind what was there. -/
theorem pendingMessages_queueNotifications (attentionAfter : Python.Float)
    (s : ConnectionMonitorState) (poll : ConnectionPoll) :
    (s.queueNotifications attentionAfter poll).pendingMessages =
      s.pendingMessages ++ (s.notices attentionAfter poll).filter (· ∉ s.pendingMessages) := by
  rw [queueNotifications_eq]
  split
  next => exact foldl_queueMessage_pendingMessages (s := s.noticeDown poll.now) notices_nodup
  next => exact foldl_queueMessage_pendingMessages notices_nodup

theorem queued_eq (attentionAfter : Python.Float) (s : ConnectionMonitorState)
    (poll : ConnectionPoll) :
    (s.record attentionAfter poll).queued =
      (s.notices attentionAfter poll).filter (· ∉ s.pendingMessages) := by
  unfold record
  rw [pendingMessages_queueNotifications, List.drop_left]

/-- A message of the poll is not delivered. -/
def SendFails (attentionAfter : Python.Float) (s : ConnectionMonitorState)
    (poll : ConnectionPoll) : Prop :=
  ∃ i < (s.queueNotifications attentionAfter poll).pendingMessages.length, poll.accepts i = false

instance : Decidable (SendFails attentionAfter s poll) :=
  inferInstanceAs (Decidable (∃ i < _, _))

theorem sends_eq (attentionAfter : Python.Float) (s : ConnectionMonitorState)
    (poll : ConnectionPoll) :
    (s.record attentionAfter poll).sends = sendNotifications poll.accepts
      (s.queueNotifications attentionAfter poll).pendingMessages := by
  unfold record pollConnectionOnce sendPendingNotifications
  dsimp only
  split
  next hsends => exact (Prod.mk.inj hsends).1.symm
  next hsends =>
    split
    next => exact (Prod.mk.inj hsends).1.symm
    next => exact (Prod.mk.inj hsends).1.symm

theorem map_fst_sendNotifications (accepts : ℕ → Bool) (messages : List String) :
    (sendNotifications accepts messages).map (·.1) = messages := by
  unfold sendNotifications
  rw [List.map_map]
  exact List.zipIdx_map_fst 0 messages

theorem all_sends_iff :
    ((s.record attentionAfter poll).sends.all (·.2)) = true ↔ ¬ s.SendFails attentionAfter poll := by
  rw [sends_eq]
  unfold SendFails
  generalize (s.queueNotifications attentionAfter poll).pendingMessages = messages
  have hall : ((sendNotifications poll.accepts messages).all (·.2)) = true ↔
      ∀ m i, messages[i]? = some m → poll.accepts i = true := by
    simp [sendNotifications, List.mem_zipIdx_iff_getElem?]
  rw [hall]
  constructor
  · rintro haccepts ⟨i, hi, hfails⟩
    rw [haccepts messages[i] i (List.getElem?_eq_getElem hi)] at hfails
    cases hfails
  · intro hnone m i hm
    obtain ⟨hi, -⟩ := List.getElem?_eq_some_iff.mp hm
    by_contra hfails
    exact hnone ⟨i, hi, by simpa using hfails⟩

/-- A failed send leaves the state as it was before the sends. -/
theorem after_of_fails (h : s.SendFails attentionAfter poll) :
    s.after attentionAfter poll = s.queueNotifications attentionAfter poll := by
  have hall : ¬ ((s.record attentionAfter poll).sends.all (·.2)) = true := fun hall =>
    all_sends_iff.mp hall h
  rw [sends_eq] at hall
  simp only [after, pollConnectionOnce, sendPendingNotifications, if_neg hall]

/-- When all is delivered, the queue is empty and the poll is done. -/
theorem after_of_delivered (h : ¬ s.SendFails attentionAfter poll) :
    s.after attentionAfter poll =
      if poll.current.isDown then
        { lastState := some poll.current
          downSince := some (s.downSince.getD poll.now)
          attentionSent := s.attentionSent ||
            (s.noticeDown poll.now).attentionDue attentionAfter poll.now
          pendingMessages := [] }
      else ⟨some poll.current, none, false, []⟩ := by
  have hall := all_sends_iff.mpr h
  rw [sends_eq] at hall
  obtain ⟨hlast, hsince, hsent⟩ := foldl_queueMessage_fields
    (s := if poll.current.isDown then s.noticeDown poll.now else s) (s.notices attentionAfter poll)
  rw [← queueNotifications_eq] at hlast hsince hsent
  simp only [after, pollConnectionOnce, sendPendingNotifications, if_pos hall]
  split
  next hdown =>
    simp only [attentionDue, hsince, hsent, if_pos hdown]
    rfl
  next => rfl

end ConnectionMonitorState

end PortfolioHub
