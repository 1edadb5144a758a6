import PortfolioHub.ConnectionMonitor

namespace PortfolioHub

/-- A maximal run of down polls of `polls`, between `before` and `later`. -/
structure Outage (polls before outage later : List ConnectionPoll) : Prop where
  split : polls = before ++ outage ++ later
  nonempty : outage ≠ []
  down : ∀ p ∈ outage, p.current.isDown = true
  begins : ∀ p ∈ before.getLast?, p.current.isDown = false
  ends : ∀ p ∈ later.head?, p.current.isDown = false

/-- A poll is as late as the threshold after the time. -/
def ConnectionPoll.elapsed (attentionAfter : Python.Float) (since : ℚ) (p : ConnectionPoll) : Bool :=
  decide (attentionAfter ≤ .finite (p.now - since))

/-- The messages that a poll sends. -/
def PollRecord.sent (record : PollRecord) : List String := record.sends.map (·.1)

namespace ConnectionMonitorState

variable {attentionAfter : Python.Float} {s : ConnectionMonitorState} {p : ConnectionPoll}

/-- The monitor is not in an outage. -/
def Idle (s : ConnectionMonitorState) : Prop :=
  s.downSince = none ∧ s.attentionSent = false ∧ s.pendingMessages = []

theorem monitor_append (attentionAfter : Python.Float) (s : ConnectionMonitorState)
    (earlier later : List ConnectionPoll) :
    s.monitor attentionAfter (earlier ++ later) =
      (s.monitor attentionAfter earlier).monitor attentionAfter later :=
  List.foldl_append

theorem records_append (attentionAfter : Python.Float) (s : ConnectionMonitorState)
    (earlier later : List ConnectionPoll) :
    s.records attentionAfter (earlier ++ later) = s.records attentionAfter earlier ++
      (s.monitor attentionAfter earlier).records attentionAfter later := by
  induction earlier generalizing s with
  | nil => rfl
  | cons p earlier ih => exact congrArg _ (ih (s.after attentionAfter p))

theorem not_sendFails (h : ∀ i, p.accepts i = true) : ¬ s.SendFails attentionAfter p := by
  rintro ⟨i, -, hi⟩
  rw [h i] at hi
  cases hi

/-- The connection is up and everything is delivered: the outage is over. -/
theorem idle_after_connected (hup : p.current.isDown = false)
    (h : ¬ s.SendFails attentionAfter p) : (s.after attentionAfter p).Idle := by
  rw [after_of_delivered h, if_neg (by simp [hup])]
  exact ⟨rfl, rfl, rfl⟩

theorem sent_of_empty (h : s.pendingMessages = []) :
    (s.record attentionAfter p).sent = s.notices attentionAfter p := by
  have hqueue := pendingMessages_queueNotifications attentionAfter s p
  have hall : (s.notices attentionAfter p).filter (· ∉ s.pendingMessages) =
      s.notices attentionAfter p := by simp [h]
  rw [h, List.nil_append, ← h, hall] at hqueue
  rw [PollRecord.sent, sends_eq, hqueue, map_fst_sendNotifications]

/-- What the monitor knows of the polls when every send succeeds. -/
structure Follows (s : ConnectionMonitorState) (earlier : List ConnectionPoll) : Prop where
  sent : s.pendingMessages = []
  last : s.lastState = earlier.getLast?.map (·.current)
  idle : (∀ p ∈ earlier.getLast?, p.current.isDown = false) → s.Idle
  since : s.downSince.isSome = earlier.getLast?.any (·.current.isDown)

theorem follows_of_working {earlier : List ConnectionPoll}
    (hok : ∀ p ∈ earlier, ∀ i, p.accepts i = true) :
    (init.monitor attentionAfter earlier).Follows earlier := by
  induction earlier using List.reverseRecOn with
  | nil => exact ⟨rfl, rfl, fun _ => ⟨rfl, rfl, rfl⟩, rfl⟩
  | append_singleton earlier p =>
    have hsends : ¬ (init.monitor attentionAfter earlier).SendFails attentionAfter p :=
      not_sendFails (hok p (by simp))
    have hafter : init.monitor attentionAfter (earlier ++ [p]) =
        (init.monitor attentionAfter earlier).after attentionAfter p := monitor_append ..
    rw [hafter]
    by_cases hdown : p.current.isDown = true
    · rw [after_of_delivered hsends, if_pos hdown]
      refine ⟨rfl, by simp, fun hup => ?_, by simp [hdown]⟩
      exact absurd hdown (by simp [hup p (by simp)])
    · have hidle := idle_after_connected (by simpa using hdown) hsends
      rw [after_of_delivered hsends, if_neg hdown] at hidle ⊢
      exact ⟨rfl, by simp, fun _ => hidle, by simpa using hdown⟩

/-- An outage has its attention message once it has lasted, if it has not had it before. -/
theorem count_attention {outage : List ConnectionPoll} {since : ℚ}
    (hok : ∀ p ∈ outage, ∀ i, p.accepts i = true) (hdown : ∀ p ∈ outage, p.current.isDown = true)
    (hempty : s.pendingMessages = []) (hsince : ∀ p ∈ outage.head?, s.downSince.getD p.now = since) :
    ((s.records attentionAfter outage).flatMap (·.sent)).count attentionMessage =
      if s.attentionSent = false ∧ outage.any (·.elapsed attentionAfter since) then 1 else 0 := by
  induction outage generalizing s with
  | nil => simp [records]
  | cons p outage ih =>
    obtain ⟨down, hp⟩ := Option.isSome_iff_exists.mp (hdown p List.mem_cons_self)
    have hne : stateMessage down ≠ attentionMessage := by cases down <;> decide
    have hstart : s.downSince.getD p.now = since := hsince p rfl
    have hdue : (s.noticeDown p.now).attentionDue attentionAfter p.now =
        (!s.attentionSent && p.elapsed attentionAfter since) := by
      simp [attentionDue, noticeDown, hstart, ConnectionPoll.elapsed]
    have hfirst : (s.record attentionAfter p).sent.count attentionMessage =
        if s.attentionSent = false ∧ p.elapsed attentionAfter since = true then 1 else 0 := by
      rw [sent_of_empty hempty]
      simp only [notices, hp, hdue, List.count_append]
      have hstate : (if s.lastState ≠ some p.current then [stateMessage down] else []).count
          attentionMessage = 0 := by
        split
        next => simp [hne]
        next => rfl
      rw [hstate]
      cases s.attentionSent <;> cases p.elapsed attentionAfter since <;> simp
    have hsends : ¬ s.SendFails attentionAfter p := not_sendFails (hok p List.mem_cons_self)
    have hafter := after_of_delivered hsends
    rw [if_pos (hdown p List.mem_cons_self), hstart, hdue] at hafter
    have hrest := ih (s := s.after attentionAfter p) (fun q hq => hok q (List.mem_cons_of_mem _ hq))
      (fun q hq => hdown q (List.mem_cons_of_mem _ hq)) (by rw [hafter])
      (fun q _ => by rw [hafter]; rfl)
    rw [records, List.flatMap_cons, List.count_append, hfirst, hrest, hafter, List.any_cons]
    cases s.attentionSent <;> cases p.elapsed attentionAfter since <;> simp

/-- The messages of a poll, the attention message apart. -/
theorem filter_sent {earlier : List ConnectionPoll} (h : s.Follows earlier) :
    match p.current.down? with
    | none => (s.record attentionAfter p).sent =
        if earlier.getLast?.any (·.current.isDown) then [recoveredMessage] else []
    | some down => (s.record attentionAfter p).sent.filter (· ≠ attentionMessage) =
        if earlier.getLast?.map (·.current) = some p.current then [] else [stateMessage down] := by
  have hlast : s.lastState.any (·.isDown) = earlier.getLast?.any (·.current.isDown) := by
    rw [h.last]
    cases earlier.getLast? <;> rfl
  rw [sent_of_empty h.sent]
  cases hp : p.current.down? with
  | none =>
    simp only [notices, hp, hlast, h.since, or_self]
  | some down =>
    have hne : stateMessage down ≠ attentionMessage := by cases down <;> decide
    simp only [notices, hp, h.last]
    split <;> split <;> simp_all

end ConnectionMonitorState

open ConnectionMonitorState

/-- With a notifier that never fails: an outage that lasts has one attention message, a change to a
down state one state message, the end of an outage one recovered message, and nothing else is
sent. -/
theorem monitor_sends_once (attentionAfter : Python.Float) (polls : List ConnectionPoll)
    (hok : ∀ p ∈ polls, ∀ i, p.accepts i = true) :
    (∀ before outage later, Outage polls before outage later →
      (((init.monitor attentionAfter before).records attentionAfter outage).flatMap
          (·.sent)).count attentionMessage =
        if outage.head?.any fun first => outage.any (·.elapsed attentionAfter first.now) then 1
        else 0) ∧
    ∀ earlier p later, polls = earlier ++ p :: later →
      match p.current.down? with
      | none => ((init.monitor attentionAfter earlier).record attentionAfter p).sent =
          if earlier.getLast?.any (·.current.isDown) then [recoveredMessage] else []
      | some down =>
        ((init.monitor attentionAfter earlier).record attentionAfter p).sent.filter
            (· ≠ attentionMessage) =
          if earlier.getLast?.map (·.current) = some p.current then [] else [stateMessage down] := by
  constructor
  · intro before outage later h
    have hbefore : ∀ p ∈ before, ∀ i, p.accepts i = true :=
      fun p hp => hok p (by rw [h.split]; simp [hp])
    have houtage : ∀ p ∈ outage, ∀ i, p.accepts i = true :=
      fun p hp => hok p (by rw [h.split]; simp [hp])
    have hfollows : (init.monitor attentionAfter before).Follows before := follows_of_working hbefore
    obtain ⟨hsince, hsent, hempty⟩ := hfollows.idle h.begins
    obtain ⟨first, rest, rfl⟩ := List.exists_cons_of_ne_nil h.nonempty
    have hfirst : ∀ p ∈ (first :: rest).head?,
        (init.monitor attentionAfter before).downSince.getD p.now = first.now := by
      intro p hp
      obtain rfl := Option.some.inj hp
      rw [hsince]
      rfl
    have hcount := @count_attention attentionAfter _ _ _ houtage h.down hempty hfirst
    rw [hcount, hsent]
    simp
  · intro earlier p later h
    have hearlier : ∀ q ∈ earlier, ∀ i, q.accepts i = true := fun q hq => hok q (by simp [h, hq])
    exact filter_sent (follows_of_working hearlier)

/-- A poll whose sends all succeed, or all fail. -/
def pollAt (now : ℚ) (current : ConnectionState) (accepted : Bool) : ConnectionPoll :=
  ⟨current, now, fun _ => accepted⟩

/-- An outage in both down states, past its threshold. -/
theorem monitor_sends_once_outage :
    ((init.records 120 [pollAt 0 .disconnected true, pollAt 130 .reconnecting true]).flatMap
      (·.sent)).count attentionMessage = 1 := by
  have hsends := (monitor_sends_once 120 [pollAt 0 .disconnected true,
    pollAt 130 .reconnecting true, pollAt 160 .connected true] (by
      intro p hp i
      simp only [List.mem_cons, List.not_mem_nil, or_false] at hp
      rcases hp with rfl | rfl | rfl <;> rfl)).1 []
    [pollAt 0 .disconnected true, pollAt 130 .reconnecting true] [pollAt 160 .connected true]
    ⟨rfl, by simp, by decide, by simp, by decide⟩
  rw [if_pos (by decide +kernel)] at hsends
  exact hsends

end PortfolioHub
