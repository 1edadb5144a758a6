import PortfolioHub.ConnectionOutages

namespace PortfolioHub

/-- How often the polls deliver a message. -/
def deliveries (m : String) (records : List PollRecord) : ℕ :=
  (records.flatMap (·.sends)).count (m, true)

/-- How often the polls put a message on the queue. -/
def queuings (m : String) (records : List PollRecord) : ℕ := (records.flatMap (·.queued)).count m

/-- How often a message is delivered in a batch of which another send fails. -/
def wasted (m : String) (records : List PollRecord) : ℕ :=
  ((records.filter fun r => !r.sends.all (·.2)).flatMap (·.sends)).count (m, true)

theorem deliveries_cons (m : String) (r : PollRecord) (records : List PollRecord) :
    deliveries m (r :: records) = r.sends.count (m, true) + deliveries m records := by
  rw [deliveries, List.flatMap_cons, List.count_append, deliveries]

theorem queuings_cons (m : String) (r : PollRecord) (records : List PollRecord) :
    queuings m (r :: records) = r.queued.count m + queuings m records := by
  rw [queuings, List.flatMap_cons, List.count_append, queuings]

theorem wasted_cons (m : String) (r : PollRecord) (records : List PollRecord) :
    wasted m (r :: records) =
      (if r.sends.all (·.2) then 0 else r.sends.count (m, true)) + wasted m records := by
  unfold wasted
  by_cases h : r.sends.all (·.2) = true
  · rw [List.filter_cons_of_neg (by simp [h]), if_pos h, Nat.zero_add]
  · rw [List.filter_cons_of_pos (by simpa using h), List.flatMap_cons, List.count_append, if_neg h]

namespace ConnectionMonitorState

variable {attentionAfter : Python.Float} {s : ConnectionMonitorState} {p : ConnectionPoll}

/-- Every message is delivered at most as often as it is queued, none is lost, and one whose send
fails waits until a send of it succeeds. -/
structure Delivers (attentionAfter : Python.Float) (s : ConnectionMonitorState)
    (polls : List ConnectionPoll) : Prop where
  once : ∀ earlier later m, polls = earlier ++ later →
    deliveries m (s.records attentionAfter earlier) ≤
      s.pendingMessages.count m + queuings m (s.records attentionAfter earlier)
  kept : ∀ earlier later m, polls = earlier ++ later →
    s.pendingMessages.count m + queuings m (s.records attentionAfter earlier) ≤
      deliveries m (s.records attentionAfter earlier) +
        (s.monitor attentionAfter earlier).pendingMessages.count m
  retried : ∀ earlier p between later m, polls = earlier ++ p :: between ++ later →
    (m, false) ∈ ((s.monitor attentionAfter earlier).record attentionAfter p).sends →
      m ∈ (s.monitor attentionAfter (earlier ++ p :: between)).pendingMessages ∨
        0 < deliveries m ((s.monitor attentionAfter (earlier ++ [p])).records attentionAfter between)

/-- Of the messages the poll has to send, one is delivered and one is not. -/
def Mixed (attentionAfter : Python.Float) (s : ConnectionMonitorState) (p : ConnectionPoll) : Prop :=
  s.SendFails attentionAfter p ∧
    ∃ i < (s.queueNotifications attentionAfter p).pendingMessages.length, p.accepts i = true

theorem mem_sends_iff {m : String} {ok : Bool} :
    (m, ok) ∈ (s.record attentionAfter p).sends ↔
      ∃ i, (s.queueNotifications attentionAfter p).pendingMessages[i]? = some m ∧
        p.accepts i = ok := by
  rw [sends_eq]
  simp [sendNotifications, List.mem_zipIdx_iff_getElem?]

theorem mixed_iff : s.Mixed attentionAfter p ↔
    s.SendFails attentionAfter p ∧ ∃ m, (m, true) ∈ (s.record attentionAfter p).sends := by
  refine and_congr_right fun _ => ?_
  constructor
  · rintro ⟨i, hi, haccepts⟩
    exact ⟨_, mem_sends_iff.mpr ⟨i, List.getElem?_eq_getElem hi, haccepts⟩⟩
  · rintro ⟨m, hm⟩
    obtain ⟨i, hi, haccepts⟩ := mem_sends_iff.mp hm
    exact ⟨i, (List.getElem?_eq_some_iff.mp hi).1, haccepts⟩

/-- A batch that is delivered in full delivers every message as often as it has it. -/
theorem count_sends_of_delivered {m : String} (h : ¬ s.SendFails attentionAfter p) :
    (s.record attentionAfter p).sends.count (m, true) =
      (s.queueNotifications attentionAfter p).pendingMessages.count m := by
  have hall := all_sends_iff.mpr h
  have hsends : (s.record attentionAfter p).sends =
      ((s.record attentionAfter p).sends.map (·.1)).map fun m => (m, true) := by
    rw [List.map_map]
    conv_lhs => rw [← List.map_id (s.record attentionAfter p).sends]
    refine List.map_congr_left fun x hx => ?_
    have hok : x.2 = true := List.all_eq_true.mp hall x hx
    exact Prod.ext rfl hok
  rw [hsends, List.count_map_of_injective _ _ (fun a b hab => (Prod.mk.inj hab).1), sends_eq,
    map_fst_sendNotifications]

/-- What one poll does to the books of a message. -/
theorem deliveries_record (m : String) :
    (s.record attentionAfter p).sends.count (m, true) +
        (s.after attentionAfter p).pendingMessages.count m =
      s.pendingMessages.count m + (s.record attentionAfter p).queued.count m +
        wasted m [s.record attentionAfter p] := by
  have hqueue : (s.queueNotifications attentionAfter p).pendingMessages.count m =
      s.pendingMessages.count m + (s.record attentionAfter p).queued.count m := by
    rw [pendingMessages_queueNotifications, queued_eq, List.count_append]
  have hnone : wasted m [] = 0 := rfl
  rw [wasted_cons, hnone]
  by_cases h : s.SendFails attentionAfter p
  · rw [if_neg (mt all_sends_iff.mp (not_not.mpr h)), after_of_fails h, hqueue]
    omega
  · have hempty : (s.after attentionAfter p).pendingMessages = [] := by
      rw [after_of_delivered h]
      split <;> rfl
    rw [if_pos (all_sends_iff.mpr h), count_sends_of_delivered h, hqueue, hempty]
    rfl

/-- Deliveries and what waits make up what was queued and what was wasted. -/
theorem deliveries_monitor (m : String) (polls : List ConnectionPoll) :
    deliveries m (s.records attentionAfter polls) +
        (s.monitor attentionAfter polls).pendingMessages.count m =
      s.pendingMessages.count m + queuings m (s.records attentionAfter polls) +
        wasted m (s.records attentionAfter polls) := by
  induction polls generalizing s with
  | nil => exact Nat.add_comm _ _
  | cons p polls ih =>
    have hfirst := @deliveries_record attentionAfter s p m
    have hrest : deliveries m ((s.after attentionAfter p).records attentionAfter polls) +
        (s.monitor attentionAfter (p :: polls)).pendingMessages.count m = _ := ih
    have hnone : wasted m [] = 0 := rfl
    rw [wasted_cons, hnone] at hfirst
    rw [records, deliveries_cons, queuings_cons, wasted_cons]
    omega

/-- Nothing is wasted where no batch is delivered in part. -/
theorem wasted_eq_zero {m : String} {polls : List ConnectionPoll}
    (h : ∀ earlier p later, polls = earlier ++ p :: later →
      ¬ (s.monitor attentionAfter earlier).Mixed attentionAfter p) :
    wasted m (s.records attentionAfter polls) = 0 := by
  induction polls generalizing s with
  | nil => rfl
  | cons p polls ih =>
    have hrest := ih (s := s.after attentionAfter p) fun earlier q later hsplit =>
      h (p :: earlier) q later (congrArg (p :: ·) hsplit)
    rw [records, wasted_cons, hrest]
    split
    next => rfl
    next hnot =>
      have hfails : s.SendFails attentionAfter p := by
        by_contra hdelivered
        exact hnot (all_sends_iff.mpr hdelivered)
      have hnone : (m, true) ∉ (s.record attentionAfter p).sends := fun hmem =>
        h [] p polls rfl (mixed_iff.mpr ⟨hfails, m, hmem⟩)
      rw [List.count_eq_zero.mpr hnone]

/-- A delivery next to a failure is wasted. -/
theorem wasted_pos {polls earlier later : List ConnectionPoll}
    (hsplit : polls = earlier ++ p :: later)
    (h : (s.monitor attentionAfter earlier).Mixed attentionAfter p) :
    ∃ m, 0 < wasted m (s.records attentionAfter polls) := by
  obtain ⟨hfails, m, hmem⟩ := mixed_iff.mp h
  refine ⟨m, ?_⟩
  have hrecords : s.records attentionAfter polls = s.records attentionAfter earlier ++
      (s.monitor attentionAfter earlier).record attentionAfter p ::
        ((s.monitor attentionAfter earlier).after attentionAfter p).records attentionAfter later := by
    rw [hsplit, records_append, records]
  have hpos : 0 < ((s.monitor attentionAfter earlier).record attentionAfter p).sends.count
      (m, true) := List.count_pos_iff.mpr hmem
  unfold wasted
  rw [hrecords, List.filter_append, List.filter_cons_of_pos
    (by simpa using mt all_sends_iff.mp (not_not.mpr hfails)), List.flatMap_append,
    List.flatMap_cons, List.count_append, List.count_append]
  omega

/-- A waiting message waits on, or is delivered. -/
theorem waits_or_delivered {m : String} {polls : List ConnectionPoll}
    (h : m ∈ s.pendingMessages) :
    m ∈ (s.monitor attentionAfter polls).pendingMessages ∨
      0 < deliveries m (s.records attentionAfter polls) := by
  have hbooks := @deliveries_monitor attentionAfter s m polls
  have hwaiting : 0 < s.pendingMessages.count m := List.count_pos_iff.mpr h
  by_cases hlater : m ∈ (s.monitor attentionAfter polls).pendingMessages
  · exact Or.inl hlater
  · rw [List.count_eq_zero.mpr hlater] at hbooks
    exact Or.inr (by omega)

end ConnectionMonitorState

open ConnectionMonitorState

/-- However sends fail, no message is lost; none is delivered too often, once the sends succeed
again, if and only if no batch has been delivered in part. -/
theorem delivers_iff (attentionAfter : Python.Float) (s : ConnectionMonitorState)
    (polls : List ConnectionPoll) (last : ConnectionPoll) (hlast : ∀ i, last.accepts i = true) :
    Delivers attentionAfter s (polls ++ [last]) ↔
      ∀ earlier p later, polls = earlier ++ p :: later →
        ¬ (s.monitor attentionAfter earlier).Mixed attentionAfter p := by
  have hdone : (s.monitor attentionAfter (polls ++ [last])).pendingMessages = [] := by
    have hafter : s.monitor attentionAfter (polls ++ [last]) =
        (s.monitor attentionAfter polls).after attentionAfter last := monitor_append ..
    rw [hafter, after_of_delivered (not_sendFails hlast)]
    split <;> rfl
  constructor
  · intro h earlier p later hsplit hmixed
    have hlonger : polls ++ [last] = earlier ++ p :: (later ++ [last]) := by
      rw [hsplit]
      simp
    obtain ⟨m, hwasted⟩ := wasted_pos hlonger hmixed
    have hbooks := @deliveries_monitor attentionAfter s m (polls ++ [last])
    have honce := h.once (polls ++ [last]) [] m (by simp)
    rw [hdone] at hbooks
    simp only [List.count_nil] at hbooks
    omega
  · intro h
    constructor
    · intro earlier later m hsplit
      have hbooks := @deliveries_monitor attentionAfter s m earlier
      have hnone : wasted m (s.records attentionAfter earlier) = 0 := by
        refine wasted_eq_zero fun before p after heq hmixed => ?_
        rw [heq, List.append_assoc, List.cons_append] at hsplit
        rcases List.eq_nil_or_concat (after ++ later) with hnil | ⟨rest, q, hrest⟩
        · rw [hnil] at hsplit
          obtain ⟨-, hp⟩ := List.append_inj' hsplit rfl
          obtain rfl := List.singleton_inj.mp hp
          exact not_sendFails hlast hmixed.1
        · rw [hrest, List.concat_eq_append, ← List.cons_append, ← List.append_assoc] at hsplit
          exact h before p rest (List.append_inj' hsplit rfl).1 hmixed
      omega
    · intro earlier later m hsplit
      have hbooks := @deliveries_monitor attentionAfter s m earlier
      omega
    · intro earlier p between later m hsplit hfailed
      have hfails : (s.monitor attentionAfter earlier).SendFails attentionAfter p := by
        obtain ⟨i, hi, hrefused⟩ := mem_sends_iff.mp hfailed
        exact ⟨i, (List.getElem?_eq_some_iff.mp hi).1, hrefused⟩
      have hwaiting : m ∈ (s.monitor attentionAfter (earlier ++ [p])).pendingMessages := by
        have hafter : s.monitor attentionAfter (earlier ++ [p]) =
            (s.monitor attentionAfter earlier).after attentionAfter p := monitor_append ..
        obtain ⟨i, hi, -⟩ := mem_sends_iff.mp hfailed
        rw [hafter, after_of_fails hfails]
        exact List.mem_of_getElem? hi
      have hrun : s.monitor attentionAfter (earlier ++ p :: between) =
          (s.monitor attentionAfter (earlier ++ [p])).monitor attentionAfter between := by
        rw [← monitor_append, List.append_assoc, List.singleton_append]
      rw [hrun]
      exact waits_or_delivered hwaiting

/-- Two polls fail in full, the third delivers what waits. -/
theorem delivers_after_outage :
    Delivers 120 init ([pollAt 0 .disconnected false, pollAt 130 .reconnecting false] ++
      [pollAt 160 .connected true]) := by
  refine (delivers_iff 120 init _ (pollAt 160 .connected true) fun _ => rfl).mpr ?_
  rintro earlier p later hsplit ⟨⟨i, -, hfails⟩, j, -, haccepts⟩
  have hp : p ∈ [pollAt 0 .disconnected false, pollAt 130 .reconnecting false] := by
    rw [hsplit]
    simp
  simp only [List.mem_cons, List.not_mem_nil, or_false] at hp
  rcases hp with rfl | rfl
  · cases haccepts
  · cases haccepts

/-- The disconnected message is delivered at 10 s, next to a recovered message that is not, and
delivered again at 20 s. -/
theorem not_delivers_in_part :
    ¬ Delivers 120 init [pollAt 0 .disconnected false,
      ⟨.connected, 10, fun i => decide (i = 0)⟩, pollAt 20 .connected true] := by
  intro h
  have honce := h.once _ [] (stateMessage .disconnected) (List.append_nil _).symm
  exact absurd honce (by decide +kernel)

end PortfolioHub
