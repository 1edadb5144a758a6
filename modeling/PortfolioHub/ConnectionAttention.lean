import PortfolioHub.ConnectionOutages
import PortfolioHub.Lists

namespace PortfolioHub

theorem ConnectionPoll.elapsed_of_le {attentionAfter : Python.Float} {p : ConnectionPoll}
    {since later : ℚ} (hle : since ≤ later) (h : p.elapsed attentionAfter later = true) :
    p.elapsed attentionAfter since = true := by
  have hspan : p.now - later ≤ p.now - since := sub_le_sub_left hle p.now
  exact decide_eq_true (Python.Float.le_finite_of_le hspan (of_decide_eq_true h))

namespace ConnectionMonitorState

variable {attentionAfter : Python.Float} {s : ConnectionMonitorState} {p : ConnectionPoll}

/-- The attention message is put on the queue at the poll after `earlier`. -/
def AttentionQueued (attentionAfter : Python.Float) (earlier : List ConnectionPoll)
    (p : ConnectionPoll) : Prop :=
  attentionMessage ∈ ((init.monitor attentionAfter earlier).record attentionAfter p).queued

instance (earlier : List ConnectionPoll) : Decidable (AttentionQueued attentionAfter earlier p) :=
  inferInstanceAs (Decidable (_ ∈ _))

/-- From a poll at least the threshold ago up to `p`, all polls are down. -/
def LongDown (attentionAfter : Python.Float) (earlier : List ConnectionPoll)
    (p : ConnectionPoll) : Prop :=
  ∃ before first run, earlier ++ [p] = before ++ first :: run ∧
    (∀ q ∈ first :: run, q.current.isDown = true) ∧ p.elapsed attentionAfter first.now = true

/-- The attention message is queued for long outages, and for no others. -/
structure SoundAttention (attentionAfter : Python.Float) (polls : List ConnectionPoll) : Prop where
  earned : ∀ earlier p later, polls = earlier ++ p :: later →
    AttentionQueued attentionAfter earlier p → LongDown attentionAfter earlier p
  raised : ∀ before outage later, Outage polls before outage later →
    (∃ during p rest, outage = during ++ p :: rest ∧ LongDown attentionAfter during p) →
      ∃ during p rest, outage = during ++ p :: rest ∧
        AttentionQueued attentionAfter (before ++ during) p

/-- The poll that ends an outage delivers all it has to, unless the next one is up as well. -/
def Recovers (attentionAfter : Python.Float) (polls : List ConnectionPoll) : Prop :=
  ∀ earlier p next later, polls = earlier ++ p :: next :: later → p.current.isDown = false →
    (init.monitor attentionAfter earlier).SendFails attentionAfter p → next.current.isDown = false

theorem mem_notices_iff : attentionMessage ∈ s.notices attentionAfter p ↔
    p.current.isDown = true ∧ s.attentionSent = false ∧
      p.elapsed attentionAfter (s.downSince.getD p.now) = true := by
  unfold notices ConnectionState.isDown
  cases hp : p.current.down? with
  | none =>
    have hne : attentionMessage ≠ recoveredMessage := by decide
    dsimp only
    split <;> simp [hne]
  | some down =>
    have hne : attentionMessage ≠ stateMessage down := by cases down <;> decide
    dsimp only
    split <;> simp [hne, attentionDue, noticeDown, ConnectionPoll.elapsed]

theorem after_downSince (hdown : p.current.isDown = true) :
    (s.after attentionAfter p).downSince = some (s.downSince.getD p.now) := by
  by_cases h : s.SendFails attentionAfter p
  · obtain ⟨-, hsince, -⟩ := foldl_queueMessage_fields (s := s.noticeDown p.now)
      (s.notices attentionAfter p)
    rw [after_of_fails h, queueNotifications_eq, if_pos hdown, hsince]
    rfl
  · rw [after_of_delivered h, if_pos hdown]

/-- The outage has not come to its attention message. -/
def Unalarmed (s : ConnectionMonitorState) : Prop :=
  s.attentionSent = false ∧ attentionMessage ∉ s.pendingMessages

theorem after_unalarmed (hs : s.Unalarmed) (hdown : p.current.isDown = true)
    (hnew : attentionMessage ∉ (s.record attentionAfter p).queued) :
    (s.after attentionAfter p).Unalarmed := by
  obtain ⟨hsent, hpending⟩ := hs
  have hnotices : attentionMessage ∉ s.notices attentionAfter p := by
    intro hmem
    rw [queued_eq] at hnew
    exact hnew (List.mem_filter.mpr ⟨hmem, by simpa using hpending⟩)
  by_cases h : s.SendFails attentionAfter p
  · obtain ⟨-, -, hkept⟩ := foldl_queueMessage_fields (s := s.noticeDown p.now)
      (s.notices attentionAfter p)
    rw [after_of_fails h]
    refine ⟨?_, ?_⟩
    · rw [queueNotifications_eq, if_pos hdown, hkept]
      exact hsent
    · rw [pendingMessages_queueNotifications, List.mem_append, not_or]
      exact ⟨hpending, fun hmem => hnotices (List.mem_filter.mp hmem).1⟩
  · have hdue : (s.noticeDown p.now).attentionDue attentionAfter p.now = false := by
      rw [mem_notices_iff] at hnotices
      simpa [attentionDue, noticeDown, hsent, ConnectionPoll.elapsed] using
        fun hle => hnotices ⟨hdown, hsent, by simpa [ConnectionPoll.elapsed] using hle⟩
    rw [after_of_delivered h, if_pos hdown]
    exact ⟨by simp [hsent, hdue], by simp⟩

theorem monitor_downSince {since : ℚ} {during : List ConnectionPoll} (hs : s.downSince = some since)
    (hdown : ∀ q ∈ during, q.current.isDown = true) :
    (s.monitor attentionAfter during).downSince = some since := by
  induction during generalizing s with
  | nil => exact hs
  | cons q during ih =>
    have hfirst : (s.after attentionAfter q).downSince = some since := by
      rw [after_downSince (hdown q List.mem_cons_self), hs]
      rfl
    exact ih hfirst fun r hr => hdown r (List.mem_cons_of_mem _ hr)

/-- Along an outage the monitor counts from its first poll. -/
theorem downSince_during {first : ConnectionPoll} {during : List ConnectionPoll} (hs : s.Idle)
    (hdown : ∀ q ∈ during, q.current.isDown = true)
    (hfirst : (during ++ [p]).head? = some first) :
    (s.monitor attentionAfter during).downSince.getD p.now = first.now := by
  cases during with
  | nil =>
    obtain rfl := Option.some.inj hfirst
    have hnone : s.downSince = none := hs.1
    simp [monitor, hnone]
  | cons q during =>
    obtain rfl := Option.some.inj hfirst
    have hnone : s.downSince = none := hs.1
    have hq : (s.after attentionAfter q).downSince = some q.now := by
      rw [after_downSince (hdown q List.mem_cons_self), hnone]
      rfl
    have hsince : ((s.after attentionAfter q).monitor attentionAfter during).downSince =
        some q.now := monitor_downSince hq fun r hr => hdown r (List.mem_cons_of_mem _ hr)
    exact congrArg (·.getD p.now) hsince

/-- Short of its attention message an outage stays unalarmed. -/
theorem monitor_unalarmed {during : List ConnectionPoll} (hs : s.Unalarmed)
    (hdown : ∀ q ∈ during, q.current.isDown = true)
    (hquiet : ∀ earlier q later, during = earlier ++ q :: later →
      attentionMessage ∉ ((s.monitor attentionAfter earlier).record attentionAfter q).queued) :
    (s.monitor attentionAfter during).Unalarmed := by
  induction during generalizing s with
  | nil => exact hs
  | cons q during ih =>
    refine ih (after_unalarmed hs (hdown q List.mem_cons_self) (hquiet [] q during rfl))
      (fun r hr => hdown r (List.mem_cons_of_mem _ hr)) fun earlier r later h => ?_
    exact hquiet (q :: earlier) r later (by rw [h]; rfl)

/-- When recoveries are delivered an outage starts from an idle monitor. -/
theorem idle_before {before later : List ConnectionPoll}
    (hrecovers : Recovers attentionAfter (before ++ p :: later)) (hdown : p.current.isDown = true)
    (hbegins : ∀ q ∈ before.getLast?, q.current.isDown = false) :
    (init.monitor attentionAfter before).Idle := by
  rcases List.eq_nil_or_concat before with rfl | ⟨earlier, q, rfl⟩
  · exact ⟨rfl, rfl, rfl⟩
  · rw [List.concat_eq_append] at hrecovers hbegins ⊢
    have hup : q.current.isDown = false := hbegins q (by simp)
    have hdelivered : ¬ (init.monitor attentionAfter earlier).SendFails attentionAfter q := by
      intro hfails
      have hnext := hrecovers earlier q p later (by simp) hup hfails
      exact absurd hdown (by simp [hnext])
    rw [monitor_append]
    exact idle_after_connected hup hdelivered

end ConnectionMonitorState

open ConnectionMonitorState

/-- Whatever sends fail, the timer and the flag of an outage do not reach a later one as long as
the poll that ends the outage delivers what it has to. -/
theorem attention_of_recoveries (attentionAfter : Python.Float) (polls : List ConnectionPoll)
    (hclock : polls.Pairwise (·.now ≤ ·.now)) (hrecovers : Recovers attentionAfter polls) :
    SoundAttention attentionAfter polls := by
  constructor
  · intro earlier p later hsplit hqueued
    have hnotice := hqueued
    unfold AttentionQueued at hnotice
    rw [queued_eq] at hnotice
    obtain ⟨hdown, -, helapsed⟩ := mem_notices_iff.mp (List.mem_filter.mp hnotice).1
    obtain ⟨before, during, rfl, hduring, hbegins⟩ :=
      List.exists_trailing_run (fun q : ConnectionPoll => q.current.isDown) earlier
    obtain ⟨first, run, hrun⟩ := List.exists_cons_of_ne_nil (l := during ++ [p]) (by simp)
    have hall : ∀ q ∈ first :: run, q.current.isDown = true := by
      intro q hq
      rw [← hrun, List.mem_append, List.mem_singleton] at hq
      rcases hq with hq | rfl
      · exact hduring q hq
      · exact hdown
    have hidle : (init.monitor attentionAfter before).Idle := by
      have hrest : Recovers attentionAfter (before ++ first :: (run ++ later)) := by
        rw [hsplit, List.append_assoc, ← List.singleton_append, ← List.append_assoc during, hrun]
          at hrecovers
        exact hrecovers
      exact idle_before hrest (hall first List.mem_cons_self) hbegins
    rw [monitor_append, downSince_during hidle hduring (by rw [hrun]; rfl)] at helapsed
    exact ⟨before, first, run, by rw [List.append_assoc, hrun], hall, helapsed⟩
  · rintro before outage later h ⟨during, p, rest, rfl, apart, start, run, hrun, -, helapsed⟩
    obtain ⟨first, others, hfirst⟩ := List.exists_cons_of_ne_nil (l := during ++ [p]) (by simp)
    have hwhole : during ++ p :: rest = first :: (others ++ rest) := by
      rw [← List.cons_append, ← hfirst]
      simp
    have hduring : ∀ q ∈ during, q.current.isDown = true := fun q hq => h.down q (by simp [hq])
    have hdown : p.current.isDown = true := h.down p (by simp)
    have hsplit : polls = before ++ first :: (others ++ rest ++ later) := by
      rw [h.split, hwhole]
      simp
    have hidle : (init.monitor attentionAfter before).Idle := by
      refine idle_before (by rw [← hsplit]; exact hrecovers) (h.down first ?_) h.begins
      rw [hwhole]
      exact List.mem_cons_self
    have hstart : first.now ≤ start.now := by
      have hmem : start ∈ first :: others := by
        rw [← hfirst, hrun]
        simp
      have hordered : (first :: others).Pairwise (·.now ≤ ·.now) := by
        refine hclock.sublist ?_
        rw [hsplit, List.append_assoc, ← List.cons_append]
        exact (List.sublist_append_left _ _).trans (List.sublist_append_right _ _)
      rcases List.mem_cons.mp hmem with rfl | hmem
      · exact le_refl _
      · exact (List.pairwise_cons.mp hordered).1 start hmem
    by_contra hquiet
    have hunalarmed : ((init.monitor attentionAfter before).monitor attentionAfter during).Unalarmed := by
      refine monitor_unalarmed ⟨hidle.2.1, by simp [hidle.2.2]⟩ hduring fun earlier q y hsplit hq => ?_
      refine hquiet ⟨earlier, q, y ++ p :: rest, by rw [hsplit]; simp, ?_⟩
      rwa [AttentionQueued, monitor_append]
    refine hquiet ⟨during, p, rest, rfl, ?_⟩
    have hsince : ((init.monitor attentionAfter before).monitor attentionAfter during).downSince.getD
        p.now = first.now := downSince_during hidle hduring (by rw [hfirst]; rfl)
    rw [AttentionQueued, monitor_append, queued_eq]
    refine List.mem_filter.mpr ⟨mem_notices_iff.mpr ⟨hdown, hunalarmed.1, ?_⟩, by simpa using hunalarmed.2⟩
    rw [hsince]
    exact ConnectionPoll.elapsed_of_le hstart helapsed

/-- The first attention message fails and is tried again; the recovery is delivered. -/
theorem attention_of_recoveries_retried :
    SoundAttention 120 [pollAt 0 .disconnected true, pollAt 130 .disconnected false,
      pollAt 160 .connected true, pollAt 190 .reconnecting true] := by
  refine attention_of_recoveries 120 _ (by decide) ?_
  intro earlier p next later hsplit hup hfails
  rcases earlier with _ | ⟨a, _ | ⟨b, _ | ⟨c, _ | ⟨d, earlier⟩⟩⟩⟩
  · obtain ⟨rfl, -⟩ := List.cons.inj hsplit
    cases hup
  · obtain ⟨rfl, -⟩ := List.cons.inj (List.cons.inj hsplit).2
    cases hup
  · obtain ⟨rfl, -⟩ := List.cons.inj (List.cons.inj (List.cons.inj hsplit).2).2
    exact absurd hfails (ConnectionMonitorState.not_sendFails fun _ => rfl)
  · simp at hsplit
  · simp at hsplit

/-- The recovered message of an outage at 0 s is lost; the outage from 20 s has its attention
message at 130 s. -/
theorem not_soundAttention_lost_recovery :
    ¬ SoundAttention 120 [pollAt 0 .disconnected true, pollAt 10 .connected false,
      pollAt 20 .disconnected true, pollAt 130 .disconnected true] := by
  intro h
  obtain ⟨before, first, run, hsplit, hdown, helapsed⟩ := h.earned
    [pollAt 0 .disconnected true, pollAt 10 .connected false, pollAt 20 .disconnected true]
    (pollAt 130 .disconnected true) [] rfl (by decide +kernel)
  rcases before with _ | ⟨a, _ | ⟨b, _ | ⟨c, _ | ⟨d, before⟩⟩⟩⟩
  · obtain ⟨rfl, rfl⟩ := List.cons.inj hsplit
    exact absurd (hdown (pollAt 10 .connected false) (by simp)) (by decide)
  · obtain ⟨rfl, -⟩ := List.cons.inj (List.cons.inj hsplit).2
    exact absurd (hdown _ List.mem_cons_self) (by decide)
  · obtain ⟨rfl, -⟩ := List.cons.inj (List.cons.inj (List.cons.inj hsplit).2).2
    exact absurd helapsed (by decide +kernel)
  · obtain ⟨rfl, -⟩ := List.cons.inj (List.cons.inj (List.cons.inj (List.cons.inj hsplit).2).2).2
    exact absurd helapsed (by decide +kernel)
  · simp at hsplit

end PortfolioHub
