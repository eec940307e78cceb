import Isomux.Foundations.Trace
import Isomux.Messages.Scheduled

set_option autoImplicit false

/-!
# Scheduled messages come in order

A tick takes the entries that are due in the order of their times. An entry that its receiver refuses
for now stays, and holds back the later ones of the same receiver; other receivers go on.

The order is a property of one tick: what was due at an earlier tick and is pending still is due at
this one, before everything that is later. It needs nothing of the clock, and a crash only ends the
tick.

## Main results

* `Isomux.ScheduledMessages.fireDue_inTurn` — the loop of a tick, over any entries.
* `Isomux.ScheduledMessages.scheduled_in_order` — every tick of every run hands over in order.
-/

namespace Isomux

/-- The identity of an entry that was handed over. -/
def ScheduledOutcome.enqueuedRef : ScheduledOutcome → Option EntryRef
  | .enqueued ref _ => some ref
  | _ => none

namespace ScheduledMessages

/-- The entries that were handed over, in order. -/
def deliveries (outcomes : List ScheduledOutcome) : List EntryRef :=
  outcomes.filterMap ScheduledOutcome.enqueuedRef

/-- The entry was handed over, or given up. -/
def Settled (outcomes : List ScheduledOutcome) (e : ScheduledMessageEntry) : Prop :=
  e.ref ∈ deliveries outcomes ∨ .dropped e ∈ outcomes

/-- `(deliverAt, createdAt)` is less. -/
def Earlier (a b : ScheduledMessageEntry) : Prop :=
  a.deliverAt < b.deliverAt ∨ a.deliverAt = b.deliverAt ∧ a.createdAt < b.createdAt

/-- What a tick at the time `now` may hand over, and when. -/
def InOrder (s : ScheduledMessages) (now : ℤ) (s' : ScheduledMessages) : Prop :=
  ∃ outcomes, s'.log = s.log ++ outcomes ∧
    -- what is handed over is due, and comes in the order of the entries
    (∃ handed : List ScheduledMessageEntry, deliveries outcomes = handed.map (·.ref) ∧
      (∀ e ∈ handed, e ∈ s.entries ∧ e.deliverAt ≤ now) ∧
      handed.Pairwise fun a b => ¬ Earlier b a) ∧
    -- it comes behind everything pending of its receiver that is earlier and not given up
    Trace.Each (fun before x => ∀ r, x.enqueuedRef = some r →
      ∃ e ∈ s.entries, e.ref = r ∧ e.deliverAt ≤ now ∧
        ∀ e' ∈ s.entries, e'.receiverAgentId = e.receiverAgentId → Earlier e' e →
          Settled before e') outcomes

/-! ## The loop of a tick -/

/-- What the loop hands over: the entries in their turn, each behind the others of its receiver. -/
structure InTurn (due : List ScheduledMessageEntry) (blockedReceivers : List AgentId)
    (outcomes : List ScheduledOutcome) : Prop where
  order : ∃ handed : List ScheduledMessageEntry, handed.Sublist due ∧
    deliveries outcomes = handed.map (·.ref)
  turn : Trace.Each (fun before x => ∀ r, x.enqueuedRef = some r →
    ∃ ahead e behind, due = ahead ++ e :: behind ∧ e.ref = r ∧
      e.receiverAgentId ∉ blockedReceivers ∧
      ∀ e' ∈ ahead, e'.receiverAgentId = e.receiverAgentId → Settled before e') outcomes

inductive FireLog (entry : ScheduledMessageEntry) : List ScheduledOutcome → FireEnd → Prop
  | handed (delivery : ScheduledDelivery) (rest : List ScheduledOutcome) (fireEnd : FireEnd)
      (hrest : ∀ x ∈ rest, x.enqueuedRef = none) :
      FireLog entry (.enqueued entry.ref delivery :: rest) fireEnd
  /-- Nothing is handed over, and the tick goes on only behind an entry that is given up. -/
  | kept (outcomes : List ScheduledOutcome) (fireEnd : FireEnd)
      (hnone : ∀ x ∈ outcomes, x.enqueuedRef = none)
      (hdropped : fireEnd = .goOn → .dropped entry ∈ outcomes) : FireLog entry outcomes fireEnd

section Loop

variable {s : ScheduledMessages} {entry : ScheduledMessageEntry} {now : ℤ}

@[simp] lemma deliveries_append (outcomes later : List ScheduledOutcome) :
    deliveries (outcomes ++ later) = deliveries outcomes ++ deliveries later :=
  List.filterMap_append

lemma Settled.append {outcomes : List ScheduledOutcome} (h : Settled outcomes entry)
    (later : List ScheduledOutcome) : Settled (outcomes ++ later) entry :=
  h.imp (fun h => by simp [h]) (List.mem_append_left _)

lemma Settled.behind {outcomes : List ScheduledOutcome} (h : Settled outcomes entry)
    (before : List ScheduledOutcome) : Settled (before ++ outcomes) entry :=
  h.imp (fun h => by simp [h]) (List.mem_append_right _)

lemma settle_log (s : ScheduledMessages) (entry : ScheduledMessageEntry) (firing : Firing)
    (removed behind : List ScheduledOutcome) :
    ∃ new, (s.settle entry firing removed behind).1.log = s.log ++ new ∧
      (new = [.crashed] ∨ new = removed ++ [.crashed] ∨ new = removed ++ behind) ∧
      ((s.settle entry firing removed behind).2 = .goOn → new = removed ++ behind) := by
  unfold settle
  split_ifs
  · exact ⟨[.crashed], rfl, .inl rfl, fun h => by cases h⟩
  · exact ⟨removed ++ [.crashed], by simp [crash, emit], .inr (.inl rfl),
      fun h => by cases h⟩
  · exact ⟨removed ++ behind, by simp [emit], .inr (.inr rfl), fun _ => rfl⟩

/-- What one entry adds to the log. -/
lemma fireEntry_log (s : ScheduledMessages) (now : ℤ) (entry : ScheduledMessageEntry)
    (firing : Firing) :
    ∃ new, (s.fireEntry now entry firing).1.log = s.log ++ new ∧
      FireLog entry new (s.fireEntry now entry firing).2 := by
  unfold fireEntry
  split
  · exact ⟨[.crashed], rfl, .kept _ _ (by simp [ScheduledOutcome.enqueuedRef]) fun h => by cases h⟩
  · cases fireVerdict now entry firing.result with
    | delivered messageId =>
      obtain ⟨new, hlog, hnew, -⟩ := settle_log
        (s.emit [.enqueued entry.ref (deliveryOf entry firing.liveSender)]) entry firing []
        (recordSent entry firing messageId)
      refine ⟨.enqueued entry.ref (deliveryOf entry firing.liveSender) :: new, ?_, .handed _ _ _ ?_⟩
      · rw [hlog]
        simp [emit]
      · have hsent : ∀ x ∈ recordSent entry firing messageId, x.enqueuedRef = none := by
          intro x hx
          unfold recordSent at hx
          split_ifs at hx
          · rw [List.mem_singleton.1 hx]
            rfl
          · exact absurd hx List.not_mem_nil
        rcases hnew with rfl | rfl | rfl
        · simp [ScheduledOutcome.enqueuedRef]
        · simp [ScheduledOutcome.enqueuedRef]
        · exact hsent
    | drop notice =>
      obtain ⟨new, hlog, hnew, hgoOn⟩ := settle_log s entry firing [.dropped entry]
        [.notified entry.ref entry.senderAgentId notice]
      refine ⟨new, hlog, .kept _ _ ?_ fun h => ?_⟩
      · rcases hnew with rfl | rfl | rfl <;> simp [ScheduledOutcome.enqueuedRef]
      · rw [hgoOn h]
        exact List.mem_cons_self
    | retry =>
      dsimp only
      split_ifs
      · exact ⟨[.crashed], rfl, .kept _ _ (by simp [ScheduledOutcome.enqueuedRef])
          fun h => by cases h⟩
      · exact ⟨[], (List.append_nil _).symm, .kept _ _ (by simp) fun h => by cases h⟩

variable {new : List ScheduledOutcome} {fireEnd : FireEnd}

lemma FireLog.deliveries
    (h : FireLog entry new fireEnd) :
    deliveries new = [] ∨ deliveries new = [entry.ref] := by
  cases h with
  | handed delivery rest _ hrest =>
    refine .inr ?_
    have hnone : ScheduledMessages.deliveries rest = [] := List.filterMap_eq_nil_iff.2 hrest
    exact congrArg (entry.ref :: ·) hnone
  | kept _ _ hnone => exact .inl (List.filterMap_eq_nil_iff.2 hnone)

lemma FireLog.settled (h : FireLog entry new .goOn) :
    Settled new entry := by
  cases h with
  | handed delivery rest _ hrest =>
    exact .inl (List.mem_filterMap.2 ⟨_, List.mem_cons_self, rfl⟩)
  | kept _ _ hnone hdropped => exact .inr (hdropped rfl)

lemma FireLog.first
    (h : FireLog entry new fireEnd) :
    Trace.Each (fun before x => ∀ r, x.enqueuedRef = some r → before = [] ∧ r = entry.ref) new := by
  intro before x after hnew r hr
  cases h with
  | handed delivery rest _ hrest =>
    cases before with
    | nil =>
      obtain ⟨rfl, -⟩ := List.cons.inj hnew
      exact ⟨rfl, (Option.some.inj hr).symm⟩
    | cons y before =>
      have hx : x ∈ rest := by
        rw [(List.cons.inj hnew).2]
        simp
      rw [hrest x hx] at hr
      cases hr
  | kept _ _ hnone =>
    have hx : x ∈ new := by simp [hnew]
    rw [hnone x hx] at hr
    cases hr

lemma inTurn_nil (due : List ScheduledMessageEntry) (blockedReceivers : List AgentId) :
    InTurn due blockedReceivers [] :=
  ⟨⟨[], List.nil_sublist _, rfl⟩, Trace.each_nil _⟩

lemma inTurn_cons {due : List ScheduledMessageEntry} {blockedReceivers behindBlocked : List AgentId}
    {new outcomes : List ScheduledOutcome} (hnew : FireLog entry new fireEnd)
    (hfree : entry.receiverAgentId ∉ blockedReceivers) (hsub : blockedReceivers ⊆ behindBlocked)
    (hbehind : InTurn due behindBlocked outcomes)
    (hentry : Settled new entry ∨ entry.receiverAgentId ∈ behindBlocked) :
    InTurn (entry :: due) blockedReceivers (new ++ outcomes) := by
  obtain ⟨⟨handed, hhanded, heq⟩, hturn⟩ := hbehind
  constructor
  · rw [deliveries_append, heq]
    rcases hnew.deliveries with hnone | hone
    · exact ⟨handed, hhanded.cons _, by rw [hnone, List.nil_append]⟩
    · exact ⟨entry :: handed, hhanded.cons_cons _, by rw [hone, List.map_cons, List.singleton_append]⟩
  · refine Trace.each_append.2 ⟨hnew.first.imp fun before x h r hr => ?_, ?_⟩
    · obtain ⟨rfl, rfl⟩ := h r hr
      exact ⟨[], entry, due, rfl, rfl, hfree, fun _ h => absurd h List.not_mem_nil⟩
    · refine hturn.imp fun before x h r hr => ?_
      obtain ⟨ahead, e, behind, rfl, href, hnot, hahead⟩ := h r hr
      refine ⟨entry :: ahead, e, behind, rfl, href, fun h => hnot (hsub h), fun e' he' hsame => ?_⟩
      rcases List.mem_cons.1 he' with rfl | he'
      · exact (hentry.resolve_right fun h => hnot (hsame ▸ h)).append before
      · exact (hahead e' he' hsame).behind new

/-- **The loop of a tick hands over in turn.**

**Proof sketch.** By induction on the entries that are due. The first one is settled when the loop
goes on behind it, or it blocks its receiver, and then no later one of the same receiver is handed
over. -/
theorem fireDue_inTurn (now : ℤ) (firings : ScheduledMessageEntry → Firing)
    (due : List ScheduledMessageEntry) (blockedReceivers : List AgentId) (s : ScheduledMessages) :
    ∃ outcomes, (fireDue now firings due blockedReceivers s).log = s.log ++ outcomes ∧
      InTurn due blockedReceivers outcomes := by
  induction due generalizing s blockedReceivers with
  | nil => exact ⟨[], (List.append_nil _).symm, inTurn_nil _ _⟩
  | cons entry due ih =>
    unfold fireDue
    split
    · rename_i hblocked
      obtain ⟨outcomes, hlog, ⟨handed, hsub, hhanded⟩, hturn⟩ := ih blockedReceivers s
      refine ⟨outcomes, hlog, ⟨handed, hsub.cons _, hhanded⟩, hturn.imp fun before x h r hr => ?_⟩
      obtain ⟨ahead, e, behind, rfl, href, hfree, hahead⟩ := h r hr
      refine ⟨entry :: ahead, e, behind, rfl, href, hfree, fun e' he' hsame => ?_⟩
      rcases List.mem_cons.1 he' with rfl | he'
      · exact absurd (hsame ▸ hblocked) hfree
      · exact hahead e' he' hsame
    · rename_i hfree
      obtain ⟨new, hnewlog, hnew⟩ := fireEntry_log s now entry (firings entry)
      split
      all_goals
        rename_i s' heq
        rw [heq] at hnewlog hnew
        change s'.log = _ at hnewlog
      · obtain ⟨outcomes, hlog, hbehind⟩ := ih blockedReceivers s'
        refine ⟨new ++ outcomes, by rw [hlog, hnewlog, List.append_assoc], ?_⟩
        exact inTurn_cons hnew hfree (List.Subset.refl _) hbehind (.inl hnew.settled)
      · obtain ⟨outcomes, hlog, hbehind⟩ := ih (entry.receiverAgentId :: blockedReceivers) s'
        refine ⟨new ++ outcomes, by rw [hlog, hnewlog, List.append_assoc], ?_⟩
        exact inTurn_cons hnew hfree (List.subset_cons_self _ _) hbehind (.inr List.mem_cons_self)
      · have hlast := inTurn_cons hnew hfree (List.subset_cons_self _ _) (inTurn_nil due _)
          (.inr List.mem_cons_self)
        exact ⟨new, hnewlog, List.append_nil new ▸ hlast⟩

end Loop

/-! ## Ticks and runs -/

lemma not_earlier_of_firesFirst {a b : ScheduledMessageEntry} (h : firesFirst a b = true) :
    ¬ Earlier b a := by
  unfold firesFirst at h
  unfold Earlier
  simp only [Bool.or_eq_true, Bool.and_eq_true, decide_eq_true_iff, beq_iff_eq] at h
  omega

lemma pairwise_due (entries : List ScheduledMessageEntry) :
    (entries.mergeSort firesFirst).Pairwise fun a b => ¬ Earlier b a := by
  refine (List.pairwise_mergeSort ?_ ?_ entries).imp not_earlier_of_firesFirst
  · intro a b c hab hbc
    unfold firesFirst at *
    simp only [Bool.or_eq_true, Bool.and_eq_true, decide_eq_true_iff, beq_iff_eq] at *
    omega
  · intro a b
    unfold firesFirst
    simp only [Bool.or_eq_true, Bool.and_eq_true, decide_eq_true_iff, beq_iff_eq]
    omega

lemma tick_inOrder (s : ScheduledMessages) (now : ℤ) (firings : ScheduledMessageEntry → Firing) :
    InOrder s now (s.tick now firings) := by
  set due := (s.entries.filter fun e => e.deliverAt ≤ now).mergeSort firesFirst with hdue
  have hmem : ∀ e, e ∈ due ↔ e ∈ s.entries ∧ e.deliverAt ≤ now := by
    intro e
    rw [hdue, List.mem_mergeSort, List.mem_filter, decide_eq_true_iff]
  have hsorted : due.Pairwise fun a b => ¬ Earlier b a := pairwise_due _
  obtain ⟨outcomes, hlog, ⟨handed, hsub, hhanded⟩, hturn⟩ := fireDue_inTurn now firings due [] s
  refine ⟨outcomes, hlog, ⟨handed, hhanded, fun e he => (hmem e).1 (hsub.subset he),
    hsorted.sublist hsub⟩, hturn.imp fun before x h r hr => ?_⟩
  obtain ⟨ahead, e, behind, hsplit, href, -, hahead⟩ := h r hr
  obtain ⟨hpending, hnow⟩ := (hmem e).1 (hsplit ▸ by simp)
  refine ⟨e, hpending, href, hnow, fun e' he' hsame hearlier => ?_⟩
  -- an earlier entry is due, too, and is not behind this one
  have hdue' : e' ∈ due := (hmem e').2 ⟨he', by unfold Earlier at hearlier; omega⟩
  rw [hsplit] at hdue' hsorted
  rcases List.mem_append.1 hdue' with hfront | hback
  · exact hahead e' hfront hsame
  · have hrest := (List.pairwise_append.1 hsorted).2.1
    rcases List.mem_cons.1 hback with rfl | hlater
    · unfold Earlier at hearlier
      omega
    · exact absurd hearlier ((List.pairwise_cons.1 hrest).1 e' hlater)

/-- **Every tick of every run hands over in order**: what is due comes in the order of
`(deliverAt, createdAt)`, and nothing is handed over while an earlier entry of the same receiver is
pending. -/
theorem scheduled_in_order (file : List ScheduledMessageEntry) (events : List ScheduledEvent) :
    Machine.Along step (fun s event => ∀ now firings, event = .tick now firings →
      InOrder s now (s.step event)) (boot file) events := by
  refine Machine.along_of_forall ?_ _ _
  rintro s _ now firings rfl
  exact tick_inOrder s now firings

end ScheduledMessages

end Isomux
