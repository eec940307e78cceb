import Mathlib.Algebra.Order.Ring.Int
import Isomux.Office.Outbox

set_option autoImplicit false

/-!
# Order and accounting of an outbox

As long as the outbox is in use, what went to the socket and what still waits are together exactly
what was submitted, in order. Once it is disposed nothing waits, and nothing more is sent.

## Main results

* `Isomux.OfficeOutbox.ordered_pumpLoop` — a run of the pump keeps the invariant.
* `Isomux.OfficeOutbox.ordered_step` — an event keeps the invariant.
* `Isomux.OfficeOutbox.in_order` — the order, the count, the end and the failure of every run.
-/

namespace Isomux

/-- The frames of an item, a producer expanded. -/
def OutboxItem.frames : OutboxItem → List JsString
  | .frame data => [data]
  | .replay next _ => next

/-- What an item counts for in the queue: a producer holds no bytes. -/
def OutboxItem.bytes : OutboxItem → ℤ
  | .frame data => data.length
  | .replay _ _ => 0

namespace OfficeOutbox

variable {ws : OutboxSocket} {s s' : OfficeOutbox} {submitted : List JsString}

def waiting (s : OfficeOutbox) : List JsString := s.items.flatMap OutboxItem.frames

def waitingBytes (s : OfficeOutbox) : ℤ := (s.items.map OutboxItem.bytes).sum

/-- What was sent and what waits make up what was submitted, and the counters are right. -/
structure Ordered (submitted : List JsString) (s : OfficeOutbox) : Prop where
  sent : s.wire <+: submitted
  waits : s.disposed = false → s.wire ++ s.waiting = submitted
  cleared : s.disposed = true → s.items = []
  counted : s.queuedBytes = s.waitingBytes
  bounded : s.queuedBytes ≤ OUTBOX_MAX_QUEUED_BYTES
  once : s.failures.length ≤ 1
  closed : s.failures ≠ [] → s.disposed = true

lemma bytes_nonneg (item : OutboxItem) : 0 ≤ item.bytes := by
  cases item with
  | frame data => exact Int.natCast_nonneg _
  | replay next ends => exact le_rfl

lemma ordered_fresh : Ordered [] fresh where
  sent := List.prefix_rfl
  waits := fun _ => rfl
  cleared := fun h => absurd h (by decide)
  counted := rfl
  bounded := by decide
  once := by decide
  closed := fun h => absurd rfl h

lemma Ordered.ask (h : Ordered submitted s) : Ordered submitted s.ask := { h with }

lemma Ordered.later (h : Ordered submitted s) : Ordered submitted s.later := by
  unfold OfficeOutbox.later
  split_ifs
  · exact h
  · exact { h with }

lemma ordered_dispose (hsent : s.wire <+: submitted) (honce : s.failures.length ≤ 1) :
    Ordered submitted s.dispose where
  sent := hsent
  waits := fun h => absurd h (by simp [dispose])
  cleared := fun _ => rfl
  counted := rfl
  bounded := by show (0 : ℤ) ≤ _; decide
  once := honce
  closed := fun _ => rfl

lemma ordered_fail (hsent : s.wire <+: submitted) (huse : s.disposed = false)
    (hnone : s.failures = []) (reason : OutboxFailure) :
    Ordered submitted (s.fail reason) := by
  have hdispose := ordered_dispose hsent (hnone ▸ Nat.zero_le 1)
  unfold fail
  rw [huse]
  show Ordered submitted { s.dispose with
    failures := s.failures ++ [reason]
    terminated := s.terminated + 1 }
  exact { hdispose with once := by rw [hnone]; rfl, closed := fun _ => rfl }

lemma Ordered.failures_eq (h : Ordered submitted s) (huse : s.disposed = false) :
    s.failures = [] := by
  by_contra hne
  rw [h.closed hne] at huse
  cases huse

/-- What is next on the way to the socket, in front of what waits. -/
structure Next (submitted : List JsString) (data : JsString) (s : OfficeOutbox) : Prop where
  inUse : s.disposed = false
  waits : s.wire ++ data :: s.waiting = submitted
  counted : s.queuedBytes = s.waitingBytes
  bounded : s.queuedBytes ≤ OUTBOX_MAX_QUEUED_BYTES
  failures_eq : s.failures = []

lemma Next.write {data : JsString} (h : Next submitted data s) (ws : OutboxSocket) :
    Ordered submitted (s.write ws data) := by
  have hwaits : s.wire ++ [data] ++ s.waiting = submitted := by
    rw [List.append_assoc]
    exact h.waits
  have hsent : s.wire ++ [data] <+: submitted := ⟨s.waiting, hwaits⟩
  have hwritten : Ordered submitted { s with wire := s.wire ++ [data] } := by
    refine ⟨hsent, fun _ => hwaits, fun hdisposed => ?_, h.counted, h.bounded, ?_, ?_⟩
    · exact absurd (h.inUse.symm.trans hdisposed) (by decide)
    · show s.failures.length ≤ 1
      rw [h.failures_eq]
      exact Nat.zero_le 1
    · exact fun hne => absurd h.failures_eq hne
  unfold OfficeOutbox.write
  dsimp only
  split
  · exact ordered_fail (s := { s with wire := s.wire ++ [data] }) hsent h.inUse h.failures_eq _
  · split_ifs
    · exact ordered_fail (s := { s with wire := s.wire ++ [data] }) hsent h.inUse h.failures_eq _
    · exact hwritten

/-- What `take` finds is next, or the outbox stays as it is. -/
lemma Ordered.take (h : Ordered submitted s) (huse : s.disposed = false) {taken : Taken}
    (htake : s.take = (taken, s')) :
    match taken with
    | .data data => Next submitted data s'
    | .finished => Ordered submitted s'
    | .threw => s' = s := by
  have hwaits := h.waits huse
  have hcounted := h.counted
  have hfail := h.failures_eq huse
  unfold OfficeOutbox.take at htake
  split at htake
  · obtain ⟨rfl, rfl⟩ := Prod.mk.inj htake
    exact h
  · next data rest heq =>
    obtain ⟨rfl, rfl⟩ := Prod.mk.inj htake
    rw [waiting, heq] at hwaits
    rw [waitingBytes, heq, List.map_cons, List.sum_cons] at hcounted
    have hbytes := bytes_nonneg (.frame data)
    have hbounded := h.bounded
    refine ⟨huse, hwaits, ?_, ?_, hfail⟩
    · show s.queuedBytes - (data.length : ℤ) = (rest.map OutboxItem.bytes).sum
      rw [hcounted]
      show (data.length : ℤ) + _ - _ = _
      omega
    · show s.queuedBytes - (data.length : ℤ) ≤ OUTBOX_MAX_QUEUED_BYTES
      omega
  · next rest heq =>
    obtain ⟨rfl, rfl⟩ := Prod.mk.inj htake
    rw [waiting, heq] at hwaits
    rw [waitingBytes, heq, List.map_cons, List.sum_cons] at hcounted
    refine ⟨h.sent, fun _ => hwaits, fun hdisposed => ?_, ?_, h.bounded, h.once, h.closed⟩
    · exact absurd (huse.symm.trans hdisposed) (by decide)
    · show s.queuedBytes = (rest.map OutboxItem.bytes).sum
      rw [hcounted]
      exact zero_add _
  · obtain ⟨rfl, rfl⟩ := Prod.mk.inj htake
    rfl
  · next data next ends rest heq =>
    obtain ⟨rfl, rfl⟩ := Prod.mk.inj htake
    rw [waiting, heq] at hwaits
    rw [waitingBytes, heq] at hcounted
    exact ⟨huse, hwaits, hcounted, h.bounded, hfail⟩

/-- **A run of the pump keeps the invariant.** -/
theorem ordered_pumpLoop (ws : OutboxSocket) (s : OfficeOutbox) (budget : ℤ)
    (h : Ordered submitted s) : Ordered submitted (s.pumpLoop ws budget) := by
  induction s, budget using pumpLoop.induct ws with
  | case1 s budget hdone =>
    rw [pumpLoop, dif_pos hdone]
    exact h
  | case2 s budget hdone hroom =>
    rw [pumpLoop, dif_neg hdone, if_pos hroom]
    exact h.ask
  | case3 s budget hdone hroom hbudget =>
    rw [pumpLoop, dif_neg hdone, if_neg hroom, if_pos hbudget]
    exact h.ask.later
  | case4 s budget hdone hroom hbudget s' htake =>
    have huse : s.disposed = false := by simpa using fun hd => hdone (Or.inl hd)
    have hsame : s' = s.ask := h.ask.take huse htake
    rw [pumpLoop, dif_neg hdone, if_neg hroom, if_neg hbudget]
    split <;> rename_i heq <;> rw [htake] at heq <;> cases heq
    rw [hsame]
    exact ordered_fail h.ask.sent huse (h.failures_eq huse) .threw
  | case5 s budget hdone hroom hbudget s' htake ih =>
    have huse : s.disposed = false := by simpa using fun hd => hdone (Or.inl hd)
    have hnext : Ordered submitted s' := h.ask.take huse htake
    rw [pumpLoop, dif_neg hdone, if_neg hroom, if_neg hbudget]
    split <;> rename_i heq <;> rw [htake] at heq <;> cases heq
    exact ih hnext
  | case6 s budget hdone hroom hbudget data s' htake ih =>
    have huse : s.disposed = false := by simpa using fun hd => hdone (Or.inl hd)
    have hnext : Next submitted data s' := h.ask.take huse htake
    rw [pumpLoop, dif_neg hdone, if_neg hroom, if_neg hbudget]
    split <;> rename_i heq <;> rw [htake] at heq <;> cases heq
    exact ih (hnext.write ws)

/-! ## Events -/

lemma Ordered.ignore (h : Ordered submitted s) (hdisposed : s.disposed = true)
    (more : List JsString) : Ordered (submitted ++ more) s :=
  ⟨h.sent.trans (List.prefix_append _ _),
    fun huse => absurd (huse.symm.trans hdisposed) (by decide), h.cleared, h.counted, h.bounded,
    h.once, h.closed⟩

lemma Ordered.enqueue (h : Ordered submitted s) (huse : s.disposed = false) (data : JsString) :
    Ordered (submitted ++ [data]) (s.enqueue data) := by
  have hsent : s.wire <+: submitted ++ [data] := h.sent.trans (List.prefix_append _ _)
  unfold OfficeOutbox.enqueue
  dsimp only
  split_ifs with hover
  · exact ordered_fail
      (s := { s with queuedBytes := s.queuedBytes + data.length }) hsent huse (h.failures_eq huse) _
  · refine Ordered.later ⟨hsent, fun _ => ?_, fun hdisposed => ?_, ?_, not_lt.1 hover, h.once,
      h.closed⟩
    · show s.wire ++ (s.items ++ [OutboxItem.frame data]).flatMap OutboxItem.frames = _
      rw [List.flatMap_append, ← List.append_assoc, ← h.waits huse]
      rfl
    · exact absurd (huse.symm.trans hdisposed) (by decide)
    · show s.queuedBytes + (data.length : ℤ) =
        ((s.items ++ [OutboxItem.frame data]).map OutboxItem.bytes).sum
      rw [List.map_append, List.sum_append, h.counted, waitingBytes]
      exact congrArg _ (add_zero _).symm

lemma Ordered.send (h : Ordered submitted s) (ws : OutboxSocket) (data : JsString) :
    Ordered (submitted ++ [data]) (s.send ws data) := by
  unfold OfficeOutbox.send
  split_ifs with hdisposed hempty hroom
  · exact h.ignore hdisposed [data]
  · -- nothing waits, so the frame is next
    have huse : s.disposed = false := Bool.eq_false_iff.2 hdisposed
    have hwaits := h.waits huse
    rw [waiting, hempty] at hwaits
    refine Next.write (s := s.ask) ⟨huse, ?_, h.counted, h.bounded, h.failures_eq huse⟩ ws
    show s.wire ++ data :: s.items.flatMap OutboxItem.frames = _
    rw [hempty, ← hwaits, List.flatMap_nil, List.append_nil]
  · exact h.ask.enqueue (Bool.eq_false_iff.2 hdisposed) data
  · exact h.enqueue (Bool.eq_false_iff.2 hdisposed) data

lemma Ordered.sendLazy (h : Ordered submitted s) (ws : OutboxSocket) (frames : List JsString)
    (ends : ReplayEnd) : Ordered (submitted ++ frames) (s.sendLazy ws frames ends) := by
  unfold OfficeOutbox.sendLazy
  by_cases hdisposed : s.disposed = true
  · rw [if_pos hdisposed]
    exact h.ignore hdisposed frames
  rw [if_neg hdisposed]
  have huse : s.disposed = false := Bool.eq_false_iff.2 hdisposed
  have hjoined : Ordered (submitted ++ frames)
      { s with items := s.items ++ [OutboxItem.replay frames ends] } := by
    refine ⟨h.sent.trans (List.prefix_append _ _), fun _ => ?_, fun hd => absurd hd hdisposed, ?_,
      h.bounded, h.once, h.closed⟩
    · show s.wire ++ (s.items ++ [OutboxItem.replay frames ends]).flatMap OutboxItem.frames = _
      rw [List.flatMap_append, ← List.append_assoc, ← h.waits huse, List.flatMap_singleton]
      rfl
    · show s.queuedBytes = ((s.items ++ [OutboxItem.replay frames ends]).map OutboxItem.bytes).sum
      rw [List.map_append, List.sum_append, h.counted, waitingBytes]
      exact (add_zero _).symm
  dsimp only
  split_ifs
  · exact ordered_pumpLoop ws _ _ hjoined
  · exact hjoined.later

/-- **An event keeps the invariant.** -/
theorem ordered_step (h : Ordered submitted s) (ws : OutboxSocket) (event : OutboxEvent) :
    Ordered (submitted ++ event.submits) (s.step ws event) := by
  cases event with
  | send data => exact h.send ws data
  | sendLazy frames ends => exact h.sendLazy ws frames ends
  | drain =>
    rw [OutboxEvent.submits, List.append_nil]
    exact h.later
  | dispose =>
    rw [OutboxEvent.submits, List.append_nil]
    exact ordered_dispose h.sent h.once
  | turn =>
    rw [OutboxEvent.submits, List.append_nil]
    show Ordered submitted (s.runScheduled ws)
    unfold runScheduled
    split
    · exact h
    · exact ordered_pumpLoop ws _ _ { h with }

theorem ordered_run (h : Ordered submitted s) (ws : OutboxSocket) (events : List OutboxEvent) :
    Ordered (submitted ++ events.flatMap OutboxEvent.submits)
      (Machine.run (step ws) s events) := by
  induction events generalizing submitted s with
  | nil =>
    rw [List.flatMap_nil, List.append_nil]
    exact h
  | cons event events ih =>
    rw [List.flatMap_cons, ← List.append_assoc]
    exact ih (ordered_step h ws event)

lemma step_disposed (h : s.disposed = true) (ws : OutboxSocket) (event : OutboxEvent) :
    (s.step ws event).disposed = true ∧ (s.step ws event).wire = s.wire := by
  have hlater : s.later = s := by
    unfold later
    rw [h, Bool.or_true, if_pos rfl]
  cases event with
  | send data =>
    show (s.send ws data).disposed = true ∧ (s.send ws data).wire = s.wire
    rw [send, if_pos h]
    exact ⟨h, rfl⟩
  | sendLazy frames ends =>
    show (s.sendLazy ws frames ends).disposed = true ∧ (s.sendLazy ws frames ends).wire = s.wire
    rw [sendLazy, if_pos h]
    exact ⟨h, rfl⟩
  | drain =>
    show s.later.disposed = true ∧ s.later.wire = s.wire
    rw [hlater]
    exact ⟨h, rfl⟩
  | dispose => exact ⟨rfl, rfl⟩
  | turn =>
    show (s.runScheduled ws).disposed = true ∧ (s.runScheduled ws).wire = s.wire
    unfold runScheduled
    split
    · exact ⟨h, rfl⟩
    · rw [pump, pumpLoop, dif_pos (Or.inl h)]
      exact ⟨h, rfl⟩

lemma run_disposed (h : s.disposed = true) (ws : OutboxSocket) (events : List OutboxEvent) :
    (Machine.run (step ws) s events).disposed = true ∧
      (Machine.run (step ws) s events).wire = s.wire := by
  induction events generalizing s with
  | nil => exact ⟨h, rfl⟩
  | cons event events ih =>
    obtain ⟨hdisposed, hwire⟩ := step_disposed h ws event
    obtain ⟨hdisposed', hwire'⟩ := ih hdisposed
    exact ⟨hdisposed', hwire'.trans hwire⟩

/-- **An outbox sends in order, counts right, ends and fails once.** Whatever the socket answers and
whatever happens to an outbox, the frames handed to the socket are a prefix of the submitted ones,
each producer expanded in its place. The counter is the sum of the lengths of the queued frames, and
never above the bound. Behind a disposal or a failure nothing more is sent, and the outbox fails at
most once. -/
theorem in_order (ws : OutboxSocket) (events : List OutboxEvent) :
    let after := Machine.run (step ws) fresh
    (after events).wire <+: events.flatMap OutboxEvent.submits ∧
      (after events).queuedBytes = ((after events).items.map OutboxItem.bytes).sum ∧
      (after events).queuedBytes ≤ OUTBOX_MAX_QUEUED_BYTES ∧
      (∀ before rest, before ++ rest = events →
        OutboxEvent.dispose ∈ before ∨ (after before).failures ≠ [] →
          (after events).wire = (after before).wire) ∧
      (after events).failures.length ≤ 1 := by
  intro after
  have hordered : ∀ events, Ordered (events.flatMap OutboxEvent.submits) (after events) := by
    intro events
    have hrun := ordered_run ordered_fresh ws events
    rw [List.nil_append] at hrun
    exact hrun
  refine ⟨(hordered events).sent, (hordered events).counted, (hordered events).bounded, ?_,
    (hordered events).once⟩
  rintro before rest rfl hend
  have hdisposed : (after before).disposed = true := by
    rcases hend with hmem | hfail
    · obtain ⟨first, second, rfl⟩ := List.append_of_mem hmem
      show (Machine.run (step ws) fresh (first ++ .dispose :: second)).disposed = true
      rw [Machine.run_append, Machine.run_cons]
      exact (run_disposed rfl ws second).1
    · exact (hordered before).closed hfail
  show (Machine.run (step ws) fresh (before ++ rest)).wire = _
  rw [Machine.run_append]
  exact (run_disposed hdisposed ws rest).2

end OfficeOutbox

end Isomux
