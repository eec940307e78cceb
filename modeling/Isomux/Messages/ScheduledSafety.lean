import Isomux.Foundations.Trace
import Isomux.Messages.Scheduled
import Mathlib.Data.List.InsertIdx

set_option autoImplicit false

/-!
# Scheduled messages are not lost

An entry that was accepted is pending until it is cancelled, handed over or given up. A message is
handed over a second time only behind a crash.

## Main results

* `Isomux.ScheduledMessages.Kept.step` — every operation keeps the invariant.
* `Isomux.ScheduledMessages.scheduled_accounted` — what holds of every accepted, refused, cancelled
  and handed over entry, in every run.
* `Isomux.ScheduledMessages.dropped_silently` — a crash between a removal and its notice.
-/

namespace Isomux

def entryRefs (entries : List ScheduledMessageEntry) : List EntryRef := entries.map (·.ref)

/-- An outcome that changes nothing about the entry. -/
def ScheduledOutcome.IsQuiet : ScheduledOutcome → Prop
  | .dropped _ => True
  | .notified _ _ _ => True
  | .recordedSent _ _ => True
  | _ => False

namespace ScheduledMessages

/-! ## The invariant -/

/-- The entry was not handed over since the last crash. -/
def NotSinceCrash (r : EntryRef) (log : List ScheduledOutcome) : Prop :=
  Trace.Followed (fun x => ∃ delivery, x = .enqueued r delivery) (· = .crashed) log

/-- Nothing is handed over behind its cancellation, and nothing twice without a crash between. -/
def Ordered (log : List ScheduledOutcome) : Prop :=
  Trace.Each (fun before x => ∀ r delivery, x = .enqueued r delivery →
    .cancelled r ∉ before ∧ NotSinceCrash r before) log

/-- The outcome tells the sender of the entry why it is given up: a tick has an answer of the queue
with this notice. -/
def NoticeOf (events : List ScheduledEvent) (e : ScheduledMessageEntry) (x : ScheduledOutcome) : Prop :=
  ∃ now firings notice, .tick now firings ∈ events ∧
    fireVerdict now e (firings e).result = .drop notice ∧
    x = .notified e.ref e.senderAgentId notice

/-- Every entry that is given up is followed by its notice, or by a crash. -/
def NoticeFollows (events : List ScheduledEvent) (log : List ScheduledOutcome) : Prop :=
  Trace.Answered (fun x => ∃ e, x = .dropped e)
    (fun x next => next = .crashed ∨ ∃ e, x = .dropped e ∧ NoticeOf events e next) log

/-- The entry is pending, or the log says what became of it. -/
def Accounted (s : ScheduledMessages) (e : ScheduledMessageEntry) : Prop :=
  e ∈ s.entries ∨ .cancelled e.ref ∈ s.log ∨ (∃ delivery, .enqueued e.ref delivery ∈ s.log) ∨
    .dropped e ∈ s.log

/-- The invariant. `busy` is the entry that was handed over and not removed yet. -/
structure Kept (busy : Option EntryRef) (s : ScheduledMessages) : Prop where
  distinct : (entryRefs s.entries).Nodup
  distinctDisk : (entryRefs s.disk).Nodup
  onDisk : ∀ e ∈ s.entries, e ∈ s.disk
  valid : ∀ e ∈ s.entries, isValidEntry e = true
  issued : ∀ n, .scheduled n ∈ entryRefs s.disk → n < s.calls
  issuedLog : ∀ n delivery, .enqueued (.scheduled n) delivery ∈ s.log → n < s.calls
  cancelled : ∀ r, .cancelled r ∈ s.log → r ∉ entryRefs s.disk ∧ ∀ n, r = .scheduled n → n < s.calls
  refused : ∀ n, .refused n ∈ s.log → .scheduled n ∉ entryRefs s.disk ∧ n < s.calls ∧
    ∀ delivery, .enqueued (.scheduled n) delivery ∉ s.log
  fresh : ∀ r ∈ entryRefs s.entries, busy ≠ some r → NotSinceCrash r s.log
  accounted : ∀ e, .accepted e ∈ s.log → s.Accounted e
  ordered : Ordered s.log

/-! ## Logs -/

section Logs

variable {log : List ScheduledOutcome} {x : ScheduledOutcome} {r : EntryRef}

lemma notSinceCrash_concat :
    NotSinceCrash r (log ++ [x]) ↔
      x = .crashed ∨ NotSinceCrash r log ∧ ∀ delivery, x ≠ .enqueued r delivery := by
  unfold NotSinceCrash
  rw [Trace.followed_concat (by rintro _ ⟨delivery, rfl⟩; simp)]
  simp

lemma notSinceCrash_append_quiet {new : List ScheduledOutcome} (h : NotSinceCrash r log)
    (hquiet : ∀ x ∈ new, x.IsQuiet) : NotSinceCrash r (log ++ new) := by
  induction new using List.reverseRecOn with
  | nil => simpa using h
  | append_singleton new x ih =>
    rw [← List.append_assoc, notSinceCrash_concat]
    refine .inr ⟨ih fun y hy => hquiet y (by simp [hy]), fun delivery hx => ?_⟩
    have := hquiet x (by simp)
    simp [hx, ScheduledOutcome.IsQuiet] at this

lemma ordered_concat (h : Ordered log) (hx : ∀ r delivery, x ≠ .enqueued r delivery) :
    Ordered (log ++ [x]) :=
  Trace.each_concat.mpr ⟨h, fun r delivery heq => absurd heq (hx r delivery)⟩

lemma ordered_append_quiet {new : List ScheduledOutcome} (h : Ordered log)
    (hquiet : ∀ x ∈ new, x.IsQuiet) : Ordered (log ++ new) := by
  induction new using List.reverseRecOn with
  | nil => simpa using h
  | append_singleton new x ih =>
    rw [← List.append_assoc]
    refine ordered_concat (ih fun y hy => hquiet y (by simp [hy])) fun r delivery hx => ?_
    have := hquiet x (by simp)
    simp [hx, ScheduledOutcome.IsQuiet] at this

end Logs

lemma Accounted.mono {s t : ScheduledMessages} {e : ScheduledMessageEntry} (h : s.Accounted e)
    (hentries : e ∈ s.entries → e ∈ t.entries) (hlog : ∀ x ∈ s.log, x ∈ t.log) :
    t.Accounted e := by
  rcases h with hpending | hcancelled | ⟨delivery, henqueued⟩ | hdropped
  · exact .inl (hentries hpending)
  · exact .inr (.inl (hlog _ hcancelled))
  · exact .inr (.inr (.inl ⟨delivery, hlog _ henqueued⟩))
  · exact .inr (.inr (.inr (hlog _ hdropped)))

lemma Accounted.emit {s : ScheduledMessages} {e : ScheduledMessageEntry} (h : s.Accounted e)
    (new : List ScheduledOutcome) : (s.emit new).Accounted e :=
  h.mono id fun _ hx => List.mem_append_left _ hx

lemma mem_log_of_ne {log : List ScheduledOutcome} {x y : ScheduledOutcome} (hx : x ∈ log ++ [y])
    (hne : x ≠ y) : x ∈ log :=
  (List.mem_append.mp hx).resolve_right fun hin => hne (List.mem_singleton.mp hin)

/-! ## What the invariant survives -/

section Primitives

variable {s : ScheduledMessages} {busy : Option EntryRef} {e : ScheduledMessageEntry}

lemma Kept.emit_quiet (h : Kept busy s) {new : List ScheduledOutcome}
    (hquiet : ∀ x ∈ new, x.IsQuiet) : Kept busy (s.emit new) := by
  have hold : ∀ x, x ∈ s.log ++ new → ¬ x.IsQuiet → x ∈ s.log := fun x hx hloud =>
    (List.mem_append.mp hx).resolve_right fun hin => hloud (hquiet x hin)
  refine ⟨h.distinct, h.distinctDisk, h.onDisk, h.valid, h.issued,
    fun n delivery hin => h.issuedLog n delivery (hold _ hin (by simp [ScheduledOutcome.IsQuiet])),
    fun r hin => h.cancelled r (hold _ hin (by simp [ScheduledOutcome.IsQuiet])),
    fun n hin => ?_, fun r hr hbusy => notSinceCrash_append_quiet (h.fresh r hr hbusy) hquiet,
    fun r hin => (h.accounted r (hold _ hin (by simp [ScheduledOutcome.IsQuiet]))).emit _,
    ordered_append_quiet h.ordered hquiet⟩
  obtain ⟨hdisk, hlt, hnever⟩ := h.refused n (hold _ hin (by simp [ScheduledOutcome.IsQuiet]))
  exact ⟨hdisk, hlt, fun delivery hin' =>
    hnever delivery (hold _ hin' (by simp [ScheduledOutcome.IsQuiet]))⟩

lemma Kept.crash (h : Kept busy s) : Kept none s.crash := by
  have hmem : ∀ e ∈ s.entries, e ∈ s.disk.filter isValidEntry := fun e he =>
    List.mem_filter.mpr ⟨h.onDisk e he, h.valid e he⟩
  refine ⟨h.distinctDisk.sublist (List.filter_sublist.map _), h.distinctDisk,
    fun e he => (List.mem_filter.mp he).1, fun e he => (List.mem_filter.mp he).2, h.issued,
    fun n delivery hin => h.issuedLog n delivery (mem_log_of_ne hin (by simp)),
    fun r hin => h.cancelled r (mem_log_of_ne hin (by simp)), fun n hin => ?_,
    fun r hr _ => notSinceCrash_concat.mpr (.inl rfl),
    fun r hin => (h.accounted r (mem_log_of_ne hin (by simp))).mono (hmem r)
      fun x hx => List.mem_append_left _ hx,
    ordered_concat h.ordered (by simp)⟩
  obtain ⟨hdisk, hlt, hnever⟩ := h.refused n (mem_log_of_ne hin (by simp))
  exact ⟨hdisk, hlt, fun delivery hin' => hnever delivery (mem_log_of_ne hin' (by simp))⟩

lemma Kept.enqueued (h : Kept none s) (he : e ∈ s.entries) (delivery : ScheduledDelivery) :
    Kept (some e.ref) (s.emit [.enqueued e.ref delivery]) := by
  have hdisk : e.ref ∈ entryRefs s.disk := List.mem_map_of_mem (h.onDisk e he)
  refine ⟨h.distinct, h.distinctDisk, h.onDisk, h.valid, h.issued, fun n delivery' hin => ?_,
    fun r hin => h.cancelled r (mem_log_of_ne hin (by simp)), fun n hin => ?_, fun r hr hbusy => ?_,
    fun r hin => (h.accounted r (mem_log_of_ne hin (by simp))).emit _,
    Trace.each_concat.mpr ⟨h.ordered, fun r delivery' heq => ?_⟩⟩
  · rcases List.mem_append.mp hin with hin | hlast
    · exact h.issuedLog n delivery' hin
    · obtain ⟨href, -⟩ : EntryRef.scheduled n = e.ref ∧ delivery' = delivery := by
        simpa using hlast
      exact h.issued n (href ▸ hdisk)
  · obtain ⟨hgone, hlt, hnever⟩ := h.refused n (mem_log_of_ne hin (by simp))
    refine ⟨hgone, hlt, fun delivery' hin' => ?_⟩
    rcases List.mem_append.mp hin' with hin' | hlast
    · exact hnever delivery' hin'
    · obtain ⟨href, -⟩ : EntryRef.scheduled n = e.ref ∧ delivery' = delivery := by
        simpa using hlast
      exact hgone (href ▸ hdisk)
  · refine notSinceCrash_concat.mpr (.inr ⟨h.fresh r hr (by simp), fun delivery' heq => ?_⟩)
    obtain ⟨rfl, -⟩ : e.ref = r ∧ delivery = delivery' := by simpa using heq
    exact hbusy rfl
  · obtain ⟨rfl, -⟩ : e.ref = r ∧ delivery = delivery' := by simpa using heq
    exact ⟨fun hin => (h.cancelled e.ref hin).1 hdisk,
      h.fresh e.ref (List.mem_map_of_mem he) (by simp)⟩

lemma mem_entryRefs_eraseP {entries : List ScheduledMessageEntry} {p : ScheduledMessageEntry → Bool}
    (hnodup : (entryRefs entries).Nodup) (hfind : entries.find? p = some e) {r : EntryRef} :
    r ∈ entryRefs (entries.eraseP p) ↔ r ∈ entryRefs entries ∧ r ≠ e.ref := by
  obtain ⟨hp, as, bs, rfl, has⟩ := List.find?_eq_some_iff_append.mp hfind
  have herase : (as ++ e :: bs).eraseP p = as ++ bs := by
    rw [List.eraseP_append_right _ (fun b hb => by simpa using has b hb),
      List.eraseP_cons_of_pos hp]
  rw [herase]
  simp only [entryRefs, List.map_append, List.map_cons, List.nodup_append, List.nodup_cons,
    List.mem_append, List.mem_cons] at hnodup ⊢
  constructor
  · rintro (hin | hin)
    · exact ⟨.inl hin, fun heq => hnodup.2.2 r hin e.ref (.inl rfl) heq⟩
    · exact ⟨.inr (.inr hin), fun heq => hnodup.2.1.1 (heq ▸ hin)⟩
  · rintro ⟨hin | heq | hin, hne⟩
    · exact .inl hin
    · exact absurd heq hne
    · exact .inr hin

lemma Kept.eq_of_ref (h : Kept busy s) {d : ScheduledMessageEntry} (hd : d ∈ s.entries)
    (he : e ∈ s.entries) (href : d.ref = e.ref) : d = e :=
  List.inj_on_of_nodup_map h.distinct hd he href

lemma Kept.mem_eraseP (h : Kept busy s) {p : ScheduledMessageEntry → Bool}
    (hfind : s.entries.find? p = some e) {d : ScheduledMessageEntry} (hd : d ∈ s.entries)
    (hne : d.ref ≠ e.ref) : d ∈ s.entries.eraseP p := by
  obtain ⟨d', hd', href⟩ := List.mem_map.mp
    ((mem_entryRefs_eraseP h.distinct hfind).mpr ⟨List.mem_map_of_mem hd, hne⟩)
  exact h.eq_of_ref (List.eraseP_sublist.subset hd') hd href ▸ hd'

/-- Fewer pending entries, saved or not, keep the invariant, if all that left are accounted for. -/
lemma Kept.shrink (h : Kept busy s) {entries : List ScheduledMessageEntry}
    (hsub : entries.Sublist s.entries) (saveFails : Bool)
    (hbusy : ∀ r, busy = some r → r ∉ entryRefs entries)
    (hwhy : ∀ e ∈ s.entries, e ∉ entries →
      .cancelled e.ref ∈ s.log ∨ (∃ delivery, .enqueued e.ref delivery ∈ s.log) ∨
        .dropped e ∈ s.log) :
    Kept none ({ s with entries }.save saveFails) := by
  have hrefs : ∀ r, r ∈ entryRefs entries → r ∈ entryRefs s.entries :=
    (hsub.map _).subset
  have hdisk : ∀ e ∈ s.entries, e.ref ∈ entryRefs s.disk := fun e he =>
    List.mem_map_of_mem (h.onDisk e he)
  have hacc : ∀ t : ScheduledMessages, t.entries = entries → t.log = s.log → ∀ e,
      .accepted e ∈ s.log → t.Accounted e := by
    intro t hentries hlog e he
    unfold Accounted
    rw [hentries, hlog]
    rcases h.accounted e he with hpending | hother
    · by_cases hstays : e ∈ entries
      · exact .inl hstays
      · exact .inr (hwhy e hpending hstays)
    · exact .inr hother
  have hfresh : ∀ r ∈ entryRefs entries, NotSinceCrash r s.log := fun r hr =>
    h.fresh r (hrefs r hr) fun heq => hbusy r heq hr
  unfold save
  cases saveFails with
  | true =>
    exact ⟨h.distinct.sublist (hsub.map _), h.distinctDisk, fun e he => h.onDisk e (hsub.subset he),
      fun e he => h.valid e (hsub.subset he), h.issued, h.issuedLog, h.cancelled, h.refused,
      fun r hr _ => hfresh r hr, hacc _ rfl rfl, h.ordered⟩
  | false =>
    have hout : ∀ r, r ∉ entryRefs s.disk → r ∉ entryRefs entries := by
      intro r hr hin
      obtain ⟨e, he, rfl⟩ := List.mem_map.mp hin
      exact hr (hdisk e (hsub.subset he))
    refine ⟨h.distinct.sublist (hsub.map _), h.distinct.sublist (hsub.map _), fun e he => he,
      fun e he => h.valid e (hsub.subset he), fun n hn => ?_, h.issuedLog,
      fun r hr => ⟨hout r (h.cancelled r hr).1, (h.cancelled r hr).2⟩,
      fun n hn => ⟨hout _ (h.refused n hn).1, (h.refused n hn).2⟩,
      fun r hr _ => hfresh r hr, hacc _ rfl rfl, h.ordered⟩
    obtain ⟨e, he, href⟩ := List.mem_map.mp hn
    exact h.issued n (href ▸ hdisk e (hsub.subset he))

end Primitives

/-! ## The tick -/

section Tick

variable {s : ScheduledMessages} {busy : Option EntryRef} {e : ScheduledMessageEntry}

lemma Kept.removeAndPersistBestEffort (h : Kept busy s) (he : e ∈ s.entries)
    (hbusy : ∀ r, busy = some r → r = e.ref) (saveFails : Bool)
    (hwhy : (∃ delivery, .enqueued e.ref delivery ∈ s.log) ∨ .dropped e ∈ s.log) :
    Kept none (s.removeAndPersistBestEffort e saveFails) := by
  obtain ⟨e', hfind⟩ : ∃ e', s.entries.find? (·.ref = e.ref) = some e' :=
    Option.isSome_iff_exists.mp (List.find?_isSome.mpr ⟨e, he, by simp⟩)
  have href : e'.ref = e.ref := by simpa using List.find?_some hfind
  refine h.shrink List.eraseP_sublist saveFails (fun r hr hin => ?_) fun d hd hout => ?_
  · exact ((mem_entryRefs_eraseP h.distinct hfind).mp hin).2 (href ▸ hbusy r hr)
  · have heq : d.ref = e.ref := by
      by_contra hne
      exact hout (h.mem_eraseP hfind hd (href ▸ hne))
    exact h.eq_of_ref hd he heq ▸ .inr hwhy

lemma emit_removeAndPersistBestEffort (saveFails : Bool) (new : List ScheduledOutcome) :
    (s.removeAndPersistBestEffort e saveFails).emit new =
      (s.emit new).removeAndPersistBestEffort e saveFails := by
  cases saveFails <;> rfl

lemma mem_entries_removeAndPersistBestEffort {d : ScheduledMessageEntry} (saveFails : Bool)
    (hd : d ∈ s.entries) (hne : d.ref ≠ e.ref) :
    d ∈ (s.removeAndPersistBestEffort e saveFails).entries := by
  have herase : d ∈ s.entries.eraseP (·.ref = e.ref) :=
    (List.mem_eraseP_of_neg (by simpa using hne)).mpr hd
  cases saveFails <;> exact herase

lemma Kept.settle (h : Kept busy s) (he : e ∈ s.entries)
    (hbusy : ∀ r, busy = some r → r = e.ref) {removed behind : List ScheduledOutcome}
    (hremoved : ∀ x ∈ removed, x.IsQuiet) (hbehind : ∀ x ∈ behind, x.IsQuiet) (firing : Firing)
    (hwhy : (∃ delivery, .enqueued e.ref delivery ∈ s.log) ∨ .dropped e ∈ removed) :
    Kept none (s.settle e firing removed behind).1 ∧
      ((s.settle e firing removed behind).2 ≠ .crashed → ∀ d ∈ s.entries, d.ref ≠ e.ref →
        d ∈ (s.settle e firing removed behind).1.entries) := by
  have hwhy' : (∃ delivery, .enqueued e.ref delivery ∈ (s.emit removed).log) ∨
      .dropped e ∈ (s.emit removed).log :=
    hwhy.imp (fun ⟨delivery, hin⟩ => ⟨delivery, List.mem_append_left _ hin⟩)
      fun hin => List.mem_append_right _ hin
  have hkept : Kept none ((s.removeAndPersistBestEffort e firing.saveFails).emit removed) := by
    rw [emit_removeAndPersistBestEffort]
    exact (h.emit_quiet hremoved).removeAndPersistBestEffort he hbusy _ hwhy'
  unfold ScheduledMessages.settle
  split_ifs
  · exact ⟨h.crash, fun hend => absurd rfl hend⟩
  · exact ⟨hkept.crash, fun hend => absurd rfl hend⟩
  · exact ⟨hkept.emit_quiet hbehind, fun _ d hd hne =>
      mem_entries_removeAndPersistBestEffort (s := s) _ hd hne⟩

lemma Kept.fireEntry (h : Kept none s) (he : e ∈ s.entries) (now : ℤ) (firing : Firing) :
    Kept none (s.fireEntry now e firing).1 ∧
      ((s.fireEntry now e firing).2 ≠ .crashed → ∀ d ∈ s.entries, d.ref ≠ e.ref →
        d ∈ (s.fireEntry now e firing).1.entries) := by
  unfold ScheduledMessages.fireEntry
  split
  · exact ⟨h.crash, fun hend => absurd rfl hend⟩
  · cases fireVerdict now e firing.result with
    | delivered messageId =>
      refine (h.enqueued he _).settle he (fun r hr => (Option.some.inj hr).symm) (by simp)
        (fun x hx => ?_) firing (.inl ⟨_, List.mem_append_right _ (List.mem_singleton.mpr rfl)⟩)
      unfold recordSent at hx
      split_ifs at hx
      · obtain rfl := List.mem_singleton.mp hx
        trivial
      · simp at hx
    | drop notice =>
      exact h.settle he (by simp) (by simp [ScheduledOutcome.IsQuiet])
        (by simp [ScheduledOutcome.IsQuiet]) firing (.inr (by simp))
    | retry =>
      dsimp only
      split_ifs
      · exact ⟨h.crash, fun hend => absurd rfl hend⟩
      · exact ⟨h, fun _ d hd _ => hd⟩

/-- The loop of a tick keeps the invariant.

**Proof sketch.** By induction on the entries that are due: each is pending when its turn comes,
since the entries before it removed only themselves. -/
lemma Kept.fireDue (h : Kept none s) (now : ℤ) (firings : ScheduledMessageEntry → Firing)
    {due : List ScheduledMessageEntry} (hdue : ∀ d ∈ due, d ∈ s.entries)
    (hnodup : (entryRefs due).Nodup) (blockedReceivers : List AgentId) :
    Kept none (fireDue now firings due blockedReceivers s) := by
  induction due generalizing s blockedReceivers with
  | nil => exact h
  | cons entry due ih =>
    obtain ⟨hentry, hrest⟩ := List.nodup_cons.mp hnodup
    have hne : ∀ d ∈ due, d.ref ≠ entry.ref := fun d hd heq =>
      hentry (List.mem_map.mpr ⟨d, hd, heq⟩)
    unfold ScheduledMessages.fireDue
    split_ifs
    · exact ih h (fun d hd => hdue d (List.mem_cons_of_mem _ hd)) hrest _
    · obtain ⟨hkept, hstay⟩ := h.fireEntry (hdue entry List.mem_cons_self) now (firings entry)
      split
      · rename_i s' heq
        rw [heq] at hkept hstay
        exact ih hkept (fun d hd => hstay (by simp) d (hdue d (List.mem_cons_of_mem _ hd))
          (hne d hd)) hrest _
      · rename_i s' heq
        rw [heq] at hkept hstay
        exact ih hkept (fun d hd => hstay (by simp) d (hdue d (List.mem_cons_of_mem _ hd))
          (hne d hd)) hrest _
      · rename_i s' heq
        rw [heq] at hkept
        exact hkept

lemma Kept.tick (h : Kept none s) (now : ℤ) (firings : ScheduledMessageEntry → Firing) :
    Kept none (s.tick now firings) := by
  unfold ScheduledMessages.tick
  have hperm := List.mergeSort_perm (s.entries.filter fun e => e.deliverAt ≤ now) firesFirst
  refine h.fireDue now firings (fun d hd => (List.mem_filter.mp (hperm.subset hd)).1) ?_ _
  exact ((hperm.map _).nodup_iff).mpr (h.distinct.sublist (List.filter_sublist.map _))

end Tick

/-! ## Schedule and cancel -/

section Operations

variable {s : ScheduledMessages} {e : ScheduledMessageEntry}

lemma Kept.count (h : Kept none s) : Kept none { s with calls := s.calls + 1 } :=
  ⟨h.distinct, h.distinctDisk, h.onDisk, h.valid, fun n hn => Nat.lt_succ_of_lt (h.issued n hn),
    fun n delivery hin => Nat.lt_succ_of_lt (h.issuedLog n delivery hin),
    fun r hr => ⟨(h.cancelled r hr).1, fun n hn => Nat.lt_succ_of_lt ((h.cancelled r hr).2 n hn)⟩,
    fun n hn => ⟨(h.refused n hn).1, Nat.lt_succ_of_lt (h.refused n hn).2.1, (h.refused n hn).2.2⟩,
    h.fresh, h.accounted, h.ordered⟩

lemma Kept.accepted (h : Kept none s) (he : e ∈ s.entries) :
    Kept none (s.emit [.accepted e]) := by
  refine ⟨h.distinct, h.distinctDisk, h.onDisk, h.valid, h.issued,
    fun n delivery hin => h.issuedLog n delivery (mem_log_of_ne hin (by simp)),
    fun r hin => h.cancelled r (mem_log_of_ne hin (by simp)), fun n hin => ?_,
    fun r hr hbusy => notSinceCrash_concat.mpr (.inr ⟨h.fresh r hr hbusy, by simp⟩),
    fun r hin => ?_, ordered_concat h.ordered (by simp)⟩
  · obtain ⟨hdisk, hlt, hnever⟩ := h.refused n (mem_log_of_ne hin (by simp))
    exact ⟨hdisk, hlt, fun delivery hin' => hnever delivery (mem_log_of_ne hin' (by simp))⟩
  · rcases List.mem_append.mp hin with hin | hlast
    · exact (h.accounted r hin).emit _
    · obtain rfl : r = e := by simpa using hlast
      exact .inl he

lemma Kept.refuse (h : Kept none s) :
    Kept none ({ s with calls := s.calls + 1 }.emit [.refused s.calls]) := by
  have hc := h.count
  refine ⟨h.distinct, h.distinctDisk, h.onDisk, h.valid, hc.issued,
    fun n delivery hin => hc.issuedLog n delivery (mem_log_of_ne hin (by simp)),
    fun r hin => hc.cancelled r (mem_log_of_ne hin (by simp)), fun n hin => ?_,
    fun r hr hbusy => notSinceCrash_concat.mpr (.inr ⟨h.fresh r hr hbusy, by simp⟩),
    fun r hin => (hc.accounted r (mem_log_of_ne hin (by simp))).emit _,
    ordered_concat h.ordered (by simp)⟩
  rcases List.mem_append.mp hin with hin | hlast
  · obtain ⟨hdisk, hlt, hnever⟩ := hc.refused n hin
    exact ⟨hdisk, hlt, fun delivery hin' => hnever delivery (mem_log_of_ne hin' (by simp))⟩
  · obtain rfl : n = s.calls := by simpa using hlast
    exact ⟨fun hin => absurd (h.issued _ hin) (Nat.lt_irrefl _), Nat.lt_succ_self _,
      fun delivery hin' => absurd (h.issuedLog _ delivery (mem_log_of_ne hin' (by simp)))
        (Nat.lt_irrefl _)⟩

/-- A new entry that is saved keeps the invariant. -/
lemma Kept.push (h : Kept none s) (href : e.ref = .scheduled s.calls)
    (hvalid : isValidEntry e = true) :
    Kept none { s with
      entries := s.entries ++ [e], disk := s.entries ++ [e], calls := s.calls + 1 } := by
  have hc := h.count
  have hdisk : ∀ d ∈ s.entries, d.ref ∈ entryRefs s.disk := fun d hd =>
    List.mem_map_of_mem (h.onDisk d hd)
  have hrefs : entryRefs (s.entries ++ [e]) = entryRefs s.entries ++ [.scheduled s.calls] := by
    simp [entryRefs, href]
  have hsub : ∀ r ∈ entryRefs s.entries, r ∈ entryRefs s.disk := by
    intro r hr
    obtain ⟨d, hd, rfl⟩ := List.mem_map.mp hr
    exact hdisk d hd
  have hnew : .scheduled s.calls ∉ entryRefs s.entries := fun hin =>
    absurd (h.issued _ (hsub _ hin)) (Nat.lt_irrefl _)
  have hnodup : (entryRefs (s.entries ++ [e])).Nodup := by
    rw [hrefs]
    exact h.distinct.append (List.nodup_singleton _) (by simpa using hnew)
  have hout : ∀ r, r ∉ entryRefs s.disk → r ≠ .scheduled s.calls →
      r ∉ entryRefs (s.entries ++ [e]) := by
    intro r hr hne hin
    rcases List.mem_append.mp (hrefs ▸ hin) with hin | hlast
    · exact hr (hsub r hin)
    · exact hne (List.mem_singleton.mp hlast)
  refine ⟨hnodup, hnodup, fun d hd => hd, fun d hd => ?_, fun n hn => ?_, hc.issuedLog,
    fun r hr => ⟨hout r (h.cancelled r hr).1 fun heq => ?_, (hc.cancelled r hr).2⟩,
    fun n hn => ⟨hout _ (h.refused n hn).1 fun heq => ?_, (hc.refused n hn).2⟩,
    fun r hr _ => ?_, fun r hr => (h.accounted r hr).mono (fun hin => ?_) fun _ hx => hx,
    h.ordered⟩
  · rcases List.mem_append.mp hd with hd | hlast
    · exact h.valid d hd
    · exact List.mem_singleton.mp hlast ▸ hvalid
  · rcases List.mem_append.mp (hrefs ▸ hn) with hin | hlast
    · exact hc.issued n (hsub _ hin)
    · obtain rfl : n = s.calls := by simpa using hlast
      exact Nat.lt_succ_self _
  · exact absurd ((h.cancelled r hr).2 _ heq) (Nat.lt_irrefl _)
  · obtain rfl : n = s.calls := by simpa using heq
    exact absurd (h.refused _ hn).2.1 (Nat.lt_irrefl _)
  · rcases List.mem_append.mp (hrefs ▸ hr) with hin | hlast
    · exact h.fresh r hin (by simp)
    · obtain rfl := List.mem_singleton.mp hlast
      rintro before x after hlog ⟨delivery, rfl⟩
      have hin : .enqueued (.scheduled s.calls) delivery ∈ s.log := by
        change s.log = _ at hlog
        simp [hlog]
      exact absurd (h.issuedLog _ delivery hin) (Nat.lt_irrefl _)
  · exact List.mem_append_left _ hin

/-- Where a call of `schedule` gets to. -/
lemma scheduleEntry_cases (s : ScheduledMessages) (c : ScheduleCall) :
    (∃ result, s.scheduleEntry c = (s, result) ∧
      ∀ entry deduped, result = some (.ok entry deduped) → entry ∈ s.entries) ∨
    ∃ entry, entry.ref = .scheduled s.calls ∧ isValidEntry entry = true ∧ s.scheduleEntry c =
      ((s.pushEntry entry c.saveFails).1, some (s.pushEntry entry c.saveFails).2) := by
  unfold scheduleEntry
  split
  · rename_i result hcheck
    refine .inl ⟨_, rfl, fun entry deduped hresult => ?_⟩
    obtain rfl := Option.some.inj hresult
    unfold checkScheduleInput at hcheck
    split_ifs at hcheck <;> simp at hcheck
  · split
    · exact .inl ⟨_, rfl, by simp⟩
    · split
      · rename_i existing hexisting
        refine .inl ⟨_, rfl, fun entry deduped hresult => ?_⟩
        have hin : existing ∈ s.entries := by
          unfold existingEntry at hexisting
          split at hexisting
          · exact List.mem_of_find?_eq_some hexisting
          · cases hexisting
        unfold answerExisting at hresult
        split_ifs at hresult
        · simp only [Option.some.injEq, ScheduleResult.ok.injEq] at hresult
          exact hresult.1 ▸ hin
        · simp at hresult
      · split_ifs
        · exact .inl ⟨_, rfl, by simp⟩
        · split
          · exact .inl ⟨_, rfl, by simp⟩
          · rename_i id hid
            refine .inr ⟨_, rfl, ?_, rfl⟩
            obtain ⟨draw, -, rfl⟩ := List.mem_map.mp (List.mem_of_find?_eq_some hid)
            have hprefix : 0 < (js "sm_").length := by decide
            simp only [isValidEntry, newEntry, List.length_append, decide_eq_true_eq]
            omega

lemma Kept.schedule (h : Kept none s) (c : ScheduleCall) : Kept none (s.schedule c) := by
  unfold ScheduledMessages.schedule
  rcases scheduleEntry_cases s c with ⟨result, heq, hin⟩ | ⟨entry, href, hvalid, heq⟩
  · rw [heq]
    dsimp only
    split_ifs
    · exact h.count.crash
    · match result with
      | none => exact h.count
      | some (.ok entry deduped) => exact h.count.accepted (hin entry deduped rfl)
      | some (.refused _ _ _) => exact h.refuse
  · rw [heq]
    unfold pushEntry
    cases c.saveFails with
    | true =>
      simp only [save, if_true, List.dropLast_concat]
      split_ifs
      · exact h.count.crash
      · exact h.refuse
    | false =>
      simp only [save, Bool.false_eq_true, if_false]
      split_ifs
      · exact (h.push href hvalid).crash
      · exact (h.push href hvalid).accepted (List.mem_append_right _ (List.mem_singleton.mpr rfl))

lemma Kept.cancelEntry (h : Kept none s) {p : ScheduledMessageEntry → Bool}
    (hfind : s.entries.find? p = some e) :
    Kept none ({ s with entries := s.entries.eraseP p, disk := s.entries.eraseP p }.emit
      [.cancelled e.ref]) := by
  have hsub : (s.entries.eraseP p).Sublist s.entries := List.eraseP_sublist
  have hnodup : (entryRefs (s.entries.eraseP p)).Nodup := h.distinct.sublist (hsub.map _)
  have hmem := fun r => mem_entryRefs_eraseP (r := r) h.distinct hfind
  have hdisk : ∀ r ∈ entryRefs (s.entries.eraseP p), r ∈ entryRefs s.disk := by
    intro r hr
    obtain ⟨d, hd, rfl⟩ := List.mem_map.mp hr
    exact List.mem_map_of_mem (h.onDisk d (hsub.subset hd))
  have hrefdisk : e.ref ∈ entryRefs s.disk :=
    List.mem_map_of_mem (h.onDisk e (List.mem_of_find?_eq_some hfind))
  refine ⟨hnodup, hnodup, fun d hd => hd, fun d hd => h.valid d (hsub.subset hd),
    fun n hn => h.issued n (hdisk _ hn),
    fun n delivery hin => h.issuedLog n delivery (mem_log_of_ne hin (by simp)),
    fun r hin => ?_, fun n hin => ?_, fun r hr _ => ?_, fun r hin => ?_,
    ordered_concat h.ordered (by simp)⟩
  · rcases List.mem_append.mp hin with hin | hlast
    · exact ⟨fun hr => (h.cancelled r hin).1 (hdisk r hr), (h.cancelled r hin).2⟩
    · obtain rfl : r = e.ref := by simpa using hlast
      exact ⟨fun hr => ((hmem _).mp hr).2 rfl, fun n hn => h.issued n (hn ▸ hrefdisk)⟩
  · obtain ⟨hgone, hlt, hnever⟩ := h.refused n (mem_log_of_ne hin (by simp))
    exact ⟨fun hr => hgone (hdisk _ hr), hlt,
      fun delivery hin' => hnever delivery (mem_log_of_ne hin' (by simp))⟩
  · exact notSinceCrash_concat.mpr (.inr ⟨h.fresh r ((hmem r).mp hr).1 (by simp), by simp⟩)
  · by_cases heq : r.ref = e.ref
    · exact .inr (.inl (by simp [emit, heq]))
    · exact (h.accounted r (mem_log_of_ne hin (by simp))).mono
        (fun hr => h.mem_eraseP hfind hr heq) fun x hx => List.mem_append_left _ hx

lemma eraseIdx_findIdx (entries : List ScheduledMessageEntry) (p : ScheduledMessageEntry → Bool) :
    entries.eraseIdx (entries.findIdx p) = entries.eraseP p := by
  induction entries with
  | nil => rfl
  | cons e entries ih =>
    rw [List.findIdx_cons, List.eraseP_cons]
    cases p e <;> simp [ih]

lemma insertIdx_eraseIdx_findIdx {p : ScheduledMessageEntry → Bool}
    (hfind : s.entries.find? p = some e) :
    (s.entries.eraseIdx (s.entries.findIdx p)).insertIdx (s.entries.findIdx p) e = s.entries := by
  have hlt : s.entries.findIdx p < s.entries.length :=
    List.findIdx_lt_length.mpr ⟨e, List.mem_of_find?_eq_some hfind, List.find?_some hfind⟩
  have hget : s.entries[s.entries.findIdx p] = e := by
    have hfind' := hfind
    rw [List.find?_eq_getElem?_findIdx, List.getElem?_eq_getElem hlt] at hfind'
    exact Option.some.inj hfind'
  conv_lhs => rw [← hget]
  exact List.insertIdx_eraseIdx_getElem hlt

lemma Kept.cancel (h : Kept none s) (senderAgentId : AgentId) (scheduledId : JsString)
    (saveFails crashes : Bool) :
    Kept none (s.cancel senderAgentId scheduledId saveFails crashes) := by
  unfold ScheduledMessages.cancel
  split
  · split_ifs
    · exact h.crash
    · exact h
  · rename_i removed hfind
    cases saveFails with
    | true =>
      simp only [save, if_true, insertIdx_eraseIdx_findIdx hfind]
      split_ifs
      · exact h.crash
      · exact h
    | false =>
      simp only [save, Bool.false_eq_true, if_false, eraseIdx_findIdx]
      split_ifs
      · exact (h.cancelEntry hfind).crash
      · exact h.cancelEntry hfind

/-- **Every operation keeps the invariant.** -/
theorem Kept.step (h : Kept none s) (event : ScheduledEvent) : Kept none (s.step event) := by
  cases event with
  | schedule call => exact h.schedule call
  | cancel senderAgentId scheduledId saveFails crashes => exact h.cancel _ _ _ _
  | tick now firings => exact h.tick now firings
  | crash => exact h.crash

lemma Kept.run (h : Kept none s) (events : List ScheduledEvent) : Kept none (s.run events) :=
  Machine.run_invariant (fun _ event ht => Kept.step ht event) h

lemma kept_boot (file : List ScheduledMessageEntry) : Kept none (boot file) := by
  have hrefs : entryRefs (boot file).disk = (List.range file.length).map .loaded := by
    simp only [entryRefs, boot]
    exact List.ext_getElem (by simp) (by simp)
  have hnodup : (entryRefs (boot file).disk).Nodup := by
    rw [hrefs]
    exact List.nodup_range.map fun i j hij => by simpa using hij
  refine ⟨hnodup.sublist (List.filter_sublist.map _), hnodup,
    fun e he => (List.mem_filter.mp he).1, fun e he => (List.mem_filter.mp he).2, fun n hn => ?_,
    by simp [boot], by simp [boot], by simp [boot], fun r _ _ => Trace.followed_nil,
    by simp [boot], Trace.each_nil _⟩
  rw [hrefs] at hn
  simp at hn

end Operations

/-! ## Notices -/

section Notices

variable {s : ScheduledMessages} {e : ScheduledMessageEntry} {events : List ScheduledEvent}

/-- The log grows, with every entry that is given up followed by its notice or a crash. -/
def Grows (events : List ScheduledEvent) (s s' : ScheduledMessages) : Prop :=
  ∃ new, s'.log = s.log ++ new ∧ NoticeFollows events new

variable {s' : ScheduledMessages}

lemma Grows.of_eq (h : s'.log = s.log) : Grows events s s' :=
  ⟨[], by simp [h], Trace.answered_of_forall_not (by simp)⟩

lemma Grows.trans {s' s'' : ScheduledMessages} (h : Grows events s s') (h' : Grows events s' s'') :
    Grows events s s'' := by
  obtain ⟨new, hlog, hnew⟩ := h
  obtain ⟨new', hlog', hnew'⟩ := h'
  exact ⟨new ++ new', by rw [hlog', hlog, List.append_assoc], Trace.answered_append hnew hnew'⟩

lemma Grows.emit (h : s'.log = s.log) {new : List ScheduledOutcome}
    (hnew : ∀ x ∈ new, ∀ e, x ≠ .dropped e) : Grows events s (s'.emit new) :=
  ⟨new, by simp [ScheduledMessages.emit, h],
    Trace.answered_of_forall_not fun x hx ⟨e, heq⟩ => hnew x hx e heq⟩

lemma grows_crash (h : s'.log = s.log) : Grows events s s'.crash :=
  ⟨[.crashed], by simp [ScheduledMessages.crash, ScheduledMessages.emit, h],
    Trace.answered_of_forall_not (by simp)⟩

lemma noticeFollows_pair {next : ScheduledOutcome} (hnext : next = .crashed ∨ NoticeOf events e next) :
    NoticeFollows events [.dropped e, next] := by
  rintro before x after heq ⟨e', rfl⟩
  match before with
  | [] =>
    obtain ⟨rfl, rfl⟩ : e = e' ∧ [next] = after := by simpa using heq
    exact ⟨next, [], rfl, hnext.imp id fun hnotice => ⟨e, rfl, hnotice⟩⟩
  | [y] =>
    obtain ⟨-, rfl, -⟩ : .dropped e = y ∧ next = .dropped e' ∧ after = [] := by simpa using heq
    simp [NoticeOf] at hnext
  | y :: z :: before => simp at heq

lemma grows_settle (firing : Firing) {removed behind : List ScheduledOutcome}
    (hcrash : NoticeFollows events (removed ++ [.crashed]))
    (hbehind : NoticeFollows events (removed ++ behind)) :
    Grows events s (s.settle e firing removed behind).1 := by
  unfold settle
  split_ifs
  · exact grows_crash rfl
  · exact ⟨_, by simp [ScheduledMessages.crash, ScheduledMessages.emit], hcrash⟩
  · exact ⟨_, by simp [ScheduledMessages.emit], hbehind⟩

lemma grows_fireEntry (s : ScheduledMessages) {now : ℤ} {firings : ScheduledMessageEntry → Firing}
    (htick : .tick now firings ∈ events) :
    Grows events s (s.fireEntry now e (firings e)).1 := by
  unfold fireEntry
  split
  · exact grows_crash rfl
  · cases hverdict : fireVerdict now e (firings e).result with
    | delivered messageId =>
      have henqueued : Grows events s (s.emit [.enqueued e.ref (deliveryOf e (firings e).liveSender)]) :=
        .emit rfl (by simp)
      refine henqueued.trans (grows_settle _ (Trace.answered_of_forall_not (by simp))
        (Trace.answered_of_forall_not ?_))
      rintro x hx ⟨r, rfl⟩
      unfold recordSent at hx
      split_ifs at hx <;> simp at hx
    | drop notice =>
      exact grows_settle _ (noticeFollows_pair (.inl rfl))
        (noticeFollows_pair (.inr ⟨now, firings, notice, htick, hverdict, rfl⟩))
    | retry =>
      dsimp only
      split_ifs
      · exact grows_crash rfl
      · exact .of_eq rfl

lemma grows_fireDue {now : ℤ} {firings : ScheduledMessageEntry → Firing}
    (htick : .tick now firings ∈ events) (due : List ScheduledMessageEntry)
    (blockedReceivers : List AgentId) (s : ScheduledMessages) :
    Grows events s (fireDue now firings due blockedReceivers s) := by
  induction due generalizing s blockedReceivers with
  | nil => exact .of_eq rfl
  | cons entry due ih =>
    unfold fireDue
    have hentry := grows_fireEntry (e := entry) s htick
    split_ifs
    · exact ih _ _
    · split
      all_goals
        rename_i s' heq
        rw [heq] at hentry
      · exact hentry.trans (ih _ _)
      · exact hentry.trans (ih _ _)
      · exact hentry

lemma grows_logAnswer (h : s'.log = s.log) (call : ℕ)
    (result : Option ScheduleResult) : Grows events s (s'.logAnswer call result) := by
  match result with
  | none => exact .of_eq h
  | some (.ok _ _) => exact .emit h (by simp)
  | some (.refused _ _ _) => exact .emit h (by simp)

lemma log_scheduleEntry (s : ScheduledMessages) (c : ScheduleCall) :
    (s.scheduleEntry c).1.log = s.log := by
  rcases scheduleEntry_cases s c with ⟨result, heq, -⟩ | ⟨entry, -, -, heq⟩
  · rw [heq]
  · rw [heq]
    unfold pushEntry
    cases c.saveFails <;> rfl

lemma grows_step (s : ScheduledMessages) {event : ScheduledEvent} (hevent : event ∈ events) :
    Grows events s (s.step event) := by
  cases event with
  | schedule call =>
    have hlog := log_scheduleEntry s call
    simp only [step, schedule]
    split_ifs
    · exact grows_crash hlog
    · have hcounted :
          ({ (s.scheduleEntry call).1 with calls := s.calls + 1 } : ScheduledMessages).log = s.log :=
        hlog
      exact grows_logAnswer hcounted _ _
  | cancel senderAgentId scheduledId saveFails crashes =>
    simp only [step, cancel]
    split
    · split_ifs
      · exact grows_crash rfl
      · exact .of_eq rfl
    · rename_i removed hfind
      cases saveFails <;> cases crashes
      · exact .emit rfl (by simp)
      · have hquiet : ∀ x ∈ [ScheduledOutcome.cancelled removed.ref], ∀ e, x ≠ .dropped e := by
          simp
        exact (Grows.emit rfl hquiet).trans (grows_crash rfl)
      · exact .of_eq rfl
      · exact grows_crash rfl
  | tick now firings => exact grows_fireDue hevent _ _ s
  | crash => exact grows_crash rfl

lemma noticeFollows_run (file : List ScheduledMessageEntry) (events : List ScheduledEvent) :
    NoticeFollows events ((boot file).run events).log := by
  have hstart : NoticeFollows events (boot file).log := Trace.answered_of_forall_not (by simp [boot])
  refine Machine.run_invariant_of_mem (P := fun t : ScheduledMessages => NoticeFollows events t.log)
    (fun t event hevent ht => ?_) hstart fun _ => id
  obtain ⟨new, hlog, hnew⟩ := grows_step t hevent
  rw [hlog]
  exact Trace.answered_append ht hnew

end Notices

/-! ## The result -/

/-- **What becomes of scheduled messages.** Behind any operations with any saves that fail and
crashes at any point:

* an accepted entry is pending in memory and in the file, or was cancelled, handed over or given up;
* an entry that is given up is followed by the notice to its sender, unless the server crashes
  first;
* a cancelled entry is not handed over afterwards;
* the entry of a refused call is never handed over;
* between two hand-overs of an entry the server crashed.

**Proof sketch.** `Kept` holds of every state of a run (`Kept.step`): memory is a part of the file,
so a crash brings everything pending back, and a pending entry was not handed over since the last
crash, as the removal behind a hand-over takes it out of memory whether it is saved or not. -/
theorem scheduled_accounted (file : List ScheduledMessageEntry) (events : List ScheduledEvent) :
    let s := (boot file).run events
    (∀ e, .accepted e ∈ s.log →
      e ∈ s.entries ∧ e ∈ s.disk ∨ .cancelled e.ref ∈ s.log ∨
        (∃ delivery, .enqueued e.ref delivery ∈ s.log) ∨ .dropped e ∈ s.log) ∧
    (∀ before e after, s.log = before ++ .dropped e :: after →
      ∃ next rest, after = next :: rest ∧ (next = .crashed ∨ NoticeOf events e next)) ∧
    (∀ before r after delivery, s.log = before ++ .cancelled r :: after →
      .enqueued r delivery ∉ after) ∧
    (∀ n delivery, .refused n ∈ s.log → .enqueued (.scheduled n) delivery ∉ s.log) ∧
    ∀ before r delivery between delivery' after,
      s.log = before ++ .enqueued r delivery :: (between ++ .enqueued r delivery' :: after) →
      .crashed ∈ between := by
  intro s
  have hkept : Kept none s := (kept_boot file).run events
  refine ⟨fun e he => ?_, fun before e after hlog => ?_, fun before r after delivery hlog hin => ?_,
    fun n delivery hn => (hkept.refused n hn).2.2 delivery, ?_⟩
  · exact (hkept.accounted e he).imp (fun hpending => ⟨hpending, hkept.onDisk e hpending⟩) id
  · obtain ⟨next, rest, rfl, hnext⟩ := noticeFollows_run file events before _ after hlog ⟨e, rfl⟩
    refine ⟨next, rest, rfl, hnext.imp id ?_⟩
    rintro ⟨e', heq, hnotice⟩
    rwa [ScheduledOutcome.dropped.inj heq]
  · obtain ⟨as, bs, rfl⟩ := List.append_of_mem hin
    have hbefore := hkept.ordered (before ++ .cancelled r :: as) (.enqueued r delivery) bs
      (by simp [hlog]) r delivery rfl
    exact hbefore.1 (by simp)
  · intro before r delivery between delivery' after hlog
    have hbefore := hkept.ordered (before ++ .enqueued r delivery :: between)
      (.enqueued r delivery') after (by simp [hlog]) r delivery' rfl
    obtain ⟨x, hx, rfl⟩ := hbefore.2 before _ between rfl ⟨delivery, rfl⟩
    exact hx

/-- A call that schedules a message for another agent in an hour. -/
def sampleCall : ScheduleCall where
  senderAgentId := js "agent-a"
  receiverAgentId := js "agent-b"
  text := js "hello future"
  deliverAt := 3600000
  now := 0
  receiverDisplay := some ⟨js "Bob", js "Room 2"⟩
  senderDisplay := some ⟨js "Alice", js "Room 1"⟩
  draws := [js "00000000"]
  saveFails := false

def sampleEntry : ScheduledMessageEntry :=
  newEntry sampleCall ⟨js "Alice", js "Room 1"⟩ (js "sm_00000000") (.scheduled 0)

/-- **An entry can be given up without a notice.** The receiver is gone when the entry is due, and
the server crashes between the save of the removal and the notice: behind that, the accepted entry
is not pending, was not cancelled, was not handed over, and its sender was not notified. -/
theorem dropped_silently :
    let s := (boot []).run
      [.schedule sampleCall,
        .tick 3600000 fun _ =>
          { result := .refused (js "agent not found") 404, crash := some .afterSave }]
    .accepted sampleEntry ∈ s.log ∧
      ¬ (sampleEntry ∈ s.entries ∧ sampleEntry ∈ s.disk ∨ .cancelled sampleEntry.ref ∈ s.log ∨
        (∃ delivery, .enqueued sampleEntry.ref delivery ∈ s.log) ∨
        ∃ sender text, .notified sampleEntry.ref sender text ∈ s.log) := by
  intro s
  have hlog : s.log = [.accepted sampleEntry, .dropped sampleEntry, .crashed] := by decide +kernel
  have hentries : s.entries = [] := by decide +kernel
  simp [hlog, hentries]

end ScheduledMessages

end Isomux
