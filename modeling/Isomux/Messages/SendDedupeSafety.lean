import Isomux.Messages.SendDedupe
import Mathlib.Order.Nat

set_option autoImplicit false

/-!
# What the duplicate check of member sends promises

A claim is answered "accepted" for a send that was accepted within the time to live, at most one
claim owns the attempt of a key, and its outcome wakes every claim that waits for it. The last two
hold always. The first one does not: an attempt that is accepted gets a new time where its slot
stands, and the walk of `prune` stops there, in front of slots that are older.

## Main results

* `Isomux.UserSendDedupe.mem_pruneFrom_iff` — which slots that are too old the walk does not reach.
* `Isomux.UserSendDedupe.sound_step` — every event keeps the invariant.
* `Isomux.UserSendDedupe.sends_deduplicated` — the promise is kept exactly along the runs in which
  the walk reaches the slot of every claim.
-/

namespace Isomux.UserSendDedupe

/-! ## The promise -/

variable (s : UserSendDedupe)

/-- A claim of a key in a map, and its answer. -/
def Claimed (i : ℕ) (o : SendOwner) (key : JsString) (answer : DedupeClaim) : Prop :=
  s.claims[i]?.map (fun c => (c.owner, c.key, c.answer)) = some (o, key, answer)

/-- What was claimed is looked up. -/
instance (s : UserSendDedupe) (i : ℕ) (o : SendOwner) (key : JsString) (answer : DedupeClaim) :
    Decidable (s.Claimed i o key answer) :=
  inferInstanceAs (Decidable (_ = _))

/-- A claim owns the attempt of a key, and has no outcome. -/
def Outstanding (i : ℕ) (o : SendOwner) (key : JsString) : Prop :=
  s.Claimed i o key .new ∧ s.settled i = none

/-- A claim waits for the outcome of another one. -/
def Waiting (j : ℕ) (o : SendOwner) (key : JsString) : Prop :=
  s.Claimed j o key .inFlight ∧ s.outcome j = none

/-- A send of a key was accepted at a time. -/
def AcceptedAt (o : SendOwner) (key : JsString) (t : ℤ) : Prop :=
  ∃ i, s.Claimed i o key .new ∧ s.settled i = some (.ok, t)

/-- Every claim that was answered "accepted" came within the time to live of an accepted send. -/
def Recent (ttlMs : ℤ) (s : UserSendDedupe) : Prop :=
  ∀ c ∈ s.claims, c.answer = .accepted →
    ∃ t, s.AcceptedAt c.owner c.key t ∧ c.now - ttlMs ≤ t ∧ t ≤ c.now

/-- What the duplicate check promises. The claims of a key are those in one map of its agent. -/
structure Deduplicates (ttlMs : ℤ) (s : UserSendDedupe) : Prop where
  recent : s.Recent ttlMs
  exclusive : ∀ i j o key, s.Outstanding i o key → s.Outstanding j o key → i = j
  awaited : ∀ j o key, s.Waiting j o key → ∃ i, s.Outstanding i o key
  wakes : ∀ i j o key result, s.Outstanding i o key → s.Waiting j o key →
    (s.settle i result).outcome j = some result

/-! ## The walk of `prune` -/

/-- The walk comes past these slots, where the map has a size in front of them. -/
def Passes (maxPerAgent : ℕ) (cutoff : ℤ) : ℕ → JsMap JsString SendSlot → Prop
  | _, [] => True
  | size, (_, slot) :: front =>
    (maxPerAgent < size ∨ slot.time < cutoff) ∧
      Passes maxPerAgent cutoff (if slot.isAccepted then size - 1 else size) front

/-- The walk comes to the slot of a claim, when that is the slot of an accepted send that is older
than the time to live. -/
def ReachesExpired (maxPerAgent : ℕ) (ttlMs : ℤ) (s : UserSendDedupe) : SendDedupeEvent → Prop
  | .claim agentId key =>
    ∀ front t back, s.slots (s.owner agentId) = front ++ (key, .accepted t) :: back →
      t < s.clock - ttlMs →
      Passes maxPerAgent (s.clock - ttlMs) (s.slots (s.owner agentId)).length front
  | _ => True

section Walk

variable {maxPerAgent : ℕ} {cutoff : ℤ}

lemma pruneFrom_sublist (size : ℕ) (slots : JsMap JsString SendSlot) :
    (pruneFrom maxPerAgent cutoff size slots).Sublist slots := by
  induction slots generalizing size with
  | nil => exact List.Sublist.slnil
  | cons e slots ih =>
    obtain ⟨key, slot⟩ := e
    rw [pruneFrom]
    split_ifs
    · exact List.Sublist.refl _
    · exact (ih _).cons _
    · exact (ih _).cons_cons _

lemma mem_pruneFrom_inFlight {size : ℕ} {slots : JsMap JsString SendSlot} {key : JsString} {t : ℤ}
    {i : ℕ} (h : (key, .inFlight t i) ∈ slots) :
    (key, .inFlight t i) ∈ pruneFrom maxPerAgent cutoff size slots := by
  induction slots generalizing size with
  | nil => exact h
  | cons e slots ih =>
    obtain ⟨k, slot⟩ := e
    rw [pruneFrom]
    split_ifs with hstop haccepted
    · exact h
    · rcases List.mem_cons.1 h with heq | hrest
      · cases heq
        cases haccepted
      · exact ih hrest
    · rcases List.mem_cons.1 h with heq | hrest
      · exact heq ▸ List.mem_cons_self
      · exact List.mem_cons_of_mem _ (ih hrest)

/-- A slot that is too old stays exactly where the walk does not come past those in front of it. -/
theorem mem_pruneFrom_iff {front back : JsMap JsString SendSlot} {key : JsString} {t : ℤ}
    (ht : t < cutoff) (hnodup : ((front ++ (key, .accepted t) :: back).map Prod.fst).Nodup)
    (size : ℕ) :
    (key, .accepted t) ∈ pruneFrom maxPerAgent cutoff size (front ++ (key, .accepted t) :: back) ↔
      ¬ Passes maxPerAgent cutoff size front := by
  induction front generalizing size with
  | nil =>
    have hback : (key, SendSlot.accepted t) ∉ back := fun hmem =>
      (List.nodup_cons.1 hnodup).1 (List.mem_map.2 ⟨_, hmem, rfl⟩)
    have hgo : ¬ (size ≤ maxPerAgent ∧ cutoff ≤ (SendSlot.accepted t).time) :=
      fun h => absurd h.2 (Int.not_le.2 ht)
    have haccepted : (SendSlot.accepted t).isAccepted = true := rfl
    rw [List.nil_append, pruneFrom, if_neg hgo, if_pos haccepted]
    simp only [Passes, not_true_eq_false, iff_false]
    exact fun hmem => hback ((pruneFrom_sublist _ _).subset hmem)
  | cons e front ih =>
    obtain ⟨k, slot⟩ := e
    obtain ⟨hnotin, hrest⟩ := List.nodup_cons.1 hnodup
    have hne : (key, SendSlot.accepted t) ≠ (k, slot) := by
      rintro heq
      obtain ⟨rfl, -⟩ := Prod.mk.inj heq
      exact hnotin (by simp)
    rw [List.cons_append, pruneFrom, Passes]
    by_cases hstop : size ≤ maxPerAgent ∧ cutoff ≤ slot.time
    · have hpast : ¬ (maxPerAgent < size ∨ slot.time < cutoff) := by omega
      simp [hstop, hpast]
    · have hpast : maxPerAgent < size ∨ slot.time < cutoff := by omega
      rw [if_neg hstop, and_iff_right hpast]
      by_cases haccepted : slot.isAccepted = true
      · rw [if_pos haccepted, if_pos haccepted]
        exact ih hrest _
      · rw [if_neg haccepted, if_neg haccepted, List.mem_cons, or_iff_right hne]
        exact ih hrest _

end Walk

/-! ## Slots, claims and waiters -/

structure Fits (s : UserSendDedupe) (o : SendOwner) (slots : JsMap JsString SendSlot) : Prop where
  nodup : (slots.map Prod.fst).Nodup
  outstanding : ∀ key t i, (key, .inFlight t i) ∈ slots → s.Outstanding i o key
  inFlight : ∀ i key, s.Outstanding i o key → ∃ t, (key, .inFlight t i) ∈ slots
  accepted : ∀ key t, (key, .accepted t) ∈ slots →
    s.AcceptedAt o key t ∧ ∀ t', s.AcceptedAt o key t' → t' ≤ t

/-- Slots, claims and waiters fit together. -/
structure Sound (s : UserSendDedupe) : Prop where
  fits : ∀ o, s.Fits o (s.slots o)
  past : ∀ o key t, s.AcceptedAt o key t → t ≤ s.clock
  waits : ∀ j o key, s.Waiting j o key → ∃ i, s.Outstanding i o key ∧ j ∈ s.waiters i
  listed : ∀ i, ∀ j ∈ s.waiters i, j < s.claims.length
  fresh : ∀ n, s.claims.length ≤ n → s.settled n = none ∧ s.outcome n = none

section Operations

variable {s s' : UserSendDedupe} {o o' : SendOwner} {key key' : JsString}
  {slots : JsMap JsString SendSlot} {answer answer' : DedupeClaim} {i : ℕ}

@[simp] lemma slots_setSlots_self : (s.setSlots o slots).slots o = slots := by
  simp [setSlots]

lemma slots_setSlots_of_ne (h : o' ≠ o) : (s.setSlots o slots).slots o' = s.slots o' := by
  simp [setSlots, h]

@[simp] lemma waiters_setSlots : (s.setSlots o slots).waiters = s.waiters := rfl

@[simp] lemma outcome_setSlots : (s.setSlots o slots).outcome = s.outcome := rfl

@[simp] lemma clock_setSlots : (s.setSlots o slots).clock = s.clock := rfl

lemma claimed_addClaim :
    (s.addClaim o key answer).Claimed i o' key' answer' ↔ s.Claimed i o' key' answer' ∨
      i = s.claims.length ∧ o = o' ∧ key = key' ∧ answer = answer' := by
  unfold Claimed addClaim
  rcases Nat.lt_trichotomy i s.claims.length with hi | rfl | hi
  · simp [List.getElem?_append_left hi, hi.ne]
  · simp
  · simp [List.getElem?_append_right hi.le, List.getElem?_eq_none hi.le, hi.ne',
      Nat.sub_ne_zero_of_lt hi]

lemma Claimed.lt (h : s.Claimed i o key answer) : i < s.claims.length := by
  by_contra hge
  rw [Claimed, List.getElem?_eq_none (Nat.le_of_not_lt hge)] at h
  cases h

lemma Claimed.unique (h : s.Claimed i o key answer) (h' : s.Claimed i o' key' answer') :
    o = o' ∧ key = key' ∧ answer = answer' := by
  rw [Claimed] at h h'
  simpa using h.symm.trans h'

lemma Sound.exclusive (h : s.Sound) {i j : ℕ} (hi : s.Outstanding i o key)
    (hj : s.Outstanding j o key) : i = j := by
  obtain ⟨t, hslot⟩ := (h.fits o).inFlight i key hi
  obtain ⟨t', hslot'⟩ := (h.fits o).inFlight j key hj
  have heq := ((JsMap.mem_iff_get (h.fits o).nodup).1 hslot).symm.trans
    ((JsMap.mem_iff_get (h.fits o).nodup).1 hslot')
  cases heq
  rfl

lemma Fits.congr (h : s.Fits o slots)
    (hout : ∀ i key, s'.Outstanding i o key ↔ s.Outstanding i o key)
    (hacc : ∀ key t, s'.AcceptedAt o key t ↔ s.AcceptedAt o key t) : s'.Fits o slots where
  nodup := h.nodup
  outstanding key t i hslot := (hout i key).2 (h.outstanding key t i hslot)
  inFlight i key hi := h.inFlight i key ((hout i key).1 hi)
  accepted key t hslot := by
    simp only [hacc]
    exact h.accepted key t hslot

lemma Fits.prune (h : s.Fits o slots) (maxPerAgent : ℕ) (ttlMs now : ℤ) :
    s.Fits o (prune maxPerAgent ttlMs now slots) where
  nodup := h.nodup.sublist ((pruneFrom_sublist _ _).map _)
  outstanding key t i hslot := h.outstanding key t i ((pruneFrom_sublist _ _).subset hslot)
  inFlight i key hi := (h.inFlight i key hi).imp fun _ hslot => mem_pruneFrom_inFlight hslot
  accepted key t hslot := h.accepted key t ((pruneFrom_sublist _ _).subset hslot)

lemma Sound.setSlots (h : s.Sound) (hfits : s.Fits o slots) : (s.setSlots o slots).Sound where
  __ := h
  fits o' := by
    by_cases ho : o' = o
    · subst ho
      rw [slots_setSlots_self]
      exact hfits.congr (fun _ _ => Iff.rfl) fun _ _ => Iff.rfl
    · rw [slots_setSlots_of_ne ho]
      exact (h.fits o').congr (fun _ _ => Iff.rfl) fun _ _ => Iff.rfl

lemma outstanding_addClaim (hanswer : answer ≠ .new) :
    (s.addClaim o key answer).Outstanding i o' key' ↔ s.Outstanding i o' key' := by
  unfold Outstanding
  rw [claimed_addClaim, or_iff_left fun hnew => hanswer hnew.2.2.2]
  rfl

lemma Sound.next (h : s.Sound) : s.settled s.claims.length = none := (h.fresh _ (Nat.le_refl _)).1

lemma acceptedAt_addClaim (hnext : s.settled s.claims.length = none) {t : ℤ} :
    (s.addClaim o key answer).AcceptedAt o' key' t ↔ s.AcceptedAt o' key' t := by
  refine exists_congr fun i => ?_
  rw [claimed_addClaim]
  constructor
  · rintro ⟨hold | ⟨rfl, -⟩, hset⟩
    · exact ⟨hold, hset⟩
    · exact absurd (hnext.symm.trans hset) nofun
  · exact fun hold => ⟨.inl hold.1, hold.2⟩

@[simp] lemma length_addClaim : (s.addClaim o key answer).claims.length = s.claims.length + 1 := by
  simp [addClaim]

lemma fresh_addClaim (h : ∀ n, s.claims.length ≤ n → s.settled n = none ∧ s.outcome n = none)
    (n : ℕ) (hn : (s.addClaim o key answer).claims.length ≤ n) :
    (s.addClaim o key answer).settled n = none ∧ (s.addClaim o key answer).outcome n = none := by
  rw [length_addClaim] at hn
  exact h n (Nat.le_of_succ_le hn)

lemma Sound.addAccepted (h : s.Sound) (o : SendOwner) (key : JsString) :
    (s.addClaim o key .accepted).Sound := by
  have hkind : DedupeClaim.accepted ≠ .new := nofun
  refine ⟨fun o' => (h.fits o').congr (fun _ _ => outstanding_addClaim hkind)
      fun _ _ => acceptedAt_addClaim h.next,
    fun o' key' t ht => h.past o' key' t ((acceptedAt_addClaim h.next).1 ht),
    fun j o' key' hj => ?_, fun i j hj => length_addClaim ▸ Nat.lt_succ_of_lt (h.listed i j hj),
    fresh_addClaim h.fresh⟩
  have hold : s.Waiting j o' key' := ⟨(claimed_addClaim.1 hj.1).resolve_right nofun, hj.2⟩
  obtain ⟨i, hi, hmem⟩ := h.waits j o' key' hold
  exact ⟨i, (outstanding_addClaim hkind).2 hi, hmem⟩

lemma Sound.addWaiter (h : s.Sound) {prior : ℕ} (hprior : s.Outstanding prior o key) :
    ((s.addWaiter prior).addClaim o key .inFlight).Sound := by
  have hkind : DedupeClaim.inFlight ≠ .new := nofun
  have hmore : ∀ i j, j ∈ (s.addWaiter prior).waiters i ↔
      j ∈ s.waiters i ∨ i = prior ∧ j = s.claims.length := by
    intro i j
    by_cases hip : i = prior
    · subst hip
      simp [UserSendDedupe.addWaiter]
    · simp [UserSendDedupe.addWaiter, hip]
  refine ⟨fun o' => (h.fits o').congr (fun _ _ => outstanding_addClaim hkind)
      fun _ _ => acceptedAt_addClaim (s := s.addWaiter prior) h.next,
    fun o' key' t ht =>
      h.past o' key' t ((acceptedAt_addClaim (s := s.addWaiter prior) h.next).1 ht),
    fun j o' key' hj => ?_, fun i j hj => ?_, fresh_addClaim (s := s.addWaiter prior) h.fresh⟩
  · rcases claimed_addClaim.1 hj.1 with hold | ⟨rfl, rfl, rfl, -⟩
    · obtain ⟨i, hi, hmem⟩ := h.waits j o' key' ⟨hold, hj.2⟩
      exact ⟨i, (outstanding_addClaim hkind).2 hi, (hmore i j).2 (.inl hmem)⟩
    · exact ⟨prior, (outstanding_addClaim hkind).2 hprior, (hmore _ _).2 (.inr ⟨rfl, rfl⟩)⟩
  · rw [length_addClaim]
    rcases (hmore i j).1 hj with hold | ⟨-, rfl⟩
    · exact Nat.lt_succ_of_lt (h.listed i j hold)
    · exact Nat.lt_succ_self _

/-- A claim that owns the attempt of its key. -/
lemma Sound.addNew (h : s.Sound) (hfits : s.Fits o slots) (hkey : JsMap.get slots key = none) :
    ((s.setSlots o (JsMap.set slots key (.inFlight s.clock s.claims.length))).addClaim o key
      .new).Sound := by
  set t := s.setSlots o (JsMap.set slots key (.inFlight s.clock s.claims.length)) with ht
  have hset : ∀ k slot, (k, slot) ∈ JsMap.set slots key (.inFlight s.clock s.claims.length) ↔
      if k = key then slot = .inFlight s.clock s.claims.length else (k, slot) ∈ slots := by
    intro k slot
    rw [JsMap.mem_iff_get (JsMap.nodup_keys_set hfits.nodup), JsMap.get_set]
    split_ifs
    · rw [Option.some_inj, eq_comm]
    · exact (JsMap.mem_iff_get hfits.nodup).symm
  have hnokey : ∀ slot, (key, slot) ∉ slots := fun slot hslot => by
    rw [JsMap.mem_iff_get hfits.nodup, hkey] at hslot
    cases hslot
  have hout : ∀ i o' k, (t.addClaim o key .new).Outstanding i o' k ↔
      s.Outstanding i o' k ∨ i = s.claims.length ∧ o = o' ∧ key = k := by
    intro i o' k
    unfold Outstanding
    rw [claimed_addClaim]
    constructor
    · rintro ⟨hold | ⟨hi, ho, hk, -⟩, hnone⟩
      · exact .inl ⟨hold, hnone⟩
      · exact .inr ⟨hi, ho, hk⟩
    · rintro (hold | ⟨rfl, ho, hk⟩)
      · exact ⟨.inl hold.1, hold.2⟩
      · exact ⟨.inr ⟨rfl, ho, hk, rfl⟩, h.next⟩
  have hacc : ∀ o' k time, (t.addClaim o key .new).AcceptedAt o' k time ↔ s.AcceptedAt o' k time :=
    fun _ _ _ => acceptedAt_addClaim (s := t) h.next
  refine ⟨fun o' => ?_, fun o' k time hk => h.past o' k time ((hacc o' k time).1 hk),
    fun j o' k hj => ?_, fun i j hj => length_addClaim ▸ Nat.lt_succ_of_lt (h.listed i j hj),
    fresh_addClaim (s := t) h.fresh⟩
  · by_cases ho : o' = o
    · subst ho
      rw [show (t.addClaim o' key .new).slots o' = t.slots o' from rfl, ht, slots_setSlots_self]
      refine ⟨JsMap.nodup_keys_set hfits.nodup, fun k time i hslot => ?_, fun i k hi => ?_,
        fun k time hslot => ?_⟩
      · rw [hset] at hslot
        split_ifs at hslot with hk
        · obtain ⟨-, rfl⟩ := SendSlot.inFlight.inj hslot
          exact (hout _ _ _).2 (.inr ⟨rfl, rfl, hk.symm⟩)
        · exact (hout _ _ _).2 (.inl (hfits.outstanding k time i hslot))
      · rcases (hout i o' k).1 hi with hold | ⟨rfl, -, rfl⟩
        · obtain ⟨time, hslot⟩ := hfits.inFlight i k hold
          refine ⟨time, (hset _ _).2 ?_⟩
          rw [if_neg fun hk => hnokey _ (hk ▸ hslot)]
          exact hslot
        · exact ⟨s.clock, (hset _ _).2 (by rw [if_pos rfl])⟩
      · rw [hset] at hslot
        split_ifs at hslot
        obtain ⟨hat, hlast⟩ := hfits.accepted k time hslot
        exact ⟨(hacc _ _ _).2 hat, fun t' ht' => hlast t' ((hacc _ _ _).1 ht')⟩
    · rw [show (t.addClaim o key .new).slots o' = t.slots o' from rfl, ht, slots_setSlots_of_ne ho]
      refine (h.fits o').congr (fun i k => ?_) (hacc o')
      rw [hout, or_iff_left fun hnew => ho hnew.2.1.symm]
  · have hold : s.Waiting j o' k := ⟨(claimed_addClaim.1 hj.1).resolve_right (by simp), hj.2⟩
    obtain ⟨i, hi, hmem⟩ := h.waits j o' k hold
    exact ⟨i, (hout i o' k).2 (.inl hi), hmem⟩

lemma settle_of_outstanding (hi : s.Outstanding i o key) (result : UserSendAcceptance) :
    s.settle i result = { s.setSlots o (s.settledSlots o key i result) with
      settled := Function.update s.settled i (some (result, s.clock)) }.wake i result := by
  obtain ⟨hclaim, hnone⟩ := hi
  obtain ⟨⟨o', key', now, answer⟩, hget, heq⟩ := Option.map_eq_some_iff.1 hclaim
  obtain ⟨rfl, rfl, rfl⟩ : o' = o ∧ key' = key ∧ answer = .new := by simpa using heq
  rw [settle, hget, hnone]

lemma settle_cases (s : UserSendDedupe) (i : ℕ) (result : UserSendAcceptance) :
    s.settle i result = s ∨ ∃ o key, s.Outstanding i o key := by
  unfold settle
  split
  case h_1 o key now hget hnone => exact .inr ⟨o, key, by rw [Claimed, hget]; rfl, hnone⟩
  case h_2 => exact .inl rfl

lemma mem_settledSlots (h : s.Sound) (hi : s.Outstanding i o key) (result : UserSendAcceptance)
    (k : JsString) (slot : SendSlot) :
    (k, slot) ∈ s.settledSlots o key i result ↔
      if k = key then result = .ok ∧ slot = .accepted s.clock else (k, slot) ∈ s.slots o := by
  have hnodup := (h.fits o).nodup
  obtain ⟨t, hslot⟩ := (h.fits o).inFlight i key hi
  have hget := (JsMap.mem_iff_get hnodup).1 hslot
  unfold settledSlots
  rw [hget]
  simp only [if_true]
  cases result with
  | ok =>
    rw [JsMap.mem_iff_get (JsMap.nodup_keys_set hnodup), JsMap.get_set]
    split_ifs
    · simp [eq_comm]
    · exact (JsMap.mem_iff_get hnodup).symm
  | refused status code message =>
    rw [JsMap.mem_delete]
    split_ifs with hk
    · simp [hk]
    · simp [hk]

lemma nodup_settledSlots (h : s.Sound) (result : UserSendAcceptance) :
    ((s.settledSlots o key i result).map Prod.fst).Nodup := by
  have hnodup := (h.fits o).nodup
  unfold settledSlots
  split
  · split_ifs
    · cases result with
      | ok => exact JsMap.nodup_keys_set hnodup
      | refused status code message => exact JsMap.nodup_keys_delete hnodup
    · exact hnodup
  · exact hnodup

lemma outstanding_settle (hi : s.Outstanding i o key) (result : UserSendAcceptance) {j : ℕ} :
    (s.settle i result).Outstanding j o' key' ↔ s.Outstanding j o' key' ∧ j ≠ i := by
  rw [settle_of_outstanding hi]
  unfold Outstanding
  by_cases hji : j = i
  · subst hji
    simp [wake]
  · simp [wake, hji, Claimed, setSlots]

lemma acceptedAt_settle (hi : s.Outstanding i o key) (result : UserSendAcceptance) {t : ℤ} :
    (s.settle i result).AcceptedAt o' key' t ↔
      s.AcceptedAt o' key' t ∨ o = o' ∧ key = key' ∧ result = .ok ∧ s.clock = t := by
  rw [settle_of_outstanding hi]
  constructor
  · rintro ⟨j, hj, hsettled⟩
    by_cases hji : j = i
    · subst hji
      obtain ⟨ho, hk, -⟩ := hi.1.unique hj
      have hpair : some (result, s.clock) = some (UserSendAcceptance.ok, t) := by
        simpa [wake] using hsettled
      obtain ⟨hr, ht⟩ := Prod.mk.inj (Option.some.inj hpair)
      exact .inr ⟨ho, hk, hr, ht⟩
    · exact .inl ⟨j, hj, by simpa [wake, hji] using hsettled⟩
  · rintro (⟨j, hj, hsettled⟩ | ⟨rfl, rfl, rfl, rfl⟩)
    · have hji : j ≠ i := by
        rintro rfl
        exact absurd (hi.2.symm.trans hsettled) nofun
      exact ⟨j, hj, by simpa [wake, hji] using hsettled⟩
    · exact ⟨i, hi.1, by simp [wake]⟩

lemma waiting_settle (hi : s.Outstanding i o key) (result : UserSendAcceptance) {j : ℕ} :
    (s.settle i result).Waiting j o' key' ↔ s.Waiting j o' key' ∧ j ∉ s.waiters i := by
  rw [settle_of_outstanding hi]
  unfold Waiting
  by_cases hj : j ∈ s.waiters i
  · simp [wake, hj, setSlots]
  · simp [wake, hj, Claimed, setSlots]

/-- A claim that is settled. -/
lemma Sound.settle (h : s.Sound) (i : ℕ) (result : UserSendAcceptance) :
    (s.settle i result).Sound := by
  obtain heq | ⟨o, key, hi⟩ := settle_cases s i result
  · rw [heq]
    exact h
  have hslots : (s.settle i result).slots =
      Function.update s.slots o (s.settledSlots o key i result) := by
    rw [settle_of_outstanding hi]
    rfl
  refine ⟨fun o' => ?_, fun o' k t ht => ?_, fun j o' k hj => ?_, fun i' j hj => ?_, fun n hn => ?_⟩
  · rw [hslots]
    by_cases ho : o' = o
    · subst ho
      rw [Function.update_self]
      refine ⟨nodup_settledSlots h result, fun k t j hslot => ?_, fun j k hj => ?_,
        fun k t hslot => ?_⟩
      · rw [mem_settledSlots h hi] at hslot
        split_ifs at hslot with hk
        · exact absurd hslot.2 nofun
        · have hj := (h.fits o').outstanding k t j hslot
          refine (outstanding_settle hi result).2 ⟨hj, ?_⟩
          rintro rfl
          exact hk (hj.1.unique hi.1).2.1
      · obtain ⟨hold, hji⟩ := (outstanding_settle hi result).1 hj
        obtain ⟨t, hslot⟩ := (h.fits o').inFlight j k hold
        refine ⟨t, (mem_settledSlots h hi result k _).2 ?_⟩
        rw [if_neg fun hk : k = key => hji (h.exclusive (hk ▸ hold) hi)]
        exact hslot
      · rw [mem_settledSlots h hi] at hslot
        split_ifs at hslot with hk
        · obtain ⟨hok, hslot⟩ := hslot
          cases hslot
          refine ⟨(acceptedAt_settle hi result).2 (.inr ⟨rfl, hk.symm, hok, rfl⟩), fun t' ht' => ?_⟩
          rcases (acceptedAt_settle hi result).1 ht' with hold | ⟨-, -, -, rfl⟩
          · exact h.past o' k t' hold
          · exact Int.le_refl _
        · obtain ⟨hat, hlast⟩ := (h.fits o').accepted k t hslot
          refine ⟨(acceptedAt_settle hi result).2 (.inl hat), fun t' ht' => ?_⟩
          rcases (acceptedAt_settle hi result).1 ht' with hold | ⟨-, hkey, -⟩
          · exact hlast t' hold
          · exact absurd hkey.symm hk
    · rw [Function.update_of_ne ho]
      refine (h.fits o').congr (fun j k => ?_) fun k t => ?_
      · rw [outstanding_settle hi, and_iff_left_iff_imp]
        rintro hj rfl
        exact ho (hj.1.unique hi.1).1
      · rw [acceptedAt_settle hi, or_iff_left fun hnew => ho hnew.1.symm]
  · have hclock : (s.settle i result).clock = s.clock := by
      rw [settle_of_outstanding hi]
      rfl
    rw [hclock]
    rcases (acceptedAt_settle hi result).1 ht with hold | ⟨-, -, -, rfl⟩
    · exact h.past o' k t hold
    · exact Int.le_refl _
  · obtain ⟨hold, hnot⟩ := (waiting_settle hi result).1 hj
    obtain ⟨i', hi', hmem⟩ := h.waits j o' k hold
    refine ⟨i', (outstanding_settle hi result).2 ⟨hi', ?_⟩, ?_⟩
    · rintro rfl
      exact hnot hmem
    · rw [settle_of_outstanding hi]
      exact hmem
  · rw [settle_of_outstanding hi] at hj ⊢
    exact h.listed i' j hj
  · have hlen : s.claims.length ≤ n := by
      rw [settle_of_outstanding hi] at hn
      exact hn
    obtain ⟨hsettled, houtcome⟩ := h.fresh n hlen
    have hni : n ≠ i := fun hni => absurd hi.1.lt (Nat.not_lt.2 (hni ▸ hlen))
    have hnot : n ∉ s.waiters i := fun hmem => absurd (h.listed i n hmem) (Nat.not_lt.2 hlen)
    rw [settle_of_outstanding hi]
    constructor
    · simpa [wake, hni] using hsettled
    · simpa [wake, hnot] using houtcome

lemma claim_cases (s : UserSendDedupe) (maxPerAgent : ℕ) (ttlMs : ℤ) (agentId key : JsString) :
    let o := s.owner agentId
    let slots := prune maxPerAgent ttlMs s.clock (s.slots o)
    (∃ t, JsMap.get slots key = some (.accepted t) ∧
      s.claim maxPerAgent ttlMs agentId key = (s.setSlots o slots).addClaim o key .accepted) ∨
    (∃ t prior, JsMap.get slots key = some (.inFlight t prior) ∧
      s.claim maxPerAgent ttlMs agentId key =
        ((s.setSlots o slots).addWaiter prior).addClaim o key .inFlight) ∨
    (JsMap.get slots key = none ∧
      s.claim maxPerAgent ttlMs agentId key =
        (s.setSlots o (JsMap.set slots key (.inFlight s.clock s.claims.length))).addClaim o key
          .new) := by
  dsimp only
  unfold claim
  dsimp only
  cases hget : JsMap.get (UserSendDedupe.prune maxPerAgent ttlMs s.clock
      (s.slots (s.owner agentId))) key with
  | none => exact .inr (.inr ⟨rfl, rfl⟩)
  | some slot =>
    cases slot with
    | accepted t => exact .inl ⟨t, rfl, rfl⟩
    | inFlight t prior => exact .inr (.inl ⟨t, prior, rfl, rfl⟩)

lemma Sound.claim (h : s.Sound) (maxPerAgent : ℕ) (ttlMs : ℤ) (agentId key : JsString) :
    (s.claim maxPerAgent ttlMs agentId key).Sound := by
  have hfits := (h.fits (s.owner agentId)).prune maxPerAgent ttlMs s.clock
  have hset := h.setSlots hfits
  rcases claim_cases s maxPerAgent ttlMs agentId key with
    ⟨t, -, heq⟩ | ⟨t, prior, hget, heq⟩ | ⟨hget, heq⟩
  · rw [heq]
    exact hset.addAccepted _ _
  · rw [heq]
    exact hset.addWaiter (hfits.outstanding _ t prior (JsMap.mem_of_get hget))
  · rw [heq]
    exact h.addNew hfits hget

end Operations

/-! ## Runs -/

section Runs

variable {s : UserSendDedupe} {maxPerAgent : ℕ} {ttlMs : ℤ}

/-- **Every event keeps slots, claims and waiters together.** -/
theorem sound_step (h : s.Sound) (event : SendDedupeEvent) :
    (s.step maxPerAgent ttlMs event).Sound := by
  cases event with
  | elapse ms =>
    refine ⟨fun o => (h.fits o).congr (fun _ _ => Iff.rfl) fun _ _ => Iff.rfl, fun o key t ht => ?_,
      h.waits, h.listed, h.fresh⟩
    exact Int.le_trans (h.past o key t ht) (Int.le_add_of_nonneg_right (Int.natCast_nonneg ms))
  | claim agentId key => exact h.claim maxPerAgent ttlMs agentId key
  | settle claim result => exact h.settle claim result
  | forget agentId =>
    exact ⟨fun o => (h.fits o).congr (fun _ _ => Iff.rfl) fun _ _ => Iff.rfl, h.past, h.waits,
      h.listed, h.fresh⟩

lemma sound_start (clock : ℤ) : (start clock).Sound where
  fits _ :=
    { nodup := List.nodup_nil
      outstanding := fun _ _ _ hslot => absurd hslot List.not_mem_nil
      inFlight := fun _ _ hi => absurd hi.1.lt (Nat.not_lt_zero _)
      accepted := fun _ _ hslot => absurd hslot List.not_mem_nil }
  past _ _ _ ht := absurd ht.choose_spec.1.lt (Nat.not_lt_zero _)
  waits _ _ _ hj := absurd hj.1.lt (Nat.not_lt_zero _)
  listed _ _ hj := absurd hj List.not_mem_nil
  fresh _ _ := ⟨rfl, rfl⟩

lemma Sound.deduplicates_iff (h : s.Sound) : s.Deduplicates ttlMs ↔ s.Recent ttlMs := by
  refine ⟨fun hs => hs.recent, fun hrecent => ⟨hrecent, fun i j o key hi hj => h.exclusive hi hj,
    fun j o key hj => ?_, fun i j o key result hi hj => ?_⟩⟩
  · obtain ⟨i, hi, -⟩ := h.waits j o key hj
    exact ⟨i, hi⟩
  · obtain ⟨i', hi', hmem⟩ := h.waits j o key hj
    obtain rfl := h.exclusive hi hi'
    rw [settle_of_outstanding hi]
    simp [wake, hmem, hj.2]

lemma recent_addClaim (hnext : s.settled s.claims.length = none) {o : SendOwner} {key : JsString}
    {answer : DedupeClaim} : (s.addClaim o key answer).Recent ttlMs ↔ s.Recent ttlMs ∧
      (answer = .accepted → ∃ t, s.AcceptedAt o key t ∧ s.clock - ttlMs ≤ t ∧ t ≤ s.clock) := by
  have hclaims : (s.addClaim o key answer).claims = s.claims ++ [⟨o, key, s.clock, answer⟩] := rfl
  unfold Recent
  simp only [hclaims, List.forall_mem_append, List.forall_mem_singleton, acceptedAt_addClaim hnext]

lemma recent_settle (h : s.Recent ttlMs) (i : ℕ) (result : UserSendAcceptance) :
    (s.settle i result).Recent ttlMs := by
  obtain heq | ⟨o, key, hi⟩ := settle_cases s i result
  · rw [heq]
    exact h
  · intro c hc hanswer
    have hold : c ∈ s.claims := by
      rw [settle_of_outstanding hi] at hc
      exact hc
    obtain ⟨t, hat, hrange⟩ := h c hold hanswer
    exact ⟨t, (acceptedAt_settle hi result).2 (.inl hat), hrange⟩

/-- A claim keeps "accepted" recent exactly when the walk reaches the slot of its key, should that
be too old.

**Proof sketch.** Only a claim that is answered "accepted" matters. Its slot has the time of the
last accepted send of the key, so the answer is right exactly when the slot is not too old; and a
slot that is too old is still there exactly when the walk stopped in front of it. -/
lemma recent_claim (h : s.Sound) (hrecent : s.Recent ttlMs) (agentId key : JsString) :
    (s.claim maxPerAgent ttlMs agentId key).Recent ttlMs ↔
      s.ReachesExpired maxPerAgent ttlMs (.claim agentId key) := by
  set o := s.owner agentId with ho
  have hfits := h.fits o
  have hpruned := hfits.prune maxPerAgent ttlMs s.clock
  -- which of the slots that are too old the walk leaves
  have hleft : s.ReachesExpired maxPerAgent ttlMs (.claim agentId key) ↔ ∀ t, t < s.clock - ttlMs →
      (key, .accepted t) ∉ UserSendDedupe.prune maxPerAgent ttlMs s.clock (s.slots o) := by
    constructor
    · intro hreach t ht hmem
      obtain ⟨front, back, hsplit⟩ := List.append_of_mem ((pruneFrom_sublist _ _).subset hmem)
      have hpass := hreach front t back hsplit ht
      rw [← ho] at hpass
      rw [UserSendDedupe.prune, hsplit, mem_pruneFrom_iff ht (hsplit ▸ hfits.nodup),
        ← hsplit] at hmem
      exact hmem hpass
    · intro hnone front t back hsplit ht
      by_contra hstops
      refine hnone t ht ?_
      rw [← ho] at hsplit hstops
      rw [UserSendDedupe.prune, hsplit, mem_pruneFrom_iff ht (hsplit ▸ hfits.nodup), ← hsplit]
      exact hstops
  rw [hleft]
  have hslot : ∀ slot, JsMap.get (UserSendDedupe.prune maxPerAgent ttlMs s.clock (s.slots o)) key =
      some slot ↔ (key, slot) ∈ UserSendDedupe.prune maxPerAgent ttlMs s.clock (s.slots o) :=
    fun slot => (JsMap.mem_iff_get hpruned.nodup).symm
  rcases claim_cases s maxPerAgent ttlMs agentId key with
    ⟨t, hget, heq⟩ | ⟨t, prior, hget, heq⟩ | ⟨hget, heq⟩
  · have hsame : (s.setSlots o (UserSendDedupe.prune maxPerAgent ttlMs s.clock (s.slots o))).Recent
        ttlMs := hrecent
    obtain ⟨hat, hlast⟩ := hpruned.accepted key t ((hslot _).1 hget)
    rw [heq, recent_addClaim (h.setSlots hpruned).next, and_iff_right hsame]
    constructor
    · intro hnew t' ht' hmem
      obtain rfl : t' = t := by
        have := ((hslot _).2 hmem).symm.trans hget
        cases this
        rfl
      obtain ⟨u, hu, hge, -⟩ := hnew rfl
      have := hlast u hu
      rw [clock_setSlots] at hge
      omega
    · intro hnone _
      refine ⟨t, hat, ?_, h.past o key t hat⟩
      by_contra hold
      exact hnone t (Int.not_le.1 hold) ((hslot _).1 hget)
  · have hsame : ((s.setSlots o (UserSendDedupe.prune maxPerAgent ttlMs s.clock
        (s.slots o))).addWaiter prior).Recent ttlMs := hrecent
    rw [heq, recent_addClaim (s := (s.setSlots o _).addWaiter prior) h.next, and_iff_right hsame]
    refine iff_of_true nofun fun t' _ hmem => ?_
    have := ((hslot _).2 hmem).symm.trans hget
    cases this
  · have hsame : (s.setSlots o (JsMap.set (UserSendDedupe.prune maxPerAgent ttlMs s.clock
        (s.slots o)) key (.inFlight s.clock s.claims.length))).Recent ttlMs := hrecent
    rw [heq, recent_addClaim (s := s.setSlots o _) h.next, and_iff_right hsame]
    refine iff_of_true nofun fun t' _ hmem => ?_
    have := ((hslot _).2 hmem).symm.trans hget
    cases this

/-- **Member sends are deduplicated** in every state of a run exactly when every claim of the run
whose slot is too old is reached by the walk: from the first slot of the map on, every slot in front
of it is too old as well, or met while the map is above its bound. -/
theorem sends_deduplicated (maxPerAgent : ℕ) (ttlMs clock : ℤ) (events : List SendDedupeEvent) :
    (∀ n, (Machine.run (step maxPerAgent ttlMs) (start clock) (events.take n)).Deduplicates ttlMs) ↔
      Machine.Along (step maxPerAgent ttlMs) (ReachesExpired maxPerAgent ttlMs) (start clock)
        events := by
  have hsound : ∀ n, (Machine.run (step maxPerAgent ttlMs) (start clock) (events.take n)).Sound :=
    fun n => Machine.run_invariant (fun s event h => sound_step h event) (sound_start clock)
  rw [← Machine.forall_take_iff_along_of_invariant (I := Sound) (P := Recent ttlMs)
    (fun s event h => sound_step h event) ?_ (sound_start clock)
    fun c hc => absurd hc List.not_mem_nil]
  · exact forall_congr' fun n => (hsound n).deduplicates_iff
  · intro s event h hrecent
    cases event with
    | elapse ms | forget agentId => exact iff_of_true hrecent trivial
    | claim agentId key => exact recent_claim h hrecent agentId key
    | settle claim result => exact iff_of_true (recent_settle hrecent claim result) trivial

/-- Two sends; the first one is accepted a second behind the other one, whose resend comes half a
second later. -/
def refreshedFirst : List SendDedupeEvent :=
  [.claim (js "a") (js "k1"), .claim (js "a") (js "k2"), .settle 1 .ok, .elapse 1000, .settle 0 .ok,
    .elapse 500, .claim (js "a") (js "k2")]

/-- With a time to live of a second, the resend is answered "accepted" one and a half seconds behind
the only accepted send of its key: the slot of the other send is in front of it. -/
theorem sends_not_deduplicated :
    ¬ ∀ n, (Machine.run (step USER_SEND_DEDUPE_MAX_PER_AGENT 1000) (start 0)
      (refreshedFirst.take n)).Deduplicates 1000 := by
  intro hall
  have hanswer : (⟨⟨js "a", 0⟩, js "k2", 1500, .accepted⟩ : SendClaim) ∈
      (Machine.run (step USER_SEND_DEDUPE_MAX_PER_AGENT 1000) (start 0)
        (refreshedFirst.take 7)).claims := by decide +kernel
  obtain ⟨t, ⟨i, hclaim, hsettled⟩, hge, -⟩ := (hall 7).recent _ hanswer rfl
  have hlt : i < 3 := hclaim.lt
  obtain rfl | rfl | rfl : i = 0 ∨ i = 1 ∨ i = 2 := by omega
  · exact absurd hclaim (by decide +kernel)
  · cases hsettled
    exact absurd hge (by decide)
  · exact absurd hclaim (by decide +kernel)

end Runs

end Isomux.UserSendDedupe
