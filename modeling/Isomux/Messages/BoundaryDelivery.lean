import Isomux.Messages.BoundaryMoves
import Mathlib.Data.List.Flatten
import Mathlib.Data.List.Lattice
import Mathlib.Data.List.Pairwise

set_option autoImplicit false

/-!
# Delivery at tool boundaries loses and doubles nothing

An item that is queued is in one place: in the unclaimed queue, in one pending steer, or delivered.

## Main results

* `Isomux.ManagedAgent.Moves.sound` — every sequence of moves keeps the invariant.
* `Isomux.ManagedAgent.Moves.held` — a delivered item stays delivered.
* `Isomux.MessageQueues.boundaryDelivery_sound` — the places of every item in every run.
-/

namespace Isomux

namespace ManagedAgent

/-! ## The places of an item -/

variable (a : ManagedAgent) (r : MessageRef)

def InQueue : Prop := r ∈ refs a.unclaimedQueue

def InSteer : Prop := r ∈ pendingRefs a.pendingSteers

/-- The installed session holds the item, or it left the queue: no flush and no other session gets
it. -/
def Held : Prop := r ∈ a.drainable ∨ r ∉ refs a.messageQueue

/-- The item is in the chat as delivered, and the installed session holds it, or it left the
queue. -/
def IsDelivered : Prop :=
  r ∈ a.delivered.map (·.ref) ∧ a.Held r

def ExactlyOne (p q r : Prop) : Prop := p ∧ ¬q ∧ ¬r ∨ ¬p ∧ q ∧ ¬r ∨ ¬p ∧ ¬q ∧ r

/-! ## The invariant -/

/-- The claim of an agent agrees with its queue and its chat. -/
structure ClaimSound (a : ManagedAgent) (claim : BoundaryClaim) : Prop where
  held : ∀ r ∈ claim.items, r ∈ refs a.messageQueue
  offered : ∀ e ∈ claim.pending, ∀ m ∈ e.2, m ∈ a.messageQueue ∧ m.ref ∈ claim.items
  apart : (pendingRefs claim.pending).Nodup
  keys : (claim.pending.map Prod.fst).Nodup
  logged : ∀ r ∈ claim.items, r ∉ pendingRefs claim.pending → r ∈ a.delivered.map (·.ref)

structure Sound (a : ManagedAgent) : Prop where
  distinct : (refs a.messageQueue).Nodup
  claim : ∀ claim, a.boundaryClaim = some claim → a.ClaimSound claim

/-! ## Pending steers -/

section Pending

variable {pending : JsMap ℕ (List QueuedMessage)} {k : ℕ} {items : List QueuedMessage}
  {r : MessageRef}

lemma mem_pendingRefs : r ∈ pendingRefs pending ↔ ∃ e ∈ pending, r ∈ refs e.2 := by
  simp [pendingRefs]

lemma eq_of_key (hkeys : (pending.map Prod.fst).Nodup) {e e' : ℕ × List QueuedMessage}
    (he : e ∈ pending) (he' : e' ∈ pending) (hkey : e.1 = e'.1) : e = e' :=
  List.inj_on_of_nodup_map hkeys he he' hkey

lemma eq_of_item (hapart : (pendingRefs pending).Nodup) {e e' : ℕ × List QueuedMessage}
    (he : e ∈ pending) (he' : e' ∈ pending) (hr : r ∈ refs e.2) (hr' : r ∈ refs e'.2) : e = e' := by
  by_contra hne
  have hsymm : Std.Symm (Function.onFun List.Disjoint
      fun e : ℕ × List QueuedMessage => refs e.2) := ⟨fun _ _ h => List.Disjoint.symm h⟩
  exact (List.nodup_flatMap.mp hapart).2.forall he he' hne hr hr'

lemma mem_pendingRefs_delete (hkeys : (pending.map Prod.fst).Nodup)
    (hapart : (pendingRefs pending).Nodup) (h : (k, items) ∈ pending) :
    r ∈ pendingRefs (JsMap.delete pending k) ↔ r ∈ pendingRefs pending ∧ r ∉ refs items := by
  simp only [mem_pendingRefs, JsMap.mem_delete]
  constructor
  · rintro ⟨e, ⟨he, hkey⟩, hr⟩
    refine ⟨⟨e, he, hr⟩, fun hitems => hkey ?_⟩
    rw [eq_of_item hapart he h hr hitems]
  · rintro ⟨⟨e, he, hr⟩, hitems⟩
    refine ⟨e, ⟨he, fun hkey => hitems ?_⟩, hr⟩
    rwa [eq_of_key hkeys he h hkey] at hr

lemma pendingRefs_delete_sublist :
    (pendingRefs (JsMap.delete pending k)).Sublist (pendingRefs pending) :=
  List.filter_sublist.flatMap _

end Pending

/-! ## What is drained, and what is not -/

section Places

variable {a : ManagedAgent} {claim : BoundaryClaim} {r : MessageRef}

lemma pendingSteers_of_live (hclaim : a.boundaryClaim = some claim)
    (hlive : some claim.session = a.turn.session) : a.pendingSteers = claim.pending := by
  simp [pendingSteers, dropStaleClaim_boundaryClaim_eq_some.mpr ⟨hclaim, hlive⟩]

lemma mem_drainable :
    r ∈ a.drainable ↔ ∃ claim, a.boundaryClaim = some claim ∧
      some claim.session = a.turn.session ∧ r ∈ claim.items ∧ r ∉ pendingRefs claim.pending := by
  unfold drainable
  rw [List.mem_filter, mem_liveClaimed]
  constructor
  · rintro ⟨⟨claim, hclaim, hlive, hr⟩, hnot⟩
    rw [pendingSteers_of_live hclaim hlive] at hnot
    refine ⟨claim, hclaim, hlive, hr, fun hmem => ?_⟩
    obtain ⟨e, he, hre⟩ := mem_pendingRefs.mp hmem
    exact of_decide_eq_true hnot e he hre
  · rintro ⟨claim, hclaim, hlive, hr, hnot⟩
    refine ⟨⟨claim, hclaim, hlive, hr⟩, decide_eq_true fun e he hre => hnot ?_⟩
    rw [pendingSteers_of_live hclaim hlive] at he
    exact mem_pendingRefs.mpr ⟨e, he, hre⟩

lemma inSteer_iff :
    a.InSteer r ↔ ∃ claim, a.boundaryClaim = some claim ∧
      some claim.session = a.turn.session ∧ r ∈ pendingRefs claim.pending := by
  unfold InSteer
  constructor
  · intro hr
    unfold pendingSteers at hr
    split at hr
    · rename_i claim h
      obtain ⟨hclaim, hlive⟩ := dropStaleClaim_boundaryClaim_eq_some.mp h
      exact ⟨claim, hclaim, hlive, hr⟩
    · simp [pendingRefs] at hr
  · rintro ⟨claim, hclaim, hlive, hr⟩
    rwa [pendingSteers_of_live hclaim hlive]

lemma inQueue_iff : a.InQueue r ↔ r ∈ refs a.messageQueue ∧ r ∉ a.liveClaimed := by
  unfold InQueue refs
  simp only [List.mem_map, mem_unclaimedQueue]
  constructor
  · rintro ⟨m, ⟨hm, hnot⟩, rfl⟩
    exact ⟨⟨m, hm, rfl⟩, hnot⟩
  · rintro ⟨⟨m, hm, rfl⟩, hnot⟩
    exact ⟨m, ⟨hm, hnot⟩, rfl⟩

/-- An item of the chat or of the queue is in exactly one place. -/
lemma Sound.exactlyOne (h : a.Sound) (hr : r ∈ refs a.messageQueue ∨ r ∈ a.delivered.map (·.ref)) :
    ExactlyOne (a.InQueue r) (a.InSteer r) (a.IsDelivered r) := by
  by_cases hqueue : r ∈ refs a.messageQueue
  · by_cases hclaimed : r ∈ a.liveClaimed
    · have hnot : ¬ a.InQueue r := fun hin => (inQueue_iff.mp hin).2 hclaimed
      obtain ⟨claim, hclaim, hlive, hitem⟩ := mem_liveClaimed.mp hclaimed
      by_cases hpending : r ∈ pendingRefs claim.pending
      · refine .inr (.inl ⟨hnot, inSteer_iff.mpr ⟨claim, hclaim, hlive, hpending⟩, ?_⟩)
        rintro ⟨-, hdrain | hgone⟩
        · obtain ⟨claim', hclaim', -, -, hfree⟩ := mem_drainable.mp hdrain
          obtain rfl : claim = claim' := Option.some.inj (hclaim.symm.trans hclaim')
          exact hfree hpending
        · exact hgone hqueue
      · refine .inr (.inr ⟨hnot, fun hsteer => ?_, (h.claim claim hclaim).logged r hitem hpending,
          .inl (mem_drainable.mpr ⟨claim, hclaim, hlive, hitem, hpending⟩)⟩)
        obtain ⟨claim', hclaim', -, hpending'⟩ := inSteer_iff.mp hsteer
        obtain rfl : claim = claim' := Option.some.inj (hclaim.symm.trans hclaim')
        exact hpending hpending'
    · refine .inl ⟨inQueue_iff.mpr ⟨hqueue, hclaimed⟩, fun hsteer => hclaimed ?_, ?_⟩
      · obtain ⟨claim, hclaim, hlive, hpending⟩ := inSteer_iff.mp hsteer
        obtain ⟨e, he, hre⟩ := mem_pendingRefs.mp hpending
        obtain ⟨m, hm, rfl⟩ := List.mem_map.mp hre
        exact mem_liveClaimed.mpr
          ⟨claim, hclaim, hlive, ((h.claim claim hclaim).offered e he m hm).2⟩
      · rintro ⟨-, hdrain | hgone⟩
        · obtain ⟨claim, hclaim, hlive, hitem, -⟩ := mem_drainable.mp hdrain
          exact hclaimed (mem_liveClaimed.mpr ⟨claim, hclaim, hlive, hitem⟩)
        · exact hgone hqueue
  · refine .inr (.inr ⟨fun hin => hqueue (inQueue_iff.mp hin).1, fun hsteer => hqueue ?_,
      hr.resolve_left hqueue, .inr hqueue⟩)
    obtain ⟨claim, hclaim, -, hpending⟩ := inSteer_iff.mp hsteer
    obtain ⟨e, he, hre⟩ := mem_pendingRefs.mp hpending
    obtain ⟨m, hm, rfl⟩ := List.mem_map.mp hre
    exact List.mem_map_of_mem ((h.claim claim hclaim).offered e he m hm).1

end Places

/-! ## What a move keeps -/

section Invariant

variable {fresh : Option MessageRef} {steer : Option ℕ} {a a' : ManagedAgent}
  {claim : BoundaryClaim} {r : MessageRef}

lemma Sound.claimable (h : a.Sound) (hclaim : a.Claimable claim) : a.ClaimSound claim := by
  rcases hclaim.2 with hsome | ⟨-, hitems, hpending⟩
  · exact h.claim claim hsome
  · constructor <;> simp [hitems, hpending, pendingRefs]

lemma not_mem_unclaimed (hclaim : a.Claimable claim) (hr : r ∈ claim.items) :
    r ∉ refs a.unclaimedQueue := by
  rcases hclaim.2 with hsome | ⟨-, hitems, -⟩
  · exact fun hin => (inQueue_iff.mp hin).2 (mem_liveClaimed.mpr ⟨claim, hsome, hclaim.1, hr⟩)
  · simp [hitems] at hr

lemma refs_unclaimedQueue_sublist (a : ManagedAgent) :
    (refs a.unclaimedQueue).Sublist (refs a.messageQueue) :=
  List.filter_sublist.map _

lemma ClaimSound.claimed_of_pending (h : a.ClaimSound claim) (hr : r ∈ pendingRefs claim.pending) :
    r ∈ claim.items := by
  obtain ⟨e, he, hre⟩ := mem_pendingRefs.mp hr
  obtain ⟨m, hm, rfl⟩ := List.mem_map.mp hre
  exact (h.offered e he m hm).2

lemma ClaimSound.take (h : a.ClaimSound claim) :
    ClaimSound
      ({ a with
        boundaryClaim := some
          { claim with items := claim.items ++ refs a.unclaimedQueue } }.logDeliveredItems
        a.unclaimedQueue)
      { claim with items := claim.items ++ refs a.unclaimedQueue } where
  held r hr := by
    rcases List.mem_append.mp hr with hold | hnew
    · exact h.held r hold
    · exact (refs_unclaimedQueue_sublist a).subset hnew
  offered e he m hm :=
    ⟨(h.offered e he m hm).1, List.mem_append_left _ (h.offered e he m hm).2⟩
  apart := h.apart
  keys := h.keys
  logged r hr hfree := by
    simp only [logDeliveredItems, List.map_append, List.map_map, List.mem_append]
    rcases List.mem_append.mp hr with hold | hnew
    · exact .inl (h.logged r hold hfree)
    · exact .inr hnew

/-- A claim that is offered the unclaimed queue agrees with the agent. -/
lemma ClaimSound.offer {k : ℕ} (h : a.ClaimSound claim) (hdistinct : (refs a.messageQueue).Nodup)
    (hclaim : a.Claimable claim) (hnew : ∀ e ∈ claim.pending, e.1 ≠ k) (b : ManagedAgent)
    (hqueue : b.messageQueue = a.messageQueue) (hlog : b.delivered = a.delivered) :
    b.ClaimSound { claim with
      items := claim.items ++ refs a.unclaimedQueue
      pending := claim.pending ++ [(k, a.unclaimedQueue)] } where
  held r hr := by
    rw [hqueue]
    rcases List.mem_append.mp hr with hold | hnew
    · exact h.held r hold
    · exact (refs_unclaimedQueue_sublist a).subset hnew
  offered e he m hm := by
    rw [hqueue]
    rcases List.mem_append.mp he with hold | hnew
    · exact ⟨(h.offered e hold m hm).1, List.mem_append_left _ (h.offered e hold m hm).2⟩
    · obtain rfl := List.mem_singleton.mp hnew
      exact ⟨(mem_unclaimedQueue.mp hm).1, List.mem_append_right _ (List.mem_map_of_mem hm)⟩
  apart := by
    have hnodup := hdistinct.sublist (refs_unclaimedQueue_sublist a)
    have happend : pendingRefs (claim.pending ++ [(k, a.unclaimedQueue)]) =
        pendingRefs claim.pending ++ refs a.unclaimedQueue := by simp [pendingRefs]
    rw [happend]
    exact h.apart.append hnodup fun r hr hr' =>
      not_mem_unclaimed hclaim (h.claimed_of_pending hr) hr'
  keys := by
    rw [List.map_append]
    refine h.keys.append (List.nodup_singleton k) ?_
    intro k' hk' hk
    obtain ⟨e, he, rfl⟩ := List.mem_map.mp hk'
    exact hnew e he (List.mem_singleton.mp hk)
  logged r hr hfree := by
    rw [hlog]
    have hpending : r ∉ pendingRefs claim.pending ∧ r ∉ refs a.unclaimedQueue := by
      simpa [pendingRefs] using hfree
    exact h.logged r ((List.mem_append.mp hr).resolve_right hpending.2) hpending.1

lemma ClaimSound.refuse {k : ℕ} {items : List QueuedMessage} (h : a.ClaimSound claim)
    (hitems : (k, items) ∈ claim.pending) (b : ManagedAgent)
    (hqueue : b.messageQueue = a.messageQueue) (hlog : b.delivered = a.delivered) :
    b.ClaimSound { claim with
      pending := JsMap.delete claim.pending k
      items := claim.items.filter fun r => r ∉ refs items } where
  held r hr := hqueue ▸ h.held r (List.mem_filter.mp hr).1
  offered e he m hm := by
    obtain ⟨hmem, hkey⟩ := JsMap.mem_delete.mp he
    have hold := h.offered e hmem m hm
    refine ⟨hqueue ▸ hold.1, List.mem_filter.mpr ⟨hold.2, decide_eq_true fun hin => hkey ?_⟩⟩
    rw [eq_of_item h.apart hmem hitems (List.mem_map_of_mem hm) hin]
  apart := h.apart.sublist pendingRefs_delete_sublist
  keys := h.keys.sublist (List.filter_sublist.map _)
  logged r hr hfree := by
    rw [hlog]
    obtain ⟨hold, hout⟩ := List.mem_filter.mp hr
    refine h.logged r hold fun hin => hfree ?_
    exact (mem_pendingRefs_delete h.keys h.apart hitems).mpr ⟨hin, of_decide_eq_true hout⟩

lemma ClaimSound.record {k : ℕ} {items : List QueuedMessage} (h : a.ClaimSound claim)
    (hitems : (k, items) ∈ claim.pending) (b : ManagedAgent)
    (hqueue : b.messageQueue = a.messageQueue)
    (hlog : b.delivered.map (·.ref) = a.delivered.map (·.ref) ++ refs items) :
    b.ClaimSound { claim with pending := JsMap.delete claim.pending k } where
  held r hr := hqueue ▸ h.held r hr
  offered e he m hm := by
    obtain ⟨hmem, -⟩ := JsMap.mem_delete.mp he
    exact ⟨hqueue ▸ (h.offered e hmem m hm).1, (h.offered e hmem m hm).2⟩
  apart := h.apart.sublist pendingRefs_delete_sublist
  keys := h.keys.sublist (List.filter_sublist.map _)
  logged r hr hfree := by
    rw [hlog]
    by_cases hin : r ∈ refs items
    · exact List.mem_append_right _ hin
    · refine List.mem_append_left _ (h.logged r hr fun hpending => hfree ?_)
      exact (mem_pendingRefs_delete h.keys h.apart hitems).mpr ⟨hpending, hin⟩

/-- **A move keeps the invariant.** -/
lemma Move.sound (h : a.Sound) (hmove : Move fresh steer a a') : a'.Sound := by
  cases hmove with
  | keep hsession hqueue hclaim hlog =>
    refine ⟨hqueue ▸ h.distinct, fun claim hc => ?_⟩
    have hold := h.claim claim (hclaim ▸ hc)
    exact ⟨hqueue ▸ hold.held, hqueue ▸ hold.offered, hold.apart, hold.keys, hlog ▸ hold.logged⟩
  | drop =>
    refine ⟨by simpa using h.distinct, fun claim hc => ?_⟩
    have hold := h.claim claim (dropStaleClaim_boundaryClaim_eq_some.mp hc).1
    rw [dropStaleClaim_eq]
    exact { hold with }
  | accept hfresh hnew =>
    rename_i m
    refine ⟨?_, fun claim hc => ?_⟩
    · simpa [refs, List.nodup_append, refs] using ⟨h.distinct, fun x hx heq => hnew
        (List.mem_map.mpr ⟨x, hx, heq⟩)⟩
    · have hold := h.claim claim hc
      refine ⟨fun r hr => ?_, fun e he m' hm' => ?_, hold.apart, hold.keys, hold.logged⟩
      · simpa [refs] using Or.inl (List.mem_map.mp (hold.held r hr))
      · exact ⟨List.mem_append_left _ (hold.offered e he m' hm').1, (hold.offered e he m' hm').2⟩
  | take hclaim =>
    refine ⟨h.distinct, fun claim hc => ?_⟩
    obtain rfl := Option.some.inj hc
    exact (h.claimable hclaim).take
  | offer hclaim hsteer hnew =>
    refine ⟨h.distinct, fun claim hc => ?_⟩
    obtain rfl := Option.some.inj hc
    exact (h.claimable hclaim).offer h.distinct hclaim hnew _ rfl rfl
  | refuse hclaim hitems =>
    refine ⟨h.distinct, fun claim hc => ?_⟩
    obtain rfl := Option.some.inj hc
    exact (h.claim _ hclaim).refuse (JsMap.mem_of_get hitems) _ rfl rfl
  | record hclaim hlive hitems =>
    refine ⟨h.distinct, fun claim hc => ?_⟩
    obtain rfl := Option.some.inj hc
    exact (h.claim _ hclaim).record (JsMap.mem_of_get hitems) _ rfl
      (by simp [logDeliveredItems, refs, Function.comp_def])
  | complete =>
    exact ⟨h.distinct.sublist (List.filter_sublist.map _), fun claim hc => by simp at hc⟩

lemma Moves.sound (h : a.Sound) (hmoves : Moves fresh steer a a') : a'.Sound := by
  induction hmoves with
  | refl => exact h
  | tail _ hmove ih => exact hmove.sound ih

/-! ### Delivered items -/

/-- **A move keeps a delivered item delivered**, unless an item of its identity comes. -/
lemma Move.held (hmove : Move fresh steer a a') (hfresh : fresh ≠ some r) (hheld : a.Held r) :
    a'.Held r := by
  have hstays : ∀ b : ManagedAgent, b.messageQueue = a.messageQueue →
      (r ∈ a.drainable → r ∈ b.drainable) → b.Held r := fun b hqueue hdrain =>
    hheld.imp hdrain fun hgone => hqueue ▸ hgone
  cases hmove with
  | keep hsession hqueue hclaim hlog =>
    refine hstays a' hqueue fun hdrain => ?_
    rwa [mem_drainable, hclaim, hsession, ← mem_drainable]
  | drop =>
    refine hstays _ (by simp) fun hdrain => ?_
    obtain ⟨claim, hclaim, hlive, hitem, hfree⟩ := mem_drainable.mp hdrain
    exact mem_drainable.mpr ⟨claim, dropStaleClaim_boundaryClaim_eq_some.mpr ⟨hclaim, hlive⟩,
      by simpa using hlive, hitem, hfree⟩
  | accept hm hnew =>
    refine hheld.imp (fun hdrain => ?_) fun hgone hin => ?_
    · obtain ⟨claim, hclaim, hlive, hitem, hfree⟩ := mem_drainable.mp hdrain
      exact mem_drainable.mpr ⟨claim, hclaim, hlive, hitem, hfree⟩
    · rw [refs, List.map_append] at hin
      rcases List.mem_append.mp hin with hold | hlast
      · exact hgone hold
      · exact hfresh (hm.trans (by simpa using (List.mem_singleton.mp hlast).symm))
  | take hclaim =>
    refine hstays _ rfl fun hdrain => ?_
    obtain ⟨claim', hclaim', -, hitem, hfree⟩ := mem_drainable.mp hdrain
    obtain ⟨hlive, hsome | ⟨hnone, -, -⟩⟩ := hclaim
    · obtain rfl := Option.some.inj (hsome.symm.trans hclaim')
      exact mem_drainable.mpr ⟨_, rfl, hlive, List.mem_append_left _ hitem, hfree⟩
    · rw [hnone] at hclaim'
      cases hclaim'
  | offer hclaim hsteer hnew =>
    refine hstays _ rfl fun hdrain => ?_
    obtain ⟨claim', hclaim', -, hitem, hfree⟩ := mem_drainable.mp hdrain
    have hout := not_mem_unclaimed (r := r) hclaim
    obtain ⟨hlive, hsome | ⟨hnone, -, -⟩⟩ := hclaim
    · obtain rfl := Option.some.inj (hsome.symm.trans hclaim')
      refine mem_drainable.mpr ⟨_, rfl, hlive, List.mem_append_left _ hitem, ?_⟩
      have happend := fun h => (List.mem_append.mp h).elim hfree (hout hitem)
      simpa [pendingRefs] using happend
    · rw [hnone] at hclaim'
      cases hclaim'
  | refuse hclaim hitems =>
    refine hstays _ rfl fun hdrain => ?_
    obtain ⟨claim', hclaim', hlive, hitem, hfree⟩ := mem_drainable.mp hdrain
    obtain rfl := Option.some.inj (hclaim.symm.trans hclaim')
    refine mem_drainable.mpr ⟨_, rfl, hlive, List.mem_filter.mpr ⟨hitem, decide_eq_true ?_⟩,
      fun hin => hfree (pendingRefs_delete_sublist.subset hin)⟩
    exact fun hin => hfree (mem_pendingRefs.mpr ⟨_, JsMap.mem_of_get hitems, hin⟩)
  | record hclaim hlive hitems =>
    refine hstays _ rfl fun hdrain => ?_
    obtain ⟨claim', hclaim', hlive, hitem, hfree⟩ := mem_drainable.mp hdrain
    obtain rfl := Option.some.inj (hclaim.symm.trans hclaim')
    exact mem_drainable.mpr ⟨_, rfl, hlive, hitem,
      fun hin => hfree (pendingRefs_delete_sublist.subset hin)⟩
  | complete =>
    refine .inr fun hin => ?_
    obtain ⟨m, hm, rfl⟩ := List.mem_map.mp hin
    obtain ⟨hmem, hout⟩ := List.mem_filter.mp hm
    have hnot : m.ref ∉ a.drainable := by simpa using hout
    exact hheld.elim hnot fun hgone => hgone (List.mem_map_of_mem hmem)

lemma Moves.held (hmoves : Moves fresh steer a a') (hfresh : fresh ≠ some r) (hheld : a.Held r) :
    a'.Held r := by
  induction hmoves with
  | refl => exact hheld
  | tail _ hmove ih => exact hmove.held hfresh ih

lemma Move.logged (h : a.Sound) (hmove : Move fresh steer a a') :
    ∃ new, a'.delivered = a.delivered ++ new ∧
      ∀ r ∈ new.map (·.ref), r ∈ refs a.messageQueue ∧ a'.Held r := by
  cases hmove with
  | keep _ _ _ hlog => exact ⟨[], by simp [hlog], by simp⟩
  | drop => exact ⟨[], by simp [dropStaleClaim_eq], by simp⟩
  | accept | offer | refuse | complete => exact ⟨[], by simp, by simp⟩
  | take hclaim =>
    rename_i claim
    refine ⟨_, rfl, fun r hr => ?_⟩
    have hr' : r ∈ refs a.unclaimedQueue := by simpa [refs, Function.comp_def] using hr
    refine ⟨(refs_unclaimedQueue_sublist a).subset hr', .inl (mem_drainable.mpr
      ⟨_, rfl, hclaim.1, List.mem_append_right _ hr', fun hpending => ?_⟩)⟩
    exact not_mem_unclaimed hclaim ((h.claimable hclaim).claimed_of_pending hpending) hr'
  | record hclaim hlive hitems =>
    rename_i claim k items
    refine ⟨_, rfl, fun r hr => ?_⟩
    have hr' : r ∈ refs items := by simpa [refs, Function.comp_def] using hr
    have hsound := h.claim claim hclaim
    have hpending : r ∈ pendingRefs claim.pending :=
      mem_pendingRefs.mpr ⟨_, JsMap.mem_of_get hitems, hr'⟩
    have hitem := hsound.claimed_of_pending hpending
    refine ⟨hsound.held r hitem, .inl (mem_drainable.mpr ⟨_, rfl, hlive, hitem, fun hin => ?_⟩)⟩
    exact ((mem_pendingRefs_delete hsound.keys hsound.apart (JsMap.mem_of_get hitems)).mp hin).2 hr'

lemma Move.accounted (h : a.Sound) (hmove : Move fresh steer a a')
    (hr : r ∈ refs a.messageQueue ∨ r ∈ a.delivered.map (·.ref)) :
    r ∈ refs a'.messageQueue ∨ r ∈ a'.delivered.map (·.ref) := by
  obtain ⟨new, hlog, -⟩ := hmove.logged h
  have hgrow : r ∈ a.delivered.map (·.ref) → r ∈ a'.delivered.map (·.ref) := by
    rw [hlog, List.map_append]
    exact List.mem_append_left _
  refine hr.elim (fun hqueue => ?_) fun hin => .inr (hgrow hin)
  cases hmove with
  | keep _ hsame _ _ => exact .inl (hsame ▸ hqueue)
  | drop => exact .inl (by simpa using hqueue)
  | accept => exact .inl (by rw [refs, List.map_append]; exact List.mem_append_left _ hqueue)
  | take => exact .inl hqueue
  | offer => exact .inl hqueue
  | refuse => exact .inl hqueue
  | record => exact .inl hqueue
  | complete =>
    by_cases hdrain : r ∈ a.drainable
    · obtain ⟨claim, hclaim, -, hitem, hfree⟩ := mem_drainable.mp hdrain
      exact .inr (hgrow ((h.claim claim hclaim).logged r hitem hfree))
    · obtain ⟨m, hm, rfl⟩ := List.mem_map.mp hqueue
      exact .inl (List.mem_map_of_mem (List.mem_filter.mpr ⟨hm, decide_eq_true hdrain⟩))

lemma Moves.accounted (h : a.Sound) (hmoves : Moves fresh steer a a')
    (hr : r ∈ refs a.messageQueue ∨ r ∈ a.delivered.map (·.ref)) :
    r ∈ refs a'.messageQueue ∨ r ∈ a'.delivered.map (·.ref) := by
  induction hmoves with
  | refl => exact hr
  | tail hbefore hmove ih => exact hmove.accounted (Moves.sound h hbefore) ih

lemma Moves.logged (h : a.Sound) (hmoves : Moves none steer a a') :
    ∃ new, a'.delivered = a.delivered ++ new ∧ ∀ r ∈ new.map (·.ref), a'.Held r := by
  induction hmoves with
  | refl => exact ⟨[], by simp, by simp⟩
  | tail hbefore hmove ih =>
    obtain ⟨new, hlog, hheld⟩ := ih
    obtain ⟨new', hlog', hheld'⟩ := hmove.logged (Moves.sound h hbefore)
    refine ⟨new ++ new', by rw [hlog', hlog, List.append_assoc], fun r hr => ?_⟩
    rcases List.mem_append.mp (List.map_append ▸ hr) with hold | hnew
    · exact hmove.held (by simp) (hheld r hold)
    · exact (hheld' r hnew).2

/-! ### Identities -/

/-- A move keeps the identities below the counters, with those it draws. -/
lemma Move.below {calls steers : ℕ} (h : a.Sound) (hbelow : a.Below calls steers)
    (hmove : Move fresh steer a a') (hfresh : ∀ n, fresh = some (.accepted n) → n < calls)
    (hsteer : ∀ k, steer = some k → k < steers) : a'.Below calls steers := by
  have hlog : ∀ d ∈ a'.delivered, ∀ n, d.ref = .accepted n → n < calls := by
    obtain ⟨new, hnew, hin⟩ := hmove.logged h
    intro d hd n hn
    rcases List.mem_append.mp (hnew ▸ hd) with hold | hlast
    · exact hbelow.log d hold n hn
    · obtain ⟨m, hm, href⟩ := List.mem_map.mp (hin _ (List.mem_map_of_mem hlast)).1
      exact hbelow.queue m hm n (href.trans hn)
  cases hmove with
  | keep _ hqueue hclaim _ =>
    exact ⟨fun m hm => hbelow.queue m (hqueue ▸ hm), hlog,
      fun claim hc => hbelow.keys claim (hclaim ▸ hc)⟩
  | drop =>
    exact ⟨fun m hm => hbelow.queue m (by simpa using hm), hlog,
      fun claim hc => hbelow.keys claim (dropStaleClaim_boundaryClaim_eq_some.mp hc).1⟩
  | accept hm hnew =>
    refine ⟨fun m' hm' n hn => ?_, hlog, hbelow.keys⟩
    rcases List.mem_append.mp hm' with hold | hlast
    · exact hbelow.queue m' hold n hn
    · obtain rfl := List.mem_singleton.mp hlast
      exact hfresh n (hn ▸ hm)
  | take hclaim =>
    refine ⟨hbelow.queue, hlog, fun claim hc e he => ?_⟩
    obtain rfl := Option.some.inj hc
    rcases hclaim.2 with hsome | ⟨-, -, hnil⟩
    · exact hbelow.keys _ hsome e he
    · simp [hnil] at he
  | offer hclaim hk hnew =>
    refine ⟨hbelow.queue, hlog, fun claim hc e he => ?_⟩
    obtain rfl := Option.some.inj hc
    rcases List.mem_append.mp he with hold | hlast
    · rcases hclaim.2 with hsome | ⟨-, -, hnil⟩
      · exact hbelow.keys _ hsome e hold
      · simp [hnil] at hold
    · obtain rfl := List.mem_singleton.mp hlast
      exact hsteer _ hk
  | refuse hclaim hitems | record hclaim hlive hitems =>
    refine ⟨hbelow.queue, hlog, fun claim hc e he => ?_⟩
    obtain rfl := Option.some.inj hc
    exact hbelow.keys _ hclaim e (JsMap.mem_delete.mp he).1
  | complete =>
    exact ⟨fun m hm => hbelow.queue m (List.mem_filter.mp hm).1, hlog,
      fun claim hc => by simp at hc⟩

lemma Moves.below {calls steers : ℕ} (h : a.Sound) (hbelow : a.Below calls steers)
    (hmoves : Moves fresh steer a a') (hfresh : ∀ n, fresh = some (.accepted n) → n < calls)
    (hsteer : ∀ k, steer = some k → k < steers) : a'.Below calls steers := by
  induction hmoves with
  | refl => exact hbelow
  | tail hbefore hmove ih => exact hmove.below (Moves.sound h hbefore) ih hfresh hsteer

end Invariant

end ManagedAgent

namespace MessageQueues

open ManagedAgent

/-! ## Runs -/

variable (s : MessageQueues)

def deliverStep (e : AgentId × DeliveryEvent) : MessageQueues :=
  s.deliver e.1 e.2

def deliverAll (events : List (AgentId × DeliveryEvent)) : MessageQueues :=
  Machine.run deliverStep s events

/-- The event changes the session under an agent. -/
def ChangesSession (agentId : AgentId) : AgentId × DeliveryEvent → Prop
  | (b, .turn turn) => b = agentId ∧ ∃ a, s.agents b = some a ∧ turn.session ≠ a.turn.session
  | _ => False

def Tidy : Prop :=
  ∀ b a, s.agents b = some a → a.Sound ∧ a.Below s.calls s.steers

structure AgentStep (s s' : MessageQueues) (a a' : ManagedAgent) (sameSession : Prop) : Prop where
  sound : a'.Sound
  below : a'.Below s'.calls s'.steers
  accounted : ∀ r, r ∈ refs a.messageQueue ∨ r ∈ a.delivered.map (·.ref) →
    r ∈ refs a'.messageQueue ∨ r ∈ a'.delivered.map (·.ref)
  held : sameSession → ∀ r, (∀ n, r = .accepted n → n < s.calls) → a.Held r → a'.Held r
  logged : ∃ new, a'.delivered = a.delivered ++ new ∧ ∀ r ∈ new.map (·.ref), a'.Held r

section Step

variable {s : MessageQueues} {b agentId : AgentId} {a : ManagedAgent}

lemma sound_turn (h : a.Sound) (turn : TurnStatus) : ({ a with turn } : ManagedAgent).Sound :=
  ⟨h.distinct, fun claim hclaim => { h.claim claim hclaim with }⟩

lemma held_turn {r : MessageRef} {turn : TurnStatus} (hsame : turn.session = a.turn.session)
    (h : a.Held r) : ({ a with turn } : ManagedAgent).Held r := by
  refine h.imp_left fun hdrain => ?_
  obtain ⟨claim, hclaim, hlive, hitem, hfree⟩ := mem_drainable.mp hdrain
  exact mem_drainable.mpr ⟨claim, hclaim, hlive.trans hsame.symm, hitem, hfree⟩

/-- **One event.** -/
lemma deliver_agentStep (hs : s.Tidy) (ha : s.agents agentId = some a) (b : AgentId)
    (event : DeliveryEvent) :
    ∃ a', (s.deliver b event).agents agentId = some a' ∧
      AgentStep s (s.deliver b event) a a' (¬ s.ChangesSession agentId (b, event)) := by
  obtain ⟨hsound, hbelow⟩ := hs agentId a ha
  obtain ⟨hcalls, hsteers⟩ := deliver_counts s b event
  have hmono : a.Below (s.deliver b event).calls (s.deliver b event).steers :=
    ⟨fun m hm n hn => Nat.lt_of_lt_of_le (hbelow.queue m hm n hn) hcalls,
      fun d hd n hn => Nat.lt_of_lt_of_le (hbelow.log d hd n hn) hcalls,
      fun claim hc e he => Nat.lt_of_lt_of_le (hbelow.keys claim hc e he) hsteers⟩
  by_cases hturn : ∃ turn, event = .turn turn
  · obtain ⟨turn, rfl⟩ := hturn
    refine ⟨_, agents_withAgent _ ha, ?_⟩
    split_ifs with hb
    · refine ⟨sound_turn hsound turn, { hmono with }, fun r hr => hr,
        fun hsame r _ hheld => held_turn ?_ hheld, ⟨[], by simp, by simp⟩⟩
      by_contra hne
      exact hsame ⟨hb.symm, a, hb ▸ ha, hne⟩
    · exact ⟨hsound, hmono, fun r hr => hr, fun _ r _ hheld => hheld, ⟨[], by simp, by simp⟩⟩
  · obtain ⟨a', ha', fresh, steer, hmoves, hfresh, hsteer⟩ :=
      deliver_moves s b event (fun turn h => hturn ⟨turn, h⟩) ha hbelow
    refine ⟨a', ha', ⟨hmoves.sound hsound, hmoves.below hsound hmono (fun n hn => ?_) fun k hk => ?_,
      fun r hr => hmoves.accounted hsound hr, fun _ r hr hheld => hmoves.held (fun hf => ?_) hheld,
      ?_⟩⟩
    · obtain ⟨href, hlt, -⟩ := hfresh _ hn
      obtain rfl : n = s.calls := by simpa using href
      exact hlt
    · obtain ⟨rfl, hlt⟩ := hsteer k hk
      exact hlt
    · exact absurd (hr s.calls (hfresh r hf).1) (Nat.lt_irrefl _)
    · cases fresh with
      | none => exact hmoves.logged hsound
      | some r => exact ⟨[], by simp [(hfresh r rfl).2.2], by simp⟩

/-- An agent that is not there does not come. -/
lemma deliver_agents_none (hnone : s.agents agentId = none) (b : AgentId) (event : DeliveryEvent) :
    (s.deliver b event).agents agentId = none := by
  have hwith : ∀ f : ManagedAgent → ManagedAgent, (s.withAgent b f).agents agentId = none := by
    intro f
    unfold withAgent
    split
    · exact hnone
    · rename_i a hb
      have hne : agentId ≠ b := by
        rintro rfl
        simp [hnone] at hb
      simp [agents_setAgent, hne, hnone]
  cases event with
  | enqueue c =>
    simp only [deliver]
    rcases enqueueMessage_cases s b c with ⟨result, heq, -⟩ | ⟨a, id, hb, heq⟩
    · rw [heq]
      exact hnone
    · rw [heq]
      have hne : agentId ≠ b := by
        rintro rfl
        simp [hnone] at hb
      exact (agents_acceptMessage_of_ne c id hne).trans hnone
  | take session textFails => exact hwith _
  | push steer textFails => exact hwith _
  | answered claimId steerId ok =>
    cases ok with
    | true => exact hnone
    | false => exact hwith _
  | steerDelivered steerId => exact hwith _
  | turnCompleted now saveFails =>
    simp only [deliver]
    split
    · exact hnone
    · rename_i a hb
      have hne : agentId ≠ b := by
        rintro rfl
        simp [hnone] at hb
      exact (agents_drainBoundaryClaim_of_ne hne).trans hnone
  | turn turn => exact hwith _

lemma Tidy.deliver (hs : s.Tidy) (b : AgentId) (event : DeliveryEvent) :
    (s.deliver b event).Tidy := by
  intro agentId a' ha'
  cases ha : s.agents agentId with
  | none => simp [deliver_agents_none ha] at ha'
  | some a =>
    obtain ⟨a'', ha'', hstep⟩ := deliver_agentStep hs ha b event
    obtain rfl : a'' = a' := Option.some.inj (ha''.symm.trans ha')
    exact ⟨hstep.sound, hstep.below⟩

lemma Tidy.deliverAll (hs : s.Tidy) (events : List (AgentId × DeliveryEvent)) :
    (s.deliverAll events).Tidy :=
  Machine.run_invariant (fun _ e ht => Tidy.deliver ht e.1 e.2) hs

variable (agentId) in
lemma sound_loaded (queue : List QueuedMessage) (turn : TurnStatus)
    (dedupe : JsMap JsString ℤ) (calls steers : ℕ) :
    let a : ManagedAgent :=
      { turn, queueDedupe := dedupe
        messageQueue := (queue.mapIdx fun i m =>
          { m with ref := .loaded agentId i }).filter isValidQueuedMessage }
    a.Sound ∧ a.Below calls steers := by
  intro a
  have href : ∀ m ∈ a.messageQueue, ∃ i, m.ref = .loaded agentId i := by
    intro m hm
    obtain ⟨i, hi, rfl⟩ := List.mem_mapIdx.mp (List.mem_filter.mp hm).1
    exact ⟨i, rfl⟩
  have hnodup : (refs (queue.mapIdx fun i m => { m with ref := .loaded agentId i })).Nodup := by
    rw [refs, List.nodup_iff_injective_getElem]
    intro i j hij
    simp only [List.getElem_map, List.getElem_mapIdx, MessageRef.loaded.injEq, true_and] at hij
    exact Fin.ext hij
  refine ⟨⟨hnodup.sublist (List.filter_sublist.map _), fun claim hc => by simp [a] at hc⟩,
    fun m hm n hn => ?_, fun d hd => by simp [a] at hd, fun claim hc => by simp [a] at hc⟩
  obtain ⟨i, hi⟩ := href m hm
  simp [hi] at hn

lemma tidy_boot (file : QueueStore) (turns : AgentId → Option TurnStatus) (now : ℤ) :
    (boot file turns now).Tidy := by
  intro agentId a ha
  unfold boot at ha
  obtain ⟨turn, -, rfl⟩ := Option.map_eq_some_iff.mp ha
  have hempty := sound_loaded agentId [] turn [] 0 0
  split
  · exact hempty
  · rename_i record hrecord
    simp only [readPersistedQueueRecord, queueStore, Option.getD_none, loadMessageQueuesRaw]
      at hrecord
    cases hfile : file agentId with
    | none => simp [hfile] at hrecord
    | some stored =>
      simp only [hfile, Option.map_some] at hrecord
      split_ifs at hrecord
      · obtain rfl := Option.some.inj hrecord
        exact sound_loaded agentId stored.queue turn _ 0 0

/-! ## The result -/

lemma accounted_deliverAll {r : MessageRef} {events : List (AgentId × DeliveryEvent)}
    {a' : ManagedAgent} (hs : s.Tidy) (ha : s.agents agentId = some a)
    (hr : r ∈ refs a.messageQueue ∨ r ∈ a.delivered.map (·.ref))
    (ha' : (s.deliverAll events).agents agentId = some a') :
    r ∈ refs a'.messageQueue ∨ r ∈ a'.delivered.map (·.ref) := by
  let P : MessageQueues → Prop := fun t => t.Tidy ∧ ∃ a, t.agents agentId = some a ∧
    (r ∈ refs a.messageQueue ∨ r ∈ a.delivered.map (·.ref))
  have hstep : ∀ t e, P t → P (deliverStep t e) := by
    rintro t ⟨b, event⟩ ⟨ht, a, ha, hr⟩
    obtain ⟨a', ha', hstep⟩ := deliver_agentStep ht ha b event
    exact ⟨ht.deliver b event, a', ha', hstep.accounted r hr⟩
  obtain ⟨-, a'', ha'', hr'⟩ := Machine.run_invariant (P := P) hstep ⟨hs, a, ha, hr⟩
  obtain rfl : a'' = a' := Option.some.inj (ha''.symm.trans ha')
  exact hr'

lemma held_deliverAll {r : MessageRef} {events : List (AgentId × DeliveryEvent)}
    {a' : ManagedAgent} (hs : s.Tidy) (ha : s.agents agentId = some a) (hheld : a.Held r)
    (hr : ∀ n, r = .accepted n → n < s.calls)
    (hsame : Machine.Along deliverStep (fun t e => ¬ t.ChangesSession agentId e) s events)
    (ha' : (s.deliverAll events).agents agentId = some a') : a'.Held r := by
  let P : MessageQueues → Prop := fun t => t.Tidy ∧ (∀ n, r = .accepted n → n < t.calls) ∧
    ∃ a, t.agents agentId = some a ∧ a.Held r
  have hstep : ∀ t e, P t → ¬ t.ChangesSession agentId e → P (deliverStep t e) := by
    rintro t ⟨b, event⟩ ⟨ht, hr, a, ha, hheld⟩ hsame
    obtain ⟨a', ha', hstep⟩ := deliver_agentStep ht ha b event
    exact ⟨ht.deliver b event, fun n hn => Nat.lt_of_lt_of_le (hr n hn)
      (deliver_counts t b event).1, a', ha', hstep.held hsame r hr hheld⟩
  obtain ⟨-, -, a'', ha'', hheld'⟩ :=
    Machine.run_invariant_along (P := P) hstep ⟨hs, hr, a, ha, hheld⟩ hsame
  obtain rfl : a'' = a' := Option.some.inj (ha''.symm.trans ha')
  exact hheld'

lemma not_inQueue_of_held {r : MessageRef} (h : a.Held r) : ¬ a.InQueue r := by
  intro hin
  obtain ⟨hqueue, hfree⟩ := inQueue_iff.mp hin
  refine h.elim (fun hdrain => hfree ?_) fun hgone => hgone hqueue
  obtain ⟨claim, hclaim, hlive, hitem, -⟩ := mem_drainable.mp hdrain
  exact mem_liveClaimed.mpr ⟨claim, hclaim, hlive, hitem⟩

variable {e : ℕ × List QueuedMessage} {m : QueuedMessage}

lemma claim_of_pendingSteers (he : e ∈ a.pendingSteers) :
    ∃ claim, a.boundaryClaim = some claim ∧ some claim.session = a.turn.session ∧
      e ∈ claim.pending := by
  unfold pendingSteers at he
  split at he
  · rename_i claim h
    obtain ⟨hclaim, hlive⟩ := dropStaleClaim_boundaryClaim_eq_some.mp h
    exact ⟨claim, hclaim, hlive, he⟩
  · simp at he

lemma refused_unclaimed (h : a.Sound) {claim : BoundaryClaim} {k : ℕ}
    {items : List QueuedMessage} (hclaim : a.boundaryClaim = some claim)
    (hitems : JsMap.get claim.pending k = some items) (hm : m ∈ items) :
    m ∈ (a.releasePendingSteer claim.id k).unclaimedQueue := by
  have hqueue := ((h.claim claim hclaim).offered _ (JsMap.mem_of_get hitems) m hm).1
  refine mem_unclaimedQueue.mpr ⟨by simpa using hqueue, fun hin => ?_⟩
  simp only [releasePendingSteer, hclaim, hitems, ne_eq, not_true_eq_false, if_false,
    emitQueueUpdate, liveClaimed_dropStaleClaim] at hin
  obtain ⟨claim', hclaim', -, hitem⟩ := mem_liveClaimed.mp hin
  obtain rfl := Option.some.inj hclaim'
  exact of_decide_eq_true (List.mem_filter.mp hitem).2 (List.mem_map_of_mem hm)

/-- The items of a steer that was pending are back in the unclaimed queue, where the queue has them
and nothing is claimed. -/
lemma unclaimed_of_pending (h : a.Sound) (he : e ∈ a.pendingSteers)
    (hm : m ∈ e.2) :
    m ∈ a.messageQueue ∧ m.ref ∉ a.drainable := by
  obtain ⟨claim, hclaim, hlive, hin⟩ := claim_of_pendingSteers he
  refine ⟨((h.claim claim hclaim).offered e hin m hm).1, fun hdrain => ?_⟩
  obtain ⟨claim', hclaim', -, -, hfree⟩ := mem_drainable.mp hdrain
  obtain rfl := Option.some.inj (hclaim.symm.trans hclaim')
  exact hfree (mem_pendingRefs.mpr ⟨e, hin, List.mem_map_of_mem hm⟩)

lemma completed_unclaimed (h : a.Sound) (ha : s.agents agentId = some a) {now : ℤ}
    {saveFails : Bool} {a' : ManagedAgent}
    (ha' : (s.deliver agentId (.turnCompleted now saveFails)).agents agentId = some a')
    (he : e ∈ a.pendingSteers) (hm : m ∈ e.2) :
    m ∈ a'.unclaimedQueue := by
  obtain ⟨hqueue, hkeep⟩ := unclaimed_of_pending h he hm
  have hfree : ∀ b : ManagedAgent, b.boundaryClaim = none → m.ref ∉ b.liveClaimed := by
    intro b hb hin
    obtain ⟨claim, hclaim, -⟩ := mem_liveClaimed.mp hin
    simp [hb] at hclaim
  simp only [deliver, ha, drainBoundaryClaim] at ha'
  split_ifs at ha'
  · simp only [drainQueueItems, agents_persistQueueState, agents_setAgent, if_true,
      Option.some.injEq] at ha'
    subst ha'
    refine mem_unclaimedQueue.mpr ⟨?_, hfree _ (by simp [emitQueueUpdate, dropStaleClaim])⟩
    rw [emitQueueUpdate_messageQueue]
    exact List.mem_filter.mpr ⟨hqueue, decide_eq_true hkeep⟩
  · simp only [agents_setAgent, if_true, Option.some.injEq] at ha'
    subst ha'
    exact mem_unclaimedQueue.mpr ⟨hqueue, hfree _ rfl⟩

lemma swapped_unclaimed (h : a.Sound) (ha : s.agents agentId = some a) {turn : TurnStatus}
    (hturn : turn.session ≠ a.turn.session) {a' : ManagedAgent}
    (ha' : (s.deliver agentId (.turn turn)).agents agentId = some a')
    (he : e ∈ a.pendingSteers) (hm : m ∈ e.2) :
    m ∈ a'.unclaimedQueue := by
  obtain ⟨hqueue, -⟩ := unclaimed_of_pending h he hm
  obtain ⟨claim, hclaim, hlive, -⟩ := claim_of_pendingSteers he
  have heq := (agents_withAgent (b := agentId) (fun a => { a with turn }) ha).symm.trans ha'
  rw [if_pos rfl] at heq
  obtain rfl := Option.some.inj heq
  refine mem_unclaimedQueue.mpr ⟨hqueue, fun hin => ?_⟩
  obtain ⟨claim', hclaim', hlive', -⟩ := mem_liveClaimed.mp hin
  obtain rfl : claim = claim' := Option.some.inj (hclaim.symm.trans hclaim')
  exact hturn (hlive'.symm.trans hlive)

end Step

/-- **Delivery at tool boundaries loses and doubles nothing.** Behind any events for any agents:

* no item is in two pending steers;
* an item that was in the queue at any time is in exactly one place: the unclaimed queue, a pending
  steer, or delivered; and an accepted message is in the queue;
* an item that an event writes into the chat is never in the unclaimed queue again until the session
  changes;
* the items of a steer that is refused, that the turn ends without, or whose session is swapped, are
  in the unclaimed queue.

**Proof sketch.** Every event is a sequence of moves of one agent (`deliver_moves`), and every move
keeps the claim apart from the queue and the chat (`Move.sound`). The places follow from that
invariant, and a delivered item is held by the session or gone, which every move keeps as well. -/
theorem boundaryDelivery_sound (file : QueueStore) (turns : AgentId → Option TurnStatus) (now : ℤ)
    (events : List (AgentId × DeliveryEvent)) (agentId : AgentId) :
    let s := (boot file turns now).deliverAll events
    (∀ a, s.agents agentId = some a →
      ∀ e ∈ a.pendingSteers, ∀ e' ∈ a.pendingSteers, ∀ r ∈ refs e.2, r ∈ refs e'.2 → e = e') ∧
    (∀ earlier later a₀ a, events = earlier ++ later →
      ((boot file turns now).deliverAll earlier).agents agentId = some a₀ →
      s.agents agentId = some a →
      ∀ r ∈ refs a₀.messageQueue, ExactlyOne (a.InQueue r) (a.InSteer r) (a.IsDelivered r)) ∧
    (∀ c queued id steered declined,
      (s.enqueueMessage agentId c).2 = some (.accepted queued id steered declined) →
      ∃ a', (s.deliver agentId (.enqueue c)).agents agentId = some a' ∧
        .accepted s.calls ∈ refs a'.messageQueue) ∧
    (∀ b event later a a' a'' new,
      let s' := s.deliver b event
      s.agents agentId = some a → s'.agents agentId = some a' →
      (s'.deliverAll later).agents agentId = some a'' →
      a'.delivered = a.delivered ++ new →
      Machine.Along deliverStep (fun t e => ¬ t.ChangesSession agentId e) s' later →
      ∀ r ∈ new.map (·.ref), ¬ a''.InQueue r) ∧
    (∀ a a' claim k items, s.agents agentId = some a → a.boundaryClaim = some claim →
      JsMap.get claim.pending k = some items →
      (s.deliver agentId (.answered claim.id k false)).agents agentId = some a' →
      ∀ m ∈ items, m ∈ a'.unclaimedQueue) ∧
    (∀ a a' time saveFails, s.agents agentId = some a →
      (s.deliver agentId (.turnCompleted time saveFails)).agents agentId = some a' →
      ∀ e ∈ a.pendingSteers, ∀ m ∈ e.2, m ∈ a'.unclaimedQueue) ∧
    ∀ a a' turn, s.agents agentId = some a → turn.session ≠ a.turn.session →
      (s.deliver agentId (.turn turn)).agents agentId = some a' →
      ∀ e ∈ a.pendingSteers, ∀ m ∈ e.2, m ∈ a'.unclaimedQueue := by
  intro s
  have hboot : (boot file turns now).Tidy := tidy_boot file turns now
  have hs : s.Tidy := hboot.deliverAll events
  refine ⟨fun a ha e he e' he' r hr hr' => ?_, ?_, ?_, ?_, ?_, ?_, ?_⟩
  · obtain ⟨claim, hclaim, hlive, hin⟩ := claim_of_pendingSteers he
    rw [pendingSteers_of_live hclaim hlive] at he'
    exact eq_of_item ((hs agentId a ha).1.claim claim hclaim).apart hin he' hr hr'
  · rintro earlier later a₀ a rfl ha₀ ha r hr
    have hrun : s = ((boot file turns now).deliverAll earlier).deliverAll later :=
      Machine.run_append
    exact (hs agentId a ha).1.exactlyOne
      (accounted_deliverAll (hboot.deliverAll earlier) ha₀ (.inl hr) (hrun ▸ ha))
  · intro c queued id steered declined hres
    obtain ⟨a, ha, hin⟩ := mem_liveQueue_of_accepted hres
    cases ha' : (s.enqueueMessage agentId c).1.agents agentId with
    | none => simp [liveQueue, ha'] at hin
    | some a' =>
      rw [liveQueue, ha'] at hin
      exact ⟨a', ha', List.mem_map_of_mem hin⟩
  · intro b event later a a' a'' new s' ha ha' ha'' hlog hsame r hr
    obtain ⟨a₁, ha₁, hstep⟩ := deliver_agentStep hs ha b event
    obtain rfl : a₁ = a' := Option.some.inj (ha₁.symm.trans ha')
    obtain ⟨new', hlog', hheld⟩ := hstep.logged
    obtain rfl : new' = new := List.append_cancel_left (hlog'.symm.trans hlog)
    refine not_inQueue_of_held (held_deliverAll (hs.deliver b event) ha' (hheld r hr)
      (fun n hn => ?_) hsame ha'')
    obtain ⟨d, hd, rfl⟩ := List.mem_map.mp hr
    exact hstep.below.log d (hlog' ▸ List.mem_append_right _ hd) n hn
  · intro a a' claim k items ha hclaim hitems ha' m hm
    have heq := (agents_withAgent (b := agentId)
      (fun a => a.releasePendingSteer claim.id k) ha).symm.trans ha'
    rw [if_pos rfl] at heq
    obtain rfl := Option.some.inj heq
    exact refused_unclaimed (hs agentId a ha).1 hclaim hitems hm
  · intro a a' time saveFails ha ha' e he m hm
    exact completed_unclaimed (hs agentId a ha).1 ha ha' he hm
  · intro a a' turn ha hturn ha' e he m hm
    exact swapped_unclaimed (hs agentId a ha).1 ha hturn ha' he hm

end MessageQueues

end Isomux
