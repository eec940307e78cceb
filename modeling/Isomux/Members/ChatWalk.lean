import Isomux.Members.ChatFraming
import Mathlib.Data.List.Flatten
import Mathlib.Data.List.Sort

set_option autoImplicit false

/-!
# Walks over the pages of the members chat

A reader walks from the newest page backward, each page before the first message of the last one, and
between two pages messages are posted, changed and deleted. The posts of a store only grow, so a cursor
keeps its place, and the posts before it do not change but for new ones of an earlier month.

The store keeps an index of the pins. Whatever is appended, it has what a scan of the files finds.

## Main results

* `ChatStore.walked` — what a walk returns.
* `ChatStore.pins_step` — the index of the pins has the pinned messages.
* `ChatStore.chat_walk` — both, in every run whose lines are framed.
-/

namespace Isomux

lemma sublist_around {α : Type*} {x y x' y' : List α} {a : α}
    (h : (x ++ a :: y).Sublist (x' ++ a :: y')) (hnodup : (x' ++ a :: y').Nodup) :
    x.Sublist x' ∧ y.Sublist y' := by
  obtain ⟨-, hback, hapart⟩ := List.nodup_append.1 hnodup
  have hx' : a ∉ x' := fun hmem => hapart a hmem a List.mem_cons_self rfl
  have hy' : a ∉ y' := (List.nodup_cons.1 hback).1
  obtain ⟨l, r, heq, hl, hr⟩ := List.sublist_append_iff.1 h
  rcases List.append_eq_append_iff.1 heq with ⟨rest, rfl, hrest⟩ | ⟨rest, rfl, hrest⟩
  · cases rest with
    | nil =>
      rw [List.append_nil] at hl
      rw [show r = a :: y from hrest.symm, List.cons_sublist_cons] at hr
      exact ⟨hl, hr⟩
    | cons b rest =>
      obtain ⟨rfl, -⟩ := List.cons.inj hrest
      exact absurd (hl.subset (List.mem_append_right _ List.mem_cons_self)) hx'
  · cases rest with
    | nil =>
      rw [hrest, List.nil_append, List.cons_sublist_cons] at hr
      rw [List.append_nil]
      exact ⟨hl, hr⟩
    | cons b rest =>
      -- the element would be behind itself
      rw [hrest] at hr
      refine absurd ?_ hy'
      rcases List.cons_sublist_cons'.1 hr with hr | ⟨-, hr⟩
      · exact hr.subset (List.mem_cons_of_mem _ (List.mem_append_right _ List.mem_cons_self))
      · exact hr.subset (List.mem_append_right _ List.mem_cons_self)

namespace MembersChat

/-! ## What a line does to a month -/

section Lines

variable {folded : FoldedMonth} {line : Line} {id : JsString}

lemma get_apply (h : id ≠ line.id) : (folded.apply line).byId.get id = folded.byId.get id := by
  cases line with
  | post replyTo i kind userId userName device timestamp content attachments =>
    rw [FoldedMonth.apply]
    split_ifs
    · rfl
    · exact JsMap.get_set.trans (if_neg h)
  | delete i timestamp => exact JsMap.get_delete.trans (if_neg h)
  | _ =>
    rw [FoldedMonth.apply]
    split
    · rfl
    · exact JsMap.get_set.trans (if_neg h)

lemma isPrefix_order_apply (folded : FoldedMonth) (line : Line) :
    folded.order <+: (folded.apply line).order := by
  cases line with
  | post replyTo i kind userId userName device timestamp content attachments =>
    rw [FoldedMonth.apply]
    split_ifs
    · exact List.prefix_rfl
    · exact List.prefix_append _ _
  | delete i timestamp => exact List.prefix_rfl
  | _ =>
    rw [FoldedMonth.apply]
    split <;> exact List.prefix_rfl

lemma live_of_apply (hid : id ∈ folded.order) (h : ((folded.apply line).byId.get id).isSome) :
    (folded.byId.get id).isSome := by
  by_cases hline : id = line.id
  · cases line with
    | post replyTo i kind userId userName device timestamp content attachments =>
      rw [FoldedMonth.apply, if_pos (by simp [← show id = i from hline, hid])] at h
      exact h
    | delete i timestamp =>
      rw [FoldedMonth.apply, JsMap.get_delete, if_pos (show id = i from hline)] at h
      exact absurd h (by decide)
    | _ =>
      rw [hline]
      rw [hline, FoldedMonth.apply] at h
      split at h
      · exact h
      · rename_i hm
        exact Option.isSome_of_eq_some hm
  · rwa [get_apply hline] at h

lemma foldl_apply (lines : List Line) (folded : FoldedMonth) :
    folded.order <+: (lines.foldl FoldedMonth.apply folded).order ∧
      ∀ id ∈ folded.order, ((lines.foldl FoldedMonth.apply folded).byId.get id).isSome →
        (folded.byId.get id).isSome := by
  induction lines generalizing folded with
  | nil => exact ⟨List.prefix_rfl, fun _ _ h => h⟩
  | cons line lines ih =>
    obtain ⟨horder, hlive⟩ := ih (folded.apply line)
    have hline := isPrefix_order_apply folded line
    exact ⟨hline.trans horder, fun id hid h => live_of_apply hid (hlive id (hline.subset hid) h)⟩

lemma nodup_byId_apply (h : (folded.byId.map Prod.fst).Nodup) (line : Line) :
    ((folded.apply line).byId.map Prod.fst).Nodup := by
  cases line with
  | post replyTo i kind userId userName device timestamp content attachments =>
    rw [FoldedMonth.apply]
    split_ifs
    · exact h
    · exact JsMap.nodup_keys_set h
  | delete i timestamp => exact JsMap.nodup_keys_delete h
  | _ =>
    rw [FoldedMonth.apply]
    split
    · exact h
    · exact JsMap.nodup_keys_set h

def Line.isPin : Line → Bool
  | pin _ _ _ => true
  | _ => false

end Lines

end MembersChat

open MembersChat

namespace ChatStore

/-! ## Stores that grow -/

/-- A later state of a store has its lines and its months. -/
structure Grows (s s' : ChatStore) : Prop where
  appended : s.appended <+: s'.appended
  months : s.listMonths ⊆ s'.listMonths

section Grows

variable {s s' s'' : ChatStore} {event : ChatEvent} {before : Option JsString}
  {posts : List (JsString × JsString)}

lemma Grows.refl (s : ChatStore) : s.Grows s := ⟨List.prefix_rfl, List.Subset.refl _⟩

lemma Grows.trans (h : s.Grows s') (h' : s'.Grows s'') : s.Grows s'' :=
  ⟨h.appended.trans h'.appended, List.Subset.trans h.months h'.months⟩

lemma Looks.grows (h : s.Looks s') : s.Grows s' :=
  ⟨h.appended ▸ List.prefix_rfl, h.listMonths ▸ List.Subset.refl _⟩

lemma listMonths_set {month : JsString} {file : Buffer} (h : s'.files = s.files.set month file) :
    s.listMonths ⊆ s'.listMonths := by
  intro m hm
  obtain ⟨hfile, hmonth⟩ := List.mem_filter.1 (List.mem_mergeSort.1 hm)
  refine List.mem_mergeSort.2 (List.mem_filter.2 ⟨?_, hmonth⟩)
  rw [h]
  obtain ⟨e, he, rfl⟩ := List.mem_map.1 hfile
  have hhas : (s.files.set month file).has e.1 = true := by
    rw [JsMap.has_eq_isSome, JsMap.get_set]
    split_ifs
    · rfl
    · rw [← JsMap.has_eq_isSome]
      exact JsMap.has_iff.2 ⟨e.2, he⟩
  obtain ⟨value, hvalue⟩ := JsMap.has_iff.1 hhas
  exact List.mem_map.2 ⟨_, hvalue, rfl⟩

lemma grows_step (h : s.Coherent) (event : ChatEvent) : s.Grows (s.step event) := by
  rcases step_cases h event with hlooks | ⟨month, line, -, happends⟩ | ⟨month, line, written, rfl⟩
  · exact hlooks.grows
  · exact ⟨happends.appended ▸ List.prefix_append _ _, listMonths_set happends.files⟩
  · exact ⟨List.prefix_rfl, listMonths_set rfl⟩

lemma grows_run {events : List ChatEvent} (hs : s.Whole)
    (h : Machine.Along ChatStore.step Framed s events) :
    (Machine.run ChatStore.step s events).Whole ∧ s.Grows (Machine.run ChatStore.step s events) :=
  Machine.run_invariant_along (P := fun t => t.Whole ∧ s.Grows t)
    (fun _ event ht hok => ⟨whole_step ht.1 hok, ht.2.trans (grows_step ht.1.coherent event)⟩)
    ⟨hs, Grows.refl s⟩ h

lemma Grows.folded (h : s.Grows s') (hs : s.Whole) (hs' : s'.Whole) (month : JsString) :
    (s.folded month).order <+: (s'.folded month).order ∧
      ∀ id ∈ (s.folded month).order, ((s'.folded month).byId.get id).isSome →
        ((s.folded month).byId.get id).isSome := by
  obtain ⟨lines, hlines⟩ : s.completed month <+: s'.completed month := (h.appended.filter _).map _
  rw [folded_eq hs, folded_eq hs', ← hlines, foldLines, foldLines, List.foldl_append]
  exact foldl_apply lines _

lemma nodup_spots (h : s.Readable) : s.spots.Nodup := by
  refine List.nodup_flatMap.2 ⟨fun month _ => ?_, (pairwise_listMonths h).imp fun hlt => ?_⟩
  · exact (sound_foldText (s.text month)).nodup.map fun _ _ heq => (Prod.mk.inj heq).2
  · intro e he he'
    obtain ⟨_, _, rfl⟩ := List.mem_map.1 he
    obtain ⟨_, _, heq⟩ := List.mem_map.1 he'
    exact List.lt_irrefl _ ((Prod.mk.inj heq).1 ▸ hlt)

lemma nodup_ids (h : s.Readable) : (s.spots.map Prod.snd).Nodup := by
  have hmonth : ∀ post ∈ s.spots, monthOfId post.2 = some post.1 := by
    intro post hpost
    obtain ⟨month, hmonth, hpost⟩ := List.mem_flatMap.1 hpost
    obtain ⟨id, hid, rfl⟩ := List.mem_map.1 hpost
    exact h.ids month hmonth id hid
  refine List.Nodup.map_on (fun a ha b hb heq => ?_) (nodup_spots h)
  have hsame := (hmonth a ha).symm.trans ((congrArg monthOfId heq).trans (hmonth b hb))
  exact Prod.ext (Option.some.inj hsame) heq

lemma Grows.spots (h : s.Grows s') (hs : s.Whole) (hs' : s'.Whole) : s.spots.Sublist s'.spots := by
  have hmonths : s.listMonths.Sublist s'.listMonths := by
    have hsorted := pairwise_listMonths hs.readable
    have hnodup : s.listMonths.Nodup := (List.mergeSort_perm _ _).nodup_iff.2 (hs.files.filter _)
    exact List.sublist_of_subperm_of_pairwise (r := (· < ·)) (List.subperm_of_subset hnodup h.months)
      hsorted (pairwise_listMonths hs'.readable)
  exact (hmonths.flatMap _).trans (List.Sublist.flatMap_right _ fun month _ =>
    ((h.folded hs hs' month).1.sublist.map _))

/-- The posts before a cursor, which is none or that of a post, live or deleted. -/
def Cut (s : ChatStore) (before : Option JsString) (posts : List (JsString × JsString)) : Prop :=
  match before with
  | none => s.spots = posts
  | some id => ∃ month later, s.spots = posts ++ (month, id) :: later

lemma Cut.spotsBefore (h : s.Cut before posts) (hs : s.Readable) :
    s.spotsBefore (s.cursorOf before) = posts := by
  cases before with
  | none => exact h
  | some id =>
    obtain ⟨month, later, hspots⟩ := h
    exact spotsBefore_place hs hspots

lemma Cut.exists_append (h : s.Cut before posts) : ∃ rest, s.spots = posts ++ rest := by
  cases before with
  | none => exact ⟨[], (show s.spots = posts from h).trans (List.append_nil _).symm⟩
  | some id =>
    obtain ⟨month, later, h⟩ := h
    exact ⟨_, h⟩

lemma Cut.looks (h : s.Cut before posts) (hlooks : s.Looks s') : s'.Cut before posts := by
  have hspots : s'.spots = s.spots := hlooks.spotsBefore none
  cases before with
  | none => exact hspots.trans h
  | some id =>
    obtain ⟨month, later, h⟩ := h
    exact ⟨month, later, hspots.trans h⟩

lemma Cut.grows (h : s.Cut before posts) (hgrows : s.Grows s') (hs : s.Whole) (hs' : s'.Whole) :
    ∃ posts', s'.Cut before posts' ∧ posts.Sublist posts' := by
  have hspots := hgrows.spots hs hs'
  cases before with
  | none =>
    obtain rfl : s.spots = posts := h
    exact ⟨s'.spots, rfl, hspots⟩
  | some id =>
    obtain ⟨month, later, h⟩ := h
    rw [h] at hspots
    obtain ⟨posts', later', h'⟩ := List.append_of_mem
      (hspots.subset (List.mem_append_right _ List.mem_cons_self))
    have hnodup := nodup_spots hs'.readable
    rw [h'] at hspots hnodup
    exact ⟨posts', ⟨month, later', h'⟩, (sublist_around hspots hnodup).1⟩

lemma Grows.live (h : s.Grows s') (hs : s.Whole) (hs' : s'.Whole) {post : JsString × JsString}
    (hpost : post ∈ s.spots) (hlive : (s'.live post).isSome) : (s.live post).isSome := by
  obtain ⟨month, -, hpost⟩ := List.mem_flatMap.1 hpost
  obtain ⟨id, hid, rfl⟩ := List.mem_map.1 hpost
  exact (h.folded hs hs' month).2 id hid hlive

lemma map_id_filterMap (s : ChatStore) (posts : List (JsString × JsString)) :
    (posts.filterMap s.live).map (·.id) =
      (posts.filter fun post => (s.live post).isSome).map Prod.snd := by
  induction posts with
  | nil => rfl
  | cons post posts ih =>
    cases hlive : s.live post with
    | none => rw [List.filterMap_cons_none hlive, List.filter_cons_of_neg (by simp [hlive]), ih]
    | some m =>
      have hid := ((sound_foldText (s.text post.1)).message post.2 m hlive).1
      rw [List.filterMap_cons_some hlive, List.filter_cons_of_pos (by simp [hlive]), List.map_cons,
        List.map_cons, ih, hid]

end Grows

/-! ## Walks -/

/-- A walk: the events before each of its pages, and how many messages this may have. It ends at a page
without more before it, or there is more when the reader stops. -/
def walk : ChatStore → Option JsString → List (List ChatEvent × Option ℤ) →
    (List MembersChatMessage × Bool) × ChatStore
  | s, _, [] => (([], true), s)
  | s, before, read :: reads =>
    let page := (Machine.run ChatStore.step s read.1).page before read.2
    if page.1.hasMore then
      let older := walk page.2 (page.1.messages.head?.map (·.id)) reads
      ((older.1.1 ++ page.1.messages, older.1.2), older.2)
    else ((page.1.messages, false), page.2)

/-- What happens before the pages of a walk is framed. -/
def ReadsFramed : ChatStore → Option JsString → List (List ChatEvent × Option ℤ) → Prop
  | _, _, [] => True
  | s, before, read :: reads =>
    let page := (Machine.run ChatStore.step s read.1).page before read.2
    Machine.Along ChatStore.step Framed s read.1 ∧
      ReadsFramed page.2 (page.1.messages.head?.map (·.id)) reads

/-- What a walk returns from a cursor, before which there were some posts: its messages are in the order
of the posts, each once, and a finished one has every post that stayed live. It has a message for every
page with more before it. -/
structure Walked (s : ChatStore) (before : Option JsString) (posts : List (JsString × JsString))
    (reads : ℕ) (w : (List MembersChatMessage × Bool) × ChatStore) : Prop where
  whole : w.2.Whole
  grows : s.Grows w.2
  ids : (w.1.1.map (·.id)).Sublist ((w.2.spotsBefore (w.2.cursorOf before)).map Prod.snd)
  all : w.1.2 = false → ∀ post ∈ posts, (w.2.live post).isSome → post.2 ∈ w.1.1.map (·.id)
  length : w.1.2 = true → reads ≤ w.1.1.length

section Walks

variable {s : ChatStore} {before : Option JsString} {posts : List (JsString × JsString)}
  {reads : List (List ChatEvent × Option ℤ)}

/-- **What a walk returns.**

**Proof sketch.** The posts before the cursor are still before it when the page is read, and the page has
the last of those that are live then. The next cursor is the first of them, so by induction the rest of
the walk has ids of posts before it, and every post before it that stays live. -/
theorem walked (hs : s.Whole) (hcut : s.Cut before posts) (h : ReadsFramed s before reads) :
    s.Walked before posts reads.length (walk s before reads) := by
  induction reads generalizing s before posts with
  | nil => exact ⟨hs, Grows.refl s, List.nil_sublist _, nofun, fun _ => Nat.zero_le _⟩
  | cons read reads ih =>
    obtain ⟨hevents, hreads⟩ := h
    obtain ⟨ht, hgrows⟩ := grows_run hs hevents
    rw [walk]
    set t := Machine.run ChatStore.step s read.1
    have hlooks := looks_page t before read.2
    have hu : (t.page before read.2).2.Whole := hlooks.whole ht
    obtain ⟨now, hnow, hposts⟩ := hcut.grows hgrows hs ht
    have hcursor := hnow.spotsBefore ht.readable
    cases hmore : (t.page before read.2).1.hasMore with
    | false =>
      rw [if_neg Bool.false_ne_true]
      have hmessages := page_last ht.coherent hmore
      rw [hcursor] at hmessages
      have hsame : (t.page before read.2).2.cursorOf before = t.cursorOf before := by
        cases before with
        | none => rfl
        | some id => exact hlooks.place id
      refine ⟨hu, hgrows.trans hlooks.grows, ?_, fun _ post hpost hlive => ?_, nofun⟩
      · rw [hsame, hlooks.spotsBefore, hcursor]
        dsimp only
        rw [hmessages, map_id_filterMap]
        exact (List.filter_sublist).map _
      · dsimp only at hlive ⊢
        rw [hlooks.live] at hlive
        rw [hmessages, map_id_filterMap]
        exact List.mem_map_of_mem (List.mem_filter.2 ⟨hposts.subset hpost, hlive⟩)
    | true =>
      rw [if_pos rfl]
      obtain ⟨earlier, month, id, later, hsplit, hmessages, hhead⟩ := page_more ht.coherent hmore
      obtain rfl : now = earlier ++ (month, id) :: later := hcursor.symm.trans hsplit
      obtain ⟨rest, hspots⟩ := hnow.exists_append
      rw [List.append_assoc, List.cons_append] at hspots
      have hnext : (t.page before read.2).2.Cut (some id) earlier :=
        (show t.Cut (some id) earlier from ⟨month, later ++ rest, hspots⟩).looks hlooks
      rw [hhead] at hreads ⊢
      obtain ⟨hz, hgrow, hids, hall, hlength⟩ := ih hu hnext hreads
      set w := walk (t.page before read.2).2 (some id) reads
      refine ⟨hz, hgrows.trans (hlooks.grows.trans hgrow), ?_, fun hdone post hpost hlive => ?_,
        fun hdone => ?_⟩
      · -- the page is behind the messages of the rest
        obtain ⟨final, hfinal, hnow'⟩ := (hnow.looks hlooks).grows hgrow hu hz
        obtain ⟨front, back, rfl⟩ := List.append_of_mem
          (hnow'.subset (List.mem_append_right _ List.mem_cons_self))
        obtain ⟨rest', hspots'⟩ := hfinal.exists_append
        have hnodup := (List.nodup_append.1 (hspots' ▸ nodup_spots hz.readable)).1
        rw [List.append_assoc, List.cons_append] at hspots'
        have hrest : w.2.Cut (some id) front := ⟨month, _, hspots'⟩
        rw [hrest.spotsBefore hz.readable] at hids
        rw [hfinal.spotsBefore hz.readable, List.map_append, List.map_append, hmessages,
          map_id_filterMap]
        refine hids.append (List.Sublist.map _ (List.filter_sublist.trans ?_))
        exact (sublist_around hnow' hnodup).2.cons_cons _
      · rw [List.map_append]
        have hmem := hposts.subset hpost
        rcases List.mem_append.1 hmem with hearlier | hlater
        · exact List.mem_append_left _ (hall hdone post hearlier hlive)
        · -- it was live when the page was read
          obtain ⟨rest, hspots⟩ := (hnow.looks hlooks).exists_append
          have hthen := hgrow.live hu hz (hspots ▸ List.mem_append_left _ hmem) hlive
          rw [hlooks.live] at hthen
          rw [hmessages, map_id_filterMap]
          exact List.mem_append_right _ (List.mem_map_of_mem (List.mem_filter.2 ⟨hlater, hthen⟩))
      · have hpos : 0 < (t.page before read.2).1.messages.length := by
          rw [List.length_pos_iff]
          intro hnil
          exact nomatch (congrArg (fun l => (List.head? l).map (·.id)) hnil).symm.trans hhead
        have := hlength hdone
        simp only [List.length_append, List.length_cons]
        omega

end Walks

/-! ## Pins -/

def pinned (message : Option MembersChatMessage) : Option MembersChatMessage :=
  message.filter (·.pinnedAt.isSome)

/-- An entry of a month joins the index when it is pinned. -/
def scanEntry (index : JsMap JsString MembersChatMessage) (e : JsString × MembersChatMessage) :
    JsMap JsString MembersChatMessage :=
  if e.2.pinnedAt.isSome then index.set e.2.id e.2 else index

/-- The scan of `pinnedMessages`. What it folds does not stay in the cache. -/
def scanPins (s : ChatStore) : JsMap JsString MembersChatMessage :=
  s.listMonths.foldl (fun index month => (s.fold month).1.byId.foldl scanEntry index) []

/-- What `append` does to the index of the pins behind its write. -/
def indexLine (s : ChatStore) (index : JsMap JsString MembersChatMessage) (line : Line) :
    JsMap JsString MembersChatMessage :=
  if line.isPin || index.has line.id then
    match pinned (s.get line.id).1 with
    | some message => index.set line.id message
    | none => index.delete line.id
  else index

section Pins

variable {s s' : ChatStore} {month id : JsString} {line : Line} {m : MembersChatMessage}
  {index : JsMap JsString MembersChatMessage}

lemma pinned_some : pinned (some m) = if m.pinnedAt.isSome then some m else none := Option.filter_some

lemma pinned_eq_none : pinned (some m) = none ↔ m.pinnedAt.isSome = false := by
  rw [pinned_some]
  simp

lemma message_eq_some (h : s.Whole) :
    s.message id = some m ↔ ∃ month ∈ s.listMonths, (s.folded month).byId.get id = some m := by
  constructor
  · intro hm
    obtain ⟨month, hmonth, hm⟩ := Option.bind_eq_some_iff.1 hm
    have horder := ((sound_foldText (s.text month)).message id m hm).2
    rw [← folded, folded_eq h, foldLines] at horder
    obtain ⟨line, hline, hposted⟩ := (exists_of_mem_order horder).resolve_left List.not_mem_nil
    obtain ⟨e, he, rfl⟩ := List.mem_map.1 hline
    obtain ⟨he, hmonth⟩ := List.mem_filter.1 he
    exact ⟨month, of_decide_eq_true hmonth ▸ h.mem_listMonths he hposted, hm⟩
  · rintro ⟨month, hmonth, hm⟩
    have horder := ((sound_foldText (s.text month)).message id m hm).2
    rw [message, h.readable.ids month hmonth id horder]
    exact hm

lemma nodup_byId (s : ChatStore) (month : JsString) : ((s.folded month).byId.map Prod.fst).Nodup := by
  refine List.foldlRecOn (motive := fun f => (FoldedMonth.byId f |>.map Prod.fst).Nodup) _ _
    List.nodup_nil ?_
  intro folded h raw _
  unfold foldRaw
  split_ifs
  · exact h
  · split
    · exact h
    · exact nodup_byId_apply h _

lemma get_scan {entries : JsMap JsString MembersChatMessage} (hnodup : (entries.map Prod.fst).Nodup)
    (hids : ∀ e ∈ entries, e.2.id = e.1) (index : JsMap JsString MembersChatMessage) :
    JsMap.get (entries.foldl scanEntry index) id =
      (pinned (JsMap.get entries id)).or (JsMap.get index id) := by
  induction entries generalizing index with
  | nil => rfl
  | cons e entries ih =>
    obtain ⟨hnew, hnodup⟩ := List.nodup_cons.1 hnodup
    have hid := hids e List.mem_cons_self
    rw [List.foldl_cons, ih hnodup fun e he => hids e (List.mem_cons_of_mem _ he), JsMap.get_cons]
    by_cases heq : e.1 = id
    · have hnone : JsMap.get entries id = none := by
        rw [Option.eq_none_iff_forall_ne_some]
        intro m hm
        exact hnew (heq ▸ List.mem_map_of_mem (f := Prod.fst) (JsMap.mem_of_get hm))
      rw [if_pos heq, hnone, scanEntry, hid, heq]
      rw [pinned_some, show pinned none = none from rfl]
      split_ifs
      · rw [JsMap.get_set, if_pos rfl]
        rfl
      · rfl
    · rw [if_neg heq, scanEntry]
      split_ifs
      · rw [JsMap.get_set, if_neg (hid ▸ Ne.symm heq)]
      · rfl

/-- **A scan** finds the pinned messages. -/
theorem get_scanPins (h : s.Whole) (id : JsString) : s.scanPins.get id = pinned (s.message id) := by
  let entries : JsMap JsString MembersChatMessage :=
    s.listMonths.flatMap fun month => (s.folded month).byId
  have hkey : ∀ month ∈ s.listMonths, ∀ e ∈ (s.folded month).byId,
      e.2.id = e.1 ∧ monthOfId e.1 = some month := by
    intro month hmonth e he
    obtain ⟨hid, horder⟩ := (sound_foldText (s.text month)).message e.1 e.2
      ((JsMap.mem_iff_get (nodup_byId s month)).1 he)
    exact ⟨hid, h.readable.ids month hmonth e.1 horder⟩
  have hids : ∀ e ∈ entries, e.2.id = e.1 := fun e he => by
    obtain ⟨month, hmonth, he⟩ := List.mem_flatMap.1 he
    exact (hkey month hmonth e he).1
  have hnodup : (entries.map Prod.fst).Nodup := by
    rw [List.map_flatMap]
    refine List.nodup_flatMap.2 ⟨fun month _ => nodup_byId s month,
      (pairwise_listMonths h.readable).imp_of_mem fun {a b} ha hb hlt key hkey₁ hkey₂ => ?_⟩
    obtain ⟨e, he, rfl⟩ := List.mem_map.1 hkey₁
    obtain ⟨e', he', heq⟩ := List.mem_map.1 hkey₂
    have hmonth := (hkey b hb e' he').2
    rw [heq, (hkey a ha e he).2, Option.some.injEq] at hmonth
    exact List.lt_irrefl b (hmonth ▸ hlt)
  have hget : JsMap.get entries id = s.message id := by
    refine Option.ext fun m => ?_
    rw [← JsMap.mem_iff_get hnodup, message_eq_some h, List.mem_flatMap]
    simp only [JsMap.mem_iff_get (nodup_byId s _)]
  have hscan : s.scanPins = entries.foldl scanEntry [] := by
    rw [scanPins, List.foldl_flatMap]
    simp only [fold_fst h.coherent]
  rw [hscan, get_scan hnodup hids, hget]
  exact Option.or_none

lemma Appends.folded (happends : s.Appends month line s') (h : s.Whole) (h' : s'.Whole)
    (m : JsString) : s'.folded m = if m = month then (s.folded month).apply line else s.folded m := by
  rw [folded_eq h', happends.completed]
  split_ifs
  · rw [folded_eq h, foldLines, foldLines, List.foldl_append]
    rfl
  · exact (folded_eq h m).symm

lemma Appends.message (happends : s.Appends month line s') (h : s.Whole) (h' : s'.Whole)
    (hid : id ≠ line.id) : s'.message id = s.message id := by
  refine Option.bind_congr fun m _ => ?_
  rw [happends.folded h h']
  split_ifs with hm
  · rw [get_apply hid, hm]
  · rfl

lemma pinned_apply {folded : FoldedMonth} (hpin : line.isPin = false)
    (h : pinned (folded.byId.get line.id) = none) :
    pinned ((folded.apply line).byId.get line.id) = none := by
  cases line with
  | post replyTo i kind userId userName device timestamp content attachments =>
    rw [FoldedMonth.apply]
    split_ifs
    · exact h
    · exact congrArg pinned (JsMap.get_set.trans (if_pos rfl))
  | delete i timestamp => exact congrArg pinned (JsMap.get_delete.trans (if_pos rfl))
  | pin i timestamp active => cases hpin
  | _ =>
    rw [FoldedMonth.apply]
    split
    · exact h
    · rename_i m hm
      dsimp only [Line.id] at h ⊢
      rw [hm, pinned_eq_none] at h
      rw [JsMap.get_set, if_pos rfl, pinned_eq_none]
      exact h

/-- **The index of the pins** keeps up with a line. -/
theorem get_indexLine (happends : s.Appends month line s') (h : s.Whole) (h' : s'.Whole)
    (hindex : ∀ id, index.get id = pinned (s.message id)) (id : JsString) :
    (s'.indexLine index line).get id = pinned (s'.message id) := by
  have hother : id ≠ line.id → index.get id = pinned (s'.message id) := fun hid => by
    rw [hindex, happends.message h h' hid]
  rw [indexLine, get_fst h'.coherent]
  split_ifs with hline
  · by_cases hid : id = line.id
    · subst hid
      split
      · rename_i m hm
        rw [JsMap.get_set, if_pos rfl, hm]
      · rename_i hm
        rw [JsMap.get_delete, if_pos rfl, hm]
    · rw [← hother hid]
      split
      · exact JsMap.get_set.trans (if_neg hid)
      · exact JsMap.get_delete.trans (if_neg hid)
  · by_cases hid : id = line.id
    · -- the message was not pinned, and is not by this line
      rw [Bool.or_eq_true, not_or, Bool.not_eq_true, JsMap.has_eq_isSome] at hline
      subst hid
      have hnone : pinned (s.message line.id) = none := by
        rw [← hindex, ← Option.not_isSome_iff_eq_none]
        exact hline.2
      rw [hindex, hnone]
      cases hmonth : monthOfId line.id with
      | none => rw [message, hmonth]; rfl
      | some m =>
        rw [message, hmonth, Option.bind_some] at hnone ⊢
        rw [happends.folded h h']
        split_ifs with hm
        · exact (pinned_apply hline.1 (hm ▸ hnone)).symm
        · exact hnone.symm
    · exact hother hid

lemma Looks.message (hlooks : s.Looks s') (id : JsString) : s'.message id = s.message id :=
  Option.bind_congr fun m _ => by rw [hlooks.folded]

lemma get_foldl_indexLine {event : ChatEvent} (h : s.Whole) (hframed : s.Framed event)
    (hcall : ∀ month line written, event ≠ .crash month line written)
    (hindex : ∀ id, index.get id = pinned (s.message id)) (id : JsString) :
    JsMap.get (((s.step event).appended.drop s.appended.length).foldl
      (fun index e => (s.step event).indexLine index e.2) index) id =
        pinned ((s.step event).message id) := by
  rcases step_cases h.coherent event with hlooks | ⟨month, line, -, happends⟩ |
    ⟨month, line, written, hcrash⟩
  · rw [hlooks.appended, List.drop_length, hlooks.message]
    exact hindex id
  · rw [happends.appended, List.drop_left]
    exact get_indexLine happends h (whole_step h hframed) hindex id
  · exact absurd hcrash (hcall month line written)

end Pins

end ChatStore

/-- A store with its index of the pins, once there is one. -/
structure PinnedStore where
  store : ChatStore
  pinIndex : Option (JsMap JsString MembersChatMessage)

namespace PinnedStore

/-- The index of `pinnedMessages`, which scans the files when there is none. -/
def pinnedMessages (p : PinnedStore) : JsMap JsString MembersChatMessage :=
  p.pinIndex.getD p.store.scanPins

/-- What an event does. The index is brought up to date with the line that a call appends, a page has it
built, and a crash loses it. -/
def step (p : PinnedStore) (event : ChatEvent) : PinnedStore :=
  let store := p.store.step event
  match event with
  | .crash _ _ _ => ⟨store, none⟩
  | .page _ _ => ⟨store, some (pinnedMessages ⟨store, p.pinIndex⟩)⟩
  | _ => ⟨store, p.pinIndex.map fun index =>
      (store.appended.drop p.store.appended.length).foldl
        (fun index e => store.indexLine index e.2) index⟩

/-- A store without files and without an index. -/
def empty : PinnedStore := ⟨.empty, none⟩

/-- The files are whole, and the index has the pinned messages. -/
structure Indexed (p : PinnedStore) : Prop where
  whole : p.store.Whole
  index : ∀ index, p.pinIndex = some index → ∀ id, index.get id = ChatStore.pinned (p.store.message id)

def Framed (p : PinnedStore) (event : ChatEvent) : Prop := p.store.Framed event

variable {p : PinnedStore} {event : ChatEvent}

/-- **The index of the pins** has the pinned messages behind every event. -/
theorem indexed_step (h : p.Indexed) (hframed : p.Framed event) : (p.step event).Indexed := by
  have hwhole := ChatStore.whole_step h.whole hframed
  cases event with
  | crash month line written => exact ⟨hwhole, nofun⟩
  | page before limit =>
    refine ⟨hwhole, fun index hindex id => ?_⟩
    obtain rfl := Option.some.inj hindex
    rw [pinnedMessages]
    cases hold : p.pinIndex with
    | none => exact ChatStore.get_scanPins hwhole id
    | some index =>
      exact (h.index index hold id).trans
        (congrArg _ ((ChatStore.looks_page p.store before limit).message id).symm)
  | _ =>
    refine ⟨hwhole, fun index hindex id => ?_⟩
    obtain ⟨old, hold, rfl⟩ := Option.map_eq_some_iff.1 hindex
    exact ChatStore.get_foldl_indexLine h.whole hframed (fun _ _ _ => nofun) (h.index old hold) id

lemma indexed_run {events : List ChatEvent} (h : Machine.Along step Framed .empty events) :
    (Machine.run step .empty events).Indexed :=
  Machine.run_invariant_along (fun _ _ hp hok => indexed_step hp hok)
    ⟨ChatStore.whole_empty, nofun⟩ h

end PinnedStore

namespace ChatStore

lemma walk_replicate (limit : Option ℤ) (fuel : ℕ) (s : ChatStore) (before : Option JsString) :
    (walk s before (List.replicate fuel ([], limit))).1.1 = pages limit fuel s before ∧
      ReadsFramed s before (List.replicate fuel ([], limit)) := by
  induction fuel generalizing s before with
  | zero => exact ⟨rfl, trivial⟩
  | succ fuel ih =>
    obtain ⟨hpages, hframed⟩ :=
      ih (s.page before limit).2 ((s.page before limit).1.messages.head?.map (·.id))
    refine ⟨?_, trivial, hframed⟩
    rw [List.replicate_succ, walk, pages, ← hpages]
    show (if (s.page before limit).1.hasMore then _ else _ : (_ × Bool) × ChatStore).1.1 = _
    by_cases hmore : (s.page before limit).1.hasMore = true
    · rw [if_pos hmore, if_pos hmore]
      rfl
    · rw [if_neg hmore, if_neg hmore]
      rfl

/-- **Walks over the pages** of the members chat. In every run whose lines are framed:

* a walk between whose pages nothing happens ends, and has all live messages in order;
* a walk between whose pages something happens has no message twice, and all in order; it has one for
  every page with more before it, and when it ends it has every message that stayed live;
* a page has the last of the live messages before its cursor, and there is more when there are others;
* the index of the pins has what a scan of the files finds. -/
theorem chat_walk {events : List ChatEvent}
    (h : Machine.Along PinnedStore.step PinnedStore.Framed .empty events) :
    let p := Machine.run PinnedStore.step .empty events
    (∀ limit fuel, p.store.spots.length < fuel →
      (p.store.walk none (List.replicate fuel ([], limit))).1 =
        (p.store.spots.filterMap p.store.live, false)) ∧
    (∀ reads, p.store.ReadsFramed none reads →
      let w := p.store.walk none reads
      (w.1.1.map (·.id)).Sublist (w.2.spots.map Prod.snd) ∧ (w.1.1.map (·.id)).Nodup ∧
        (w.1.2 = true → reads.length ≤ w.1.1.length) ∧
        (w.1.2 = false → ∀ id, (p.store.message id).isSome → (w.2.message id).isSome →
          id ∈ w.1.1.map (·.id))) ∧
    (∀ before limit, ∃ older, (p.store.spotsBefore (p.store.cursorOf before)).filterMap p.store.live =
        older ++ (p.store.page before limit).1.messages ∧
      ((p.store.page before limit).1.hasMore = true ↔ older ≠ [])) ∧
    ∀ index, p.pinIndex = some index → ∀ id, index.get id = p.store.scanPins.get id := by
  intro p
  have hp : p.Indexed := PinnedStore.indexed_run h
  clear_value p
  have hs := hp.whole
  have htop : p.store.Cut none p.store.spots := rfl
  refine ⟨fun limit fuel hfuel => ?_, fun reads hreads => ?_, fun before limit => ?_,
    fun index hindex id => ?_⟩
  · obtain ⟨hpages, hreads⟩ := walk_replicate limit fuel p.store none
    have hall : pages limit fuel p.store none = p.store.spots.filterMap p.store.live :=
      pages_eq hs.coherent hs.readable limit (List.append_nil p.store.spots).symm hfuel
    have hlength := (walked hs htop hreads).length
    rw [List.length_replicate, hpages, hall] at hlength
    refine Prod.ext (hpages.trans hall) (Bool.eq_false_iff.2 fun hmore => ?_)
    exact absurd ((hlength hmore).trans (List.length_filterMap_le _ _)) (Nat.not_le.2 hfuel)
  · obtain ⟨hw, hgrows, hids, hall, hlength⟩ := walked hs htop hreads
    refine ⟨hids, hids.nodup (nodup_ids hw.readable), hlength, fun hdone id hnow hlater => ?_⟩
    obtain ⟨m, hm⟩ := Option.isSome_iff_exists.1 hnow
    obtain ⟨month, hmonth, hm⟩ := (message_eq_some hs).1 hm
    have horder := ((sound_foldText (p.store.text month)).message id m hm).2
    refine hall hdone (month, id)
      (List.mem_flatMap.2 ⟨month, hmonth, List.mem_map_of_mem horder⟩) ?_
    rwa [message, hw.readable.ids month (hgrows.months hmonth) id
      ((hgrows.folded hs hw month).1.subset horder)] at hlater
  · obtain ⟨hmessages, hmore⟩ := page_fst hs.coherent before limit
    set messages := (p.store.spotsBefore (p.store.cursorOf before)).filterMap p.store.live
    refine ⟨messages.take (messages.length - pageLimit limit), ?_, ?_⟩
    · rw [hmessages, List.take_append_drop]
    · rw [hmore, decide_eq_true_iff, ne_eq, List.take_eq_nil_iff, ← List.length_eq_zero_iff]
      omega
  · rw [hp.index index hindex, get_scanPins hs]

/-! ### A store with one post, and a line that lacks its line feed -/

theorem chat_walk_two_posts :
    let s := (Machine.run PinnedStore.step .empty [earlierPost, examplePost]).store
    let page := (s.page none (some 1)).1
    ((s.walk none [([], some 1), ([], some 1)]).1.1.map (·.id)).Nodup ∧
      ∃ older, (s.spotsBefore (s.cursorOf none)).filterMap s.live = older ++ page.messages ∧
        (page.hasMore = true ↔ older ≠ []) := by
  have hlater : (ChatStore.empty.step earlierPost).Framed examplePost :=
    @framed_of_month _ _ exampleMonth (by decide +kernel) (Or.inl (by decide +kernel)) (by decide) nofun
  have hearlier : ChatStore.empty.Framed earlierPost :=
    @framed_of_month _ _ (js "2026-08") (by decide +kernel) (Or.inl rfl) (by decide) nofun
  obtain ⟨-, hreads, hpage, -⟩ := @chat_walk [earlierPost, examplePost] ⟨hearlier, hlater, trivial⟩
  exact ⟨(hreads [([], some 1), ([], some 1)] ⟨trivial, trivial, trivial⟩).2.1, hpage none (some 1)⟩

def tornPin : Line := .pin (js "202609-01020304") (.ofInt 1788220800000) true

/-- A crash leaves that line without its line feed, a page is read, and another post is joined to it. -/
def tornPinEvents : List ChatEvent :=
  [examplePost, .crash exampleMonth tornPin ⟨(lineBytes tornPin.fields).length - 1, by decide +kernel⟩,
    .page none none,
    .post ⟨none, none, js "u", js "Ada", none, js "ho", none⟩ 1788220800000 (5, 6, 7, 8)]

theorem pinIndex_stays :
    ¬∀ events index, (Machine.run PinnedStore.step .empty events).pinIndex = some index →
      ∀ id, index.get id = (Machine.run PinnedStore.step .empty events).store.scanPins.get id := by
  intro h
  have hindex : (Machine.run PinnedStore.step .empty tornPinEvents).pinIndex.map
      (List.map Prod.fst) = some [js "202609-01020304"] := by
    decide +kernel
  have hscan :
      (Machine.run PinnedStore.step .empty tornPinEvents).store.scanPins.map Prod.fst = [] := by
    decide +kernel
  obtain ⟨index, hsome, hkeys⟩ := Option.map_eq_some_iff.1 hindex
  have hsame := h tornPinEvents index hsome (js "202609-01020304")
  rw [List.map_eq_nil_iff.1 hscan] at hsame
  have hhas : JsMap.has index (js "202609-01020304") = true := by
    obtain ⟨⟨key, value⟩, he, rfl⟩ := List.mem_map.1 (hkeys ▸ List.mem_cons_self)
    exact JsMap.has_iff.2 ⟨value, he⟩
  rw [JsMap.has_eq_isSome, hsame] at hhas
  exact nomatch hhas

end ChatStore

end Isomux
