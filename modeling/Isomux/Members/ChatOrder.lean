import Isomux.Foundations.Rows
import Isomux.Members.ChatFraming

set_option autoImplicit false

/-!
# The order of the members chat

Pages walk the months by their names, and the month of a post is that of the clock. As long as no post
is accepted in a month before one that the store has, and all posts are in years of four digits, the
pages have the live messages in the order in which their posts were accepted, and an unread count has
those that were accepted after the post of the pointer. A clock that moves back over the end of a month
puts a post before posts that were accepted earlier.

## Main results

* `Isomux.ChatStore.spots_eq` — the order of the pages is the order of acceptance.
* `Isomux.ChatStore.chat_order_accepted` — what the pages and the unread counts have.
-/

namespace Isomux

open MembersChat

namespace ChatStore

variable (s : ChatStore)

/-- The posts in the order in which they were accepted, with their months. -/
def posts : List (JsString × JsString) :=
  s.appended.filterMap fun e => e.2.posted.map fun id => (e.1, id)

/-- The ids of the posts in the order in which they were accepted. -/
def accepted : List JsString := s.appended.filterMap fun e => e.2.posted

/-- The ids that were accepted after the post of a pointer. All of them are, when there is no pointer or
no such post. -/
def acceptedAfter : Option JsString → List JsString
  | none => s.accepted
  | some id => if id ∈ s.accepted then (s.accepted.dropWhile (· ≠ id)).tail else s.accepted

/-- The event is a call. A post is accepted in a year of four digits, and in no month before one that
the store has. -/
def InTurn (event : ChatEvent) : Prop :=
  (∀ month line written, event ≠ .crash month line written) ∧
  ∀ month line, (s.step event).appended = s.appended ++ [(month, line)] → line.posted ≠ none →
    isMonth month = true ∧ ∀ m ∈ s.listMonths, ¬month < m

/-- The posts of a month are those that were accepted in it, and the months ascend. -/
structure Ordered (s : ChatStore) : Prop where
  whole : s.Whole
  bytes : ∀ month, s.bytes month = chatBytes (s.completed month)
  order : ∀ month, (s.folded month).order = (s.completed month).filterMap Line.posted
  ascends : s.posts.Pairwise fun a b => ¬b.1 < a.1

end ChatStore

namespace MembersChat

variable {folded : FoldedMonth} {line : Line}

lemma order_apply (h : folded.Sound) (hnew : ∀ id, line.posted = some id → id ∉ folded.order) :
    (folded.apply line).order = folded.order ++ line.posted.toList := by
  cases line with
  | post replyTo id kind userId userName device timestamp content attachments =>
    have hid : id ∉ folded.order := hnew id rfl
    have hlive : folded.byId.has id = false := by
      rw [JsMap.has_eq_isSome]
      cases hget : folded.byId.get id with
      | none => rfl
      | some m => exact absurd (h.message id m hget).2 hid
    rw [FoldedMonth.apply, hlive, Bool.false_or, if_neg (by rwa [List.contains_iff_mem])]
    rfl
  | delete id timestamp => exact (List.append_nil _).symm
  | _ =>
    rw [FoldedMonth.apply]
    split
    · exact (List.append_nil _).symm
    · exact (List.append_nil _).symm

lemma endsLine_chatBytes (lines : List Line) : EndsLine (Buffer.toUtf8String (chatBytes lines)) := by
  have htext := toUtf8String_lines (lines.map Line.fields) []
  rw [List.append_nil, show Buffer.toUtf8String [] = [] from rfl, List.append_nil, ← chatBytes_eq]
    at htext
  rw [htext]
  rcases List.eq_nil_or_concat (lines.map Line.fields) with hnil | ⟨front, last, hlast⟩
  · rw [hnil]
    exact Or.inl rfl
  · rw [hlast]
    refine Or.inr ?_
    simp

end MembersChat

namespace ChatStore

section Runs

variable {s s' : ChatStore} {month : JsString} {line : Line} {event : ChatEvent}

lemma ordered_empty : ChatStore.empty.Ordered :=
  ⟨whole_empty, fun _ => rfl, fun _ => rfl, List.Pairwise.nil⟩

lemma Ordered.framed (h : s.Ordered) (hturn : s.InTurn event) : s.Framed event := by
  refine ⟨fun month line happended => ⟨?_, fun hposted => (hturn.2 month line happended hposted).1⟩,
    fun month line written hcrash => absurd hcrash (hturn.1 month line written)⟩
  rw [text, h.bytes]
  exact endsLine_chatBytes _

lemma filter_posts (s : ChatStore) (month : JsString) :
    s.posts.filter (·.1 = month) =
      ((s.completed month).filterMap Line.posted).map fun id => (month, id) := by
  rw [posts, completed]
  induction s.appended with
  | nil => rfl
  | cons e appended ih =>
    obtain ⟨m, line⟩ := e
    by_cases hm : m = month
    · subst hm
      cases hposted : line.posted with
      | none | some id => simpa [hposted] using ih
    · cases hposted : line.posted with
      | none | some id => simpa [hposted, hm] using ih

lemma Appends.posts (h : s.Appends month line s') :
    s'.posts = s.posts ++ (line.posted.map fun id => (month, id)).toList := by
  rw [ChatStore.posts, h.appended, List.filterMap_append, ChatStore.posts]
  cases hposted : line.posted with
  | none => simp [hposted]
  | some id => simp [hposted]

/-- **A run stays ordered** as long as its posts are in turn. -/
theorem ordered_step (h : s.Ordered) (hturn : s.InTurn event) : (s.step event).Ordered := by
  have hwhole := whole_step h.whole (h.framed hturn)
  rcases step_cases h.whole.coherent event with hlooks | ⟨month, line, hfits, happends⟩ |
    ⟨month, line, written, hcrash⟩
  · have hcompleted : (s.step event).completed = s.completed := by
      funext m
      rw [completed, completed, hlooks.appended]
    refine ⟨hwhole, fun m => ?_, fun m => ?_, ?_⟩
    · rw [hcompleted, ChatStore.bytes, hlooks.files]
      exact h.bytes m
    · rw [hcompleted, hlooks.folded]
      exact h.order m
    · rw [posts, hlooks.appended]
      exact h.ascends
  · refine ⟨hwhole, fun m => ?_, fun m => ?_, ?_⟩
    · rw [happends.completed, happends.bytes]
      split_ifs with hm
      · rw [h.bytes, chatBytes, chatBytes, List.flatMap_append, List.flatMap_singleton]
      · exact h.bytes m
    · rw [folded_eq hwhole, happends.completed]
      split_ifs with hm
      · have hsound : (foldLines (s.completed month)).Sound := by
          rw [← folded_eq h.whole]
          exact sound_foldText _
        have hnew : ∀ id, line.posted = some id → id ∉ (foldLines (s.completed month)).order := by
          intro id hid
          rw [← folded_eq h.whole]
          rcases hfits with ⟨now, draw, -, hdraw, hfresh⟩ | ⟨hnone, -⟩
          · rw [hid] at hdraw
            exact Option.some.inj hdraw ▸ hfresh
          · cases hid.symm.trans hnone
        have happly : foldLines (s.completed month ++ [line]) =
            (foldLines (s.completed month)).apply line := by
          rw [foldLines, List.foldl_append]
          rfl
        rw [happly, order_apply hsound hnew, ← folded_eq h.whole, h.order, List.filterMap_append]
        cases hposted : line.posted with
        | none => simp [hposted]
        | some id => simp [hposted]
      · rw [← folded_eq h.whole]
        exact h.order m
    · rw [happends.posts]
      refine List.pairwise_append.2 ⟨h.ascends, ?_, fun a ha b hb => ?_⟩
      · cases line.posted with
        | none => exact List.Pairwise.nil
        | some id => exact List.pairwise_singleton _ _
      · -- the months of the earlier posts are months of the store
        obtain ⟨id, hid, rfl⟩ := Option.map_eq_some_iff.1 (Option.mem_toList.1 hb)
        obtain ⟨e, he, hpost⟩ := List.mem_filterMap.1 ha
        obtain ⟨i, hi, rfl⟩ := Option.map_eq_some_iff.1 hpost
        have hposted : line.posted ≠ none := by
          rw [hid]
          exact Option.some_ne_none id
        exact (hturn.2 month line happends.appended hposted).2 e.1 (h.whole.mem_listMonths he hi)
  · exact absurd hcrash (hturn.1 month line written)

lemma ordered_run {events : List ChatEvent}
    (h : Machine.Along ChatStore.step InTurn .empty events) :
    (Machine.run ChatStore.step .empty events).Ordered :=
  Machine.run_invariant_along (fun _ _ hs hok => ordered_step hs hok) ordered_empty h

/-- **The order of the pages is the order of acceptance.** -/
theorem spots_eq (h : s.Ordered) : s.spots = s.posts := by
  have hlisted : ∀ e ∈ s.posts, e.1 ∈ s.listMonths := fun e he => by
    obtain ⟨entry, hentry, hpost⟩ := List.mem_filterMap.1 he
    obtain ⟨id, hid, rfl⟩ := Option.map_eq_some_iff.1 hpost
    exact h.whole.mem_listMonths hentry hid
  have hgroups : (s.listMonths.flatMap fun month => s.posts.filter (·.1 = month)) = s.posts :=
    Rows.flatMap_filter_key List.lt_irrefl (pairwise_listMonths h.whole.readable) h.ascends hlisted
  rw [← hgroups, spots]
  refine List.flatMap_congr fun month _ => ?_
  rw [filter_posts, h.order]

lemma map_posts (s : ChatStore) : s.posts.map Prod.snd = s.accepted := by
  rw [posts, accepted, List.map_filterMap]
  refine congrArg (fun f => s.appended.filterMap f) (funext fun e => ?_)
  rw [Option.map_map]
  exact Option.map_id'

lemma filterMap_live (h : s.Ordered) {rows : List (JsString × JsString)}
    (hrows : ∀ e ∈ rows, e ∈ s.posts) :
    rows.filterMap s.live = (rows.map Prod.snd).filterMap s.message := by
  rw [List.filterMap_map]
  refine List.filterMap_congr fun e he => ?_
  obtain ⟨entry, hentry, hpost⟩ := List.mem_filterMap.1 (hrows e he)
  obtain ⟨id, hid, rfl⟩ := Option.map_eq_some_iff.1 hpost
  rw [Function.comp_apply, message, h.whole.ids entry hentry id hid]
  rfl

lemma mem_accepted_of_place (h : s.Whole) {id : JsString} (hplace : s.place id ≠ none) :
    id ∈ s.accepted := by
  cases hmonth : monthOfId id with
  | none => exact absurd (by rw [place, hmonth]; rfl) hplace
  | some month =>
    have hmem : id ∈ (s.folded month).order := by
      by_contra hnone
      exact hplace (by rw [place, hmonth, Option.bind_some, List.idxOf?_eq_none_iff.2 hnone]; rfl)
    rw [folded_eq h, foldLines] at hmem
    obtain ⟨line, hline, hposted⟩ := (exists_of_mem_order hmem).resolve_left List.not_mem_nil
    obtain ⟨e, he, rfl⟩ := List.mem_map.1 hline
    exact List.mem_filterMap.2 ⟨e, (List.mem_filter.1 he).1, hposted⟩

lemma spotsAfter_pointer (h : s.Ordered) (pointer : Option JsString) :
    ∃ rows, s.spotsAfter (pointer.bind s.place) = rows ∧ (∀ e ∈ rows, e ∈ s.posts) ∧
      rows.map Prod.snd = s.acceptedAfter pointer := by
  cases pointer with
  | none => exact ⟨s.posts, (spotsAfter_none s).trans (spots_eq h), fun _ he => he, map_posts s⟩
  | some id =>
    rw [Option.bind_some, acceptedAfter]
    split_ifs with hid
    · obtain ⟨front, back, haccepted, hfront⟩ := List.eq_append_cons_of_mem hid
      have hdrop : (s.accepted.dropWhile (· ≠ id)).tail = back := by
        have hall : ∀ i ∈ front, decide (i ≠ id) = true := fun i hi =>
          decide_eq_true fun heq => hfront (heq ▸ hi)
        rw [haccepted, List.dropWhile_append_of_pos hall, List.dropWhile_cons_of_neg (by simp)]
        rfl
      rw [← map_posts] at haccepted
      obtain ⟨before, rest, hposts, rfl, hrest⟩ := List.map_eq_append_iff.1 haccepted
      obtain ⟨⟨month, i⟩, after, rfl, rfl, rfl⟩ := List.map_eq_cons_iff.1 hrest
      refine ⟨after, spotsAfter_place h.whole.readable ((spots_eq h).trans hposts), fun e he => ?_,
        hdrop.symm⟩
      rw [hposts]
      exact List.mem_append_right _ (List.mem_cons_of_mem _ he)
    · have hplace : s.place id = none := by
        by_contra hne
        exact hid (mem_accepted_of_place h.whole hne)
      rw [hplace]
      exact ⟨s.posts, (spotsAfter_none s).trans (spots_eq h), fun _ he => he, map_posts s⟩

/-- **The order of the members chat is the order of acceptance.** As long as no post is accepted in a
month before one that the store has, and posts are in years of four digits, all pages together have the
live messages in the order in which their posts were accepted, and an unread count has the live ones
that were accepted after the post of the pointer, up to the cap. -/
theorem chat_order_accepted {events : List ChatEvent}
    (h : Machine.Along ChatStore.step InTurn .empty events) :
    (∀ limit fuel, (Machine.run ChatStore.step .empty events).accepted.length < fuel →
      pages limit fuel (Machine.run ChatStore.step .empty events) none =
        (Machine.run ChatStore.step .empty events).accepted.filterMap
          (Machine.run ChatStore.step .empty events).message) ∧
    ∀ userId, ((Machine.run ChatStore.step .empty events).unreadCount userId).1 =
      min MEMBERS_CHAT_UNREAD_CAP
        (((Machine.run ChatStore.step .empty events).acceptedAfter
          ((Machine.run ChatStore.step .empty events).getReadPointer userId)).filterMap
            (Machine.run ChatStore.step .empty events).message).length := by
  have hordered := ordered_run h
  set s := Machine.run ChatStore.step .empty events
  refine ⟨fun limit fuel hfuel => ?_, fun userId => ?_⟩
  · have hspots : s.spotsBefore (s.cursorOf none) = s.posts := spots_eq hordered
    have hlength : (s.spotsBefore (s.cursorOf none)).length < fuel := by
      rw [hspots, ← List.length_map (f := Prod.snd), map_posts]
      exact hfuel
    rw [pages_eq hordered.whole.coherent hordered.whole.readable limit
      (List.append_nil s.spots).symm hlength, hspots, filterMap_live hordered fun _ he => he, map_posts]
  · obtain ⟨rows, hrows, hposts, hafter⟩ := spotsAfter_pointer hordered (s.getReadPointer userId)
    rw [unreadCount_fst hordered.whole.coherent, hrows, filterMap_live hordered hposts, hafter]

/-! ### A clock that moves back -/

/-- A post comes behind the one of the month before. -/
theorem chat_order_accepted_ascending :
    (∀ limit fuel, (Machine.run ChatStore.step .empty [earlierPost, examplePost]).accepted.length < fuel →
      pages limit fuel (Machine.run ChatStore.step .empty [earlierPost, examplePost]) none =
        (Machine.run ChatStore.step .empty [earlierPost, examplePost]).accepted.filterMap
          (Machine.run ChatStore.step .empty [earlierPost, examplePost]).message) ∧
    ∀ userId, ((Machine.run ChatStore.step .empty [earlierPost, examplePost]).unreadCount userId).1 =
      min MEMBERS_CHAT_UNREAD_CAP
        (((Machine.run ChatStore.step .empty [earlierPost, examplePost]).acceptedAfter
          ((Machine.run ChatStore.step .empty [earlierPost, examplePost]).getReadPointer
            userId)).filterMap
            (Machine.run ChatStore.step .empty [earlierPost, examplePost]).message).length := by
  have hfirst : (ChatStore.empty.step earlierPost).appended.map Prod.fst = [js "2026-08"] := by
    decide
  have hsecond : ((ChatStore.empty.step earlierPost).step examplePost).appended.map Prod.fst =
      [js "2026-08", js "2026-09"] := by
    decide
  refine chat_order_accepted ⟨⟨fun _ _ _ hcrash => ChatEvent.noConfusion hcrash,
    fun month line happended _ => ?_⟩, ⟨fun _ _ _ hcrash => ChatEvent.noConfusion hcrash,
    fun month line happended _ => ?_⟩, trivial⟩
  · rw [happended] at hfirst
    rw [show month = js "2026-08" from (List.cons.inj hfirst).1]
    have hlisted : ChatStore.empty.listMonths = [] := List.mergeSort_nil
    rw [hlisted]
    exact ⟨by decide, fun m hm => absurd hm List.not_mem_nil⟩
  · rw [happended, List.map_append, hfirst] at hsecond
    rw [show month = js "2026-09" from (List.cons.inj (List.cons.inj hsecond).2).1]
    have hlisted : (ChatStore.empty.step earlierPost).listMonths = [js "2026-08"] := by
      decide +kernel
    rw [hlisted]
    refine ⟨by decide, fun m hm => ?_⟩
    rw [List.mem_singleton.1 hm]
    decide

/-- A clock that moves back over the end of a month reorders the posts. -/
theorem chat_order_by_clock :
    ¬∀ (events : List ChatEvent), (∀ event ∈ events, ∃ input now draw, event = .post input now draw) →
      ∀ limit fuel, (Machine.run ChatStore.step .empty events).accepted.length < fuel →
        pages limit fuel (Machine.run ChatStore.step .empty events) none =
          (Machine.run ChatStore.step .empty events).accepted.filterMap
            (Machine.run ChatStore.step .empty events).message := by
  intro h
  have horder := congrArg (List.map (·.id)) (h [examplePost, earlierPost] (by
    intro event hevent
    rcases List.mem_pair.1 hevent with rfl | rfl
    · exact ⟨_, _, _, rfl⟩
    · exact ⟨_, _, _, rfl⟩) none 3 (by decide))
  have hmonths : (Machine.run ChatStore.step .empty [examplePost, earlierPost]).listMonths =
      [js "2026-08", js "2026-09"] := by
    have hfiles : ((Machine.run ChatStore.step .empty [examplePost, earlierPost]).files.map
        Prod.fst).filter isMonth = [js "2026-09", js "2026-08"] := by
      decide
    rw [listMonths, hfiles, List.mergeSort]
    simp only [List.MergeSort.Internal.splitInTwo_fst, List.MergeSort.Internal.splitInTwo_snd]
    simp only [List.length_cons, List.length_nil, List.take, List.drop, List.mergeSort]
    rw [List.cons_merge_cons, if_neg (by decide)]
    simp
  have hpage : ∀ (s : ChatStore) (months : List JsString), s.listMonths = months →
      s.page none none = (⟨(walkMonths none 100 s months.reverse []).1.1.reverse,
        (walkMonths none 100 s months.reverse []).1.2⟩,
        (walkMonths none 100 s months.reverse []).2) := by
    rintro s _ rfl
    rfl
  have hpages : (pages none 3 (Machine.run ChatStore.step .empty [examplePost, earlierPost]) none).map
      (·.id) = [js "202608-05060708", js "202609-01020304"] := by
    rw [pages, hpage _ _ hmonths]
    decide +kernel
  have haccepted : ((Machine.run ChatStore.step .empty [examplePost, earlierPost]).accepted.filterMap
      (Machine.run ChatStore.step .empty [examplePost, earlierPost]).message).map (·.id) =
        [js "202609-01020304", js "202608-05060708"] := by
    decide +kernel
  rw [hpages, haccepted] at horder
  exact absurd horder (by decide)

end Runs

end ChatStore

end Isomux
