import Isomux.Members.Chat

set_option autoImplicit false

/-!
# The pages of the members chat

The posts of all months lie in one order: the months in the order of their names, and in a month the
lines of its file. A page has the live posts before its cursor, as many as it may have, and the unread
count has the live posts behind the pointer, up to the cap. Who asks for the page before the first
message of the last one, until there is no more, has seen every live post in that order.

## Main results

* `Isomux.ChatStore.page_fst`, `Isomux.ChatStore.unreadCount_fst` — a page and an unread count.
* `Isomux.ChatStore.pages_eq` — the pages have all live posts in order.
-/

namespace Isomux

namespace MembersChat

/-! ## Folded months -/

/-- No id is there twice, and a live message has its id. -/
structure FoldedMonth.Sound (folded : FoldedMonth) : Prop where
  nodup : folded.order.Nodup
  message : ∀ id m, folded.byId.get id = some m → m.id = id ∧ id ∈ folded.order

section Sound

variable {folded : FoldedMonth} {id : JsString} {m : MembersChatMessage}

lemma FoldedMonth.Sound.set (h : folded.Sound) (hid : m.id = id) (hmem : id ∈ folded.order) :
    FoldedMonth.Sound { folded with byId := folded.byId.set id m } := by
  refine ⟨h.nodup, fun key value hget => ?_⟩
  rw [JsMap.get_set] at hget
  split_ifs at hget with heq
  · rw [← Option.some.inj hget, heq]
    exact ⟨hid, hmem⟩
  · exact h.message key value hget

/-- A line keeps a month sound. -/
lemma FoldedMonth.Sound.apply (h : folded.Sound) (line : Line) : (folded.apply line).Sound := by
  cases line with
  | post replyTo id kind userId userName device timestamp content attachments =>
    rw [FoldedMonth.apply]
    split_ifs with hthere
    · exact h
    · rw [Bool.or_eq_true, List.contains_iff_mem, not_or] at hthere
      refine ⟨?_, fun key value hget => ?_⟩
      · rw [List.nodup_append]
        refine ⟨h.nodup, List.pairwise_singleton _ _, fun a ha b hb heq => ?_⟩
        rw [List.mem_singleton.1 hb] at heq
        exact hthere.2 (heq ▸ ha)
      · dsimp only at hget
        rw [JsMap.get_set] at hget
        split_ifs at hget with heq
        · rw [← Option.some.inj hget, heq]
          exact ⟨rfl, List.mem_append_right _ List.mem_cons_self⟩
        · exact (h.message key value hget).imp_right (List.mem_append_left _)
  | edit id timestamp content | pin id timestamp active | react id timestamp reactor active =>
    rw [FoldedMonth.apply]
    split
    · exact h
    · rename_i m hm
      exact h.set (h.message id m hm).1 (h.message id m hm).2
  | delete id timestamp =>
    refine ⟨h.nodup, fun key value hget => ?_⟩
    rw [FoldedMonth.apply, JsMap.get_delete] at hget
    split_ifs at hget
    exact h.message key value hget

lemma sound_foldText (text : JsString) : (foldText text).Sound := by
  refine List.foldlRecOn (motive := FoldedMonth.Sound) _ _ ⟨List.nodup_nil, nofun⟩ ?_
  intro folded h raw _
  unfold foldRaw
  split_ifs
  · exact h
  · split
    · exact h
    · exact h.apply _

end Sound

end MembersChat

open MembersChat

namespace ChatStore

/-! ## All posts in order -/

/-- All posts in order, live or deleted, with their months. -/
def spots (s : ChatStore) : List (JsString × JsString) :=
  s.listMonths.flatMap fun month => (s.folded month).order.map fun id => (month, id)

/-- The message of a post, when it is live. -/
def live (s : ChatStore) (spot : JsString × JsString) : Option MembersChatMessage :=
  (s.folded spot.1).byId.get spot.2

def spotsBefore (s : ChatStore) (cursor : Option (JsString × ℕ)) : List (JsString × JsString) :=
  s.listMonths.flatMap fun month =>
    if cursor.any fun c => c.1 < month then []
    else (idsBefore cursor month (s.folded month).order).map fun id => (month, id)

/-- The posts that count as unread, live or deleted. -/
def spotsAfter (s : ChatStore) (position : Option (JsString × ℕ)) : List (JsString × JsString) :=
  s.listMonths.flatMap fun month =>
    if position.any fun p => month < p.1 then []
    else (idsAfter position month (s.folded month).order).map fun id => (month, id)

/-- Every month has one file, and every post is in the month its id names. -/
structure Readable (s : ChatStore) : Prop where
  files : (s.files.map Prod.fst).Nodup
  ids : ∀ month ∈ s.listMonths, ∀ id ∈ (s.folded month).order, monthOfId id = some month

def pageLimit (limit : Option ℤ) : ℕ :=
  (max 1 (min MEMBERS_CHAT_MAX_PAGE (limit.getD MEMBERS_CHAT_DEFAULT_PAGE))).toNat

/-- The messages of all pages, from a cursor backward, oldest first. -/
def pages (limit : Option ℤ) : ℕ → ChatStore → Option JsString → List MembersChatMessage
  | 0, _, _ => []
  | fuel + 1, s, before =>
    let page := s.page before limit
    if page.1.hasMore then
      pages limit fuel page.2 (page.1.messages.head?.map (·.id)) ++ page.1.messages
    else page.1.messages

section Pages

variable {s s' : ChatStore} {month : JsString} {limit : ℕ} {cursor : Option (JsString × ℕ)}
  {newestFirst : List MembersChatMessage}

lemma Looks.listMonths (h : s.Looks s') : s'.listMonths = s.listMonths := by
  rw [ChatStore.listMonths, ChatStore.listMonths, h.files]

lemma Looks.spotsBefore (h : s.Looks s') (cursor : Option (JsString × ℕ)) :
    s'.spotsBefore cursor = s.spotsBefore cursor := by
  rw [ChatStore.spotsBefore, ChatStore.spotsBefore, h.listMonths]
  simp only [h.folded]

lemma Looks.live (h : s.Looks s') : s'.live = s.live := by
  funext spot
  rw [ChatStore.live, ChatStore.live, h.folded]

lemma Looks.place (h : s.Looks s') (id : JsString) : s'.place id = s.place id := by
  simp only [ChatStore.place, h.folded]

lemma Looks.readable (h : s.Looks s') (hreadable : s.Readable) : s'.Readable := by
  refine ⟨h.files ▸ hreadable.files, fun month hmonth id hid => ?_⟩
  rw [h.listMonths] at hmonth
  rw [h.folded] at hid
  exact hreadable.ids month hmonth id hid

lemma walkIds_eq (folded : FoldedMonth) (ids : List JsString) (h : newestFirst.length ≤ limit) :
    walkIds folded limit ids newestFirst =
      ((newestFirst ++ ids.filterMap folded.byId.get).take limit,
        decide (limit < (newestFirst ++ ids.filterMap folded.byId.get).length)) := by
  induction ids generalizing newestFirst with
  | nil =>
    rw [walkIds, List.filterMap_nil, List.append_nil, List.take_of_length_le h,
      decide_eq_false (Nat.not_lt.2 h)]
  | cons id ids ih =>
    rw [walkIds]
    cases hget : folded.byId.get id with
    | none =>
      rw [List.filterMap_cons_none hget]
      exact ih h
    | some m =>
      rw [List.filterMap_cons_some hget]
      dsimp only
      split_ifs with hfull
      · rw [List.take_left' hfull, List.length_append, List.length_cons,
          decide_eq_true (by omega : limit < newestFirst.length + (_ + 1))]
      · have hroom : (newestFirst ++ [m]).length ≤ limit := by
          rw [List.length_append, List.length_singleton]
          omega
        rw [ih hroom, List.append_assoc, List.singleton_append]

/-- The live posts of a month that a page comes to, newest first. -/
def monthPart (s : ChatStore) (cursor : Option (JsString × ℕ)) (month : JsString) :
    List MembersChatMessage :=
  if cursor.any fun c => c.1 < month then []
  else (idsBefore cursor month (s.folded month).order).reverse.filterMap (s.folded month).byId.get

lemma walkMonths_fst (h : s.Coherent) (months : List JsString) (hroom : newestFirst.length ≤ limit) :
    (walkMonths cursor limit s months newestFirst).1 =
      ((newestFirst ++ months.flatMap (s.monthPart cursor)).take limit,
        decide (limit < (newestFirst ++ months.flatMap (s.monthPart cursor)).length)) := by
  induction months generalizing s newestFirst with
  | nil =>
    rw [walkMonths, List.flatMap_nil, List.append_nil, List.take_of_length_le hroom,
      decide_eq_false (Nat.not_lt.2 hroom)]
  | cons month months ih =>
    rw [walkMonths, List.flatMap_cons]
    split_ifs with hskip
    · rw [monthPart, if_pos hskip, List.nil_append]
      exact ih h hroom
    · have hpart : s.monthPart cursor month =
          (idsBefore cursor month (s.fold month).1.order).reverse.filterMap (s.fold month).1.byId.get := by
        rw [monthPart, if_neg hskip, fold_fst h]
      have hsame : (s.fold month).2.monthPart cursor = s.monthPart cursor := by
        funext m
        rw [monthPart, monthPart, (looks_fold s month).folded]
      dsimp only
      rw [walkIds_eq _ _ hroom, ← hpart]
      split_ifs with hfull
      · have hover := of_decide_eq_true hfull
        dsimp only
        rw [← List.append_assoc, List.take_append_of_le_length (Nat.le_of_lt hover),
          decide_eq_true hover, decide_eq_true (by rw [List.length_append]; omega)]
      · have hfits := Nat.not_lt.1 (of_decide_eq_false (Bool.eq_false_iff.2 hfull))
        rw [List.take_of_length_le hfits, ih ((looks_fold s month).coherent h) hfits, hsame,
          List.append_assoc]

lemma flatMap_monthPart (s : ChatStore) (cursor : Option (JsString × ℕ)) :
    s.listMonths.reverse.flatMap (s.monthPart cursor) =
      ((s.spotsBefore cursor).filterMap s.live).reverse := by
  rw [List.flatMap_reverse, spotsBefore, List.filterMap_flatMap]
  refine congrArg List.reverse (congrArg (fun f => s.listMonths.flatMap f) (funext fun month => ?_))
  rw [Function.comp_apply, monthPart]
  split_ifs
  · rfl
  · rw [List.filterMap_reverse, List.reverse_reverse, List.filterMap_map]
    rfl

def cursorOf (s : ChatStore) (before : Option JsString) : Option (JsString × ℕ) := before.bind s.place

/-- **A page** has the last of the live posts before its cursor. -/
theorem page_fst (h : s.Coherent) (before : Option JsString) (limit : Option ℤ) :
    (s.page before limit).1.messages =
        ((s.spotsBefore (s.cursorOf before)).filterMap s.live).drop
          (((s.spotsBefore (s.cursorOf before)).filterMap s.live).length - pageLimit limit) ∧
      (s.page before limit).1.hasMore =
        decide (pageLimit limit < ((s.spotsBefore (s.cursorOf before)).filterMap s.live).length) := by
  have hcursor : ∃ s' : ChatStore, s.Looks s' ∧ s.page before limit =
      (⟨(walkMonths (s.cursorOf before) (pageLimit limit) s' s'.listMonths.reverse []).1.1.reverse,
        (walkMonths (s.cursorOf before) (pageLimit limit) s' s'.listMonths.reverse []).1.2⟩,
        (walkMonths (s.cursorOf before) (pageLimit limit) s' s'.listMonths.reverse []).2) := by
    cases before with
    | none => exact ⟨s, Looks.refl s, rfl⟩
    | some id =>
      refine ⟨(s.positionOf id).2, looks_positionOf s id, ?_⟩
      rw [cursorOf, Option.bind_some, ← positionOf_fst h]
      rfl
  obtain ⟨s', hlooks, hpage⟩ := hcursor
  rw [hpage, walkMonths_fst (hlooks.coherent h) _ (Nat.zero_le _), List.nil_append,
    flatMap_monthPart, hlooks.spotsBefore, hlooks.live]
  constructor
  · rw [List.reverse_take, List.reverse_reverse, List.length_reverse]
  · rw [List.length_reverse]

end Pages

/-! ## Places -/

section Places

variable {s : ChatStore} {month id : JsString} {before after : List (JsString × JsString)}

lemma pairwise_listMonths (h : s.Readable) : s.listMonths.Pairwise (· < ·) := by
  have hsorted : s.listMonths.Pairwise fun a b => decide (a ≤ b) = true := by
    refine List.pairwise_mergeSort (fun a b c hab hbc => ?_) (fun a b => ?_) _
    · exact decide_eq_true (List.le_trans (of_decide_eq_true hab) (of_decide_eq_true hbc))
    · rw [Bool.or_eq_true, decide_eq_true_eq, decide_eq_true_eq]
      exact List.le_total a b
  have hnodup : s.listMonths.Nodup :=
    (List.mergeSort_perm _ _).nodup_iff.2 (h.files.filter _)
  exact List.Pairwise.imp₂ (fun a b hle hne => Std.lt_of_le_of_ne (of_decide_eq_true hle) hne)
    hsorted hnodup

lemma exists_of_flatMap {order : JsString → List JsString} {months : List JsString}
    (h : (months.flatMap fun m => (order m).map fun i => (m, i)) = before ++ (month, id) :: after) :
    ∃ earlier later front back, months = earlier ++ month :: later ∧
      order month = front ++ id :: back ∧
      before = (earlier.flatMap fun m => (order m).map fun i => (m, i)) ++
        front.map (fun i => (month, i)) ∧
      after = back.map (fun i => (month, i)) ++
        later.flatMap fun m => (order m).map fun i => (m, i) := by
  induction months generalizing before with
  | nil => exact absurd (congrArg List.length h) (by simp)
  | cons m months ih =>
    rw [List.flatMap_cons] at h
    rcases List.append_eq_append_iff.1 h with ⟨rest, rfl, hrest⟩ | ⟨rest, hmonth, hrest⟩
    · obtain ⟨earlier, later, front, back, rfl, horder, rfl, rfl⟩ := ih hrest
      exact ⟨m :: earlier, later, front, back, rfl, horder, by simp, rfl⟩
    · cases rest with
      | nil =>
        rw [List.nil_append] at hrest
        obtain ⟨earlier, later, front, back, rfl, horder, hbefore, rfl⟩ :=
          ih (hrest.symm.trans (List.nil_append _).symm)
        refine ⟨m :: earlier, later, front, back, rfl, horder, ?_, rfl⟩
        rw [List.append_nil] at hmonth
        rw [List.flatMap_cons, hmonth, List.append_assoc, ← hbefore, List.append_nil]
      | cons spot rest =>
        obtain ⟨rfl, hafter⟩ := List.cons.inj hrest
        obtain ⟨front, back', horder, rfl, hback⟩ := List.map_eq_append_iff.1 hmonth
        obtain ⟨i, back, rfl, hi, rfl⟩ := List.map_eq_cons_iff.1 hback
        obtain ⟨rfl, rfl⟩ := Prod.mk.inj hi
        exact ⟨[], months, front, back, rfl, horder, rfl, hafter⟩

lemma place_eq (h : s.Readable) (hmonth : month ∈ s.listMonths) {front back : List JsString}
    (horder : (s.folded month).order = front ++ id :: back) :
    s.place id = some (month, front.length) := by
  have hnodup := (sound_foldText (s.text month)).nodup
  rw [← folded, horder] at hnodup
  have hfront : id ∉ front := fun hmem =>
    (List.nodup_append.1 hnodup).2.2 id hmem id List.mem_cons_self rfl
  have hlength : front.length < (front ++ id :: back).length := by simp
  have hindex : (front ++ id :: back).idxOf? id = some front.length := by
    refine List.idxOf?_eq_some_iff.2 ⟨hlength, by simp, fun j hj heq => hfront ?_⟩
    rw [List.getElem_append_left hj] at heq
    exact heq ▸ List.getElem_mem hj
  rw [place, h.ids month hmonth id (horder ▸ List.mem_append_right _ List.mem_cons_self),
    Option.bind_some, horder, hindex, Option.map_some]

lemma spotsBefore_place (h : s.Readable) (hspots : s.spots = before ++ (month, id) :: after) :
    s.spotsBefore (s.place id) = before := by
  obtain ⟨earlier, later, front, back, hmonths, horder, rfl, -⟩ := exists_of_flatMap hspots
  have hmonth : month ∈ s.listMonths := hmonths ▸ List.mem_append_right _ List.mem_cons_self
  have hpairwise := pairwise_listMonths h
  rw [hmonths] at hpairwise
  obtain ⟨-, hlater, hearlier⟩ := List.pairwise_append.1 hpairwise
  rw [place_eq h hmonth horder, spotsBefore, hmonths, List.flatMap_append, List.flatMap_cons]
  have hfront : (earlier.flatMap fun m => if (some (month, front.length)).any (fun c => c.1 < m) then []
      else (idsBefore (some (month, front.length)) m (s.folded m).order).map fun i => (m, i)) =
        earlier.flatMap fun m => (s.folded m).order.map fun i => (m, i) := by
    refine List.flatMap_congr fun m hm => ?_
    have hlt : m < month := hearlier m hm month List.mem_cons_self
    have hne : m ≠ month := fun heq => List.lt_irrefl month (heq ▸ hlt)
    rw [Option.any_some, if_neg (by simpa using List.le_of_lt hlt), idsBefore, if_neg hne]
  have hback : (later.flatMap fun m => if (some (month, front.length)).any (fun c => c.1 < m) then []
      else (idsBefore (some (month, front.length)) m (s.folded m).order).map fun i => (m, i)) = [] := by
    refine List.flatMap_eq_nil_iff.2 fun m hm => ?_
    rw [Option.any_some, if_pos (decide_eq_true ((List.pairwise_cons.1 hlater).1 m hm))]
  rw [hfront, hback, List.append_nil, Option.any_some, if_neg (by simp [List.lt_irrefl]), idsBefore,
    if_pos rfl, horder, List.take_left]

lemma spotsAfter_place (h : s.Readable) (hspots : s.spots = before ++ (month, id) :: after) :
    s.spotsAfter (s.place id) = after := by
  obtain ⟨earlier, later, front, back, hmonths, horder, -, rfl⟩ := exists_of_flatMap hspots
  have hmonth : month ∈ s.listMonths := hmonths ▸ List.mem_append_right _ List.mem_cons_self
  have hpairwise := pairwise_listMonths h
  rw [hmonths] at hpairwise
  obtain ⟨-, hlater, hearlier⟩ := List.pairwise_append.1 hpairwise
  rw [place_eq h hmonth horder, spotsAfter, hmonths, List.flatMap_append, List.flatMap_cons]
  have hfront : (earlier.flatMap fun m => if (some (month, front.length)).any (fun p => m < p.1) then []
      else (idsAfter (some (month, front.length)) m (s.folded m).order).map fun i => (m, i)) = [] := by
    refine List.flatMap_eq_nil_iff.2 fun m hm => ?_
    rw [Option.any_some, if_pos (decide_eq_true (hearlier m hm month List.mem_cons_self))]
  have hback : (later.flatMap fun m => if (some (month, front.length)).any (fun p => m < p.1) then []
      else (idsAfter (some (month, front.length)) m (s.folded m).order).map fun i => (m, i)) =
        later.flatMap fun m => (s.folded m).order.map fun i => (m, i) := by
    refine List.flatMap_congr fun m hm => ?_
    have hlt : month < m := (List.pairwise_cons.1 hlater).1 m hm
    have hne : m ≠ month := fun heq => List.lt_irrefl month (heq ▸ hlt)
    rw [Option.any_some, if_neg (by simpa using List.le_of_lt hlt), idsAfter, if_neg hne]
  have hdrop : (front ++ id :: back).drop (front.length + 1) = back := by
    rw [List.append_cons front id back]
    exact List.drop_left' (by simp)
  rw [hfront, hback, List.nil_append, Option.any_some, if_neg (by simp [List.lt_irrefl]), idsAfter,
    if_pos rfl, horder, hdrop]

lemma spotsAfter_none (s : ChatStore) : s.spotsAfter none = s.spots := rfl

lemma exists_of_filterMap {posts : List (JsString × JsString)} {front back : List MembersChatMessage}
    {first : MembersChatMessage} (h : posts.filterMap s.live = front ++ first :: back) :
    ∃ before month id after, posts = before ++ (month, id) :: after ∧
      before.filterMap s.live = front ∧ first.id = id := by
  obtain ⟨l, l', rfl, rfl, hback⟩ := List.filterMap_eq_append_iff.1 h
  obtain ⟨dead, ⟨month, id⟩, after, rfl, hdead, hlive, -⟩ := List.filterMap_eq_cons_iff.1 hback
  have hid := ((sound_foldText (s.text month)).message id first hlive).1
  refine ⟨l ++ dead, month, id, after, (List.append_assoc ..).symm, ?_, hid⟩
  rw [List.filterMap_append, List.filterMap_eq_nil_iff.2 hdead, List.append_nil]

lemma page_last (h : s.Coherent) {cursor : Option JsString} {limit : Option ℤ}
    (hmore : (s.page cursor limit).1.hasMore = false) :
    (s.page cursor limit).1.messages = (s.spotsBefore (s.cursorOf cursor)).filterMap s.live := by
  obtain ⟨hmessages, hover⟩ := page_fst h cursor limit
  rw [hover, decide_eq_false_iff_not, Nat.not_lt] at hmore
  rw [hmessages, Nat.sub_eq_zero_of_le hmore, List.drop_zero]

lemma page_more (h : s.Coherent) {cursor : Option JsString} {limit : Option ℤ}
    (hmore : (s.page cursor limit).1.hasMore = true) :
    ∃ before month id after, s.spotsBefore (s.cursorOf cursor) = before ++ (month, id) :: after ∧
      (s.page cursor limit).1.messages = ((month, id) :: after).filterMap s.live ∧
      (s.page cursor limit).1.messages.head?.map (·.id) = some id := by
  obtain ⟨hmessages, hover⟩ := page_fst h cursor limit
  set posts := s.spotsBefore (s.cursorOf cursor)
  set total := (posts.filterMap s.live).length with htotal
  have hlimit : 1 ≤ pageLimit limit := by
    unfold pageLimit
    omega
  have hlt : pageLimit limit < total := of_decide_eq_true (hover.symm.trans hmore)
  have hindex : total - pageLimit limit < (posts.filterMap s.live).length := by omega
  have hsplit := List.take_append_drop (total - pageLimit limit) (posts.filterMap s.live)
  have hcons := List.drop_eq_getElem_cons hindex
  obtain ⟨before, month, id, after, hposts, hbefore, hid⟩ :=
    exists_of_filterMap ((congrArg _ hcons).symm.trans hsplit).symm
  refine ⟨before, month, id, after, hposts, ?_, ?_⟩
  · -- the posts before the page are the live posts that it leaves
    rw [hmessages]
    refine List.append_cancel_left (hsplit.trans ?_)
    rw [← hbefore, ← List.filterMap_append, ← hposts]
  · rw [hmessages, hcons, List.head?_cons, Option.map_some, hid]

/-- **The pages have all live posts in order.** With a fuel beyond the number of posts, the pages from a
cursor backward are the live posts before it.

**Proof sketch.** A page with more before it starts at a live post, and what is before its cursor is
what is before this post, and the page. The rest is the induction. -/
theorem pages_eq (hcoherent : s.Coherent) (h : s.Readable) (limit : Option ℤ) {fuel : ℕ}
    {cursor : Option JsString} (hspots : s.spots = s.spotsBefore (s.cursorOf cursor) ++ after)
    (hfuel : (s.spotsBefore (s.cursorOf cursor)).length < fuel) :
    pages limit fuel s cursor = (s.spotsBefore (s.cursorOf cursor)).filterMap s.live := by
  induction fuel generalizing s cursor after with
  | zero => exact absurd hfuel (Nat.not_lt_zero _)
  | succ fuel ih =>
    rw [pages]
    split_ifs with hmore
    · obtain ⟨before, month, id, after', hposts, hmessages, hhead⟩ := page_more hcoherent hmore
      have hspots' : s.spots = before ++ (month, id) :: (after' ++ after) := by
        rw [hspots, hposts, List.append_assoc, List.cons_append]
      -- the next page comes to the posts before this one
      have hlooks := looks_page s cursor limit
      have hcursor : (s.page cursor limit).2.cursorOf (some id) = s.place id := hlooks.place id
      have hnext : (s.page cursor limit).2.spotsBefore ((s.page cursor limit).2.cursorOf (some id)) =
          before := by
        rw [hcursor, hlooks.spotsBefore, spotsBefore_place h hspots']
      have hspotsNext : (s.page cursor limit).2.spots =
          (s.page cursor limit).2.spotsBefore ((s.page cursor limit).2.cursorOf (some id)) ++
            (month, id) :: (after' ++ after) := by
        rw [hnext, ← hspots']
        exact hlooks.spotsBefore none
      have hshorter : before.length < fuel := by
        rw [hposts, List.length_append, List.length_cons] at hfuel
        omega
      rw [hhead, ih (hlooks.coherent hcoherent) (hlooks.readable h) hspotsNext (hnext ▸ hshorter), hnext,
        hlooks.live, hmessages, hposts, List.filterMap_append]
    · exact page_last hcoherent (Bool.eq_false_iff.2 hmore)

end Places

/-! ## Unread messages -/

section Unread

variable {s s' : ChatStore} {position : Option (JsString × ℕ)}

lemma countIds_eq (folded : FoldedMonth) (ids : List JsString) {count : ℕ}
    (h : count < MEMBERS_CHAT_UNREAD_CAP) :
    countIds folded ids count =
      min MEMBERS_CHAT_UNREAD_CAP (count + (ids.filterMap folded.byId.get).length) := by
  induction ids generalizing count with
  | nil =>
    rw [countIds, List.filterMap_nil, List.length_nil]
    omega
  | cons id ids ih =>
    rw [countIds, JsMap.has_eq_isSome]
    cases hget : folded.byId.get id with
    | none =>
      rw [List.filterMap_cons_none hget, Option.isSome_none, if_neg (by decide)]
      exact ih h
    | some m =>
      rw [List.filterMap_cons_some hget, Option.isSome_some, if_pos rfl, List.length_cons]
      split_ifs with hcap
      · omega
      · rw [ih (Nat.not_le.1 hcap)]
        omega

def unreadPart (s : ChatStore) (position : Option (JsString × ℕ)) (month : JsString) :
    List MembersChatMessage :=
  if position.any fun p => month < p.1 then []
  else (idsAfter position month (s.folded month).order).filterMap (s.folded month).byId.get

lemma countMonths_fst (h : s.Coherent) (months : List JsString) {count : ℕ}
    (hcount : count < MEMBERS_CHAT_UNREAD_CAP) :
    (countMonths position s months count).1 = min MEMBERS_CHAT_UNREAD_CAP
      (count + (months.flatMap (s.unreadPart position)).length) := by
  induction months generalizing s count with
  | nil =>
    rw [countMonths, List.flatMap_nil, List.length_nil]
    omega
  | cons month months ih =>
    rw [countMonths, List.flatMap_cons]
    split_ifs with hskip
    · rw [unreadPart, if_pos hskip, List.nil_append]
      exact ih h hcount
    · have hpart : s.unreadPart position month =
          (idsAfter position month (s.fold month).1.order).filterMap (s.fold month).1.byId.get := by
        rw [unreadPart, if_neg hskip, fold_fst h]
      have hsame : (s.fold month).2.unreadPart position = s.unreadPart position := by
        funext m
        rw [unreadPart, unreadPart, (looks_fold s month).folded]
      dsimp only
      rw [countIds_eq _ _ hcount, ← hpart, List.length_append]
      split_ifs with hcap
      · omega
      · rw [ih ((looks_fold s month).coherent h) (Nat.not_le.1 hcap), hsame]
        omega

/-- **The unread count** has the live posts behind the pointer, up to the cap. -/
theorem unreadCount_fst (h : s.Coherent) (userId : JsString) :
    (s.unreadCount userId).1 = min MEMBERS_CHAT_UNREAD_CAP
      ((s.spotsAfter ((s.getReadPointer userId).bind s.place)).filterMap s.live).length := by
  have hposition : ∃ s' : ChatStore, s.Looks s' ∧ (s.unreadCount userId).1 =
      (countMonths ((s.getReadPointer userId).bind s.place) s' s.listMonths 0).1 := by
    unfold unreadCount countAfter
    cases s.getReadPointer userId with
    | none => exact ⟨s, Looks.refl s, rfl⟩
    | some id =>
      refine ⟨(s.positionOf id).2, looks_positionOf s id, ?_⟩
      rw [Option.bind_some, ← positionOf_fst h]
  obtain ⟨s', hlooks, hcount⟩ := hposition
  have hsame : s'.unreadPart ((s.getReadPointer userId).bind s.place) =
      s.unreadPart ((s.getReadPointer userId).bind s.place) := by
    funext m
    rw [unreadPart, unreadPart, hlooks.folded]
  have hparts : s.listMonths.flatMap (s.unreadPart ((s.getReadPointer userId).bind s.place)) =
      (s.spotsAfter ((s.getReadPointer userId).bind s.place)).filterMap s.live := by
    rw [spotsAfter, List.filterMap_flatMap]
    refine congrArg (fun f => s.listMonths.flatMap f) (funext fun month => ?_)
    rw [unreadPart]
    split_ifs
    · rfl
    · rw [List.filterMap_map]
      rfl
  rw [hcount, countMonths_fst (hlooks.coherent h) _ (by decide), hsame, hparts, Nat.zero_add]

end Unread

end ChatStore

end Isomux
