import Isomux.Members.ChatPages

set_option autoImplicit false

/-!
# The members chat behind a torn append

A crash in the middle of an append leaves a part of a line at the end of a month. The fold skips it,
and so nothing but this line is lost. But the next line that is appended to the month is joined to the
part, and is skipped with it. As long as no line is appended behind such a part, and no crash leaves a
line of which only the line feed is missing, the months are what the completed lines make of them.

## Main results

* `Isomux.ChatStore.folded_eq` — what is folded from such a file.
* `Isomux.ChatStore.chat_survives_torn_append` — what holds of every run of that kind.
-/

namespace Isomux

namespace MembersChat

/-! ## Lines in files -/

/-- The text is empty or ends with a line feed. -/
def EndsLine (text : JsString) : Prop := text = [] ∨ text.getLast? = some 10

def chatBytes (lines : List Line) : Buffer := lines.flatMap fun line => lineBytes line.fields

/-- What a crash leaves of a line: nothing, or a part that lacks more than the line feed. -/
def TornTail (torn : Buffer) : Prop :=
  torn = [] ∨ ∃ fields, torn <+: lineBytes fields ∧ torn ≠ lineBytes fields ∧
    torn ≠ (Json.object fields).text.toUtf8

section Lines

variable {torn : Buffer} {lines : List Line} {folded : FoldedMonth}

lemma TornTail.exists_text (h : TornTail torn) :
    ∃ text, torn.toUtf8String = text ∧ 10 ∉ text ∧
      (torn = [] ∧ text = [] ∨ text ≠ [] ∧ Json.parse text = none) := by
  rcases h with rfl | ⟨fields, hstart, hcut, hpart⟩
  · exact ⟨[], rfl, List.not_mem_nil, Or.inl ⟨rfl, rfl⟩⟩
  · by_cases hnil : torn = []
    · subst hnil
      exact ⟨[], rfl, List.not_mem_nil, Or.inl ⟨rfl, rfl⟩⟩
    · obtain ⟨text, ⟨more, rfl⟩, hfeed, hreads, htext⟩ := exists_torn hstart hcut hnil
      have hread := hreads [] nofun
      rw [List.append_nil, show Buffer.toUtf8String [] = [] from rfl, List.append_nil] at hread
      have hinside := (htext.resolve_left fun hwhole => hpart hwhole.2).1
      exact ⟨_, hread, hfeed, Or.inr ⟨List.cons_ne_nil _ _, parse_torn hinside⟩⟩

lemma foldRaw_text (line : Line) : foldRaw folded (Json.object line.fields).text = folded.apply line := by
  have hne : JsString.trim (Json.object line.fields).text ≠ [] := by
    rw [trim_object]
    exact List.cons_ne_nil _ _
  rw [foldRaw, if_neg hne, Json.parse_text, Option.bind_some, Line.read_fields]

lemma foldRaw_skip {raw : JsString} (h : raw = [] ∨ Json.parse raw = none) :
    foldRaw folded raw = folded := by
  unfold foldRaw
  rcases h with rfl | h
  · rfl
  · rw [h]
    split_ifs <;> rfl

lemma foldl_foldRaw (lines : List Line) (folded : FoldedMonth) :
    ((lines.map Line.fields).map fun fields => (Json.object fields).text).foldl foldRaw folded =
      lines.foldl FoldedMonth.apply folded := by
  induction lines generalizing folded with
  | nil => rfl
  | cons line lines ih =>
    rw [List.map_cons, List.map_cons, List.foldl_cons, List.foldl_cons, foldRaw_text]
    exact ih _

lemma chatBytes_eq (lines : List Line) :
    chatBytes lines = (lines.map Line.fields).flatMap lineBytes := (List.flatMap_map ..).symm

/-- **What is folded from a file** with complete lines and a part of one. -/
theorem foldText_chatBytes (h : TornTail torn) :
    foldText (Buffer.toUtf8String (chatBytes lines ++ torn)) = foldLines lines := by
  obtain ⟨text, htext, hfeed, hskip⟩ := h.exists_text
  rw [foldText, chatBytes_eq, splitOn_lines, htext, List.splitOn_eq_singleton hfeed, List.foldl_append,
    foldl_foldRaw, List.foldl_cons, List.foldl_nil, foldRaw_skip (hskip.imp And.right And.right)]
  rfl

lemma TornTail.eq_nil (h : TornTail torn)
    (hend : EndsLine (Buffer.toUtf8String (chatBytes lines ++ torn))) : torn = [] := by
  obtain ⟨text, htext, hfeed, ⟨hnil, -⟩ | ⟨hne, -⟩⟩ := h.exists_text
  · exact hnil
  · rw [chatBytes_eq, toUtf8String_lines, htext] at hend
    rcases hend with hempty | hlast
    · exact absurd (List.append_eq_nil_iff.1 hempty).2 hne
    · rw [List.getLast?_append_of_ne_nil _ hne] at hlast
      exact absurd (List.mem_of_getLast? hlast) hfeed

lemma tornTail_take (line : Line) {written : ℕ} (hlt : written < (lineBytes line.fields).length)
    (hne : written + 1 ≠ (lineBytes line.fields).length) :
    TornTail ((lineBytes line.fields).take written) := by
  have hlength : ((lineBytes line.fields).take written).length = written := by
    rw [List.length_take]
    omega
  refine Or.inr ⟨line.fields, List.take_prefix _ _, fun heq => ?_, fun heq => ?_⟩
  · rw [heq] at hlength
    omega
  · rw [heq] at hlength
    rw [lineBytes_eq, List.length_append, List.length_singleton] at hne
    omega

lemma mem_order_apply {line : Line} {id : JsString} (h : id ∈ (folded.apply line).order) :
    id ∈ folded.order ∨ line.posted = some id := by
  cases line with
  | post replyTo i kind userId userName device timestamp content attachments =>
    rw [FoldedMonth.apply] at h
    split_ifs at h
    · exact Or.inl h
    · rcases List.mem_append.1 h with h | h
      · exact Or.inl h
      · exact Or.inr (congrArg some (List.mem_singleton.1 h).symm)
  | delete i timestamp => exact Or.inl h
  | _ =>
    rw [FoldedMonth.apply] at h
    split at h
    · exact Or.inl h
    · exact Or.inl h

lemma exists_of_mem_order {id : JsString} (h : id ∈ (lines.foldl FoldedMonth.apply folded).order) :
    id ∈ folded.order ∨ ∃ line ∈ lines, line.posted = some id := by
  induction lines generalizing folded with
  | nil => exact Or.inl h
  | cons line lines ih =>
    rcases ih h with hthere | ⟨l, hl, hposted⟩
    · exact (mem_order_apply hthere).imp_right fun hposted => ⟨line, List.mem_cons_self, hposted⟩
    · exact Or.inr ⟨l, List.mem_cons_of_mem _ hl, hposted⟩

end Lines

/-! ## Ids -/

lemma isHexDigit_lowerHexDigit {n : ℕ} (h : n < 16) :
    (isJsonDigit (lowerHexDigit n) || (97 ≤ lowerHexDigit n && lowerHexDigit n ≤ 102)) = true := by
  have hall : ∀ n < 16,
      (isJsonDigit (lowerHexDigit n) || (97 ≤ lowerHexDigit n && lowerHexDigit n ≤ 102)) = true := by
    decide
  exact hall n h

lemma beq_hyphen {c : CodeUnit} (h : isJsonDigit c = true) : (c == 45) = false := by
  rw [beq_eq_false_iff_ne]
  rintro rfl
  exact absurd h (by decide)

lemma monthOfId_chatId {month : JsString} (h : isMonth month = true)
    (draw : UInt8 × UInt8 × UInt8 × UInt8) : monthOfId (chatId month (randomHex8 draw)) = some month := by
  have hbyte : ∀ b : UInt8, b.toNat / 16 < 16 ∧ b.toNat % 16 < 16 := fun b =>
    ⟨Nat.div_lt_of_lt_mul b.toNat_lt, Nat.mod_lt _ (by decide)⟩
  simp only [isMonth, Bool.and_eq_true, decide_eq_true_eq] at h
  obtain ⟨⟨⟨hlength, hyear⟩, hhyphen⟩, hdigits⟩ := h
  match month, hlength with
  | [y₁, y₂, y₃, y₄, x, m₁, m₂], _ =>
    obtain rfl : x = 45 := hhyphen
    simp only [List.take, List.drop, List.all_cons, List.all_nil, Bool.and_true, Bool.and_eq_true]
      at hyear hdigits
    obtain ⟨h₁, h₂, h₃, h₄⟩ := hyear
    have herase : List.erase [y₁, y₂, y₃, y₄, 45, m₁, m₂] 45 = [y₁, y₂, y₃, y₄, m₁, m₂] := by
      rw [List.erase, beq_hyphen h₁, List.erase, beq_hyphen h₂, List.erase, beq_hyphen h₃, List.erase,
        beq_hyphen h₄, List.erase]
      rfl
    have hshape : isChatId (chatId [y₁, y₂, y₃, y₄, 45, m₁, m₂] (randomHex8 draw)) = true := by
      rw [chatId, herase]
      simp only [isChatId, randomHex8, List.flatMap_cons, List.flatMap_nil, List.cons_append,
        List.nil_append, List.append_nil, List.take, List.drop, List.all_cons, List.all_nil, h₁, h₂,
        h₃, h₄, hdigits, isHexDigit_lowerHexDigit (hbyte _).1, isHexDigit_lowerHexDigit (hbyte _).2]
      rfl
    rw [monthOfId, if_pos hshape, chatId, herase]
    rfl

lemma isMonth_of_monthOfId {id month : JsString} (h : monthOfId id = some month) :
    isMonth month = true := by
  unfold monthOfId at h
  split_ifs at h with hshape
  rw [← Option.some.inj h]
  simp only [isChatId, Bool.and_eq_true, decide_eq_true_eq] at hshape
  obtain ⟨⟨⟨hlength, hdigits⟩, -⟩, -⟩ := hshape
  match id, hlength with
  | c₁ :: c₂ :: c₃ :: c₄ :: c₅ :: c₆ :: rest, _ =>
    simp only [List.take, List.all_cons, List.all_nil, Bool.and_true, Bool.and_eq_true] at hdigits
    simp only [isMonth, List.take, List.drop, List.cons_append, List.nil_append, List.all_cons,
      List.all_nil, hdigits]
    rfl

end MembersChat

open MembersChat

namespace ChatStore

/-- The lines of a month whose append was completed. -/
def completed (s : ChatStore) (month : JsString) : List Line :=
  (s.appended.filter fun e => e.1 = month).map Prod.snd

/-- A line is appended to a file that is empty or ends with a line feed, a crash leaves no line of which
only the line feed is missing, and a post is in a month of a year of four digits. -/
def Framed (s : ChatStore) (event : ChatEvent) : Prop :=
  (∀ month line, (s.step event).appended = s.appended ++ [(month, line)] →
    EndsLine (s.text month) ∧ (line.posted ≠ none → isMonth month = true)) ∧
  ∀ month line written, event = .crash month line written →
    written.val = 0 ∨
      EndsLine (s.text month) ∧ written.val + 1 ≠ (lineBytes line.fields).length

/-- Every file has its completed lines, and a part of a line that is no JSON. -/
structure Whole (s : ChatStore) : Prop where
  coherent : s.Coherent
  files : (s.files.map Prod.fst).Nodup
  bytes : ∀ month, ∃ torn, TornTail torn ∧ s.bytes month = chatBytes (s.completed month) ++ torn
  ids : ∀ e ∈ s.appended, ∀ id ∈ e.2.posted, monthOfId id = some e.1

section Runs

variable {s s' : ChatStore} {month : JsString} {line : Line} {event : ChatEvent}

lemma whole_empty : ChatStore.empty.Whole :=
  ⟨nofun, List.nodup_nil, fun _ => ⟨[], Or.inl rfl, rfl⟩, nofun⟩

lemma Appends.completed (h : s.Appends month line s') (m : JsString) :
    s'.completed m = if m = month then s.completed month ++ [line] else s.completed m := by
  rw [ChatStore.completed, h.appended, List.filter_append, List.map_append]
  split_ifs with hm
  · rw [hm, List.filter_cons_of_pos (by simp)]
    rfl
  · rw [List.filter_cons_of_neg (by simpa using fun heq => hm heq.symm)]
    exact List.append_nil _

/-- **What is folded** is what the completed lines make. -/
lemma folded_eq (h : s.Whole) (month : JsString) : s.folded month = foldLines (s.completed month) := by
  obtain ⟨torn, htorn, hbytes⟩ := h.bytes month
  rw [folded, text, hbytes, foldText_chatBytes htorn]

lemma Looks.whole (hlooks : s.Looks s') (h : s.Whole) : s'.Whole := by
  have hcompleted : s'.completed = s.completed := by
    funext m
    rw [completed, completed, hlooks.appended]
  refine ⟨hlooks.coherent h.coherent, hlooks.files ▸ h.files, fun m => ?_, hlooks.appended ▸ h.ids⟩
  rw [hcompleted, ChatStore.bytes, hlooks.files]
  exact h.bytes m

/-- **A run stays whole** as long as its lines are framed. -/
theorem whole_step (h : s.Whole) (hframed : s.Framed event) : (s.step event).Whole := by
  rcases step_cases h.coherent event with hlooks | ⟨month, line, hfits, happends⟩ |
    ⟨month, line, written, rfl⟩
  · exact hlooks.whole h
  · obtain ⟨hend, hyear⟩ := hframed.1 month line happends.appended
    refine ⟨happends.coherent h.coherent, ?_, fun m => ?_, fun e he id hid => ?_⟩
    · rw [happends.files]
      exact JsMap.nodup_keys_set h.files
    · rw [happends.completed, happends.bytes]
      split_ifs with hm
      · -- the file ends with a line feed, and the line comes behind it
        obtain ⟨torn, htorn, hbytes⟩ := h.bytes month
        rw [text, hbytes] at hend
        obtain rfl := htorn.eq_nil hend
        refine ⟨[], Or.inl rfl, ?_⟩
        rw [hbytes, List.append_nil, List.append_nil, chatBytes, chatBytes, List.flatMap_append,
          List.flatMap_singleton]
      · exact h.bytes m
    · rw [happends.appended] at he
      rcases List.mem_append.1 he with he | he
      · exact h.ids e he id hid
      · rw [List.mem_singleton.1 he] at hid ⊢
        have hposted : line.posted = some id := hid
        rcases hfits with ⟨now, draw, -, hdraw, -⟩ | ⟨hnone, -⟩
        · rw [hposted, Option.some.injEq] at hdraw
          rw [hdraw]
          exact monthOfId_chatId (hyear (by rw [hposted]; exact Option.some_ne_none id)) draw
        · cases hposted.symm.trans hnone
  · refine ⟨fun _ _ h => (by cases h), JsMap.nodup_keys_set h.files, fun m => ?_, h.ids⟩
    have hbytes : (s.step (.crash month line written)).bytes m =
        if m = month then s.bytes month ++ (lineBytes line.fields).take written else s.bytes m := by
      rw [ChatStore.bytes, step, JsMap.get_set]
      split_ifs <;> rfl
    rw [hbytes]
    split_ifs with hm
    · obtain ⟨torn, htorn, hold⟩ := h.bytes month
      rw [hm]
      rcases hframed.2 month line written rfl with hzero | ⟨hend, hpart⟩
      · rw [hzero, List.take_zero, List.append_nil]
        exact ⟨torn, htorn, hold⟩
      · rw [text, hold] at hend
        obtain rfl := htorn.eq_nil hend
        rw [List.append_nil] at hold
        exact ⟨_, tornTail_take line written.isLt hpart, by rw [hold]; rfl⟩
    · exact h.bytes m

lemma whole_run {events : List ChatEvent}
    (h : Machine.Along ChatStore.step Framed .empty events) :
    (Machine.run ChatStore.step .empty events).Whole :=
  Machine.run_invariant_along (fun _ _ hs hok => whole_step hs hok) whole_empty h

lemma Whole.readable (h : s.Whole) : s.Readable := by
  refine ⟨h.files, fun month _ id hid => ?_⟩
  rw [folded_eq h, foldLines] at hid
  obtain ⟨line, hline, hposted⟩ := (exists_of_mem_order hid).resolve_left List.not_mem_nil
  obtain ⟨⟨m, l⟩, hmem, rfl⟩ := List.mem_map.1 hline
  obtain ⟨he, hm⟩ := List.mem_filter.1 hmem
  obtain rfl : m = month := of_decide_eq_true hm
  exact h.ids (m, l) he id hposted

lemma Whole.mem_listMonths (h : s.Whole) {e : JsString × Line} (he : e ∈ s.appended) {id : JsString}
    (hid : e.2.posted = some id) : e.1 ∈ s.listMonths := by
  have hmonth := isMonth_of_monthOfId (h.ids e he id hid)
  have hcompleted : e.2 ∈ s.completed e.1 :=
    List.mem_map_of_mem (List.mem_filter.2 ⟨he, decide_eq_true rfl⟩)
  have hfile : e.1 ∈ s.files.map Prod.fst := by
    cases hget : s.files.get e.1 with
    | some file => exact List.mem_map_of_mem ((JsMap.mem_iff_get h.files).2 hget)
    | none =>
      obtain ⟨torn, -, hbytes⟩ := h.bytes e.1
      rw [ChatStore.bytes, hget, Option.getD_none] at hbytes
      have hempty := (List.append_eq_nil_iff.1 hbytes.symm).1
      have hline := List.flatMap_eq_nil_iff.1 hempty e.2 hcompleted
      rw [lineBytes_eq] at hline
      cases (List.append_eq_nil_iff.1 hline).2
  exact List.mem_mergeSort.2 (List.mem_filter.2 ⟨hfile, hmonth⟩)

lemma Whole.mem_live (h : s.Whole) {e : JsString × Line} (he : e ∈ s.appended) {id : JsString}
    (hid : e.2.posted = some id) {m : MembersChatMessage}
    (hm : (foldLines (s.completed e.1)).byId.get id = some m) :
    m ∈ s.spots.filterMap s.live := by
  rw [← folded_eq h] at hm
  have horder := ((sound_foldText (s.text e.1)).message id m hm).2
  refine List.mem_filterMap.2 ⟨(e.1, id), List.mem_flatMap.2 ⟨e.1, h.mem_listMonths he hid, ?_⟩, hm⟩
  exact List.mem_map_of_mem horder

/-- **The members chat survives a torn append.** As long as no line is appended behind a part of a line,
no crash leaves a line of which only the line feed is missing and posts are in years of four digits,
every month is what its completed lines make of it, and every post that is live in it is read by `get`
and on the pages. -/
theorem chat_survives_torn_append {events : List ChatEvent}
    (h : Machine.Along ChatStore.step Framed .empty events) :
    (∀ month, ((Machine.run ChatStore.step .empty events).fold month).1 =
      foldLines ((Machine.run ChatStore.step .empty events).completed month)) ∧
    ∀ e ∈ (Machine.run ChatStore.step .empty events).appended, ∀ id, e.2.posted = some id →
      ∀ m, (foldLines ((Machine.run ChatStore.step .empty events).completed e.1)).byId.get id = some m →
        ((Machine.run ChatStore.step .empty events).get id).1 = some m ∧
        ∀ limit fuel, (Machine.run ChatStore.step .empty events).spots.length < fuel →
          m ∈ pages limit fuel (Machine.run ChatStore.step .empty events) none := by
  have hwhole := whole_run h
  set s := Machine.run ChatStore.step .empty events
  refine ⟨fun month => ?_, fun e he id hid m hm => ⟨?_, fun limit fuel hfuel => ?_⟩⟩
  · rw [fold_fst hwhole.coherent, folded_eq hwhole]
  · rw [get_fst hwhole.coherent, message, hwhole.ids e he id hid, Option.bind_some, folded_eq hwhole]
    exact hm
  · have hpages : pages limit fuel s none = s.spots.filterMap s.live :=
      pages_eq hwhole.coherent hwhole.readable limit (List.append_nil s.spots).symm hfuel
    rw [hpages]
    exact hwhole.mem_live he hid hm

/-! ### One month with a part of a line -/

def examplePost : ChatEvent :=
  .post ⟨none, none, js "u", js "Ada", none, js "hi", none⟩ 1788220800000 (1, 2, 3, 4)

/-- A post of August 2026, a month before that. -/
def earlierPost : ChatEvent :=
  .post ⟨none, none, js "u", js "Ada", none, js "ho", none⟩ 1785542400000 (5, 6, 7, 8)

def exampleMonth : JsString := js "2026-09"

/-- A deletion of which only the brace was written. -/
def exampleCrash : ChatEvent := .crash exampleMonth (.delete [] (.ofInt 0)) ⟨1, by decide +kernel⟩

lemma framed_of_month {s : ChatStore} {event : ChatEvent} {month : JsString}
    (hmonths : (s.step event).appended.map Prod.fst = s.appended.map Prod.fst ++ [month])
    (htext : EndsLine (s.text month)) (hmonth : isMonth month = true)
    (hcrash : ∀ month line written, event ≠ .crash month line written) : s.Framed event := by
  refine ⟨fun month' line happended => ?_, fun month' line written heq =>
    absurd heq (hcrash month' line written)⟩
  rw [happended, List.map_append, List.map_singleton] at hmonths
  obtain rfl : month' = month := (List.cons.inj (List.append_cancel_left hmonths)).1
  exact ⟨htext, fun _ => hmonth⟩

lemma framed_examplePost : ChatStore.empty.Framed examplePost :=
  @framed_of_month _ _ exampleMonth (by decide +kernel) (Or.inl rfl) (by decide) nofun

theorem chat_survives_torn_append_last :
    (∀ month, ((Machine.run ChatStore.step .empty [examplePost, exampleCrash]).fold month).1 =
      foldLines ((Machine.run ChatStore.step .empty [examplePost, exampleCrash]).completed month)) ∧
    ∀ e ∈ (Machine.run ChatStore.step .empty [examplePost, exampleCrash]).appended, ∀ id,
      e.2.posted = some id → ∀ m, (foldLines ((Machine.run ChatStore.step .empty
          [examplePost, exampleCrash]).completed e.1)).byId.get id = some m →
        ((Machine.run ChatStore.step .empty [examplePost, exampleCrash]).get id).1 = some m ∧
        ∀ limit fuel, (Machine.run ChatStore.step .empty [examplePost, exampleCrash]).spots.length < fuel →
          m ∈ pages limit fuel (Machine.run ChatStore.step .empty [examplePost, exampleCrash]) none := by
  refine chat_survives_torn_append
    ⟨framed_examplePost, ⟨fun month line happended => ?_, ?_⟩, trivial⟩
  · exact absurd (congrArg List.length happended) (by simp [step, exampleCrash])
  · rintro month line written ⟨⟩
    exact Or.inr ⟨Or.inr (by decide +kernel), by decide +kernel⟩

theorem torn_append_loses_post :
    ¬∀ (events : List ChatEvent) (month : JsString),
      ((Machine.run ChatStore.step .empty events).fold month).1 =
        foldLines ((Machine.run ChatStore.step .empty events).completed month) := by
  intro h
  have hlost : ((Machine.run ChatStore.step .empty [exampleCrash, examplePost]).fold
      exampleMonth).1.order = [] := by
    decide +kernel
  have hposted : (foldLines ((Machine.run ChatStore.step .empty [exampleCrash, examplePost]).completed
      exampleMonth)).order = [js "202609-01020304"] := by
    decide +kernel
  have hsame := congrArg FoldedMonth.order (h [exampleCrash, examplePost] exampleMonth)
  exact nomatch hlost.symm.trans (hsame.trans hposted)

end Runs

end ChatStore

end Isomux
