import Isomux.Runtime.LowerCase
import Isomux.Runtime.Utf8Lines

set_option autoImplicit false

/-!
# Push payloads (`src/server/web-push-delivery.ts`)

A payload is sent as JSON in one record of a push service. When it does not fit, half of the body goes, and
again, and then the title goes in the same way. When this is not enough, only the root of the office is sent.

## Main results

* `Isomux.length_halve_lt` — a shortened text has fewer code points.
* `Isomux.encodePayload_sent` — what is sent, of every payload.
-/

namespace Isomux

def PAYLOAD_MAX_BYTES : ℕ := 3000

def ellipsis : JsString := [0x2026]

structure PushPayload where
  title : JsString
  body : JsString
  tag : Option JsString
  url : JsString
  renotify : Bool

def PushPayload.json (p : PushPayload) : Json :=
  .object ([(js "title", .string p.title), (js "body", .string p.body)] ++
    (p.tag.map fun tag => (js "tag", .string tag)).toList ++
      [(js "url", .string p.url), (js "renotify", .bool p.renotify)])

def PushPayload.bytes (p : PushPayload) : Buffer := p.json.text.toUtf8

def firstPoints (n : ℕ) (text : JsString) : JsString := (text.points.take n).flatMap codeUnits

def halve (text : JsString) : JsString :=
  if text.points.length ≤ 1 then []
  else firstPoints ((text.points.length + 1) / 2 - 1) text ++ ellipsis

/-! ## Code points -/

lemma codeUnits_surrogatePair {c d : CodeUnit} (hc : isHighSurrogate c = true)
    (hd : isLowSurrogate d = true) : codeUnits (surrogatePair c d) = [c, d] := by
  simp only [isHighSurrogate, isLowSurrogate, Bool.and_eq_true, decide_eq_true_eq,
    UInt16.le_iff_toNat_le, UInt16.reduceToNat] at hc hd
  have hlarge : ¬surrogatePair c d < 0x10000 := by
    unfold surrogatePair
    omega
  have hhigh : 0xD800 + (surrogatePair c d - 0x10000) / 0x400 = c.toNat := by
    unfold surrogatePair
    omega
  have hlow : 0xDC00 + (surrogatePair c d - 0x10000) % 0x400 = d.toNat := by
    unfold surrogatePair
    omega
  rw [codeUnits, if_neg hlarge, hhigh, hlow, UInt16.ofNat_toNat, UInt16.ofNat_toNat]

lemma codeUnits_toNat (c : CodeUnit) : codeUnits c.toNat = [c] := by
  rw [codeUnits, if_pos c.toNat_lt, UInt16.ofNat_toNat]

lemma flatMap_points (s : JsString) : s.points.flatMap codeUnits = s := by
  induction s using JsString.points.induct with
  | case1 => rfl
  | case2 c => rw [JsString.points, List.flatMap_singleton, codeUnits_toNat]
  | case3 c d s hpair ih =>
    obtain ⟨hc, hd⟩ := Bool.and_eq_true_iff.1 hpair
    rw [JsString.points, if_pos hpair, List.flatMap_cons, ih, codeUnits_surrogatePair hc hd]
    rfl
  | case4 c d s hpair ih =>
    rw [JsString.points, if_neg hpair, List.flatMap_cons, ih, codeUnits_toNat]
    rfl

lemma prefixed_firstPoints (n : ℕ) (s : JsString) : firstPoints n s <+: s := by
  refine ⟨(s.points.drop n).flatMap codeUnits, ?_⟩
  rw [firstPoints, ← List.flatMap_append, List.take_append_drop, flatMap_points]

/-- The text is cut between code points. -/
lemma points_firstPoints (n : ℕ) (s : JsString) : (firstPoints n s).points = s.points.take n := by
  induction s using JsString.points.induct generalizing n with
  | case1 => simp [firstPoints, JsString.points]
  | case2 c =>
    cases n with
    | zero => rfl
    | succ n =>
      rw [firstPoints, JsString.points, List.take_succ_cons, List.take_nil, List.flatMap_singleton,
        codeUnits_toNat, JsString.points]
  | case3 c d s hpair ih =>
    obtain ⟨hc, hd⟩ := Bool.and_eq_true_iff.1 hpair
    cases n with
    | zero => rfl
    | succ n =>
      have hfirst : firstPoints (n + 1) (c :: d :: s) = c :: d :: firstPoints n s := by
        rw [firstPoints, JsString.points, if_pos hpair, List.take_succ_cons, List.flatMap_cons,
          codeUnits_surrogatePair hc hd]
        rfl
      rw [hfirst, JsString.points, if_pos hpair, ih, JsString.points, if_pos hpair,
        List.take_succ_cons]
  | case4 c d s hpair ih =>
    cases n with
    | zero => rfl
    | succ n =>
      have hfirst : firstPoints (n + 1) (c :: d :: s) = c :: firstPoints n (d :: s) := by
        rw [firstPoints, JsString.points, if_neg hpair, List.take_succ_cons, List.flatMap_cons,
          codeUnits_toNat]
        rfl
      rw [hfirst, JsString.points, if_neg hpair, List.take_succ_cons, ← ih]
      -- what is behind `c` is empty, or starts with `d` as before
      rcases List.prefix_cons_iff.1 (prefixed_firstPoints n (d :: s)) with hnil | ⟨t, hcons, -⟩
      · rw [hnil]
        rfl
      · rw [hcons, JsString.points, if_neg hpair]

lemma points_ellipsis (s : JsString) : JsString.points (s ++ ellipsis) = s.points ++ [0x2026] :=
  points_append_cons s (by decide) []

/-- **A shortened text has fewer code points.** -/
theorem length_halve_lt {text : JsString} (h : text ≠ []) :
    (halve text).points.length < text.points.length := by
  have hpos : 0 < text.points.length := by
    rw [List.length_pos_iff]
    intro hnil
    rw [← flatMap_points text, hnil] at h
    exact h rfl
  unfold halve
  split_ifs with hone
  · exact hpos
  · rw [points_ellipsis, points_firstPoints, List.length_append, List.length_take,
      List.length_singleton]
    omega

/-! ## The payload that is sent -/

def encodePayload (next : PushPayload) : Buffer :=
  if next.bytes.length ≤ PAYLOAD_MAX_BYTES then next.bytes
  else if h : next.body ≠ [] then
    have := length_halve_lt h
    encodePayload { next with body := halve next.body }
  else if h : next.title ≠ [] then
    have := length_halve_lt h
    encodePayload { next with title := halve next.title }
  else PushPayload.bytes ⟨[], [], none, js "/", next.renotify⟩
termination_by next.title.points.length + next.body.points.length

/-- What is left of a text: all of it, nothing, or some of its code points and an ellipsis. -/
def IsCut (text cut : JsString) : Prop :=
  cut = text ∨ cut = [] ∨ ∃ n < text.points.length, cut = firstPoints n text ++ ellipsis

/-- What becomes of a payload: it fits in a record, its texts are cut, the title only when nothing is left
of the body, and unless only the root of the office is left the rest is as it was. -/
structure IsSent (p sent : PushPayload) : Prop where
  fits : sent.bytes.length ≤ PAYLOAD_MAX_BYTES
  body : IsCut p.body sent.body
  title : IsCut p.title sent.title
  bodyFirst : sent.title ≠ p.title → sent.body = []
  rest : (sent.tag = p.tag ∧ sent.url = p.url ∧ sent.renotify = p.renotify) ∨
    sent = ⟨[], [], none, js "/", p.renotify⟩

lemma IsCut.halve {text cut : JsString} (h : IsCut text cut) : IsCut text (halve cut) := by
  unfold Isomux.halve
  split_ifs with hone
  · exact .inr (.inl rfl)
  · rcases h with rfl | rfl | ⟨n, hn, rfl⟩
    · exact .inr (.inr ⟨_, by omega, rfl⟩)
    · exact absurd (Nat.zero_le 1) hone
    · -- the half ends before the ellipsis
      rw [points_ellipsis, points_firstPoints, List.length_append, List.length_singleton,
        List.length_take, Nat.min_eq_left (Nat.le_of_lt hn)] at hone ⊢
      refine .inr (.inr ⟨(n + 1 + 1) / 2 - 1, by omega, ?_⟩)
      rw [firstPoints, points_ellipsis, points_firstPoints, List.take_append_of_le_length, List.take_take,
        Nat.min_eq_left (by omega), ← firstPoints]
      rw [List.length_take, Nat.min_eq_left (Nat.le_of_lt hn)]
      omega

lemma exists_sent {p next : PushPayload} (hbody : IsCut p.body next.body)
    (htitle : IsCut p.title next.title) (hfirst : next.title ≠ p.title → next.body = [])
    (hrest : next.tag = p.tag ∧ next.url = p.url ∧ next.renotify = p.renotify) :
    ∃ sent, IsSent p sent ∧ encodePayload next = sent.bytes := by
  induction next using encodePayload.induct with
  | case1 next hfits =>
    exact ⟨next, ⟨hfits, hbody, htitle, hfirst, .inl hrest⟩, by rw [encodePayload, if_pos hfits]⟩
  | case2 next hlarge hne _ ih =>
    rw [encodePayload, if_neg hlarge, dif_pos hne]
    exact ih hbody.halve htitle (fun h => absurd (hfirst h) hne) hrest
  | case3 next hlarge hempty hne _ ih =>
    rw [encodePayload, if_neg hlarge, dif_neg hempty, dif_pos hne]
    exact ih hbody htitle.halve (fun _ => not_not.1 hempty) hrest
  | case4 next hlarge hempty hgone =>
    rw [encodePayload, if_neg hlarge, dif_neg hempty, dif_neg hgone]
    refine ⟨⟨[], [], none, js "/", next.renotify⟩, ⟨?_, .inr (.inl rfl), .inr (.inl rfl), fun _ => rfl,
      .inr (by rw [hrest.2.2])⟩, rfl⟩
    cases next.renotify <;> decide

lemma parse_bytes (p : PushPayload) : Json.parse (Buffer.toUtf8String p.bytes) = some p.json := by
  have hread := toUtf8String_toUtf8_append (Json.isPrintable_text p.json).2 []
  rw [List.append_nil, show Buffer.toUtf8String [] = [] from rfl, List.append_nil] at hread
  rw [PushPayload.bytes, hread, Json.parse_text]

/-- **What is sent of a payload**: JSON that fits in a record, with the texts cut between code points. -/
theorem encodePayload_sent (p : PushPayload) :
    (encodePayload p).length ≤ PAYLOAD_MAX_BYTES ∧
      ∃ sent, IsSent p sent ∧
        Json.parse (Buffer.toUtf8String (encodePayload p)) = some sent.json := by
  have hwhole : ∀ text, IsCut text text := fun _ => .inl rfl
  obtain ⟨sent, hsent, hbytes⟩ := exists_sent (hwhole p.body) (hwhole p.title) (fun h => absurd rfl h)
    ⟨rfl, rfl, rfl⟩
  exact ⟨hbytes ▸ hsent.fits, sent, hsent, by rw [hbytes, parse_bytes]⟩

/-! ## A payload that is cut to nothing -/

lemma jsonEscape_replicate (n : ℕ) : jsonEscape (List.replicate n 97) = List.replicate n 97 := by
  have hletter : escapeUnit 97 = [97] := by decide
  induction n with
  | zero => rfl
  | succ n ih =>
    cases n with
    | zero => exact hletter
    | succ n =>
      rw [List.replicate_succ, List.replicate_succ, jsonEscape, if_neg (by decide), hletter,
        ← List.replicate_succ, ih]
      rfl

lemma le_length_bytes {p : PushPayload} {n : ℕ} (h : p.url = List.replicate n 97) :
    n ≤ p.bytes.length := by
  have hurl : p.json.str "url" = some (List.replicate n 97) := by
    rw [← h]
    cases htag : p.tag <;> simp +decide [PushPayload.json, Json.str, Json.field, htag]
  obtain ⟨front, back, htext⟩ := Json.exists_text hurl
  have hascii : ∀ c ∈ List.replicate n (97 : CodeUnit), c < 128 := fun c hc => by
    rw [List.eq_of_mem_replicate hc]
    decide
  rw [PushPayload.bytes, htext, jsonEscape_replicate, toUtf8_append_cons front (by decide),
    toUtf8_append_cons _ (by decide), toUtf8_ascii hascii]
  simp only [JsString.toBuffer, List.length_append, List.length_cons, List.length_map,
    List.length_replicate]
  omega

/-- **A body of one code point is cut to nothing**, and has no ellipsis then. -/
theorem encodePayload_without_ellipsis :
    ¬∀ p sent : PushPayload, Json.parse (Buffer.toUtf8String (encodePayload p)) = some sent.json →
      sent.body = p.body ∨ ∃ n, sent.body = firstPoints n p.body ++ ellipsis := by
  intro h
  have hlarge : ∀ body, ¬(PushPayload.bytes ⟨[], body, none, List.replicate 3001 97, true⟩).length ≤
      PAYLOAD_MAX_BYTES := fun body hle =>
    absurd (Nat.le_trans (le_length_bytes rfl) hle) (by decide)
  have hnext : encodePayload ⟨[], [], none, List.replicate 3001 97, true⟩ =
      PushPayload.bytes ⟨[], [], none, js "/", true⟩ := by
    rw [encodePayload, if_neg (hlarge _), dif_neg (not_not_intro rfl), dif_neg (not_not_intro rfl)]
  have hsent : encodePayload ⟨[], js "x", none, List.replicate 3001 97, true⟩ =
      PushPayload.bytes ⟨[], [], none, js "/", true⟩ := by
    have hbody : js "x" ≠ [] := by decide
    rw [encodePayload, if_neg (hlarge _), dif_pos hbody]
    exact hnext
  rcases h ⟨[], js "x", none, List.replicate 3001 97, true⟩ ⟨[], [], none, js "/", true⟩
    (by rw [hsent, parse_bytes]) with heq | ⟨n, heq⟩
  · exact absurd heq (by decide)
  · exact absurd heq.symm (List.append_ne_nil_of_right_ne_nil _ (List.cons_ne_nil _ _))

end Isomux
