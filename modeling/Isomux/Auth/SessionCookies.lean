import Isomux.AppHosts.Hosts
import Mathlib.Data.List.TakeWhile

set_option autoImplicit false

/-!
# The session cookies of a request (`readSessionCookies` of `src/server/auth.ts`)

On HTTPS the office reads cookies by names that begin with `__Host-`, which a page on a subdomain cannot
write. A browser holds a name against the prefix as it is written, but for spaces and tabs around it. The
office trims all white space off it first, and so it also reads names that a browser lets anyone write.

## Main results

* `Isomux.OfficeCookies.readSlots_eq` — each slot has the value of the first cookie of its name.
* `Isomux.OfficeCookies.https_selection` — what is selected, unless a name is spelled in this way.
-/

namespace Isomux

def SHARED_COOKIE_NAME : JsString := js "isomux_session"

def SHARED_HOST_COOKIE_NAME : JsString := js "__Host-isomux_session"

open AppHosts (cutAt splitUnit)

/-- The session cookies that a request can carry: those of this office's names, and the bare ones. -/
inductive SessionCookieSlot where
  | host
  | plain
  | bareHost
  | barePlain
  deriving DecidableEq

/-- What the choice of a cookie depends on beside the request. -/
structure OfficeCookies where
  officeId : JsString
  /-- `OFFICE_ID_PATTERN`, as far as it matters here. -/
  officeId_hex : ∀ c ∈ officeId, isJsWhitespace c = false
  isHttps : Bool
  isLiveSession : JsString → Bool

structure SessionCookies where
  values : SessionCookieSlot → Option JsString
  selected : Option JsString
  selectedName : Option SessionCookieSlot

/-- The text of a part in front of its first `=`, and the text behind it. -/
abbrev Cookie := JsString × JsString

namespace OfficeCookies

variable (o : OfficeCookies)

/-- `officeSessionCookieNames()` and the two bare names. -/
def nameOf : SessionCookieSlot → JsString
  | .host => SHARED_HOST_COOKIE_NAME ++ js "_" ++ o.officeId
  | .plain => SHARED_COOKIE_NAME ++ js "_" ++ o.officeId
  | .bareHost => SHARED_HOST_COOKIE_NAME
  | .barePlain => SHARED_COOKIE_NAME

def slotOf (name : JsString) : Option SessionCookieSlot :=
  [.host, .plain, .bareHost, .barePlain].find? fun slot => name = o.nameOf slot

/-- A part of the header, if it has a name. -/
def cookieOfPart (part : JsString) : Option Cookie :=
  match cutAt 61 part with
  | ([], _) => none
  | (name, some value) => some (name, value)
  | (_, none) => none

variable (header : Option JsString)

/-- The cookies of a header; an empty header has none. -/
def cookies : List Cookie :=
  match header with
  | none | some [] => []
  | some header => (splitUnit 59 header).filterMap cookieOfPart

/-- One turn of the loop: the first occurrence of a name wins. -/
def readCookie (values : SessionCookieSlot → Option JsString) (cookie : Cookie) :
    SessionCookieSlot → Option JsString :=
  match o.slotOf (JsString.trim cookie.1) with
  | none => values
  | some slot => fun s =>
    if s = slot ∧ values slot = none then some (JsString.trim cookie.2) else values s

def readSlots (cookies : List Cookie) : SessionCookieSlot → Option JsString :=
  cookies.foldl o.readCookie fun _ => none

def writeSlot : SessionCookieSlot := if o.isHttps then .host else .plain

def fallbackSlot : Option SessionCookieSlot := if o.isHttps then none else some .host

/-- The slot that is picked for the values of the slots. -/
def pick (values : SessionCookieSlot → Option JsString) : Option SessionCookieSlot :=
  if values o.writeSlot ≠ none then some o.writeSlot
  else
    match o.fallbackSlot.filter fun slot => values slot ≠ none with
    | some slot => some slot
    | none =>
      (if o.isHttps then [.bareHost] else [.barePlain, .bareHost]).find? fun slot =>
        (values slot).any fun value => value ≠ [] && o.isLiveSession value

def readSessionCookies : SessionCookies :=
  let values := o.readSlots (cookies header)
  let slot := o.pick values
  ⟨values, slot.bind values, slot⟩

/-! ## The prefix as browsers compare it -/

def isBlank (c : CodeUnit) : Bool := c = 0x20 || c = 0x09

/-- A text without the spaces and tabs around it. -/
def trimBlanks (text : JsString) : JsString :=
  ((text.dropWhile isBlank).reverse.dropWhile isBlank).reverse

/-- The name begins with `__Host-`, so only the office itself can have written the cookie. -/
def isPrefixed (cookie : Cookie) : Bool := (js "__Host-").isPrefixOf (trimBlanks cookie.1)

/-- The prefixed cookies of a header, in their order. -/
def prefixedCookies : List Cookie :=
  ((cookies header).filter isPrefixed).map fun c => (trimBlanks c.1, trimBlanks c.2)

/-- The first cookie whose name the office takes for this one. -/
def firstNamed (name : JsString) : Option Cookie :=
  (cookies header).find? fun c => JsString.trim c.1 = name

/-- The cookie that decides has its name as a browser compares it: the first one that is read under the
office's `__Host-` name, and if there is none the first one under the bare name. -/
def Honest : Prop :=
  (∀ c ∈ firstNamed header (o.nameOf .host), trimBlanks c.1 = o.nameOf .host) ∧
    (firstNamed header (o.nameOf .host) = none →
      ∀ c ∈ firstNamed header (o.nameOf .bareHost), trimBlanks c.1 = o.nameOf .bareHost)

/-! ## What is trimmed -/

lemma trim_append_white {a b : JsString} (hb : ∀ c ∈ b, isJsWhitespace c = true) :
    JsString.trim (a ++ b) = JsString.trim a := by
  unfold JsString.trim
  rw [List.dropWhile_append]
  split_ifs with hall
  · rw [List.isEmpty_iff.1 hall, List.dropWhile_eq_nil_iff.2 hb]
  · rw [List.reverse_append, List.dropWhile_append_of_pos fun c hc => hb c (List.mem_reverse.1 hc)]

lemma trim_white_append {a b : JsString} (hb : ∀ c ∈ b, isJsWhitespace c = true) :
    JsString.trim (b ++ a) = JsString.trim a := by
  unfold JsString.trim
  rw [List.dropWhile_append_of_pos hb]

/-- The office trims all that a browser does. -/
lemma trim_trimBlanks (text : JsString) : JsString.trim (trimBlanks text) = JsString.trim text := by
  have hwhite : ∀ c, isBlank c = true → isJsWhitespace c = true := by
    intro c hc
    simp only [isBlank, Bool.or_eq_true, decide_eq_true_eq] at hc
    rcases hc with rfl | rfl <;> decide
  have hfront : ∀ t : JsString, ∀ c ∈ t.takeWhile isBlank, isJsWhitespace c = true := fun t c hc =>
    hwhite c (List.mem_takeWhile_imp hc)
  conv_rhs => rw [← List.takeWhile_append_dropWhile (p := isBlank) (l := text),
    trim_white_append (hfront text)]
  set rest := text.dropWhile isBlank with hrest
  have hsplit : trimBlanks text ++ (rest.reverse.takeWhile isBlank).reverse = rest := by
    rw [trimBlanks, ← hrest, ← List.reverse_append, List.takeWhile_append_dropWhile,
      List.reverse_reverse]
  rw [← hsplit, trim_append_white fun c hc => hfront _ c (List.mem_reverse.1 hc)]

variable (slot : SessionCookieSlot)

lemma trim_nameOf : JsString.trim (o.nameOf slot) = o.nameOf slot := by
  have hshared : ∀ c ∈ SHARED_HOST_COOKIE_NAME ++ js "_", isJsWhitespace c = false := by
    intro c hc
    have hall : (SHARED_HOST_COOKIE_NAME ++ js "_").all (fun c => !isJsWhitespace c) = true := by
      decide
    simpa using List.all_eq_true.1 hall c hc
  refine trim_eq_self fun c hc => ?_
  have hplain : SHARED_COOKIE_NAME <:+ SHARED_HOST_COOKIE_NAME := ⟨js "__Host-", rfl⟩
  cases slot <;> simp only [nameOf, List.mem_append] at hc hshared
  · exact hc.elim (hshared c) (o.officeId_hex c)
  · exact hc.elim (fun h => hshared c (h.imp_left hplain.mem)) (o.officeId_hex c)
  · exact hshared c (.inl hc)
  · exact hshared c (.inl (hplain.mem hc))

lemma nameOf_injective : Function.Injective o.nameOf := by
  have hlength : ∀ slot, (o.nameOf slot).length = match slot with
      | .host => 22 + o.officeId.length
      | .plain => 15 + o.officeId.length
      | .bareHost => 21
      | .barePlain => 14 := by
    intro slot
    cases slot <;> simp [nameOf, SHARED_HOST_COOKIE_NAME, SHARED_COOKIE_NAME, js] <;> omega
  have hhead : ∀ slot, (o.nameOf slot).head? = match slot with
      | .host | .bareHost => some 95
      | .plain | .barePlain => some 105 := by
    intro slot
    cases slot <;> rfl
  intro a b h
  have hlen := congrArg List.length h
  have hfirst := congrArg List.head? h
  rw [hlength, hlength] at hlen
  rw [hhead, hhead] at hfirst
  cases a <;> cases b <;> dsimp only at hlen hfirst <;> first | rfl | omega | cases hfirst

lemma slotOf_eq_some_iff {name : JsString} {slot : SessionCookieSlot} :
    o.slotOf name = some slot ↔ name = o.nameOf slot := by
  constructor
  · intro h
    simpa using List.find?_some h
  · rintro rfl
    have hne : ∀ a b, o.nameOf a = o.nameOf b ↔ a = b := fun a b => o.nameOf_injective.eq_iff
    cases slot <;> simp [slotOf, hne]

/-! ## What is read -/

/-- **Each slot has the value of the first cookie of its name.** -/
theorem readSlots_eq : o.readSlots (cookies header) slot =
      (firstNamed header (o.nameOf slot)).map fun c => JsString.trim c.2 := by
  have hloop : ∀ (cs : List Cookie) (values : SessionCookieSlot → Option JsString),
      cs.foldl o.readCookie values slot = (values slot).or
        ((cs.find? fun c => JsString.trim c.1 = o.nameOf slot).map fun c => JsString.trim c.2) := by
    intro cs
    induction cs with
    | nil => simp
    | cons c cs ih =>
      intro values
      rw [List.foldl_cons, ih, List.find?_cons, readCookie]
      by_cases hname : JsString.trim c.1 = o.nameOf slot
      · rw [o.slotOf_eq_some_iff.2 hname]
        cases hvalue : values slot <;> simp [hname, hvalue]
      · cases hslot : o.slotOf (JsString.trim c.1) with
        | none => simp [hname]
        | some s =>
          have hne : slot ≠ s := by
            rintro rfl
            exact hname (o.slotOf_eq_some_iff.1 hslot)
          simp [hname, hne]
  exact (hloop _ _).trans Option.none_or

lemma pick_https (hhttps : o.isHttps = true) (values : SessionCookieSlot → Option JsString) :
    o.pick values = if values .host ≠ none then some .host
      else if (values .bareHost).any fun value => value ≠ [] && o.isLiveSession value then
        some .bareHost
      else none := by
  simp only [pick, writeSlot, fallbackSlot, hhttps, if_true, Option.filter_none, List.find?_cons,
    List.find?_nil]
  split_ifs <;> simp_all

/-- The first cookie that the office reads by a prefixed name, if its name is as browsers compare it,
is the first of the prefixed cookies of this name. -/
lemma firstNamed_eq {header : Option JsString} {name : JsString}
    (hhost : (js "__Host-").isPrefixOf name = true) (htrim : JsString.trim name = name)
    (hhonest : ∀ c ∈ firstNamed header name, trimBlanks c.1 = name) :
    ((firstNamed header name).map fun c => JsString.trim c.2) =
      ((prefixedCookies header).find? fun c => c.1 = name).map fun c => JsString.trim c.2 := by
  unfold firstNamed prefixedCookies at *
  generalize cookies header = all at hhonest ⊢
  induction all with
  | nil => rfl
  | cons c cs ih =>
    rw [List.find?_cons] at hhonest ⊢
    by_cases hname : trimBlanks c.1 = name
    · have htrimmed : JsString.trim c.1 = name := by rw [← trim_trimBlanks, hname, htrim]
      have hc : isPrefixed c = true := by rw [isPrefixed, hname, hhost]
      rw [List.filter_cons_of_pos hc, List.map_cons, List.find?_cons_of_pos (by simpa using hname)]
      simp [htrimmed, trim_trimBlanks]
    · have htrimmed : JsString.trim c.1 ≠ name := by
        intro htrimmed
        exact hname (hhonest c (by simp [htrimmed]))
      simp only [htrimmed, decide_false] at hhonest ⊢
      rw [ih hhonest, List.filter_cons]
      split_ifs
      · rw [List.map_cons, List.find?_cons_of_neg (by simpa using hname)]
      · rfl

/-- The value that the prefixed cookies have for a slot. -/
def prefixedValue : Option JsString :=
  ((prefixedCookies header).find? fun c => c.1 = o.nameOf slot).map fun c => JsString.trim c.2

lemma readSlots_prefixed {header : Option JsString} (h : o.Honest header) :
    o.readSlots (cookies header) .host = o.prefixedValue header .host ∧
      (o.prefixedValue header .host = none →
        o.readSlots (cookies header) .bareHost = o.prefixedValue header .bareHost) := by
  have hhost := firstNamed_eq (by simp [nameOf, SHARED_HOST_COOKIE_NAME, js]) (o.trim_nameOf .host) h.1
  rw [readSlots_eq]
  refine ⟨hhost, fun hnone => ?_⟩
  rw [readSlots_eq]
  exact firstNamed_eq rfl (o.trim_nameOf .bareHost)
    (h.2 (Option.map_eq_none_iff.1 (hhost.trans hnone)))

/-- **The choice on HTTPS.** Where the cookie that decides has its name as browsers compare it, what is
selected depends on the prefixed cookies only, and the first of the office's own is selected when it is
there. Elsewhere the office takes the value of a cookie whose name no browser would take for it. -/
theorem https_selection (hhttps : o.isHttps = true) :
    (∀ h h', o.Honest h → o.Honest h' → prefixedCookies h = prefixedCookies h' →
      (o.readSessionCookies h).selectedName = (o.readSessionCookies h').selectedName ∧
        (o.readSessionCookies h).selected = (o.readSessionCookies h').selected) ∧
    (∀ h, o.Honest h → ∀ c, (prefixedCookies h).find? (fun c => c.1 = o.nameOf .host) = some c →
      (o.readSessionCookies h).selectedName = some .host ∧
        (o.readSessionCookies h).selected = some (JsString.trim c.2)) ∧
    ∀ h, ¬o.Honest h → ∃ c ∈ cookies h, trimBlanks c.1 ≠ JsString.trim c.1 ∧
      ((o.readSessionCookies h).selectedName = some .host ∧
          (o.readSessionCookies h).selected = some (JsString.trim c.2) ∨
        (o.readSessionCookies h).values .host = none ∧
          (o.readSessionCookies h).values .bareHost = some (JsString.trim c.2)) := by
  have hread : ∀ h value, o.readSlots (cookies h) .host = some value →
      (o.readSessionCookies h).selectedName = some .host ∧
        (o.readSessionCookies h).selected = some value := by
    intro h value hvalue
    simp [readSessionCookies, o.pick_https hhttps, hvalue]
  refine ⟨fun h h' hh hh' hsame => ?_, fun h hh c hc => ?_, fun h hh => ?_⟩
  · obtain ⟨hhost, hbare⟩ := o.readSlots_prefixed hh
    obtain ⟨hhost', hbare'⟩ := o.readSlots_prefixed hh'
    have hvalues : o.prefixedValue h = o.prefixedValue h' := by
      funext slot
      rw [prefixedValue, prefixedValue, hsame]
    rw [hvalues] at hhost hbare
    cases hvalue : o.prefixedValue h' .host with
    | some value =>
      have hleft := hread h value (hhost.trans hvalue)
      have hright := hread h' value (hhost'.trans hvalue)
      exact ⟨hleft.1.trans hright.1.symm, hleft.2.trans hright.2.symm⟩
    | none =>
      have hslot : o.pick (o.readSlots (cookies h)) = o.pick (o.readSlots (cookies h')) := by
        rw [o.pick_https hhttps, o.pick_https hhttps, hhost, hhost', hbare hvalue, hbare' hvalue]
      refine ⟨hslot, ?_⟩
      simp only [readSessionCookies, hslot]
      rw [o.pick_https hhttps, hhost', hvalue, if_neg (not_not.2 rfl)]
      split_ifs
      · exact (hbare hvalue).trans (hbare' hvalue).symm
      · rfl
  · refine hread h _ ((o.readSlots_prefixed hh).1.trans ?_)
    rw [prefixedValue, hc]
    rfl
  · have hlook : ∀ slot, ∀ c ∈ firstNamed h (o.nameOf slot), trimBlanks c.1 ≠ o.nameOf slot →
        c ∈ cookies h ∧ trimBlanks c.1 ≠ JsString.trim c.1 ∧
          o.readSlots (cookies h) slot = some (JsString.trim c.2) := by
      intro slot c hc hne
      have hname : JsString.trim c.1 = o.nameOf slot := by simpa using List.find?_some hc
      refine ⟨List.mem_of_find?_eq_some hc, fun heq => hne (heq.trans hname), ?_⟩
      rw [readSlots_eq, hc]
      rfl
    rw [Honest, Classical.not_and_iff_not_or_not] at hh
    rcases hh with hh | hh <;> push Not at hh
    · obtain ⟨c, hc, hne⟩ := hh
      obtain ⟨hmem, hspelled, hvalue⟩ := hlook .host c hc hne
      exact ⟨c, hmem, hspelled, .inl (hread h _ hvalue)⟩
    · obtain ⟨hnone, c, hc, hne⟩ := hh
      obtain ⟨hmem, hspelled, hvalue⟩ := hlook .bareHost c hc hne
      refine ⟨c, hmem, hspelled, .inr ⟨?_, hvalue⟩⟩
      change o.readSlots (cookies h) .host = none
      rw [readSlots_eq, hnone]
      rfl

def exampleOffice : OfficeCookies := ⟨js "0123456789ab", by
  have hall : (js "0123456789ab").all (fun c => !isJsWhitespace c) = true := by decide
  exact fun c hc => by simpa using List.all_eq_true.1 hall c hc, true, fun _ => false⟩

def emptyCookie : JsString := js "__Host-isomux_session_0123456789ab="

theorem https_selection_empty :
    (exampleOffice.readSessionCookies (some emptyCookie)).selectedName = some .host ∧
      (exampleOffice.readSessionCookies (some emptyCookie)).selected = some [] :=
  (exampleOffice.https_selection rfl).2.1 (some emptyCookie)
    ⟨fun c hc => by cases hc; rfl, nofun⟩ (exampleOffice.nameOf .host, []) rfl

/-- A no-break space in front of the name: a browser lets anyone write the cookie, and the office reads
it. -/
theorem planted_cookie :
    prefixedCookies (some (0xA0 :: emptyCookie ++ js "x")) = prefixedCookies none ∧
      (exampleOffice.readSessionCookies none).selected = none ∧
      (exampleOffice.readSessionCookies (some (0xA0 :: emptyCookie ++ js "x"))).selected =
        some (js "x") := by
  refine ⟨?_, rfl, ?_⟩ <;> decide +kernel

end OfficeCookies

end Isomux
