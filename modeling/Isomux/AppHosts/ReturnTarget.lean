import Isomux.AppHosts.LabelSecrecy
import Isomux.AppHosts.ReturnPath
import Isomux.Apps.Registry
import Isomux.Foundations.TextLines
import Mathlib.Data.List.Infix

set_option autoImplicit false

/-!
# Where a redeem returns to

A redeem sends the browser to the return path of its code, on the host of the app, or below the widget
of the app in the office. The module says what the parser of URLs makes of such a location. Two dots
leave with the segment before them, and what is left of a path has no dots, so it can be put behind the
name of an app and does not lead out of there again.

## Main results

* `AppHosts.urlPathname_append` — a parsed path behind the name of an app.
* `AppHosts.redeem_stays` — where a redeem returns to.
-/

namespace Isomux.AppHosts

/-! ## Paths of URLs -/

def SINGLE_DOTS : List JsString := [js ".", js "%2e", js "%2E"]

def DOUBLE_DOTS : List JsString := SINGLE_DOTS.flatMap fun dot => SINGLE_DOTS.map (dot ++ ·)

/-- The printable code units that the parser escapes in a path. -/
def PATH_ESCAPES : List CodeUnit := [34, 60, 62, 94, 96, 123, 125]

/-- The printable code units that the parser escapes in a query. -/
def QUERY_ESCAPES : List CodeUnit := [34, 39, 60, 62]

def escapeUnits (escapes : List CodeUnit) (text : JsString) : JsString :=
  text.flatMap fun c => if escapes.contains c then percentByte c.toNat else [c]

/-- The segments of a path, the last one first. Two dots take the segment before them away, and dots at the
end leave an empty one. -/
def pathStack : List JsString → List JsString → List JsString
  | [], stack => stack
  | segment :: rest, stack =>
    let empty := if rest = [] then [[]] else []
    pathStack rest
      (if DOUBLE_DOTS.contains segment then empty ++ stack.tail
      else if SINGLE_DOTS.contains segment then empty ++ stack
      else escapeUnits PATH_ESCAPES segment :: stack)

/-- `pathname`, from a printable path without a backslash and what follows it. -/
def urlPathname (path : JsString) : JsString :=
  47 :: [47].intercalate (pathStack (((path.takeWhile (· ≠ 63)).drop 1).splitOn 47) []).reverse

/-- `search`. -/
def urlSearch (path : JsString) : JsString :=
  let query := path.dropWhile (· ≠ 63)
  if query.length ≤ 1 then [] else escapeUnits QUERY_ESCAPES query

structure Target where
  origin : JsString
  pathname : JsString
  search : JsString

def SCHEMES : List JsString := [js "https://", js "http://"]

/-- Where a browser that is at an origin goes with a location: behind two slashes there is another host.
A host is as an origin has it. -/
def resolve (base location : JsString) : Option Target :=
  match location with
  | 47 :: 47 :: _ => none
  | 47 :: 92 :: _ => none
  | 47 :: _ => some ⟨base, urlPathname location, urlSearch location⟩
  | _ =>
    (SCHEMES.find? (·.isPrefixOf location)).map fun scheme =>
      let rest := location.drop scheme.length
      let host := rest.takeWhile fun c => !([47, 63, 35, 92].contains c)
      let path := rest.drop host.length
      ⟨scheme ++ host, urlPathname path, urlSearch path⟩

/-- `URL.origin`. -/
def IsOrigin (origin : JsString) : Prop :=
  ∃ scheme ∈ SCHEMES, ∃ host, origin = scheme ++ host ∧ ∀ c ∈ host, c ∉ [47, 63, 35, 92]

/-- A segment that the parser leaves as it is. -/
structure Settled (segment : JsString) : Prop where
  double : segment ∉ DOUBLE_DOTS
  single : segment ∉ SINGLE_DOTS
  escape : escapeUnits PATH_ESCAPES segment = segment
  mem : ∀ c ∈ segment, c ≠ 47 ∧ c ≠ 63

section Segments

variable {segment path name : JsString} {escapes : List CodeUnit}

lemma escapeUnits_eq_self (h : ∀ c ∈ segment, c ∉ escapes) :
    escapeUnits escapes segment = segment := by
  rw [escapeUnits, List.flatMap_congr fun c hc => if_neg fun hmem =>
    h c hc (List.contains_iff_mem.1 hmem), List.flatMap_singleton']

lemma forall_mem_escapeUnits {P : CodeUnit → Prop} (h : ∀ c ∈ segment, c ∉ PATH_ESCAPES → P c)
    (hpercent : ∀ c ∈ PATH_ESCAPES, ∀ d ∈ percentByte c.toNat, P d) :
    ∀ c ∈ escapeUnits PATH_ESCAPES segment, P c := by
  intro c hc
  obtain ⟨d, hd, hc⟩ := List.mem_flatMap.1 hc
  split_ifs at hc with hescape
  · exact hpercent d (List.contains_iff_mem.1 hescape) c hc
  · obtain rfl := List.mem_singleton.1 hc
    exact h c hd fun hmem => hescape (List.contains_iff_mem.2 hmem)

lemma notMem_escapeUnits {dots : List JsString} (hsegment : segment ∉ dots)
    (hdots : ∀ dot ∈ dots, ∀ c ∈ PATH_ESCAPES, ¬percentByte c.toNat <:+: dot) :
    escapeUnits PATH_ESCAPES segment ∉ dots := by
  intro hmem
  have hsame : escapeUnits PATH_ESCAPES segment = segment := by
    refine escapeUnits_eq_self fun c hc hescape => hdots _ hmem c hescape ?_
    obtain ⟨front, back, rfl⟩ := List.append_of_mem hc
    refine ⟨escapeUnits PATH_ESCAPES front, escapeUnits PATH_ESCAPES back, ?_⟩
    rw [escapeUnits, escapeUnits, escapeUnits, List.flatMap_append, List.flatMap_cons,
      if_pos (List.contains_iff_mem.2 hescape), List.append_assoc]
  exact hsegment (hsame ▸ hmem)

lemma settled_escapeUnits (hdouble : segment ∉ DOUBLE_DOTS) (hsingle : segment ∉ SINGLE_DOTS)
    (hmem : ∀ c ∈ segment, c ≠ 47 ∧ c ≠ 63) : Settled (escapeUnits PATH_ESCAPES segment) where
  double := notMem_escapeUnits hdouble (by decide)
  single := notMem_escapeUnits hsingle (by decide)
  escape := escapeUnits_eq_self (forall_mem_escapeUnits (fun _ _ h => h) (by decide))
  mem := forall_mem_escapeUnits (fun c hc _ => hmem c hc) (by decide)

lemma settled_nil : Settled [] := ⟨by decide, by decide, rfl, nofun⟩

lemma mem_splitOn {text : JsString} (h : segment ∈ text.splitOn 47) :
    ∀ c ∈ segment, c ≠ 47 ∧ c ∈ text := by
  induction text generalizing segment with
  | nil =>
    obtain rfl := List.mem_singleton.1 h
    exact nofun
  | cons c text ih =>
    rw [List.splitOn_cons_eq_if_modifyHead] at h
    split_ifs at h with hslash
    · rcases List.mem_cons.1 h with rfl | h
      · exact nofun
      · exact fun d hd => (ih h d hd).imp_right (List.mem_cons_of_mem _)
    · cases hsplit : text.splitOn 47 with
      | nil => exact absurd hsplit (List.splitOn_ne_nil _ _)
      | cons head tail =>
        rw [hsplit] at ih h
        rcases List.mem_cons.1 h with rfl | h
        · intro d hd
          rcases List.mem_cons.1 hd with rfl | hd
          · exact ⟨by simpa using hslash, List.mem_cons_self⟩
          · exact (ih List.mem_cons_self d hd).imp_right (List.mem_cons_of_mem _)
        · exact fun d hd =>
            (ih (List.mem_cons_of_mem _ h) d hd).imp_right (List.mem_cons_of_mem _)

lemma settled_pathStack {segments stack : List JsString} (hne : segments ≠ [] ∨ stack ≠ [])
    (hsegments : ∀ s ∈ segments, ∀ c ∈ s, c ≠ 47 ∧ c ≠ 63) (hstack : ∀ s ∈ stack, Settled s) :
    pathStack segments stack ≠ [] ∧ ∀ s ∈ pathStack segments stack, Settled s := by
  induction segments generalizing stack with
  | nil => exact ⟨hne.resolve_left fun h => h rfl, hstack⟩
  | cons segment rest ih =>
    obtain ⟨hsegment, hrest⟩ := List.forall_mem_cons.1 hsegments
    have hempty : ∀ s ∈ (if rest = [] then [[]] else [] : List JsString), Settled s := by
      split_ifs
      · exact List.forall_mem_singleton.2 settled_nil
      · exact nofun
    have hlast : ∀ stack : List JsString,
        rest ≠ [] ∨ (if rest = [] then [[]] else []) ++ stack ≠ [] := by
      intro stack
      by_cases hnil : rest = []
      · exact .inr (by simp [hnil])
      · exact .inl hnil
    rw [pathStack]
    by_cases hdouble : DOUBLE_DOTS.contains segment = true
    · rw [if_pos hdouble]
      exact ih (hlast _) hrest
        (List.forall_mem_append.2 ⟨hempty, fun s hs => hstack s (List.mem_of_mem_tail hs)⟩)
    · rw [if_neg hdouble]
      by_cases hsingle : SINGLE_DOTS.contains segment = true
      · rw [if_pos hsingle]
        exact ih (hlast _) hrest (List.forall_mem_append.2 ⟨hempty, hstack⟩)
      · rw [if_neg hsingle]
        rw [List.contains_iff_mem] at hdouble hsingle
        exact ih (.inr (List.cons_ne_nil _ _)) hrest
          (List.forall_mem_cons.2 ⟨settled_escapeUnits hdouble hsingle hsegment, hstack⟩)

lemma pathStack_settled {segments : List JsString} (h : ∀ s ∈ segments, Settled s)
    (stack : List JsString) : pathStack segments stack = segments.reverse ++ stack := by
  induction segments generalizing stack with
  | nil => rfl
  | cons segment rest ih =>
    obtain ⟨hsegment, hrest⟩ := List.forall_mem_cons.1 h
    rw [pathStack, if_neg fun hmem => hsegment.double (List.contains_iff_mem.1 hmem),
      if_neg fun hmem => hsegment.single (List.contains_iff_mem.1 hmem), hsegment.escape, ih hrest,
      List.reverse_cons, List.append_assoc]
    rfl

lemma exists_segments (path : JsString) : ∃ segments, segments ≠ [] ∧ (∀ s ∈ segments, Settled s) ∧
    urlPathname path = 47 :: [47].intercalate segments := by
  have hsegments : ∀ s ∈ ((path.takeWhile (· ≠ 63)).drop 1).splitOn 47, ∀ c ∈ s, c ≠ 47 ∧ c ≠ 63 := by
    intro s hs c hc
    obtain ⟨hslash, hmem⟩ := mem_splitOn hs c hc
    exact ⟨hslash, by simpa using List.mem_takeWhile_imp (List.mem_of_mem_drop hmem)⟩
  obtain ⟨hne, hsettled⟩ := settled_pathStack (.inl (List.splitOn_ne_nil _ _)) hsegments
    (List.forall_mem_nil _)
  exact ⟨_, List.reverse_ne_nil_iff.2 hne, fun s hs => hsettled s (List.mem_reverse.1 hs), rfl⟩

/-- **A parsed path behind a name** stays there. -/
theorem urlPathname_append (hname : Settled name) (path : JsString) {tail : JsString}
    (htail : tail = [] ∨ ∃ rest, tail = 63 :: rest) :
    urlPathname (47 :: (name ++ urlPathname path ++ tail)) = 47 :: (name ++ urlPathname path) := by
  obtain ⟨segments, hne, hsettled, hpath⟩ := exists_segments path
  have hall : ∀ s ∈ name :: segments, Settled s := List.forall_mem_cons.2 ⟨hname, hsettled⟩
  have hjoin : name ++ urlPathname path = [47].intercalate (name :: segments) := by
    rw [hpath, List.intercalate_cons_of_ne_nil hne, List.append_assoc]
    rfl
  have hquestion : ∀ c ∈ 47 :: [47].intercalate (name :: segments), decide (c ≠ 63) = true := by
    refine List.forall_mem_cons.2 ⟨by decide, fun c hc => decide_eq_true ?_⟩
    rcases TextLines.mem_intercalate hc with hc | ⟨s, hs, hc⟩
    · rw [List.mem_singleton.1 hc]
      decide
    · exact ((hall s hs).mem c hc).2
  have htake : (47 :: ([47].intercalate (name :: segments) ++ tail)).takeWhile (· ≠ 63) =
      47 :: [47].intercalate (name :: segments) := by
    rw [← List.cons_append, List.takeWhile_append_of_pos hquestion]
    rcases htail with rfl | ⟨rest, rfl⟩
    · exact List.append_nil _
    · exact List.append_nil _
  rw [hjoin, urlPathname, htake, List.drop_succ_cons, List.drop_zero,
    List.splitOn_intercalate 47 (fun s hs hmem => ((hall s hs).mem 47 hmem).1 rfl)
      (List.cons_ne_nil _ _), pathStack_settled hall, List.append_nil, List.reverse_reverse]

lemma urlSearch_cases (path : JsString) :
    urlSearch path = [] ∨ ∃ rest, urlSearch path = 63 :: rest := by
  unfold urlSearch
  dsimp only
  split_ifs with hshort
  · exact .inl rfl
  · cases hquery : path.dropWhile (· ≠ 63) with
    | nil => exact .inl rfl
    | cons c query =>
      have hhead := List.head?_dropWhile_not (· ≠ (63 : CodeUnit)) path
      rw [hquery] at hhead
      obtain rfl : c = 63 := by simpa using hhead
      exact .inr ⟨_, rfl⟩

lemma settled_name (h : AppRegistry.APP_NAME_PATTERN name = true) : Settled name := by
  have hall : name.all (fun c => isLowerAlnum c || c = 45) = true := by
    simp only [AppRegistry.APP_NAME_PATTERN, Bool.and_eq_true] at h
    exact h.1.2
  have hdots : ∀ dot ∈ DOUBLE_DOTS ++ SINGLE_DOTS,
      dot.all (fun c => isLowerAlnum c || c = 45) = false := by
    decide
  have hother : ∀ c ∈ PATH_ESCAPES ++ [47, 63], (isLowerAlnum c || c = 45) = false := by
    decide
  have hunit : ∀ c ∈ name, c ∉ PATH_ESCAPES ++ [47, 63] := fun c hc hmem =>
    Bool.false_ne_true ((hother c hmem).symm.trans (List.all_eq_true.1 hall c hc))
  have hsegment : name ∉ DOUBLE_DOTS ++ SINGLE_DOTS := fun hmem =>
    Bool.false_ne_true ((hdots name hmem).symm.trans hall)
  simp only [List.mem_append, not_or] at hunit hsegment
  refine ⟨hsegment.1, hsegment.2, escapeUnits_eq_self fun c hc => (hunit c hc).1, fun c hc => ?_⟩
  simpa using (hunit c hc).2

end Segments

/-! ## Locations -/

section Locations

variable {base path origin : JsString}

lemma resolve_path (h : validateReturnPath (some path) = some path) (base : JsString) :
    resolve base path = some ⟨base, urlPathname path, urlSearch path⟩ := by
  rw [validateReturnPath] at h
  split_ifs at h with hlength hslash hprintable hback
  simp only [Bool.or_eq_true, Bool.not_eq_true', not_or, Bool.not_eq_false] at hslash hback
  unfold resolve
  split
  · exact absurd rfl hslash.2
  · exact absurd rfl hback.1
  · rfl
  · rename_i hother
    cases path with
    | nil => exact absurd hslash.1 (by decide)
    | cons c rest =>
      have hfirst : 47 = c := by
        have hprefix := List.isPrefixOf_iff_prefix.1 hslash.1
        exact (List.cons_prefix_cons.1 hprefix).1
      subst hfirst
      exact absurd rfl (hother _)

lemma resolve_origin (h : IsOrigin origin) (base rest : JsString) :
    resolve base (origin ++ 47 :: rest) =
      some ⟨origin, urlPathname (47 :: rest), urlSearch (47 :: rest)⟩ := by
  obtain ⟨scheme, hscheme, host, rfl, hhost⟩ := h
  have hresolve : resolve base (scheme ++ host ++ 47 :: rest) =
      some ⟨scheme ++ (host ++ 47 :: rest).takeWhile fun c => !([47, 63, 35, 92].contains c),
        urlPathname ((host ++ 47 :: rest).drop
          ((host ++ 47 :: rest).takeWhile fun c => !([47, 63, 35, 92].contains c)).length),
        urlSearch ((host ++ 47 :: rest).drop
          ((host ++ 47 :: rest).takeWhile fun c => !([47, 63, 35, 92].contains c)).length)⟩ := by
    rw [List.append_assoc]
    rcases List.mem_pair.1 hscheme with rfl | rfl <;> rfl
  have htake : ((host ++ 47 :: rest).takeWhile fun c => !([47, 63, 35, 92].contains c)) = host := by
    rw [List.takeWhile_append_of_pos fun c hc => by simpa using hhost c hc]
    exact List.append_nil host
  rw [hresolve, htake, List.drop_left]

end Locations

/-! ## Redeems -/

section Redeems

variable {office : Surroundings} {tables : Tables} {req : Request} {host : JsString} {app : AppRecord}
  {response : Response}

/-- A redirect of a redeem goes where its code says. -/
lemma exists_of_redeem (h : (handleAppAuthRedeem office tables req host app).1 = .response response)
    (hstatus : response.status = 302) :
    ∃ code record lines, singleParam req.url (js "code") = .value code ∧
      JsMap.get tables.pendingCodes (office.hashOf code) = some record ∧
      response = handshakeRedirect (if record.wrapperReturn then office.origin ++ js "/" ++ app.name ++
        (office.page record.returnPath).1 ++ (office.page record.returnPath).2
        else record.returnPath) lines := by
  have hfailed : .response signInFailed ≠ (.response response : Answer AppRecord) := by
    intro heq
    rw [← Answer.response.inj heq] at hstatus
    exact absurd (show 400 = 302 from hstatus) (by decide)
  unfold handleAppAuthRedeem at h
  cases hparam : singleParam req.url (js "code") with
  | absent | malformed => exact absurd (by rwa [hparam] at h) hfailed
  | value code =>
    rw [hparam] at h
    dsimp only at h
    cases hredeem : (redeemAppCode office tables code host app.hostLabel app.registrationGen).1 with
    | none => exact absurd (by rwa [hredeem] at h) hfailed
    | some record =>
      rw [hredeem] at h
      dsimp only at h
      split at h
      · exact absurd h hfailed
      · split at h
        · exact absurd h hfailed
        · split at h
          · exact absurd h hfailed
          · split at h
            · exact absurd h hfailed
            · exact ⟨code, record, _, rfl, (redeemAppCode_some hredeem).1, (Answer.response.inj h).symm⟩

/-- **A redeem stays where it belongs.** As long as every code has a return path that the mint took, the
redirect of a redeem goes to the host that it comes from, whatever the path, and from a wrapper to a page
below the widget of the app in the office. -/
theorem redeem_stays (hpage : ∀ path, office.page path = (urlPathname path, urlSearch path))
    (horigin : IsOrigin office.origin) (hname : AppRegistry.APP_NAME_PATTERN app.name = true)
    (hpaths : ∀ e ∈ tables.pendingCodes,
      validateReturnPath (some e.2.returnPath) = some e.2.returnPath)
    (h : (handleAppAuthRedeem office tables req host app).1 = .response response)
    (hstatus : response.status = 302) (base : JsString) :
    ∃ code record location lines target, singleParam req.url (js "code") = .value code ∧
      JsMap.get tables.pendingCodes (office.hashOf code) = some record ∧
      response = handshakeRedirect location lines ∧ resolve base location = some target ∧
      (record.wrapperReturn = false → target.origin = base) ∧
      (record.wrapperReturn = true → target.origin = office.origin ∧
        js "/" ++ app.name ++ js "/" <+: target.pathname) := by
  obtain ⟨code, record, lines, hparam, hget, hresponse⟩ := exists_of_redeem h hstatus
  cases hwrapper : record.wrapperReturn with
  | false =>
    rw [hwrapper, if_neg Bool.false_ne_true] at hresponse
    refine ⟨code, record, _, lines, _, hparam, hget, hresponse,
      resolve_path (hpaths _ (JsMap.mem_of_get hget)) base, fun _ => rfl, fun h => ?_⟩
    exact nomatch hwrapper.symm.trans h
  | true =>
    rw [hwrapper, if_pos rfl, hpage] at hresponse
    have hlocation : office.origin ++ js "/" ++ app.name ++ urlPathname record.returnPath ++
        urlSearch record.returnPath = office.origin ++ 47 ::
          (app.name ++ urlPathname record.returnPath ++ urlSearch record.returnPath) := by
      simp only [List.append_assoc]
      rfl
    rw [hlocation] at hresponse
    refine ⟨code, record, _, lines, _, hparam, hget, hresponse, resolve_origin horigin base _,
      fun h => ?_, fun _ => ⟨rfl, ?_⟩⟩
    · exact nomatch hwrapper.symm.trans h
    dsimp only
    rw [urlPathname_append (settled_name hname) _ (urlSearch_cases _)]
    exact ⟨_, by rw [urlPathname, List.append_assoc, List.append_assoc]; rfl⟩

theorem redeem_stays_dots :
    let office : Surroundings := { exampleOffice with
      page := fun path => (urlPathname path, urlSearch path)
      revalidateByHash := fun _ => some ⟨js "ann", 9000⟩, canAccess := fun _ _ => true }
    let code : PendingCode := ⟨js "abc", js "hello", 1, 1, js "hello.office.example", js "s",
      js "/../%2e%2E/x", true, 9⟩
    ∃ location lines target,
      (handleAppAuthRedeem office ⟨[(js "abc", code)], [], [], [], [], []⟩
        ⟨js "GET", [], ⟨js "/", [], [(js "code", js "abc")]⟩⟩ (js "hello.office.example")
        ⟨js "hello", js "hello", 1, 1, 0⟩).1 = .response (handshakeRedirect location lines) ∧
      resolve (js "https://hello.office.example") location = some target ∧
      target.origin = office.origin ∧ js "/" ++ js "hello" ++ js "/" <+: target.pathname := by
  intro office code
  obtain ⟨sent, record, location, lines, target, hparam, hget, hresponse, htarget, -, hwrapper⟩ :=
    @redeem_stays office ⟨[(js "abc", code)], [], [], [], [], []⟩
      ⟨js "GET", [], ⟨js "/", [], [(js "code", js "abc")]⟩⟩ (js "hello.office.example")
      ⟨js "hello", js "hello", 1, 1, 0⟩ _ (fun _ => rfl)
      ⟨js "https://", by decide, js "office.example", rfl, by decide⟩ (by decide)
      (List.forall_mem_singleton.2 (by decide)) rfl rfl (js "https://hello.office.example")
  obtain rfl : js "abc" = sent := SingleParam.value.inj hparam
  obtain rfl : code = record := Option.some.inj hget
  exact ⟨location, lines, target, congrArg Answer.response hresponse, htarget, hwrapper rfl⟩

end Redeems

end Isomux.AppHosts
