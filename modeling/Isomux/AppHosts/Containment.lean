import Isomux.AppHosts.Dispatch
import Mathlib.Data.List.DropRight

set_option autoImplicit false

/-!
# Names below the office

Anyone can point a name below the office at its server, so no request with such a name may reach a
handler of the office. A host that is a name is compared with the domain. One that is no name is
looked at once more, without any grammar, and the only names that both looks let pass start with a
bracket, as an address of IPv6 does.

## Main results

* `Isomux.AppHosts.names_below_diverted_iff` — which names below the domain are diverted.
-/

namespace Isomux.AppHosts

/-! ## The domain of the office -/

def isAddressLiteral (hostname : JsString) : Bool :=
  (splitUnit 46 hostname).length = 4 && (splitUnit 46 hostname).all isPort

/-- A name that leads back to its own machine, or no name. -/
def isLoopbackOrLiteral (hostname : JsString) : Bool :=
  hostname = js "localhost" || endsWith hostname (js ".localhost") ||
    hostname.head? = some 91 || isAddressLiteral hostname

/-- The names of a tailnet, which have none below them. -/
def TAILNET_SUFFIX : JsString := js "ts.net"

def isTailnetName (hostname : JsString) : Bool :=
  hostname = TAILNET_SUFFIX || endsWith hostname (46 :: TAILNET_SUFFIX)

/-- The office's own name, which its apps are below. `hostname` is that of `new URL(officeOrigin)`,
`none` where there is no such URL. -/
def deriveAppHostDomain (hostname : Option JsString) (isHttps : Bool) : Option JsString :=
  if !isHttps then none
  else
    match hostname with
    | none => none
    | some hostname =>
      let lower := hostname.toLowerCase
      let host := if lower.getLast? = some 46 then lower.dropLast else lower
      if host = [] || isLoopbackOrLiteral host then none
      else if isTailnetName host then none
      else if isHostname host 2 then some host else none

lemma isHostname_of_deriveAppHostDomain {hostname : Option JsString} {isHttps : Bool}
    {domain : JsString} (h : deriveAppHostDomain hostname isHttps = some domain) :
    isHostname domain 2 = true := by
  unfold deriveAppHostDomain at h
  split_ifs at h with hplain
  cases hostname with
  | none => cases h
  | some hostname =>
    dsimp only at h
    split_ifs at h with hstrip _ _ hname
    · exact Option.some.inj h ▸ hname
    · exact Option.some.inj h ▸ ‹_›

/-! ## Names and their labels -/

lemma splitUnit_ne_nil (separator : CodeUnit) (text : JsString) : splitUnit separator text ≠ [] := by
  cases text with
  | nil => exact List.cons_ne_nil _ _
  | cons c rest =>
    unfold splitUnit
    split_ifs
    · exact List.cons_ne_nil _ _
    · split <;> exact List.cons_ne_nil _ _

lemma splitUnit_concat (separator : CodeUnit) (text : JsString) :
    splitUnit separator (text ++ [separator]) = splitUnit separator text ++ [[]] := by
  induction text with
  | nil => simp [splitUnit]
  | cons c rest ih =>
    rw [List.cons_append]
    unfold splitUnit
    rw [ih]
    split_ifs
    · rfl
    · cases hparts : splitUnit separator rest with
      | nil => exact absurd hparts (splitUnit_ne_nil separator rest)
      | cons part parts => rfl

variable {text : JsString} {minLabels : ℕ}

lemma mem_of_splitUnit {separator c : CodeUnit} (h : c ∈ text) :
    c = separator ∨ ∃ part ∈ splitUnit separator text, c ∈ part := by
  induction text with
  | nil => cases h
  | cons d rest ih =>
    unfold splitUnit
    by_cases hd : d = separator
    · rw [if_pos hd]
      rcases List.mem_cons.1 h with rfl | hrest
      · exact Or.inl hd
      · exact (ih hrest).imp_right fun ⟨part, hpart, hc⟩ =>
          ⟨part, List.mem_cons_of_mem _ hpart, hc⟩
    · rw [if_neg hd]
      cases hparts : splitUnit separator rest with
      | nil => exact absurd hparts (splitUnit_ne_nil separator rest)
      | cons part parts =>
        rw [hparts] at ih
        rcases List.mem_cons.1 h with rfl | hrest
        · exact Or.inr ⟨c :: part, List.mem_cons_self, List.mem_cons_self⟩
        · refine (ih hrest).imp_right fun ⟨part', hpart', hc⟩ => ?_
          rcases List.mem_cons.1 hpart' with rfl | hparts'
          · exact ⟨d :: part', List.mem_cons_self, List.mem_cons_of_mem _ hc⟩
          · exact ⟨part', List.mem_cons_of_mem _ hparts', hc⟩

def isNameUnit (c : CodeUnit) : Bool := isLowerAlnum c || c = 45 || c = 46

lemma isNameUnit_of_isHostname {host : JsString}
    (h : isHostname host minLabels = true) {c : CodeUnit} (hc : c ∈ host) :
    isNameUnit c = true := by
  simp only [isHostname, Bool.and_eq_true, List.all_eq_true] at h
  unfold isNameUnit
  rcases (mem_of_splitUnit hc : c = 46 ∨ _) with rfl | ⟨label, hlabel, hc⟩
  · decide
  · have hunits := h.2 label hlabel
    simp only [isHostLabel, Bool.and_eq_true, List.all_eq_true] at hunits
    rw [hunits.1.1.2 c hc, Bool.true_or]

lemma getLast_ne_of_isHostname {host : JsString}
    (h : isHostname host minLabels = true) : host.getLast? ≠ some 46 := by
  intro hlast
  obtain ⟨front, rfl⟩ := List.getLast?_eq_some_iff.1 hlast
  simp only [isHostname, Bool.and_eq_true, List.all_eq_true] at h
  have hempty := h.2 [] (by rw [splitUnit_concat]; exact List.mem_append_right _ List.mem_cons_self)
  exact absurd hempty (by decide)

/-! ## The name in a host -/

/-- The name in a host: what is in front of the first colon, in lower case and without the dots at
its end. -/
def nameInHost (raw : JsString) : JsString :=
  (JsString.toLowerCase (raw.takeWhile (· ≠ 58))).rdropWhile (· = 46)

def NamedBelow (raw domain : JsString) : Prop := 46 :: domain <:+ nameInHost raw

/-- A host is the domain in letters of any case, with one dot behind it or none and with a port or
none. -/
def NamesOffice (raw domain : JsString) : Prop :=
  ∃ spelled dot port : JsString, raw = spelled ++ dot ++ port ∧ spelled.toLowerCase = domain ∧
    (dot = [] ∨ dot = [46]) ∧ (port = [] ∨ ∃ digits, port = 58 :: digits ∧ isPort digits = true)

lemma endsWith_iff {name suffix : JsString} : endsWith name suffix = true ↔ suffix <:+ name :=
  List.isSuffixOf_iff_suffix

lemma cutAt_fst (c : CodeUnit) (text : JsString) : (cutAt c text).1 = text.takeWhile (· ≠ c) := by
  unfold cutAt
  split
  · next h =>
    have hall := List.takeWhile_append_dropWhile (p := (· ≠ c)) (l := text)
    rw [h, List.append_nil] at hall
    exact hall.symm
  · rfl

lemma lower_eq_iff {c d : CodeUnit} (hd : d = 58 ∨ d = 91) :
    (if (65 ≤ c ∧ c ≤ 90) ∨ (0xC0 ≤ c ∧ c ≤ 0xDE ∧ c ≠ 0xD7) then c + 32 else c) = d ↔ c = d := by
  split_ifs with hupper
  · constructor
    · intro h
      obtain rfl : c = d - 32 := by rw [← h, UInt16.add_sub_cancel]
      rcases hd with rfl | rfl <;> exact absurd hupper (by decide)
    · rintro rfl
      rcases hd with rfl | rfl <;> exact absurd hupper (by decide)
  · exact Iff.rfl

lemma takeWhile_toLowerCase (raw : JsString) :
    raw.toLowerCase.takeWhile (· ≠ 58) = JsString.toLowerCase (raw.takeWhile (· ≠ 58)) := by
  unfold JsString.toLowerCase
  rw [List.takeWhile_map]
  congr 1
  refine congrArg (List.takeWhile · raw) (funext fun c => ?_)
  simp only [Function.comp_apply, decide_not, lower_eq_iff (Or.inl rfl)]

lemma head?_toLowerCase (raw : JsString) :
    raw.toLowerCase.head? = some 91 ↔ raw.head? = some 91 := by
  cases raw with
  | nil => exact Iff.rfl
  | cons c rest => simp only [JsString.toLowerCase, List.map_cons, List.head?_cons, Option.some.injEq,
      lower_eq_iff (Or.inr rfl)]

lemma isBelowAppDomain_iff {raw domain : JsString} :
    isBelowAppDomain (some raw) domain = true ↔ raw.head? ≠ some 91 ∧ NamedBelow raw domain := by
  unfold isBelowAppDomain NamedBelow nameInHost
  dsimp only
  rw [cutAt_fst, takeWhile_toLowerCase, ← List.rdropWhile]
  split_ifs with hbracket
  · simp [(head?_toLowerCase raw).1 hbracket]
  · rw [endsWith_iff]
    exact (and_iff_right (mt (head?_toLowerCase raw).2 hbracket)).symm

lemma rdropWhile_dots {name host : JsString}
    (hstrip : (if name.getLast? = some 46 then name.dropLast else name) = host)
    (hhost : isHostname host minLabels = true) : name.rdropWhile (· = 46) = host := by
  have hself : host.rdropWhile (· = 46) = host := by
    refine List.rdropWhile_eq_self_iff.2 fun hne hdot => getLast_ne_of_isHostname hhost ?_
    rw [List.getLast?_eq_getLast_of_ne_nil hne, of_decide_eq_true hdot]
  split_ifs at hstrip with hlast
  · obtain ⟨front, rfl⟩ := List.getLast?_eq_some_iff.1 hlast
    rw [List.dropLast_concat] at hstrip
    rw [hstrip, List.rdropWhile_concat_pos _ _ _ (by decide), hself]
  · rw [hstrip, hself]

lemma normalizeRequestHost_some {raw host : JsString}
    (h : normalizeRequestHost (some raw) = some host) :
    raw.head? ≠ some 91 ∧ host = nameInHost raw ∧ isHostname host 1 = true := by
  unfold normalizeRequestHost at h
  dsimp only at h
  rw [cutAt_fst, takeWhile_toLowerCase] at h
  split_ifs at h with _ hbracket _ hlast hname hname
  · obtain rfl := Option.some.inj h
    exact ⟨mt (head?_toLowerCase raw).2 hbracket, (rdropWhile_dots (if_pos hlast) hname).symm, hname⟩
  · obtain rfl := Option.some.inj h
    exact ⟨mt (head?_toLowerCase raw).2 hbracket, (rdropWhile_dots (if_neg hlast) hname).symm, hname⟩

lemma nameInHost_of_namesOffice {raw domain : JsString} (hdomain : isHostname domain 2 = true)
    (h : NamesOffice raw domain) : nameInHost raw = domain := by
  obtain ⟨spelled, dot, port, rfl, rfl, hdot, hport⟩ := h
  have hcolon : ∀ c ∈ spelled ++ dot, decide (c ≠ 58) = true := by
    intro c hc
    rcases List.mem_append.1 hc with hspelled | hdot'
    · refine decide_eq_true ?_
      rintro rfl
      have hlower : 58 ∈ spelled.toLowerCase := List.mem_map.2 ⟨58, hspelled, by decide⟩
      exact absurd (isNameUnit_of_isHostname hdomain hlower) (by decide)
    · rcases hdot with rfl | rfl
      · cases hdot'
      · rw [List.mem_singleton.1 hdot']
        decide
  have hfront : (spelled ++ dot ++ port).takeWhile (· ≠ 58) = spelled ++ dot := by
    rw [List.takeWhile_append_of_pos hcolon]
    rcases hport with rfl | ⟨digits, rfl, -⟩
    · rw [List.takeWhile_nil, List.append_nil]
    · rw [List.takeWhile_cons_of_neg (by decide), List.append_nil]
  unfold nameInHost
  rw [hfront]
  refine rdropWhile_dots ?_ hdomain
  rcases hdot with rfl | rfl
  · rw [List.append_nil, if_neg (getLast_ne_of_isHostname hdomain)]
  · have hlower : JsString.toLowerCase (spelled ++ [46]) = spelled.toLowerCase ++ [46] := by
      rw [JsString.toLowerCase, List.map_append]
      rfl
    rw [hlower, if_pos List.getLast?_concat, List.dropLast_concat]

/-! ## Answers -/

/-- A request that got this answer did not reach the office. -/
def Answer.Diverts {App : Type} : Answer App → Prop
  | .office => False
  | .throws => False
  | _ => True

-- A code unit is one of finitely many, and this one goes through those of the text alone.
instance (priority := 2000) {p : CodeUnit → Prop} [DecidablePred p] (text : JsString) :
    Decidable (∀ c ∈ text, p c) :=
  List.decidableBAll p text

section Diverts

variable {office : Surroundings} {tables : Tables} {req : Request} {host label : JsString}
  {app : AppRecord}

lemma noAppSessionAnswer_diverts (hlabel : AllAscii label)
    (hurl : AllAscii (req.url.pathname ++ req.url.search)) (rawCookie : Option JsString)
    (upgrade : Bool) : (noAppSessionAnswer office req label rawCookie upgrade).Diverts := by
  obtain ⟨_, happ⟩ := encodeURIComponent_of_allAscii hlabel
  obtain ⟨_, hreturn⟩ := encodeURIComponent_of_allAscii hurl
  unfold noAppSessionAnswer
  rw [happ, hreturn]
  dsimp only
  split_ifs <;> exact trivial

lemma handleAppAuthRedeem_diverts : (handleAppAuthRedeem office tables req host app).1.Diverts := by
  unfold handleAppAuthRedeem
  cases singleParam req.url (js "code") with
  | absent => trivial
  | malformed => trivial
  | value code =>
    dsimp only
    cases (redeemAppCode office tables code host app.hostLabel app.registrationGen).1 with
    | none => trivial
    | some record =>
      dsimp only
      by_cases hgen : record.hostGen ≠ app.hostGen
      · rw [if_pos hgen]
        trivial
      · rw [if_neg hgen]
        cases office.revalidateByHash record.officeSessionHash with
        | none => trivial
        | some session =>
          dsimp only
          split
          · trivial
          · split <;> trivial

lemma handleAppPreviewRedeem_diverts :
    (handleAppPreviewRedeem office tables req host app).1.Diverts := by
  unfold handleAppPreviewRedeem
  cases singleParam req.url (js "code") with
  | absent => trivial
  | malformed => trivial
  | value code =>
    dsimp only
    split_ifs
    · trivial
    · split
      · trivial
      · split_ifs <;> trivial

lemma appHostWsAuthGate_diverts (hlabel : AllAscii app.hostLabel)
    (hurl : AllAscii (req.url.pathname ++ req.url.search)) {answer : Answer AppRecord}
    (h : (appHostWsAuthGate office tables req app).1 = some answer) : answer.Diverts := by
  unfold appHostWsAuthGate at h
  dsimp only at h
  split_ifs at h
  exact Option.some.inj h ▸ noAppSessionAnswer_diverts hlabel hurl _ _

lemma appHostAuthGate_diverts (hlabel : AllAscii app.hostLabel)
    (hurl : AllAscii (req.url.pathname ++ req.url.search)) {answer : Answer AppRecord}
    (h : (appHostAuthGate office tables req app).1 = .refused answer) : answer.Diverts := by
  have hrefusal : (noAppSessionAnswer office req app.hostLabel (readAppCookie req) false).Diverts :=
    noAppSessionAnswer_diverts hlabel hurl _ _
  unfold appHostAuthGate at h
  dsimp only at h
  split at h
  · split at h
    · cases h
    · split_ifs at h
      exact GateResult.refused.inj h ▸ hrefusal
  · split_ifs at h
    exact GateResult.refused.inj h ▸ hrefusal

/-- What a host with one label answers does not reach the office. -/
lemma divert_diverts (hlabel : AllAscii label)
    (hurl : AllAscii (req.url.pathname ++ req.url.search)) {app : Option AppRecord}
    (happ : ∀ a, app = some a → a.hostLabel = label) :
    (divert office tables req host label app).1.Diverts := by
  unfold divert
  dsimp only
  cases app with
  | none =>
    dsimp only
    split_ifs
    · trivial
    · trivial
    · trivial
    · exact noAppSessionAnswer_diverts hlabel hurl _ _
  | some app =>
    obtain rfl := happ app rfl
    dsimp only
    by_cases hreserved : reserved req.url.pathname = true
    · rw [if_pos hreserved]
      split_ifs
      · exact handleAppAuthRedeem_diverts
      · exact handleAppPreviewRedeem_diverts
      · trivial
    · rw [if_neg hreserved]
      by_cases hupgrade : isWebSocketUpgrade req = true
      · rw [if_pos hupgrade]
        split
        · next answer _ hgate => exact appHostWsAuthGate_diverts hlabel hurl (by rw [hgate])
        · trivial
      · rw [if_neg hupgrade]
        split
        · next answer _ hgate => exact appHostAuthGate_diverts hlabel hurl (by rw [hgate])
        · split_ifs <;> trivial

end Diverts

/-! ## The dispatcher -/

section Dispatch

variable {office : Surroundings} {tables : Tables} {registry : Option (List AppRecord)}
  {req : Request} {domain raw : JsString}

lemma dispatch_bracket (hhost : req.header "host" = some raw) (hbracket : raw.head? = some 91) :
    (dispatchAppHostRequest office tables registry req).1 = .office := by
  unfold dispatchAppHostRequest
  cases office.appHostDomain with
  | none => rfl
  | some domain =>
    dsimp only
    rw [hhost]
    cases hnormal : normalizeRequestHost (some raw) with
    | some host => exact absurd hbracket (normalizeRequestHost_some hnormal).1
    | none =>
      dsimp only
      rw [if_neg fun hbelow => (isBelowAppDomain_iff.1 hbelow).1 hbracket]

lemma dispatch_own_name (hdomain : office.appHostDomain = some domain)
    (hhost : req.header "host" = some raw) (hname : nameInHost raw = domain) :
    (dispatchAppHostRequest office tables registry req).1 = .office := by
  have hends : ¬ 46 :: domain <:+ domain := fun h => absurd h.length_le (by simp)
  unfold dispatchAppHostRequest
  rw [hdomain, hhost]
  dsimp only
  cases hnormal : normalizeRequestHost (some raw) with
  | none =>
    dsimp only
    rw [if_neg fun hbelow => hends (by simpa only [NamedBelow, hname] using
      (isBelowAppDomain_iff.1 hbelow).2)]
  | some host =>
    obtain ⟨-, rfl, -⟩ := normalizeRequestHost_some hnormal
    have hmatch : matchAppHost domain domain = none := by
      rw [matchAppHost, if_neg fun h => hends (endsWith_iff.1 h)]
    dsimp only
    rw [hname, hmatch]

/-- A name below the domain does not reach the office, if there is no bracket in front of it.

**Proof sketch.** A host that is no name is caught by the loose look. One that is a name is the name
in it, so it is below the domain, and it has a label or it is further below. -/
lemma dispatch_below (hdomain : office.appHostDomain = some domain)
    (hhost : req.header "host" = some raw) (hurl : AllAscii (req.url.pathname ++ req.url.search))
    (hbelow : NamedBelow raw domain) (hbracket : raw.head? ≠ some 91) :
    (dispatchAppHostRequest office tables registry req).1.Diverts := by
  unfold dispatchAppHostRequest
  rw [hdomain, hhost]
  dsimp only
  cases hnormal : normalizeRequestHost (some raw) with
  | none =>
    dsimp only
    rw [if_pos (isBelowAppDomain_iff.2 ⟨hbracket, hbelow⟩)]
    trivial
  | some host =>
    obtain ⟨-, rfl, hname⟩ := normalizeRequestHost_some hnormal
    dsimp only
    cases hmatch : matchAppHost (nameInHost raw) domain with
    | none =>
      rw [matchAppHost, if_pos (endsWith_iff.2 hbelow)] at hmatch
      dsimp only at hmatch
      split_ifs at hmatch
    | some found =>
      cases found with
      | under => trivial
      | label label =>
        cases registry with
        | none => trivial
        | some apps =>
          have hlabel : AllAscii label := by
            intro c hc
            have hunit := isNameUnit_of_isHostname hname (c := c)
              (by rw [(matchAppHost_label hmatch).1]; exact List.mem_append_left _ hc)
            simp only [isNameUnit, isLowerAlnum, Bool.or_eq_true, Bool.and_eq_true,
              decide_eq_true_eq, UInt16.le_iff_toNat_le, ← UInt16.toNat_inj] at hunit
            rw [UInt16.lt_iff_toNat_lt]
            simp only [UInt16.reduceToNat] at hunit ⊢
            omega
          exact divert_diverts hlabel hurl fun app hlive => by simpa using List.find?_some hlive

end Dispatch

/-- **Which names below the domain are diverted**: a request whose host names something below the
domain of the office is answered here, whatever its method, its port and the state of the tables,
if and only if the host does not start with a bracket. A request for the office's own name reaches
the office.

**Proof sketch.** Both looks at a host give up at a bracket in front. Without one the loose look
sees the name in the host, and so does the strict one when it lets the host pass. -/
theorem names_below_diverted_iff (office : Surroundings) (tables : Tables)
    (registry : Option (List AppRecord)) (req : Request) (hostname : Option JsString)
    (isHttps : Bool) (domain raw : JsString)
    (hderived : office.appHostDomain = deriveAppHostDomain hostname isHttps)
    (hdomain : office.appHostDomain = some domain) (hhost : req.header "host" = some raw)
    (hurl : AllAscii (req.url.pathname ++ req.url.search)) :
    (NamedBelow raw domain →
      ((dispatchAppHostRequest office tables registry req).1.Diverts ↔ raw.head? ≠ some 91)) ∧
    (NamesOffice raw domain → (dispatchAppHostRequest office tables registry req).1 = .office) := by
  constructor
  · intro hbelow
    constructor
    · intro hdiverts hbracket
      rw [dispatch_bracket hhost hbracket] at hdiverts
      exact hdiverts
    · exact dispatch_below hdomain hhost hurl hbelow
  · intro hspelled
    have hname : isHostname domain 2 = true :=
      isHostname_of_deriveAppHostDomain (hderived ▸ hdomain)
    exact dispatch_own_name hdomain hhost (nameInHost_of_namesOffice hname hspelled)

/-- An office at `office.example`. -/
def exampleOffice : Surroundings :=
  { origin := js "https://office.example", appHostDomain := some (js "office.example")
    hashOf := fun raw => raw, scriptHash := fun script => script, randomToken := js "fresh"
    page := fun path => (path, []), revalidateByHash := fun _ => none
    canAccess := fun _ _ => false, memberName := fun _ => none, client := js "192.0.2.1"
    clock := ⟨0, 0, 0, 0, 0⟩ }

theorem names_below_diverted_iff_underscore :
    let req : Request :=
      ⟨js "GET", [(js "host", js "under_score.Office.Example.:abc")], ⟨js "/readyz", [], []⟩⟩
    (dispatchAppHostRequest exampleOffice ⟨[], [], [], [], [], []⟩ none req).1.Diverts := by
  intro req
  have hbelow : NamedBelow (js "under_score.Office.Example.:abc") (js "office.example") :=
    endsWith_iff.1 (by decide)
  exact ((names_below_diverted_iff exampleOffice ⟨[], [], [], [], [], []⟩ none req
    (some (js "office.example")) true (js "office.example") (js "under_score.Office.Example.:abc")
    (by decide) rfl (by decide) (by decide)).1 hbelow).2 (by decide)

theorem bracket_reaches_office :
    ¬∀ (office : Surroundings) (tables : Tables) (registry : Option (List AppRecord))
      (req : Request) (domain raw : JsString), office.appHostDomain = some domain →
      req.header "host" = some raw → NamedBelow raw domain →
      (dispatchAppHostRequest office tables registry req).1 ≠ .office := by
  intro h
  let req : Request := ⟨js "GET", [(js "host", js "[x.office.example")], ⟨js "/readyz", [], []⟩⟩
  refine h exampleOffice ⟨[], [], [], [], [], []⟩ none req (js "office.example")
    (js "[x.office.example") rfl (by decide)
    (endsWith_iff.1 (by decide)) ?_
  have hraw : req.header "host" = some (js "[x.office.example") := by decide
  exact dispatch_bracket hraw (by decide)

end Isomux.AppHosts
