import Isomux.AppHosts.Dispatch

set_option autoImplicit false

/-!
# Live labels cannot be told from dead ones

A caller who has nothing that opens the app with a label gets the same answer whether there is such
an app or not. What opens an app is a live session of it whose member may open it, a live session of
a screenshot, a code that can be redeemed for one, or such a code of a screenshot. Without any of
them every branch for a live app ends where the branch for a dead label does.

## Main results

* `Isomux.AppHosts.divert_without_credential` — a live label answers as a dead one.
* `Isomux.AppHosts.dispatch_hides_labels` — two states of the registry give one answer.
-/

namespace Isomux.AppHosts

/-! ## What opens an app -/

variable (office : Surroundings) (tables : Tables)

/-- The cookie is a live session of the app, and its member may open the app. -/
def AppSession.Opens (req : Request) (app : AppRecord) : Prop :=
  ∃ cookie row session, readAppCookie req = some cookie ∧
    JsMap.get tables.appSessions (office.hashOf cookie) = some row ∧
    office.clock.validate < row.expiresAt ∧ sessionMatchesApp row app = true ∧
    office.revalidateByHash row.officeSessionHash = some session ∧
    office.canAccess app session.userId = true

/-- The cookie is a live session of a screenshot, and its agent may open the app. -/
def PreviewSession.Opens (req : Request) (app : AppRecord) : Prop :=
  ∃ cookie row, readAppCookie req = some cookie ∧
    JsMap.get tables.previewSessions (office.hashOf cookie) = some row ∧
    office.clock.preview < row.expiresAt ∧ previewRowMatches row.toPreviewRow app = true ∧
    row.revalidate app = true

/-- The code of the request can be redeemed for a session of the app on the host. -/
def PendingCode.Opens (req : Request) (host : JsString) (app : AppRecord) : Prop :=
  ∃ code record session, singleParam req.url (js "code") = .value code ∧
    JsMap.get tables.pendingCodes (office.hashOf code) = some record ∧
    office.clock.redeem < record.expiresAt ∧ record.appHost = host ∧
    record.label = app.hostLabel ∧ record.hostGen = app.hostGen ∧
    record.registrationGen = app.registrationGen ∧
    office.revalidateByHash record.officeSessionHash = some session ∧
    office.canAccess app session.userId = true

/-- The code of the request can be redeemed for a screenshot of the app on the host. -/
def PreviewCode.Opens (req : Request) (host : JsString) (app : AppRecord) : Prop :=
  ∃ code record, singleParam req.url (js "code") = .value code ∧
    JsMap.get tables.previewCodes (office.hashOf code) = some record ∧
    office.clock.previewRedeem < record.expiresAt ∧ record.appHost = host ∧
    previewRowMatches record.toPreviewRow app = true ∧ record.revalidate app = true

/-- The request carries something that opens the app. -/
def Credential (req : Request) (host : JsString) (app : AppRecord) : Prop :=
  AppSession.Opens office tables req app ∨ PreviewSession.Opens office tables req app ∨
    PendingCode.Opens office tables req host app ∨ PreviewCode.Opens office tables req host app

variable {office : Surroundings} {tables : Tables} {req : Request} {host label : JsString}
  {app : AppRecord}

/-! ## Redeems -/

lemma redeemAppCode_some {code : JsString} {registrationGen : ℕ} {record : PendingCode}
    (h : (redeemAppCode office tables code host label registrationGen).1 = some record) :
    JsMap.get tables.pendingCodes (office.hashOf code) = some record ∧
      office.clock.redeem < record.expiresAt ∧ record.appHost = host ∧ record.label = label ∧
      record.registrationGen = registrationGen := by
  unfold redeemAppCode at h
  dsimp only at h
  split_ifs at h with hformed
  obtain ⟨hget, htest⟩ := Option.filter_eq_some_iff.1 h
  simp only [Bool.and_eq_true, decide_eq_true_eq] at htest
  exact ⟨hget, htest.1.1.1.2, htest.1.1.2, htest.1.2, htest.2⟩

lemma handleAppAuthRedeem_fails (h : ¬ PendingCode.Opens office tables req host app) :
    (handleAppAuthRedeem office tables req host app).1 = .response signInFailed := by
  unfold handleAppAuthRedeem
  cases hparam : singleParam req.url (js "code") with
  | absent => rfl
  | malformed => rfl
  | value code =>
    dsimp only
    cases hredeem : (redeemAppCode office tables code host app.hostLabel app.registrationGen).1 with
    | none => rfl
    | some record =>
      obtain ⟨hget, hlive, hhost, hlabel, hgen⟩ := redeemAppCode_some hredeem
      dsimp only
      by_cases hhostGen : record.hostGen = app.hostGen
      · rw [if_neg (not_not.2 hhostGen)]
        cases hoffice : office.revalidateByHash record.officeSessionHash with
        | none => rfl
        | some session =>
          dsimp only
          cases haccess : office.canAccess app session.userId with
          | false => rfl
          | true =>
            exact absurd ⟨code, record, session, hparam, hget, hlive, hhost, hlabel, hhostGen, hgen,
              hoffice, haccess⟩ h
      · rw [if_pos hhostGen]

lemma handleAppPreviewRedeem_fails (h : ¬ PreviewCode.Opens office tables req host app) :
    (handleAppPreviewRedeem office tables req host app).1 = .response signInFailed := by
  unfold handleAppPreviewRedeem
  cases hparam : singleParam req.url (js "code") with
  | absent => rfl
  | malformed => rfl
  | value code =>
    dsimp only
    by_cases hformed : (!wellFormedToken code) = true
    · rw [if_pos hformed]
    · rw [if_neg hformed]
      split
      · rfl
      · rename_i record hredeemed
        obtain ⟨hget, htest⟩ := Option.filter_eq_some_iff.1 hredeemed
        simp only [Bool.and_eq_true, decide_eq_true_eq] at htest
        exact absurd ⟨code, record, hparam, hget, htest.1.1.1.2, htest.1.1.2, htest.1.2, htest.2⟩ h

/-! ## Gates -/

lemma validateAppSession_some {rawCookie : Option JsString} {userId : JsString}
    (h : (validateAppSession office tables rawCookie app).1 = some userId) :
    ∃ cookie row session, rawCookie = some cookie ∧
      JsMap.get tables.appSessions (office.hashOf cookie) = some row ∧
      office.clock.validate < row.expiresAt ∧ sessionMatchesApp row app = true ∧
      office.revalidateByHash row.officeSessionHash = some session ∧ session.userId = userId := by
  unfold validateAppSession at h
  cases rawCookie with
  | none => cases h
  | some cookie =>
    dsimp only at h
    split_ifs at h with hformed
    cases hget : JsMap.get tables.appSessions (office.hashOf cookie) with
    | none =>
      rw [hget] at h
      cases h
    | some row =>
      rw [hget] at h
      dsimp only at h
      split_ifs at h with hhash hexpired hmatches
      cases hoffice : office.revalidateByHash row.officeSessionHash with
      | none =>
        rw [hoffice] at h
        cases h
      | some session =>
        rw [hoffice] at h
        exact ⟨cookie, row, session, rfl, hget, Int.not_le.1 hexpired, by simpa using hmatches,
          hoffice, Option.some.inj h⟩

lemma canAccess_of_not_opens (h : ¬ AppSession.Opens office tables req app) {userId : JsString}
    (hsession : (validateAppSession office tables (readAppCookie req) app).1 = some userId) :
    office.canAccess app userId = false := by
  obtain ⟨cookie, row, session, hcookie, hget, hlive, hmatches, hoffice, rfl⟩ :=
    validateAppSession_some hsession
  cases haccess : office.canAccess app session.userId with
  | false => rfl
  | true => exact absurd ⟨cookie, row, session, hcookie, hget, hlive, hmatches, hoffice, haccess⟩ h

lemma validateAppSession_previewSessions (office : Surroundings) (tables : Tables)
    (rawCookie : Option JsString) (app : AppRecord) :
    (validateAppSession office tables rawCookie app).2.previewSessions =
      tables.previewSessions := by
  unfold validateAppSession
  cases rawCookie with
  | none => rfl
  | some cookie =>
    dsimp only
    split_ifs
    · rfl
    · cases JsMap.get tables.appSessions (office.hashOf cookie) with
      | none => rfl
      | some row =>
        dsimp only
        split_ifs
        · rfl
        · rfl
        · rfl
        · cases office.revalidateByHash row.officeSessionHash <;> rfl

lemma previewSessionAllows_false (h : ¬ PreviewSession.Opens office tables req app)
    {tables' : Tables} (htables : tables'.previewSessions = tables.previewSessions) :
    (previewSessionAllows office tables' (readAppCookie req) app).1 = false := by
  unfold previewSessionAllows
  cases hcookie : readAppCookie req with
  | none => rfl
  | some cookie =>
    dsimp only
    split_ifs with hformed
    · rfl
    · rw [htables]
      cases hget : JsMap.get tables.previewSessions (office.hashOf cookie) with
      | none => rfl
      | some row =>
        dsimp only
        split_ifs with hhash hexpired
        · rfl
        · rfl
        · cases hallows : previewRowMatches row.toPreviewRow app && row.revalidate app with
          | false => rfl
          | true =>
            obtain ⟨hmatches, hrevalidate⟩ := Bool.and_eq_true_iff.1 hallows
            have hlive : office.clock.preview < row.expiresAt := Int.not_le.1 hexpired
            exact absurd ⟨cookie, row, hcookie, hget, hlive, hmatches, hrevalidate⟩ h

lemma appHostWsAuthGate_refuses (h : ¬ AppSession.Opens office tables req app) :
    (appHostWsAuthGate office tables req app).1 =
      some (noAppSessionAnswer office req app.hostLabel (readAppCookie req) true) := by
  unfold appHostWsAuthGate
  have hnobody : (validateAppSession office tables (readAppCookie req) app).1.any
      (office.canAccess app) = false := by
    cases hsession : (validateAppSession office tables (readAppCookie req) app).1 with
    | none => rfl
    | some userId => exact canAccess_of_not_opens h hsession
  dsimp only
  rw [hnobody]
  rfl

lemma appHostAuthGate_refuses (h : ¬ AppSession.Opens office tables req app)
    (hpreview : ¬ PreviewSession.Opens office tables req app) :
    (appHostAuthGate office tables req app).1 =
      .refused (noAppSessionAnswer office req app.hostLabel (readAppCookie req) false) := by
  have hnot := previewSessionAllows_false hpreview
    (validateAppSession_previewSessions office tables (readAppCookie req) app)
  unfold appHostAuthGate
  dsimp only
  cases hsession : (validateAppSession office tables (readAppCookie req) app).1 with
  | none =>
    dsimp only
    rw [hnot]
    rfl
  | some userId =>
    dsimp only
    rw [canAccess_of_not_opens h hsession, hnot]
    rfl

/-! ## The dispatcher -/

/-- **A live label answers as a dead one**, to a request without anything that opens the app.

**Proof sketch.** The redeems fail, and they fail in one way. The gates refuse, and their refusal is
the answer of a dead label. What is reserved and no redeem is a 404 in both cases. -/
theorem divert_without_credential (hlabel : app.hostLabel = label)
    (h : ¬ Credential office tables req host app) :
    (divert office tables req host label (some app)).1 =
      (divert office tables req host label none).1 := by
  obtain ⟨hsession, hpreview, hcode, hpreviewCode⟩ :
      ¬ AppSession.Opens office tables req app ∧ ¬ PreviewSession.Opens office tables req app ∧
      ¬ PendingCode.Opens office tables req host app ∧
      ¬ PreviewCode.Opens office tables req host app := by
    simpa only [Credential, not_or] using h
  unfold divert
  dsimp only
  by_cases hreserved : reserved req.url.pathname = true
  · rw [if_pos hreserved, if_pos hreserved]
    split_ifs
    · exact handleAppAuthRedeem_fails hcode
    · exact handleAppPreviewRedeem_fails hpreviewCode
    · rfl
  · rw [if_neg hreserved, if_neg hreserved, unknownLabelAnswer, ← hlabel]
    cases hupgrade : isWebSocketUpgrade req with
    | true =>
      obtain ⟨tables', hgate⟩ : ∃ tables', appHostWsAuthGate office tables req app =
          (some (noAppSessionAnswer office req app.hostLabel (readAppCookie req) true), tables') :=
        ⟨_, Prod.ext (appHostWsAuthGate_refuses hsession) rfl⟩
      rw [hgate]
      rfl
    | false =>
      obtain ⟨tables', hgate⟩ : ∃ tables', appHostAuthGate office tables req app =
          (.refused (noAppSessionAnswer office req app.hostLabel (readAppCookie req) false),
            tables') :=
        ⟨_, Prod.ext (appHostAuthGate_refuses hsession hpreview) rfl⟩
      rw [hgate]
      rfl

lemma hostLabel_of_liveApp {apps : List AppRecord} (h : liveApp apps label = some app) :
    app.hostLabel = label := by
  simpa using List.find?_some h

lemma divert_liveApp {apps : List AppRecord}
    (h : ∀ app, liveApp apps label = some app → ¬ Credential office tables req host app) :
    (divert office tables req host label (liveApp apps label)).1 =
      (divert office tables req host label none).1 := by
  cases hlive : liveApp apps label with
  | none => rfl
  | some app => exact divert_without_credential (hostLabel_of_liveApp hlive) (h app hlive)

/-- **Live labels cannot be told from dead ones.** Take any request, and any two states of the
registry that can be read. If the request carries nothing that opens the app with the label of its
host, in either of them, it gets the same answer: status, headers and body.

**Proof sketch.** Either state answers as one without the label. -/
theorem dispatch_hides_labels (office : Surroundings) (tables : Tables) (req : Request)
    (apps apps' : List AppRecord)
    (h : ∀ domain host label app, office.appHostDomain = some domain →
      normalizeRequestHost (req.header "host") = some host →
      matchAppHost host domain = some (.label label) →
      liveApp apps label = some app ∨ liveApp apps' label = some app →
      ¬ Credential office tables req host app) :
    (dispatchAppHostRequest office tables (some apps) req).1 =
      (dispatchAppHostRequest office tables (some apps') req).1 := by
  unfold dispatchAppHostRequest
  cases hdomain : office.appHostDomain with
  | none => rfl
  | some domain =>
    cases hhost : normalizeRequestHost (req.header "host") with
    | none => rfl
    | some host =>
      dsimp only
      cases hmatch : matchAppHost host domain with
      | none => rfl
      | some found =>
        cases found with
        | under => rfl
        | label label =>
          have hnothing := fun app => h domain host label app hdomain hhost hmatch
          exact (divert_liveApp fun app hlive => hnothing app (Or.inl hlive)).trans
            (divert_liveApp fun app hlive => hnothing app (Or.inr hlive)).symm

theorem dispatch_hides_labels_other_app :
    let office : Surroundings :=
      { origin := js "https://office.example", appHostDomain := some (js "office.example")
        hashOf := fun raw => raw, scriptHash := fun script => script, randomToken := js "fresh"
        page := fun path => (path, []), revalidateByHash := fun _ => some ⟨js "ann", 9⟩
        canAccess := fun _ _ => true, memberName := fun _ => some (js "Ann")
        client := js "192.0.2.1", clock := ⟨5, 5, 5, 5, 5⟩ }
    let tables : Tables :=
      { pendingCodes := [], previewCodes := [], previewSessions := [], redeemLimiter := []
        previewRedeemLimiter := []
        appSessions := [(js "abc", ⟨js "abc", js "other", 1, 1, 0, js "s", 9⟩)] }
    let req : Request := ⟨js "GET", [(js "host", js "hello.office.example"),
      (js "cookie", js "__Host-isomux_app=abc")], ⟨js "/", [], []⟩⟩
    let hello : AppRecord := ⟨js "hello", js "hello", 1, 2, 0⟩
    (dispatchAppHostRequest office tables (some [hello]) req).1 =
      (dispatchAppHostRequest office tables (some []) req).1 := by
  intro office tables req hello
  refine dispatch_hides_labels office tables req [hello] [] ?_
  rintro domain host label app - - - (hlive | hlive) hopens
  · obtain rfl := List.mem_singleton.1 (List.mem_of_find?_eq_some hlive)
    rcases hopens with ⟨cookie, row, session, -, hget, -, hmatches, -⟩ |
      ⟨cookie, row, -, hget, -⟩ | ⟨code, record, session, -, hget, -⟩ | ⟨code, record, -, hget, -⟩
    · -- the session is for `other`
      obtain ⟨e, hfind, rfl⟩ := Option.map_eq_some_iff.1 hget
      obtain rfl := List.mem_singleton.1 (List.mem_of_find?_eq_some hfind)
      exact absurd hmatches (by decide +kernel)
    · cases hget
    · cases hget
    · cases hget
  · cases hlive

end Isomux.AppHosts
