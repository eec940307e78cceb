import Isomux.AppHosts.Hosts
import Isomux.Runtime.JsonText
import Isomux.Runtime.Maps
import Mathlib.Data.Int.Notation

set_option autoImplicit false

/-!
# Signing in to an app

A browser comes to an app with a cookie, which names a session of the app, or it is sent through the
office, which gives it a code to redeem for such a cookie. A screenshot comes with a grant of its
own. Whatever fails on the way is answered in one way, from the request and the label alone.

The headers of a request are what `headers.get` gives under a name in lower case, its URL is what
`new URL` makes of it. The digest of a text, a fresh token, the sessions of the office and who may
open an app are parameters, and so is what the clock says each time it is read.

## Main definitions

* `Isomux.AppHosts.mayInitiateHandshake`, `Isomux.AppHosts.readAppCookie` — what is read of a
  request.
* `Isomux.AppHosts.noAppSessionAnswer` — the answer to a caller without a session.
* `Isomux.AppHosts.redeemAppCode`, `Isomux.AppHosts.validateAppSession` — codes and sessions.
* `Isomux.AppHosts.handleAppAuthRedeem`, `Isomux.AppHosts.handleAppPreviewRedeem` — the redeems.
* `Isomux.AppHosts.appHostAuthGate`, `Isomux.AppHosts.appHostWsAuthGate` — the gates.
-/

namespace Isomux.AppHosts

/-! ## Requests and responses -/

/-- What `new URL` makes of the URL of a request. -/
structure Url where
  pathname : JsString
  search : JsString
  searchParams : List (JsString × JsString)

structure Request where
  method : JsString
  headers : JsMap JsString JsString
  url : Url

variable (req : Request)

/-- `headers.get(name)`, for a name in lower case. -/
def Request.header (name : String) : Option JsString :=
  JsMap.get req.headers (js name)

structure Response where
  status : ℕ
  headers : List (JsString × JsString)
  body : Option JsString
  deriving DecidableEq

/-- What the office does with a request to one of its hosts. -/
inductive Answer (App : Type) where
  | office
  | response (response : Response)
  /-- The request goes to the app, for a member or for a screenshot. -/
  | relayToApp (app : App) (member : Option (JsString × JsString))
  | relayWsToApp (app : App)
  | appFavicon (app : App)
  | throws
  deriving DecidableEq

def NOT_FOUND_BODY : JsString := js "not found\n"

/-- The body for a caller without a session. -/
def AUTH_REQUIRED_BODY : JsString := js "authentication required\n"

def SIGN_IN_FAILED_BODY : JsString :=
  js "sign-in link expired; open the app again from the office\n"

def APP_BAD_ORIGIN_BODY : JsString := js "bad origin\n"

def neutral (status : ℕ) (body : JsString) : Response :=
  { status
    headers := [(js "Content-Type", js "text/plain; charset=utf-8"),
      (js "Cache-Control", js "no-store")]
    body := some body }

def neutralNotFound : Response := neutral 404 NOT_FOUND_BODY

def handshake (status : ℕ) (body : JsString) (extraHeaders : List (JsString × JsString)) :
    Response :=
  { status
    headers := extraHeaders.foldl (fun headers e => JsMap.set headers e.1 e.2)
      [(js "Content-Type", js "text/plain; charset=utf-8"), (js "Cache-Control", js "no-store"),
        (js "Referrer-Policy", js "no-referrer")]
    body := some body }

def handshakeRedirect (location : JsString) (setCookieLines : List JsString) : Response :=
  { status := 302
    headers := [(js "Location", location), (js "Cache-Control", js "no-store"),
      (js "Referrer-Policy", js "no-referrer")] ++
        setCookieLines.map fun line => (js "Set-Cookie", line)
    body := none }

def signInFailed : Response := handshake 400 SIGN_IN_FAILED_BODY []

/-! ## What is read of a request -/

/-- The request may complete the handshake: it is a navigation, or nothing is known of it. -/
def mayInitiateHandshake : Bool :=
  req.method = js "GET" &&
    (if req.header "sec-fetch-mode" = none && req.header "sec-fetch-dest" = none &&
        req.header "sec-fetch-site" = none && req.header "sec-fetch-user" = none then true
      else req.header "sec-fetch-mode" = some (js "navigate") &&
        req.header "sec-fetch-dest" = some (js "document"))

def APP_COOKIE_NAME : JsString := js "__Host-isomux_app"

def appCookieLine (value : JsString) (maxAgeSec : ℤ) : JsString :=
  APP_COOKIE_NAME ++ js "=" ++ value ++ js "; Path=/; HttpOnly; SameSite=Lax; Max-Age=" ++
    js (toString maxAgeSec) ++ js "; Secure"

def appCookieClearLine : JsString := appCookieLine [] 0

/-- The value of the cookie in the parts of a header: the first one counts. -/
def cookieOf : List JsString → Option JsString
  | [] => none
  | part :: parts =>
    match cutAt 61 part with
    | (name, some value) =>
      if name ≠ [] && JsString.trim name = APP_COOKIE_NAME then some (JsString.trim value)
      else cookieOf parts
    | (_, none) => cookieOf parts

/-- The cookie as it arrived; one that is there and empty is there. -/
def readAppCookie : Option JsString :=
  match req.header "cookie" with
  | none => none
  | some header => if header = [] then none else cookieOf (splitUnit 59 header)

/-- The only value of a parameter; `undefined` for more of them. -/
inductive SingleParam where
  | absent
  | malformed
  | value (value : JsString)

def singleParam (url : Url) (name : JsString) : SingleParam :=
  match url.searchParams.filter fun p => p.1 = name with
  | [] => .absent
  | [p] => .value p.2
  | _ => .malformed

def MAX_TOKEN_LENGTH : ℕ := 64

def isTokenLetter (c : CodeUnit) : Bool :=
  (65 ≤ c && c ≤ 90) || (97 ≤ c && c ≤ 122) || (48 ≤ c && c ≤ 57) || c = 95 || c = 45

def wellFormedToken (raw : JsString) : Bool :=
  0 < raw.length && raw.length ≤ MAX_TOKEN_LENGTH && raw.all isTokenLetter

/-! ## Apps and credentials -/

/-- What is read of the record of an app, with the generation of its registration. -/
structure AppRecord where
  name : JsString
  hostLabel : JsString
  hostGen : ℕ
  registrationGen : ℕ
  createdAt : ℤ
  deriving DecidableEq

/-- A code that was minted and not redeemed. -/
structure PendingCode where
  codeHash : JsString
  label : JsString
  hostGen : ℕ
  registrationGen : ℕ
  appHost : JsString
  officeSessionHash : JsString
  returnPath : JsString
  wrapperReturn : Bool
  expiresAt : ℤ

structure AppSession where
  tokenHash : JsString
  label : JsString
  hostGen : ℕ
  registrationGen : ℕ
  appCreatedAt : ℤ
  officeSessionHash : JsString
  expiresAt : ℤ

/-- What a grant for screenshots holds. `revalidate` asks whether the agent may still open an
app. -/
structure PreviewRow where
  grantId : ℕ
  label : JsString
  hostGen : ℕ
  registrationGen : ℕ
  revalidate : AppRecord → Bool
  expiresAt : ℤ

structure PreviewCode extends PreviewRow where
  codeHash : JsString
  appHost : JsString
  returnPath : JsString

structure PreviewSession extends PreviewRow where
  tokenHash : JsString

structure LimiterWindow where
  start : ℤ
  count : ℕ

structure Tables where
  pendingCodes : JsMap JsString PendingCode
  appSessions : JsMap JsString AppSession
  previewCodes : JsMap JsString PreviewCode
  previewSessions : JsMap JsString PreviewSession
  redeemLimiter : JsMap JsString LimiterWindow
  previewRedeemLimiter : JsMap JsString LimiterWindow

structure OfficeSession where
  userId : JsString
  absoluteExpiresAt : ℤ

/-- What the clock says each time it is read for a request. -/
structure Clock where
  redeem : ℤ
  startSession : ℤ
  validate : ℤ
  preview : ℤ
  previewRedeem : ℤ

/-- What the process around a request provides. -/
structure Surroundings where
  origin : JsString
  appHostDomain : Option JsString
  hashOf : JsString → JsString
  scriptHash : JsString → JsString
  randomToken : JsString
  page : JsString → JsString × JsString
  revalidateByHash : JsString → Option OfficeSession
  canAccess : AppRecord → JsString → Bool
  memberName : JsString → Option JsString
  client : JsString
  clock : Clock

/-! ## Limits -/

/-- How many callers a limiter keeps apart. -/
def MAX_TRACKED_LIMITER_KEYS : ℕ := 1024

def APP_REDEEM_WINDOW_MS : ℤ := 60000

def APP_REDEEM_MAX_PER_WINDOW : ℕ := 60

/-- `allow` of a limiter of redeems, which lets everybody pass when its table is full. -/
def allowRedeem (windows : JsMap JsString LimiterWindow) (key : JsString) (now : ℤ) :
    Bool × JsMap JsString LimiterWindow :=
  let fresh (windows : JsMap JsString LimiterWindow) : Bool × JsMap JsString LimiterWindow :=
    (true, JsMap.set windows key { start := now, count := 1 })
  match JsMap.get windows key with
  | some w =>
    if now - w.start < APP_REDEEM_WINDOW_MS then
      (w.count + 1 ≤ APP_REDEEM_MAX_PER_WINDOW,
        JsMap.set windows key { w with count := w.count + 1 })
    else fresh windows
  | none =>
    if MAX_TRACKED_LIMITER_KEYS ≤ windows.length then
      let running := windows.filter fun e => now - e.2.start < APP_REDEEM_WINDOW_MS
      if MAX_TRACKED_LIMITER_KEYS ≤ running.length then (true, running) else fresh running
    else fresh windows

def pruneExpired {β : Type} (expiresAt : β → ℤ) (table : JsMap JsString β) (now : ℤ) :
    JsMap JsString β :=
  table.filter fun e => now < expiresAt e.2

/-! ## Codes and sessions -/

variable (office : Surroundings) (tables : Tables)

/-- Redeem a code. Whatever comes of it, the code is gone. -/
def redeemAppCode (rawCode host label : JsString)
    (registrationGen : ℕ) : Option PendingCode × Tables :=
  let now := office.clock.redeem
  if !wellFormedToken rawCode then (none, tables)
  else
    let codeHash := office.hashOf rawCode
    let record := JsMap.get tables.pendingCodes codeHash
    let (allowed, redeemLimiter) :=
      allowRedeem tables.redeemLimiter (label ++ js " " ++ office.client) now
    let redeemed := record.filter fun record =>
      allowed && record.codeHash = codeHash && now < record.expiresAt && record.appHost = host &&
        record.label = label && record.registrationGen = registrationGen
    (redeemed, { tables with
      pendingCodes := JsMap.delete tables.pendingCodes codeHash, redeemLimiter })

def APP_SESSION_TTL_MS : ℤ := 12 * 60 * 60 * 1000

/-- How many sessions of apps there are at most. -/
def MAX_APP_SESSIONS : ℕ := 4096

/-- How many codes of screenshots, or sessions, there are at most. -/
def MAX_PENDING_CODES : ℕ := 512

def oldestKey : List (JsString × AppSession) → Option JsString
  | [] => none
  | e :: rest =>
    if rest.all fun e' => e.2.expiresAt ≤ e'.2.expiresAt then some e.1 else oldestKey rest

/-- Start a session for a code that was redeemed: the token and how long it lasts, in seconds. -/
def startAppSession (app : AppRecord)
    (officeSessionHash : JsString) (absoluteExpiresAt : ℤ) : Option (JsString × ℤ) × Tables :=
  let now := office.clock.startSession
  let deadline := min (now + APP_SESSION_TTL_MS) absoluteExpiresAt
  let maxAgeSec := (deadline - now) / 1000
  if maxAgeSec ≤ 0 then (none, tables)
  else
    let pruned := pruneExpired AppSession.expiresAt tables.appSessions now
    let kept :=
      if MAX_APP_SESSIONS ≤ pruned.length then
        match oldestKey pruned with
        | some key => JsMap.delete pruned key
        | none => pruned
      else pruned
    let token := office.randomToken
    let tokenHash := office.hashOf token
    let row : AppSession :=
      { tokenHash, label := app.hostLabel, hostGen := app.hostGen
        registrationGen := app.registrationGen, appCreatedAt := app.createdAt, officeSessionHash
        expiresAt := deadline }
    (some (token, maxAgeSec), { tables with appSessions := JsMap.set kept tokenHash row })

def sessionMatchesApp (row : AppSession) (app : AppRecord) : Bool :=
  row.label = app.hostLabel && row.hostGen = app.hostGen &&
    row.registrationGen = app.registrationGen && row.appCreatedAt = app.createdAt

/-- The member whose live session of an app a cookie is. -/
def validateAppSession (rawCookie : Option JsString) (app : AppRecord) : Option JsString × Tables :=
  match rawCookie with
  | none => (none, tables)
  | some raw =>
    if !wellFormedToken raw then (none, tables)
    else
      let tokenHash := office.hashOf raw
      let dropped := { tables with appSessions := JsMap.delete tables.appSessions tokenHash }
      match JsMap.get tables.appSessions tokenHash with
      | none => (none, tables)
      | some row =>
        if row.tokenHash ≠ tokenHash then (none, tables)
        else if row.expiresAt ≤ office.clock.validate then (none, dropped)
        else if !sessionMatchesApp row app then (none, tables)
        else
          match office.revalidateByHash row.officeSessionHash with
          | none => (none, dropped)
          | some session => (some session.userId, tables)

def previewRowMatches (row : PreviewRow) (app : AppRecord) : Bool :=
  row.label = app.hostLabel && row.hostGen = app.hostGen &&
    row.registrationGen = app.registrationGen

/-- A cookie is a live session of a screenshot. -/
def previewSessionAllows (rawCookie : Option JsString) (app : AppRecord) : Bool × Tables :=
  match rawCookie with
  | none => (false, tables)
  | some raw =>
    if !wellFormedToken raw then (false, tables)
    else
      let tokenHash := office.hashOf raw
      match JsMap.get tables.previewSessions tokenHash with
      | none => (false, tables)
      | some row =>
        if row.tokenHash ≠ tokenHash then (false, tables)
        else if row.expiresAt ≤ office.clock.preview then
          (false, { tables with previewSessions := JsMap.delete tables.previewSessions tokenHash })
        else (previewRowMatches row.toPreviewRow app && row.revalidate app, tables)

/-! ## The answer without a session -/

/-- The message to the page around a frame. -/
def APP_SESSION_REQUIRED_MESSAGE : JsString := js "isomux:app-session-required"

def APP_MINT_PATH : JsString := js "/auth/app"

variable (req : Request)

/-- The answer to a caller without a live session: it depends on the request and the label alone. -/
def noAppSessionAnswer (label : JsString)
    (rawCookie : Option JsString) (upgrade : Bool) : Answer AppRecord :=
  let clear := if rawCookie = none then [] else [appCookieClearLine]
  let setCookie := clear.map fun line => (js "Set-Cookie", line)
  if !upgrade && req.method = js "GET" && req.header "sec-fetch-dest" = some (js "iframe") then
    let script := js "parent.postMessage(" ++ jsonQuote APP_SESSION_REQUIRED_MESSAGE ++ js "," ++
      jsonQuote office.origin ++ js ");"
    .response (handshake 401 (js "<!doctype html><script>" ++ script ++ js "</script>")
      ((js "Content-Type", js "text/html; charset=utf-8") ::
        (js "Content-Security-Policy", js "default-src 'none'; script-src 'sha256-" ++
          office.scriptHash script ++ js "'; frame-ancestors " ++ office.origin) :: setCookie))
  else if upgrade || !mayInitiateHandshake req then
    .response (handshake 401 AUTH_REQUIRED_BODY setCookie)
  else
    match encodeURIComponent label, encodeURIComponent (req.url.pathname ++ req.url.search) with
    | some app, some r => .response (handshakeRedirect
        (office.origin ++ APP_MINT_PATH ++ js "?app=" ++ app ++ js "&r=" ++ r) clear)
    | _, _ => .throws

/-- The answer for a label without a live app. -/
def unknownLabelAnswer (label : JsString) (upgrade : Bool) : Answer AppRecord :=
  noAppSessionAnswer office req label (readAppCookie req) upgrade

/-! ## Redeems -/

/-- `GET /__isomux/auth` on the host of an app. -/
def handleAppAuthRedeem (host : JsString) (app : AppRecord) : Answer AppRecord × Tables :=
  match singleParam req.url (js "code") with
  | .absent => (.response signInFailed, tables)
  | .malformed => (.response signInFailed, tables)
  | .value rawCode =>
    let (redeemed, tables) := redeemAppCode office tables rawCode host app.hostLabel
      app.registrationGen
    match redeemed with
    | none => (.response signInFailed, tables)
    | some record =>
      if record.hostGen ≠ app.hostGen then (.response signInFailed, tables)
      else
        match office.revalidateByHash record.officeSessionHash with
        | none => (.response signInFailed, tables)
        | some session =>
          if !office.canAccess app session.userId then (.response signInFailed, tables)
          else
            let (started, tables) := startAppSession office tables app record.officeSessionHash
              session.absoluteExpiresAt
            match started with
            | none => (.response signInFailed, tables)
            | some (token, maxAgeSec) =>
              let (pathname, search) := office.page record.returnPath
              let destination :=
                if record.wrapperReturn then
                  office.origin ++ js "/" ++ app.name ++ pathname ++ search
                else record.returnPath
              (.response (handshakeRedirect destination [appCookieLine token maxAgeSec]), tables)

/-- `GET /__isomux/preview` on the host of an app. -/
def handleAppPreviewRedeem (host : JsString) (app : AppRecord) : Answer AppRecord × Tables :=
  let now := office.clock.previewRedeem
  match singleParam req.url (js "code") with
  | .absent => (.response signInFailed, tables)
  | .malformed => (.response signInFailed, tables)
  | .value raw =>
    if !wellFormedToken raw then (.response signInFailed, tables)
    else
      let codeHash := office.hashOf raw
      let record := JsMap.get tables.previewCodes codeHash
      let (allowed, previewRedeemLimiter) := allowRedeem tables.previewRedeemLimiter
        (app.hostLabel ++ js " " ++ office.client) now
      let tables := { tables with
        previewCodes := JsMap.delete tables.previewCodes codeHash, previewRedeemLimiter }
      let redeemed := record.filter fun record =>
        allowed && record.codeHash = codeHash && now < record.expiresAt &&
          record.appHost = host && previewRowMatches record.toPreviewRow app &&
          record.revalidate app
      match redeemed with
      | none => (.response signInFailed, tables)
      | some record =>
        let maxAgeSec := (record.expiresAt - now) / 1000
        let pruned := pruneExpired (fun row => row.expiresAt) tables.previewSessions now
        if maxAgeSec ≤ 0 || MAX_PENDING_CODES ≤ pruned.length then
          (.response signInFailed, { tables with previewSessions := pruned })
        else
          let token := office.randomToken
          let tokenHash := office.hashOf token
          let session : PreviewSession := { record.toPreviewRow with tokenHash }
          (.response (handshakeRedirect record.returnPath [appCookieLine token maxAgeSec]),
            { tables with previewSessions := JsMap.set pruned tokenHash session })

/-! ## Gates -/

def safeMethod (method : JsString) : Bool :=
  method = js "GET" || method = js "HEAD" || method = js "OPTIONS"

/-- The origin of a request is that of the app, or there is none. -/
def originAllowed (originHeader : Option JsString) (appHost : JsString) : Bool :=
  originHeader = none || originHeader = some (js "https://" ++ appHost)

/-- A request that may change something comes from a page of the app. -/
def appHttpRequestAllowed (appHost : JsString) : Bool :=
  if safeMethod req.method then true
  else
    let site := req.header "sec-fetch-site"
    let origin := req.header "origin"
    if site ≠ none && site ≠ some (js "same-origin") && site ≠ some (js "none") then false
    else if origin = some (js "null") then site = some (js "same-origin")
    else originAllowed origin appHost

/-- The gate for a WebSocket: `null` lets the request pass. -/
def appHostWsAuthGate (app : AppRecord) : Option (Answer AppRecord) × Tables :=
  let rawCookie := readAppCookie req
  let (session, tables) := validateAppSession office tables rawCookie app
  if session.any (office.canAccess app) then (none, tables)
  else (some (noAppSessionAnswer office req app.hostLabel rawCookie true), tables)

inductive GateResult where
  | ok (member : Option (JsString × JsString))
  | refused (answer : Answer AppRecord)

def appHostAuthGate (app : AppRecord) : GateResult × Tables :=
  let rawCookie := readAppCookie req
  let (session, tables) := validateAppSession office tables rawCookie app
  match session with
  | some userId =>
    match (if office.canAccess app userId then office.memberName userId else none) with
    | some name => (.ok (some (userId, name)), tables)
    | none =>
      let (allowed, tables) := previewSessionAllows office tables rawCookie app
      if allowed then (.ok none, tables)
      else (.refused (noAppSessionAnswer office req app.hostLabel rawCookie false), tables)
  | none =>
    let (allowed, tables) := previewSessionAllows office tables rawCookie app
    if allowed then (.ok none, tables)
    else (.refused (noAppSessionAnswer office req app.hostLabel rawCookie false), tables)

end Isomux.AppHosts
