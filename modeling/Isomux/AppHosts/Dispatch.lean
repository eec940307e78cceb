import Isomux.AppHosts.Auth

set_option autoImplicit false

/-!
# Requests to the hosts of apps

The first thing the office does with a request is to see whether its host is below the domain of the
office. If it is, no handler of the office gets the request. A label without a live app answers as a
live one does to a caller without a session, and so do the redeems of codes that fail. What the
relays and the icon of an app send is not modelled: an answer says that a request goes there.

## Main definitions

* `Isomux.AppHosts.divert` — what a host with one label answers.
* `Isomux.AppHosts.dispatchAppHostRequest` — what the office does with a request.
-/

namespace Isomux.AppHosts

/-- The path that is reserved on the host of every app. -/
def APP_RESERVED_PATH : JsString := js "/__isomux"

def APP_AUTH_PATH : JsString := js "/__isomux/auth"

/-- Where a code for a screenshot is redeemed. -/
def APP_PREVIEW_AUTH_PATH : JsString := js "/__isomux/preview"

def APP_FAVICON_PATH : JsString := js "/favicon.ico"

def isWebSocketUpgrade (req : Request) : Bool :=
  req.method = js "GET" && (req.header "upgrade").map JsString.toLowerCase = some (js "websocket")

def reserved (pathname : JsString) : Bool :=
  pathname = APP_RESERVED_PATH || (APP_RESERVED_PATH ++ js "/").isPrefixOf pathname

/-- What a host with one label answers, `app` being the live app with that label. -/
def divert (office : Surroundings) (tables : Tables) (req : Request) (host label : JsString)
    (app : Option AppRecord) : Answer AppRecord × Tables :=
  let pathname := req.url.pathname
  let upgrade := isWebSocketUpgrade req
  if reserved pathname then
    if !upgrade && pathname = APP_AUTH_PATH && req.method = js "GET" then
      match app with
      | none => (.response (handshake 400 SIGN_IN_FAILED_BODY []), tables)
      | some app => handleAppAuthRedeem office tables req host app
    else if !upgrade && pathname = APP_PREVIEW_AUTH_PATH && req.method = js "GET" then
      match app with
      | none => (.response (handshake 400 SIGN_IN_FAILED_BODY []), tables)
      | some app => handleAppPreviewRedeem office tables req host app
    else (.response neutralNotFound, tables)
  else
    match app with
    | none => (unknownLabelAnswer office req label upgrade, tables)
    | some app =>
      if upgrade then
        match appHostWsAuthGate office tables req app with
        | (some answer, tables) => (answer, tables)
        | (none, tables) => (.relayWsToApp app, tables)
      else
        match appHostAuthGate office tables req app with
        | (.refused answer, tables) => (answer, tables)
        | (.ok member, tables) =>
          if !appHttpRequestAllowed req host then
            (.response (neutral 403 APP_BAD_ORIGIN_BODY), tables)
          else if pathname = APP_FAVICON_PATH &&
              (req.method = js "GET" || req.method = js "HEAD") then
            (.appFavicon app, tables)
          else (.relayToApp app member, tables)

/-- The live app with a label, in the list of the registry. -/
def liveApp (apps : List AppRecord) (label : JsString) : Option AppRecord :=
  apps.find? fun app => app.hostLabel = label

/-- What the office does with a request. The registry lists its apps, or it cannot be read. -/
def dispatchAppHostRequest (office : Surroundings) (tables : Tables)
    (registry : Option (List AppRecord)) (req : Request) : Answer AppRecord × Tables :=
  match office.appHostDomain with
  | none => (.office, tables)
  | some domain =>
    match normalizeRequestHost (req.header "host") with
    | none =>
      if isBelowAppDomain (req.header "host") domain then (.response neutralNotFound, tables)
      else (.office, tables)
    | some host =>
      match matchAppHost host domain with
      | none => (.office, tables)
      | some .under => (.response neutralNotFound, tables)
      | some (.label label) =>
        match registry with
        | none => (.response neutralNotFound, tables)
        | some apps => divert office tables req host label (liveApp apps label)

end Isomux.AppHosts
