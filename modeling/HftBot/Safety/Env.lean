import HftBot.Core.Url

/-!
# Environment selection

`env.cpp`: the environment variables are read into a runtime, or resolution throws a safety
violation. The variables are a partial map from names to texts.
-/

namespace HftBot

open HftBot.Core

inductive Env
  | localMock | demo | prod
deriving DecidableEq, Repr

inductive Mode
  | dataCollect | shadow | live
deriving DecidableEq, Repr

def Env.toText : Env → String
  | localMock => "local_mock"
  | demo      => "demo"
  | prod      => "prod"

/-- What `resolve_runtime` throws. -/
structure SafetyViolation where
  message : List Char
deriving DecidableEq, Repr

structure Runtime where
  env           : Env
  mode          : Mode
  restBaseUrl   : List Char
  restPrefix    : List Char := "/trade-api/v2".toList
  wsUrl         : List Char
  wsSignPath    : List Char
  readOnly      : Bool
  ordersEnabled : Bool
  shadow        : Bool
deriving DecidableEq, Repr

/-- The process environment. -/
abbrev Getenv := String → Option (List Char)

def getenvOr (getenv : Getenv) (key : String) (fallback : String) : List Char :=
  (getenv key).getD fallback.toList

def truthy (getenv : Getenv) (key : String) : Bool :=
  match getenv key with
  | none   => false
  | some v => ["1", "true", "yes", "on"].any fun t => lower v = t.toList

/-! ### URLs -/

structure UrlParts where
  scheme : List Char := []
  host   : List Char := []
  ok     : Bool := false
deriving DecidableEq, Repr

/-- The scheme before the first `://`, the host up to the next `:` or `/`. -/
def parseUrl (url : List Char) : UrlParts :=
  match Url.splitSep url with
  | none                => {}
  | some (scheme, rest) =>
    let scheme := lower scheme
    let host   := lower (rest.takeWhile fun c => !(c = ':' || c = '/'))
    { scheme, host, ok := !scheme.isEmpty && !host.isEmpty }

def hostIn (host : List Char) (allow : List String) : Bool := allow.any fun a => host = a.toList

def localhosts : List String := ["localhost", "127.0.0.1"]

def defaultBaseUrl (getenv : Getenv) : Env → List Char
  | .localMock => "http://127.0.0.1:".toList ++ getenvOr getenv "KALSHI_MOCK_PORT" "18099"
  | .demo      => "https://external-api.demo.kalshi.co".toList
  | .prod      => "https://external-api.kalshi.com".toList

def defaultWsUrl (getenv : Getenv) : Env → List Char
  | .localMock =>
    "ws://127.0.0.1:".toList ++ getenvOr getenv "KALSHI_MOCK_WS_PORT" "18200" ++
      "/trade-api/ws/v2".toList
  | .demo      => "wss://external-api-ws.demo.kalshi.co/trade-api/ws/v2".toList
  | .prod      => "wss://external-api-ws.kalshi.com/trade-api/ws/v2".toList

/-- What the two URL checks differ in: their variable, their TLS scheme, their allowlist and the
words of their errors. -/
structure UrlRule where
  key       : String
  tlsScheme : String
  urlWord   : String
  hostWord  : String
  allow     : Env → List String

def UrlRule.rest : UrlRule where
  key       := "KALSHI_BASE_URL"
  tlsScheme := "https"
  urlWord   := "URL"
  hostWord  := "host"
  allow
    | .localMock => localhosts
    | .demo      => ["external-api.demo.kalshi.co"]
    | .prod      => ["external-api.kalshi.com", "api.elections.kalshi.com"]

def UrlRule.ws : UrlRule where
  key       := "KALSHI_WS_URL"
  tlsScheme := "wss"
  urlWord   := "WS URL"
  hostWord  := "WS host"
  allow
    | .localMock => localhosts
    | .demo      => ["external-api-ws.demo.kalshi.co"]
    | .prod      => ["external-api-ws.kalshi.com"]

def kHostUnsafeOverride : String := "KALSHI_HOST_UNSAFE_OVERRIDE"

def validateUrl (rule : UrlRule) (getenv : Getenv) (env : Env) (mode : Mode) (url : List Char) :
    Except SafetyViolation Unit :=
  let u := parseUrl url
  if !u.ok then
    .error ⟨(rule.key ++ " is not a valid scheme://host URL: ").toList ++ url⟩
  else if u.scheme ≠ rule.tlsScheme.toList ∧ ¬ (env = .localMock ∧ hostIn u.host localhosts) then
    .error ⟨("non-TLS " ++ rule.urlWord ++ " '").toList ++ url ++
      "' allowed only for local_mock localhost".toList⟩
  else if truthy getenv kHostUnsafeOverride then
    -- the allowlist is skipped, the TLS rule has been checked
    if mode = .live then .error ⟨"KALSHI_HOST_UNSAFE_OVERRIDE is refused in live mode".toList⟩
    else .ok ()
  else if hostIn u.host (rule.allow env) then .ok ()
  else
    .error ⟨(rule.hostWord ++ " '").toList ++ u.host ++
      ("' is not permitted for env=" ++ env.toText ++
        " (set KALSHI_HOST_UNSAFE_OVERRIDE=1 to bypass — refused in live)").toList⟩

def validateBaseUrl : Getenv → Env → Mode → List Char → Except SafetyViolation Unit :=
  validateUrl .rest

def validateWsUrl : Getenv → Env → Mode → List Char → Except SafetyViolation Unit :=
  validateUrl .ws

/-! ### Resolution -/

def resolveEnv (getenv : Getenv) : Except SafetyViolation Env :=
  let s := lower (getenvOr getenv "KALSHI_ENV" "local_mock")
  if s = "local_mock".toList ∨ s = "localmock".toList ∨ s = "local".toList then .ok .localMock
  else if s = "demo".toList then .ok .demo
  else if s = "prod".toList ∨ s = "production".toList then
    if !truthy getenv "KALSHI_ALLOW_PROD" then
      .error ⟨"KALSHI_ENV=prod requires KALSHI_ALLOW_PROD=1 (fail closed)".toList⟩
    else .ok .prod
  else
    .error ⟨"unknown KALSHI_ENV '".toList ++ s ++
      "' (expected local_mock|demo|prod) — fail closed".toList⟩

def resolveMode (getenv : Getenv) (env : Env) : Except SafetyViolation Mode :=
  let s := lower (getenvOr getenv "KALSHI_MODE" "data_collect")
  if s = "data_collect".toList ∨ s = "datacollect".toList ∨ s = "collect".toList then
    .ok .dataCollect
  else if s = "shadow".toList then .ok .shadow
  else if s = "live".toList then
    if !truthy getenv "KALSHI_ALLOW_LIVE" then
      .error ⟨"KALSHI_MODE=live requires KALSHI_ALLOW_LIVE=1 (fail closed)".toList⟩
    else if env = .localMock then
      .error ⟨"live mode is not permitted with env=local_mock".toList⟩
    else .ok .live
  else
    .error ⟨"unknown KALSHI_MODE '".toList ++ s ++
      "' (expected data_collect|shadow|live) — fail closed".toList⟩

/-- The REST base URL: the variable, or the default of the environment. -/
def restBaseUrl (getenv : Getenv) (env : Env) : List Char :=
  (getenv "KALSHI_BASE_URL").getD (defaultBaseUrl getenv env)

def wsUrl (getenv : Getenv) (env : Env) : List Char :=
  (getenv "KALSHI_WS_URL").getD (defaultWsUrl getenv env)

def resolveRuntime (getenv : Getenv) : Except SafetyViolation Runtime := do
  let env  ← resolveEnv getenv
  let mode ← resolveMode getenv env
  validateBaseUrl getenv env mode (restBaseUrl getenv env)
  validateWsUrl getenv env mode (wsUrl getenv env)
  return {
    env
    mode
    restBaseUrl   := restBaseUrl getenv env
    wsUrl         := wsUrl getenv env
    wsSignPath    := getenvOr getenv "KALSHI_WS_SIGN_PATH" "/trade-api/ws/v2"
    readOnly      := mode ≠ .live
    ordersEnabled := mode = .live && truthy getenv "KALSHI_ALLOW_LIVE" &&
      (env = .demo || env = .prod)
    shadow        := mode = .shadow }

end HftBot
