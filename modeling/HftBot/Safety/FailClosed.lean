import HftBot.Safety.Env

/-!
# Fail-closed runtimes

What a resolved runtime must guarantee, with URLs read the way an HTTP client reads them, and where
the splitter of `parse_url` reads a URL differently.
-/

namespace HftBot

open HftBot.Core

variable {getenv : Getenv} {rule : UrlRule} {env : Env} {mode : Mode} {url : List Char}

/-! ### The guarantees -/

/-- A URL without TLS belongs to the local mock and to a local host. -/
def TlsOrLocal (rule : UrlRule) (env : Env) (url : List Char) : Prop :=
  Url.scheme? url ≠ some rule.tlsScheme.toList →
    env = .localMock ∧ ∃ h ∈ Url.host? url, hostIn h localhosts

/-- The host a client connects to is in the allowlist. -/
def HostAllowed (rule : UrlRule) (env : Env) (url : List Char) : Prop :=
  ∃ h ∈ Url.host? url, hostIn h (rule.allow env)

structure FailClosed (getenv : Getenv) (rt : Runtime) : Prop where
  prod     : rt.env = .prod → truthy getenv "KALSHI_ALLOW_PROD"
  orders   : rt.ordersEnabled ↔ rt.mode = .live ∧ truthy getenv "KALSHI_ALLOW_LIVE" ∧
    (rt.env = .demo ∨ rt.env = .prod)
  restTls  : TlsOrLocal .rest rt.env rt.restBaseUrl
  wsTls    : TlsOrLocal .ws rt.env rt.wsUrl
  live     : rt.mode = .live → ¬ truthy getenv kHostUnsafeOverride
  restHost : ¬ truthy getenv kHostUnsafeOverride → HostAllowed .rest rt.env rt.restBaseUrl
  wsHost   : ¬ truthy getenv kHostUnsafeOverride → HostAllowed .ws rt.env rt.wsUrl

/-- The URL is read alike by the splitter and by a client: what stands before the first `://` is one
scheme, and if there is userinfo, then the host behind it is itself one that the checks allow. -/
structure ReadsAlike (rule : UrlRule) (getenv : Getenv) (env : Env) (url : List Char) : Prop where
  scheme   : ∀ s r, Url.splitSep url = some (s, r) → ∀ c ∈ s, Url.isDelim c = false
  userinfo : ∀ s r, Url.splitSep url = some (s, r) → '@' ∈ Url.authority r →
    (lower s ≠ rule.tlsScheme.toList → hostIn (Url.hostOf r) localhosts) ∧
    (¬ truthy getenv kHostUnsafeOverride → hostIn (Url.hostOf r) (rule.allow env))

/-! ### The checks -/

lemma parseUrl_ok {url : List Char} (h : (parseUrl url).ok) :
    ∃ s r, Url.splitSep url = some (s, r) ∧ s ≠ [] ∧ (parseUrl url).scheme = lower s ∧
      (parseUrl url).host = lower (r.takeWhile fun c => !(c = ':' || c = '/')) := by
  rw [parseUrl] at h
  cases hsep : Url.splitSep url with
  | none => simp [hsep] at h
  | some p =>
    obtain ⟨s, r⟩ := p
    refine ⟨s, r, rfl, ?_, by simp [parseUrl, hsep], by simp [parseUrl, hsep]⟩
    rintro rfl
    simp [hsep, lower] at h

/-- What a URL has passed when its check returns. -/
lemma validateUrl_ok (h : validateUrl rule getenv env mode url = .ok ()) :
    (parseUrl url).ok ∧
    ((parseUrl url).scheme ≠ rule.tlsScheme.toList →
      env = .localMock ∧ hostIn (parseUrl url).host localhosts) ∧
    (truthy getenv kHostUnsafeOverride → mode ≠ .live) ∧
    (¬ truthy getenv kHostUnsafeOverride → hostIn (parseUrl url).host (rule.allow env)) := by
  simp only [validateUrl] at h
  split at h
  · cases h
  next hok =>
    split at h
    · cases h
    next htls =>
      refine ⟨by simpa using hok, by simpa using htls, ?_⟩
      split at h
      next hoverride =>
        split at h
        · cases h
        next hmode => exact ⟨fun _ => hmode, fun hno => absurd hoverride hno⟩
      next hoverride =>
        split at h
        next hhost => exact ⟨fun hyes => absurd hyes hoverride, fun _ => hhost⟩
        · cases h

/-- No name of the list has a character that would end or bracket a host. -/
def plainHosts (allow : List String) : Bool :=
  allow.all fun a => a.toList.all fun c => c ≠ '?' && c ≠ '#' && c ≠ '['

lemma plainHosts_localhosts : plainHosts localhosts := by decide +kernel

lemma plainHosts_rest (env : Env) : plainHosts (UrlRule.rest.allow env) := by
  cases env <;> decide +kernel

lemma plainHosts_ws (env : Env) : plainHosts (UrlRule.ws.allow env) := by
  cases env <;> decide +kernel

/-- Without userinfo, a host that the splitter finds in a list is the one a client finds. -/
lemma hostIn_hostOf {r : List Char} {allow : List String} (hplain : plainHosts allow)
    (hat : '@' ∉ Url.authority r)
    (h : hostIn (lower (r.takeWhile fun c => !(c = ':' || c = '/'))) allow) :
    hostIn (Url.hostOf r) allow := by
  obtain ⟨a, ha, heq⟩ := List.any_eq_true.1 h
  rw [decide_eq_true_eq] at heq
  have hchars : ∀ c ∈ a.toList, c ≠ '?' ∧ c ≠ '#' ∧ c ≠ '[' := by
    simpa [and_assoc] using List.all_eq_true.1 (List.all_eq_true.1 hplain a ha)
  rw [Url.hostOf_eq hat heq hchars]
  exact List.any_eq_true.2 ⟨a, ha, by simp⟩

/-- A URL that passed its check keeps the guarantees exactly when it reads alike. -/
lemma guarantees_iff_readsAlike (hplain : plainHosts (rule.allow env))
    (h : validateUrl rule getenv env mode url = .ok ()) :
    TlsOrLocal rule env url ∧ (¬ truthy getenv kHostUnsafeOverride → HostAllowed rule env url) ↔
      ReadsAlike rule getenv env url := by
  obtain ⟨hok, htls, -, hhost⟩ := validateUrl_ok h
  obtain ⟨s, r, hsep, hne, hs, hr⟩ := parseUrl_ok hok
  rw [hs, hr] at htls
  rw [hr] at hhost
  by_cases hdelim : ∃ c ∈ s, Url.isDelim c
  · -- a client finds no scheme and no host at all
    obtain ⟨c, hc, hd⟩ := hdelim
    have hnone := Url.split_eq_none_of_delim hsep hc hd
    apply iff_of_false
    · rintro ⟨hlocal, -⟩
      simp [TlsOrLocal, Url.scheme?, Url.host?, hnone] at hlocal
    · intro halike
      simp [halike.scheme s r hsep c hc] at hd
  · have hscheme : ∀ c ∈ s, Url.isDelim c = false := by
      intro c hc
      exact Bool.eq_false_iff.2 fun hd => hdelim ⟨c, hc, hd⟩
    have hsplit := Url.split_eq_some_iff.2 ⟨hsep, hne, hscheme⟩
    have hlhs : (TlsOrLocal rule env url ∧
        (¬ truthy getenv kHostUnsafeOverride → HostAllowed rule env url)) ↔
        (lower s ≠ rule.tlsScheme.toList → hostIn (Url.hostOf r) localhosts) ∧
        (¬ truthy getenv kHostUnsafeOverride → hostIn (Url.hostOf r) (rule.allow env)) := by
      simp only [TlsOrLocal, HostAllowed, Url.scheme?, Url.host?, hsplit, Option.map_some,
        Option.mem_def, Option.some.injEq, exists_eq_left', ne_eq]
      refine and_congr_left fun _ => forall_congr' fun hplaintext => ?_
      exact and_iff_right (htls hplaintext).1
    rw [hlhs]
    constructor
    · intro hboth
      refine ⟨fun s' r' hsep' => ?_, fun s' r' hsep' _ => ?_⟩
      · rw [hsep] at hsep'
        cases hsep'
        exact hscheme
      · rw [hsep] at hsep'
        cases hsep'
        exact hboth
    · intro halike
      by_cases hat : '@' ∈ Url.authority r
      · exact halike.userinfo s r hsep hat
      · exact ⟨fun hplaintext => hostIn_hostOf plainHosts_localhosts hat (htls hplaintext).2,
          fun hno => hostIn_hostOf hplain hat (hhost hno)⟩

/-! ### Resolution -/

lemma resolveEnv_prod (h : resolveEnv getenv = .ok .prod) : truthy getenv "KALSHI_ALLOW_PROD" := by
  simp only [resolveEnv] at h
  split_ifs at h with hlocal hdemo hprod hallow
  · cases h
  · cases h
  · simpa using hallow

/-- A runtime is made of the environment and the mode, and both its URLs have passed. -/
lemma resolveRuntime_ok {rt : Runtime} (h : resolveRuntime getenv = .ok rt) :
    resolveEnv getenv = .ok rt.env ∧
    validateUrl .rest getenv rt.env rt.mode (restBaseUrl getenv rt.env) = .ok () ∧
    validateUrl .ws getenv rt.env rt.mode (wsUrl getenv rt.env) = .ok () ∧
    rt.restBaseUrl = restBaseUrl getenv rt.env ∧ rt.wsUrl = wsUrl getenv rt.env ∧
    rt.ordersEnabled = (rt.mode = .live && truthy getenv "KALSHI_ALLOW_LIVE" &&
      (rt.env = .demo || rt.env = .prod)) := by
  rw [resolveRuntime] at h
  cases henv : resolveEnv getenv with
  | error e => simp [henv, bind, Except.bind] at h
  | ok env =>
    cases hmode : resolveMode getenv env with
    | error e => simp [henv, hmode, bind, Except.bind] at h
    | ok mode =>
      cases hrest : validateBaseUrl getenv env mode (restBaseUrl getenv env) with
      | error e => simp [henv, hmode, hrest, bind, Except.bind] at h
      | ok u =>
        cases hws : validateWsUrl getenv env mode (wsUrl getenv env) with
        | error e => simp [henv, hmode, hrest, hws, bind, Except.bind] at h
        | ok v =>
          simp only [henv, hmode, hrest, hws, bind, Except.bind, pure, Except.pure,
            Except.ok.injEq] at h
          subst h
          exact ⟨rfl, hrest, hws, rfl, rfl, rfl⟩

/-- A resolved runtime is fail-closed exactly when a client reads both of its URLs as the splitter
does. -/
theorem resolveRuntime_fail_closed_iff {rt : Runtime} (h : resolveRuntime getenv = .ok rt) :
    FailClosed getenv rt ↔ ∀ env, resolveEnv getenv = .ok env →
      ReadsAlike .rest getenv env (restBaseUrl getenv env) ∧
      ReadsAlike .ws getenv env (wsUrl getenv env) := by
  obtain ⟨henv, hrest, hws, hrestUrl, hwsUrl, horders⟩ := resolveRuntime_ok h
  have hrestIff := guarantees_iff_readsAlike (plainHosts_rest rt.env) hrest
  have hwsIff := guarantees_iff_readsAlike (plainHosts_ws rt.env) hws
  rw [← hrestUrl] at hrestIff
  rw [← hwsUrl] at hwsIff
  constructor
  · intro hclosed env henv'
    rw [henv] at henv'
    cases henv'
    rw [← hrestUrl, ← hwsUrl]
    exact ⟨hrestIff.1 ⟨hclosed.restTls, hclosed.restHost⟩,
      hwsIff.1 ⟨hclosed.wsTls, hclosed.wsHost⟩⟩
  · intro halike
    obtain ⟨hrestAlike, hwsAlike⟩ := halike rt.env henv
    rw [← hrestUrl] at hrestAlike
    rw [← hwsUrl] at hwsAlike
    obtain ⟨hrestTls, hrestHost⟩ := hrestIff.2 hrestAlike
    obtain ⟨hwsTls, hwsHost⟩ := hwsIff.2 hwsAlike
    exact {
      prod     := fun hprod => resolveEnv_prod (hprod ▸ henv)
      orders   := by rw [horders]; simp [and_assoc]
      restTls  := hrestTls
      wsTls    := hwsTls
      live     := fun hlive hoverride => (validateUrl_ok hrest).2.2.1 hoverride hlive
      restHost := hrestHost
      wsHost   := hwsHost }

/-- Live trading in production, with that REST base URL if one is given. -/
def liveProd (baseUrl : Option String) : Getenv
  | "KALSHI_ENV"        => some "prod".toList
  | "KALSHI_ALLOW_PROD" => some "1".toList
  | "KALSHI_MODE"       => some "live".toList
  | "KALSHI_ALLOW_LIVE" => some "1".toList
  | "KALSHI_BASE_URL"   => baseUrl.map String.toList
  | _                   => none

/-- The runtime of live trading in production with that REST base URL. -/
def liveProdRuntime (baseUrl : String) : Runtime where
  env           := .prod
  mode          := .live
  restBaseUrl   := baseUrl.toList
  wsUrl         := "wss://external-api-ws.kalshi.com/trade-api/ws/v2".toList
  wsSignPath    := "/trade-api/ws/v2".toList
  readOnly      := false
  ordersEnabled := true
  shadow        := false

lemma ReadsAlike.of_splitSep {s r : List Char} (hsep : Url.splitSep url = some (s, r))
    (hscheme : s.all fun c => !Url.isDelim c) (hat : (Url.authority r).all (· ≠ '@')) :
    ReadsAlike rule getenv env url := by
  refine ⟨fun s' r' hsep' => ?_, fun s' r' hsep' hmem => ?_⟩
  · rw [hsep] at hsep'
    cases hsep'
    simpa using hscheme
  · rw [hsep] at hsep'
    cases hsep'
    simpa using List.all_eq_true.1 hat _ hmem

theorem resolveRuntime_fail_closed_default :
    FailClosed (liveProd none) (liveProdRuntime "https://external-api.kalshi.com") := by
  refine (resolveRuntime_fail_closed_iff (by rfl)).2 fun env henv => ?_
  cases henv
  exact ⟨.of_splitSep rfl (by decide +kernel) (by decide +kernel),
    .of_splitSep rfl (by decide +kernel) (by decide +kernel)⟩

/-- The splitter takes the name before the colon for the host; a client takes it for a user name and
connects to the host behind the `@`. -/
def userinfoUrl : String := "https://external-api.kalshi.com:x@attacker.example"

theorem resolveRuntime_fail_closed_userinfo :
    resolveRuntime (liveProd (some userinfoUrl)) = .ok (liveProdRuntime userinfoUrl) ∧
      Url.host? userinfoUrl.toList = some "attacker.example".toList ∧
      ¬ FailClosed (liveProd (some userinfoUrl)) (liveProdRuntime userinfoUrl) := by
  have hhost : Url.host? userinfoUrl.toList = some "attacker.example".toList := by decide +kernel
  refine ⟨rfl, hhost, fun hclosed => ?_⟩
  obtain ⟨h, hh, hin⟩ := hclosed.restHost (by decide +kernel)
  have hh : Url.host? userinfoUrl.toList = some h := hh
  rw [hhost] at hh
  cases hh
  revert hin
  decide +kernel

end HftBot
