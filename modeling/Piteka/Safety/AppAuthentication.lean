import Piteka.Application.WebhookScenario
import Piteka.GitHub.AppClient
import Piteka.Safety.DeploymentContract

/-!
# Requests to GitHub

A request on a route of the App carries a token of the App that was signed for it: with
the key behind the configured reference, resolved in the same call, and issued a minute
before the clock that was read in the same call. A deployment carries the installation
token that such a request was given.
-/
namespace Piteka.Safety

set_option autoImplicit false

open Piteka.Interleaving Piteka.Interleaving.Program Piteka.Storage Piteka.GitHub Piteka.Text

/-- The bearer is a token of the App, by a secret and a time that the path was given. -/
structure SignedAt (rsa : Rsa) (adapter : GitHubAppAdapter) (h : AppPath) (bearer : String)
    (appId now : UInt64) (secret : ByteArray) (key : rsa.Key) : Prop where
  app : adapter.appId = some appId
  resolved : ⟨.resolveAppSecret adapter.appSecretReference, .ok secret⟩ ∈ h
  clock : ⟨.clock, .ok now⟩ ∈ h
  parsed : readPrivateKey rsa secret = .ok key
  token : readJwt bearer = some (Ascii.bytes jwtHeader, Ascii.bytes (jwtClaims (minuteBefore now) appId),
    (rsa.sign key (asBytes (signingInput (minuteBefore now) appId))).toList)

def SignedByApp (rsa : Rsa) (adapter : GitHubAppAdapter) (h : AppPath) (bearer : String) : Prop :=
  ∃ appId now secret key, SignedAt rsa adapter h bearer appId now secret key

/-- A request on a route of the App, or the one that creates a deployment. -/
inductive Authenticated (rsa : Rsa) (adapter : GitHubAppAdapter) (h : AppPath) (request : AppRequest) : Prop
  | app (route : String) (hurl : request.url = adapter.apiBaseUrl ++ "/app/" ++ route)
      (hsigned : SignedByApp rsa adapter h request.bearer) : Authenticated rsa adapter h request
  | installation (exchange : AppRequest) (response : AppResponse)
      (hurl : request.url = adapter.apiBaseUrl ++ "/repos/" ++ adapter.context.repositoryName.asStr ++ "/deployments")
      (hexchange : exchange.url = adapter.apiBaseUrl ++ "/app/installations/" ++
        toString adapter.context.installationId.asU64.toNat ++ "/access_tokens")
      (hsigned : SignedByApp rsa adapter h exchange.bearer) (hgiven : ⟨.send exchange, .ok response⟩ ∈ h)
      (htoken : response.installationToken = .ok request.bearer) : Authenticated rsa adapter h request

/-- The token is valid when it is sent, and for no more than ten minutes. -/
theorem valid_now {now : UInt64} (h : now.toNat + 600 < 2 ^ 64) :
    (minuteBefore now).toNat ≤ now.toNat ∧ now.toNat < (minuteBefore now + 600).toNat ∧
      (minuteBefore now + 600).toNat ≤ now.toNat + 600 := by
  have hnow := now.toNat_lt
  have hiat : (minuteBefore now).toNat = now.toNat - 60 := by
    rw [minuteBefore, UInt64.toNat_ofNat']
    omega
  have hexp : (minuteBefore now + 600).toNat = now.toNat - 60 + 600 := by
    rw [UInt64.toNat_add, hiat]
    show (now.toNat - 60 + 600) % 2 ^ 64 = _
    omega
  omega

section
variable {rsa : Rsa} {adapter : GitHubAppAdapter} {h : AppPath}

theorem SignedByApp.mono {bearer : String} {h' : AppPath} (hsigned : SignedByApp rsa adapter h bearer)
    (hsub : ∀ d ∈ h, d ∈ h') : SignedByApp rsa adapter h' bearer := by
  obtain ⟨appId, now, secret, key, hs⟩ := hsigned
  exact ⟨appId, now, secret, key, { hs with resolved := hsub _ hs.resolved, clock := hsub _ hs.clock }⟩

theorem returns_resolveAppSecret {reference : GitHubSecretReference} {secret : ByteArray}
    (hr : Returns (resolveAppSecret reference).run h (.ok secret)) :
    h = [⟨.resolveAppSecret reference, .ok secret⟩] := by
  obtain ⟨a, t, rfl, h1⟩ := returns_call.mp hr
  obtain ⟨rfl, ha⟩ := returns_ret.mp h1
  cases a with
  | error e => cases ha
  | ok s =>
    obtain rfl := Except.ok.inj ha
    rfl

theorem returns_unixTime {now : UInt64} (hr : Returns unixTime.run h (.ok now)) : h = [⟨.clock, .ok now⟩] := by
  obtain ⟨a, t, rfl, h1⟩ := returns_call.mp hr
  obtain ⟨rfl, ha⟩ := returns_ret.mp h1
  cases a with
  | error e => cases ha
  | ok s =>
    obtain rfl := Except.ok.inj ha
    rfl

theorem returns_send {request : AppRequest} {response : AppResponse}
    (hr : Returns (send request).run h (.ok response)) : h = [⟨.send request, .ok response⟩] := by
  obtain ⟨a, t, rfl, h1⟩ := returns_call.mp hr
  obtain ⟨rfl, ha⟩ := returns_ret.mp h1
  cases a with
  | error e => cases ha
  | ok s =>
    obtain rfl := Except.ok.inj ha
    rfl

theorem next_send {request : AppRequest} {op : AppCall} (hn : Next (send request).run h op) :
    h = [] ∧ op = .send request := by
  rcases next_call.mp hn with hfirst | ⟨_, _, _, h1⟩
  · exact hfirst
  · exact absurd h1 next_ret

theorem signed_of_generated {appId now : UInt64} {secret : ByteArray} {jwt : JwtToken}
    (happ : adapter.appId = some appId)
    (hsecret : ⟨.resolveAppSecret adapter.appSecretReference, .ok secret⟩ ∈ h) (hclock : ⟨.clock, .ok now⟩ ∈ h)
    (hjwt : generateJwt rsa appId secret (minuteBefore now) = .ok jwt) : SignedByApp rsa adapter h jwt.token := by
  obtain ⟨key, hkey, _, htoken⟩ := generateJwt_read hjwt
  exact ⟨appId, now, secret, key, happ, hsecret, hclock, hkey, htoken⟩

theorem appToken_returns {jwt : JwtToken} (hr : Returns (appToken rsa adapter).run h (.ok jwt)) :
    SignedByApp rsa adapter h jwt.token := by
  rw [appToken] at hr
  cases happ : adapter.appId with
  | none =>
    rw [happ] at hr
    cases (returns_ret.mp hr).2
  | some appId =>
    rw [happ] at hr
    rcases returns_seq hr with ⟨_, _, he⟩ | ⟨h₁, h₂, secret, rfl, h1, h2⟩
    · cases he
    rcases returns_seq h2 with ⟨_, _, he⟩ | ⟨h₃, h₄, now, rfl, h3, h4⟩
    · cases he
    obtain ⟨rfl, hjwt⟩ := returns_ret.mp h4
    rw [returns_resolveAppSecret h1, returns_unixTime h3]
    exact signed_of_generated happ (by simp) (by simp) hjwt.symm

theorem appToken_next {op : AppCall} (hn : Next (appToken rsa adapter).run h op) :
    ∀ request, op ≠ .send request := by
  rw [appToken] at hn
  cases happ : adapter.appId with
  | none =>
    rw [happ] at hn
    exact absurd hn next_ret
  | some appId =>
    rw [happ] at hn
    intro request
    rcases next_seq hn with h1 | ⟨_, _, _, rfl, _, h1⟩
    · rcases next_call.mp h1 with ⟨_, rfl⟩ | ⟨_, _, _, h2⟩
      · exact fun hop => nomatch hop
      · exact absurd h2 next_ret
    rcases next_seq h1 with h2 | ⟨_, _, _, rfl, _, h2⟩
    · rcases next_call.mp h2 with ⟨_, rfl⟩ | ⟨_, _, _, h3⟩
      · exact fun hop => nomatch hop
      · exact absurd h3 next_ret
    · exact absurd h2 next_ret

/-- A route of the App sends the request that carries its token, or goes on with the answer. -/
theorem route_next {α : Type} {request : JwtToken → AppRequest} {read : AppResponse → AppUse α} {op : AppCall}
    (hn : Next (do let jwt ← appToken rsa adapter; let response ← send (request jwt); read response : AppUse α).run
      h op) :
    (∀ sent, op ≠ .send sent) ∨ (∃ jwt, op = .send (request jwt) ∧ SignedByApp rsa adapter h jwt.token) ∨
      ∃ response h', Next (read response).run h' op := by
  rcases next_seq hn with h1 | ⟨h₁, h₂, jwt, rfl, h1, h2⟩
  · exact Or.inl (appToken_next h1)
  rcases next_seq h2 with h3 | ⟨_, h₄, response, rfl, _, h3⟩
  · obtain ⟨rfl, hop⟩ := next_send h3
    rw [List.append_nil]
    exact Or.inr (Or.inl ⟨jwt, hop, appToken_returns h1⟩)
  · exact Or.inr (Or.inr ⟨response, h₄, h3⟩)

theorem webhookConfigUrl_next {request : AppRequest}
    (hn : Next (webhookConfigUrl rsa adapter).run h (.send request)) : Authenticated rsa adapter h request := by
  rcases route_next hn with hno | ⟨jwt, hop, hsigned⟩ | ⟨response, h', hread⟩
  · exact absurd rfl (hno request)
  · obtain rfl := AppCall.send.inj hop
    exact .app "hook/config" (by rw [String.append_assoc]; rfl) hsigned
  rcases next_seq hread with h1 | ⟨_, _, _, rfl, _, h1⟩
  · exact absurd h1 next_ret
  split at h1
  · split at h1
    · exact absurd h1 next_ret
    · exact absurd h1 next_ret
  · exact absurd h1 next_ret

theorem recentWebhookDeliveries_next {request : AppRequest}
    (hn : Next (recentWebhookDeliveries rsa adapter).run h (.send request)) :
    Authenticated rsa adapter h request := by
  rcases route_next hn with hno | ⟨jwt, hop, hsigned⟩ | ⟨response, h', hread⟩
  · exact absurd rfl (hno request)
  · obtain rfl := AppCall.send.inj hop
    exact .app "hook/deliveries?per_page=100" (by rw [String.append_assoc]; rfl) hsigned
  rcases next_seq hread with h1 | ⟨_, _, _, rfl, _, h1⟩
  · exact absurd h1 next_ret
  split at h1
  · exact absurd h1 next_ret
  · exact absurd h1 next_ret

theorem redeliverWebhook_next {deliveryId : UInt64} {request : AppRequest}
    (hn : Next (redeliverWebhook rsa adapter deliveryId).run h (.send request)) :
    Authenticated rsa adapter h request := by
  rcases route_next hn with hno | ⟨jwt, hop, hsigned⟩ | ⟨response, h', hread⟩
  · exact absurd rfl (hno request)
  · obtain rfl := AppCall.send.inj hop
    refine .app ("hook/deliveries/" ++ (toString deliveryId.toNat ++ "/attempts")) ?_ hsigned
    simp only [String.append_assoc]
    rfl
  split at hread
  · exact absurd hread next_ret
  · exact absurd hread next_ret

/-- The exchange of an App token for an installation token. -/
theorem createInstallationToken_next {cd : Codec} {appId now : UInt64} {installationId : GitHubInstallationId}
    {secret : ByteArray} {request : AppRequest}
    (hn : Next (createInstallationToken rsa adapter cd appId installationId secret now).run h (.send request)) :
    ∃ jwt, generateJwt rsa appId secret (minuteBefore now) = .ok jwt ∧ request.bearer = jwt.token ∧
      request.url = adapter.apiBaseUrl ++ "/app/installations/" ++ toString installationId.asU64.toNat ++
        "/access_tokens" := by
  rcases next_seq hn with h1 | ⟨_, _, jwt, rfl, h1, h2⟩
  · exact absurd h1 next_ret
  obtain ⟨_, hjwt⟩ := returns_ret.mp h1
  rcases next_seq h2 with h3 | ⟨_, _, _, rfl, _, h3⟩
  · obtain ⟨_, hop⟩ := next_send h3
    obtain rfl := AppCall.send.inj hop
    exact ⟨jwt, hjwt.symm, rfl, rfl⟩
  · split at h3
    · exact absurd h3 next_ret
    · exact absurd h3 next_ret

theorem createInstallationToken_returns {cd : Codec} {appId now : UInt64} {installationId : GitHubInstallationId}
    {secret : ByteArray} {token : String}
    (hr : Returns (createInstallationToken rsa adapter cd appId installationId secret now).run h (.ok token)) :
    ∃ jwt exchange response, generateJwt rsa appId secret (minuteBefore now) = .ok jwt ∧
      exchange.bearer = jwt.token ∧ exchange.url = adapter.apiBaseUrl ++ "/app/installations/" ++
        toString installationId.asU64.toNat ++ "/access_tokens" ∧
      h = [⟨.send exchange, .ok response⟩] ∧ response.installationToken = .ok token := by
  rcases returns_seq hr with ⟨_, _, he⟩ | ⟨h₁, h₂, jwt, rfl, h1, h2⟩
  · cases he
  obtain ⟨rfl, hjwt⟩ := returns_ret.mp h1
  rcases returns_seq h2 with ⟨_, _, he⟩ | ⟨h₃, h₄, response, rfl, h3, h4⟩
  · cases he
  rw [returns_send h3]
  split at h4
  · obtain ⟨rfl, htoken⟩ := returns_ret.mp h4
    refine ⟨jwt, _, response, hjwt.symm, rfl, rfl, rfl, ?_⟩
    cases hgiven : response.installationToken with
    | error e =>
      rw [hgiven] at htoken
      cases htoken
    | ok token' =>
      rw [hgiven] at htoken
      exact congrArg Except.ok (Except.ok.inj htoken).symm
  · cases (returns_ret.mp h4).2

theorem createLiveDeployment_next {cd : Codec} {call : DeploymentCall} {request : AppRequest}
    (hn : Next (createLiveDeployment rsa adapter cd call).run h (.send request)) :
    Authenticated rsa adapter h request := by
  rcases next_seq hn with h1 | ⟨h₁, h₂, _, rfl, h1, h2⟩
  · exact absurd h1 next_ret
  obtain ⟨rfl, hchecked⟩ := returns_ret.mp h1
  have hinstallation : call.installationId = adapter.context.installationId := (checkCall_ok.mp hchecked.symm).1
  rcases next_seq h2 with h3 | ⟨h₃, h₄, secret, rfl, h3, h4⟩
  · rcases next_call.mp h3 with ⟨_, hop⟩ | ⟨_, _, _, h4⟩
    · cases hop
    · exact absurd h4 next_ret
  cases happ : adapter.appId with
  | none =>
    rw [happ] at h4
    exact absurd h4 next_ret
  | some appId =>
    rw [happ] at h4
    rcases next_seq h4 with h5 | ⟨h₅, h₆, now, rfl, h5, h6⟩
    · rcases next_call.mp h5 with ⟨_, hop⟩ | ⟨_, _, _, h6⟩
      · cases hop
      · exact absurd h6 next_ret
    rw [returns_resolveAppSecret h3, returns_unixTime h5]
    rcases next_seq h6 with h7 | ⟨h₇, h₈, token, rfl, h7, h8⟩
    · obtain ⟨jwt, hjwt, hbearer, hurl⟩ := createInstallationToken_next h7
      refine .app ("installations/" ++ (toString call.installationId.asU64.toNat ++ "/access_tokens")) ?_ ?_
      · rw [hurl]
        simp only [String.append_assoc]
        rfl
      · rw [hbearer]
        exact signed_of_generated happ (by simp) (by simp) hjwt
    · obtain ⟨jwt, exchange, response, hjwt, hbearer, hexchange, rfl, htoken⟩ := createInstallationToken_returns h7
      rcases next_seq h8 with h9 | ⟨_, _, _, rfl, _, h9⟩
      · rcases next_call.mp h9 with ⟨rfl, hop⟩ | ⟨_, _, _, h10⟩
        · obtain rfl := AppCall.send.inj hop
          refine .installation exchange response rfl (hinstallation ▸ hexchange) ?_ (by simp) htoken
          rw [hbearer]
          exact signed_of_generated happ (by simp) (by simp) hjwt
        · exact absurd h10 next_ret
      · exact absurd h9 next_ret

/-- Whatever GitHub and the surroundings answer, every request of the adapter is authenticated by a
secret that was resolved and a time that was read before it in the same call: on the routes of the
App by a token that a reader takes apart into the claims of that minute and the signature of exactly
the text before it, on the deployments of the repository by the installation token that such a
request was given. The claims tell the time and the app, and they are valid at the time that was read. -/
theorem app_requests_authenticated (rsa : Rsa) (cd : Codec) (adapter : GitHubAppAdapter) :
    (∀ (x : AppTask) (h : AppPath) (request : AppRequest), Next (x.run rsa cd adapter).run h (.send request) →
      Authenticated rsa adapter h request) ∧
    (∀ issuedAt issuedAt' appId appId' : UInt64, jwtClaims issuedAt appId = jwtClaims issuedAt' appId' →
      issuedAt = issuedAt' ∧ appId = appId') ∧
    ∀ now : UInt64, now.toNat + 600 < 2 ^ 64 → (minuteBefore now).toNat ≤ now.toNat ∧
      now.toNat < (minuteBefore now + 600).toNat ∧ (minuteBefore now + 600).toNat ≤ now.toNat + 600 := by
  refine ⟨fun x h request hn => ?_, fun _ _ _ _ h => jwtClaims_injective h, fun _ h => valid_now h⟩
  cases x with
  | webhookConfigUrl => exact webhookConfigUrl_next hn
  | recentWebhookDeliveries => exact recentWebhookDeliveries_next hn
  | redeliverWebhook deliveryId => exact redeliverWebhook_next hn
  | createDeployment call => exact createLiveDeployment_next hn

end

/-! ## A configured adapter -/

def demoAppKey : GitHubSecretReference := ⟨"github-app-key", by decide⟩

def demoAdapter : GitHubAppAdapter where
  context := demoContext
  appSecretReference := demoAppKey
  appId := some 42
  apiBaseUrl := "https://api.github.com"

/-- Every text is the one key. What its signatures are is of no interest here. -/
def oneKey : Rsa where
  Key := Unit
  fromPkcs8Pem _ := .ok ()
  fromPkcs1Pem _ := .ok ()
  sign _ _ := #[]

/-- The secret and the time that a call has been given. -/
def configured : AppPath := [⟨.resolveAppSecret demoAppKey, .ok "key".toByteArray⟩, ⟨.clock, .ok 1700000000⟩]

theorem app_requests_authenticated_configured : ∃ request,
    Next (AppTask.webhookConfigUrl.run oneKey Application.sampleCodec demoAdapter).run configured (.send request) ∧
      Authenticated oneKey demoAdapter configured request := by
  have hsends : ∃ request, Next (AppTask.webhookConfigUrl.run oneKey Application.sampleCodec demoAdapter).run
      configured (.send request) := ⟨_, _, .call (.call (.here _))⟩
  obtain ⟨request, hn⟩ := hsends
  exact ⟨request, hn, (app_requests_authenticated oneKey Application.sampleCodec demoAdapter).1 .webhookConfigUrl
    configured request hn⟩

end Piteka.Safety
