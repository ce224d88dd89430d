import Piteka.GitHub.AppAdapter
import Piteka.GitHub.AppToken
import Piteka.Interleaving.Fallible

/-!
# The live client

The calls of the adapter that reach GitHub, with what they ask of their surroundings:
the secret of the App, the clock and the answers to requests. The App token goes to
the routes of the App, the installation token that GitHub gives for it to the
deployments of the repository.
-/
namespace Piteka.GitHub

set_option autoImplicit false

open Piteka.Interleaving Piteka.Storage

structure AppRequest where
  method : String
  url : String
  bearer : String
  body : Option Json

/-- The answer to a request, with what reading its text as one thing or another gives. -/
structure AppResponse extends Response where
  json : Except String Json
  installationToken : Except String String

inductive AppCall where
  | resolveAppSecret (reference : GitHubSecretReference)
  /-- The seconds since the Unix epoch. -/
  | clock
  | send (request : AppRequest)

@[reducible] def AppAnswer : AppCall → Type
  | .resolveAppSecret _ => Except GitHubSecretError ByteArray
  | .clock => Except String UInt64
  | .send _ => Except String AppResponse

abbrev AppUse (α : Type) := ExceptT GitHubAppError (Program AppCall AppAnswer) α

abbrev AppPath := List ((op : AppCall) × AppAnswer op)

def resolveAppSecret (reference : GitHubSecretReference) : AppUse ByteArray :=
  ExceptT.mk (.call (.resolveAppSecret reference) fun a => .ret (a.mapError .secretResolution))

def unixTime : AppUse UInt64 := ExceptT.mk (.call .clock fun a => .ret (a.mapError .apiError))

def send (request : AppRequest) : AppUse AppResponse :=
  ExceptT.mk (.call (.send request) fun a => .ret (a.mapError .apiError))

/-- `now.saturating_sub(60)` -/
def minuteBefore (now : UInt64) : UInt64 := UInt64.ofNat (now.toNat - 60)

def GitHubInstallationId.asU64 (id : GitHubInstallationId) : UInt64 := (parseU64 id.asStr).getD 0

section
variable (rsa : Rsa) (adapter : GitHubAppAdapter)

/-- What each route of the App begins with: a token that is signed anew. -/
def appToken : AppUse JwtToken := do
  match adapter.appId with
  | none => throw (.apiError "live GitHub transport is not configured")
  | some appId =>
    let secret ← resolveAppSecret adapter.appSecretReference
    let now ← unixTime
    ExceptT.mk (.ret (generateJwt rsa appId secret (minuteBefore now)))

def webhookConfigUrl : AppUse String := do
  let jwt ← appToken rsa adapter
  let response ← send ⟨"GET", adapter.apiBaseUrl ++ "/app/hook/config", jwt.token, none⟩
  let value ← ExceptT.mk (.ret (response.json.mapError .apiError))
  if response.isSuccess then
    match (value.get "url").bind Json.asStr with
    | some url => return url
    | none => throw (.apiError "webhook configuration omitted url")
  else throw (.apiError ("webhook configuration returned " ++ response.status))

def recentWebhookDeliveries : AppUse Json := do
  let jwt ← appToken rsa adapter
  let response ←
    send ⟨"GET", adapter.apiBaseUrl ++ "/app/hook/deliveries?per_page=100", jwt.token, none⟩
  let value ← ExceptT.mk (.ret (response.json.mapError .apiError))
  if response.isSuccess then return value
  else throw (.apiError ("webhook deliveries returned " ++ response.status))

def redeliverWebhook (deliveryId : UInt64) : AppUse Unit := do
  let jwt ← appToken rsa adapter
  let response ← send ⟨"POST",
    adapter.apiBaseUrl ++ "/app/hook/deliveries/" ++ toString deliveryId.toNat ++ "/attempts", jwt.token, none⟩
  if response.isSuccess then return ()
  else throw (.apiError ("webhook redelivery returned " ++ response.status))

def createInstallationToken (cd : Codec) (appId : UInt64) (installationId : GitHubInstallationId)
    (appSecret : ByteArray) (now : UInt64) : AppUse String := do
  let jwt ← ExceptT.mk (.ret (generateJwt rsa appId appSecret (minuteBefore now)))
  let response ← send ⟨"POST", adapter.apiBaseUrl ++ "/app/installations/" ++
    toString installationId.asU64.toNat ++ "/access_tokens", jwt.token, none⟩
  if response.isSuccess then
    ExceptT.mk (.ret (response.installationToken.mapError .apiError))
  else throw (.apiError ("installation token exchange returned " ++ response.status ++ ": " ++
    redactApiBody cd (response.text.getD "")))

/-- A clock before the epoch panics in the source; here it is an error. -/
def createLiveDeployment (cd : Codec) (call : DeploymentCall) : AppUse DeploymentCreated := do
  ExceptT.mk (.ret (checkCall adapter.context call))
  let appSecret ← resolveAppSecret adapter.appSecretReference
  match adapter.appId with
  | none => throw (.apiError "live GitHub transport is not configured")
  | some appId =>
    let now ← unixTime
    let token ← createInstallationToken rsa adapter cd appId call.installationId appSecret now
    let answer ← ExceptT.mk (.call (.send ⟨"POST",
      adapter.apiBaseUrl ++ "/repos/" ++ adapter.context.repositoryName.asStr ++ "/deployments", token,
      some (deploymentRequestBody call.commitSha call.environment call.attemptDigest)⟩) fun a => .ret (.ok a))
    ExceptT.mk (.ret (readResponse cd call.attemptDigest (answer.map AppResponse.toResponse)))

end

/-- The calls of the adapter. -/
inductive AppTask where
  | webhookConfigUrl
  | recentWebhookDeliveries
  | redeliverWebhook (deliveryId : UInt64)
  | createDeployment (call : DeploymentCall)

@[reducible] def AppTask.Res : AppTask → Type
  | webhookConfigUrl => String
  | recentWebhookDeliveries => Json
  | redeliverWebhook _ => Unit
  | createDeployment _ => DeploymentCreated

def AppTask.run (rsa : Rsa) (cd : Codec) (adapter : GitHubAppAdapter) : (x : AppTask) → AppUse x.Res
  | webhookConfigUrl => GitHub.webhookConfigUrl rsa adapter
  | recentWebhookDeliveries => GitHub.recentWebhookDeliveries rsa adapter
  | redeliverWebhook deliveryId => GitHub.redeliverWebhook rsa adapter deliveryId
  | createDeployment call => createLiveDeployment rsa adapter cd call

/-! ## A live call and the adapter of a single step -/

/-- The transport that always gives these answers. -/
def constantly (secret : Except GitHubSecretError ByteArray) (token : Except GitHubAppError String)
    (answer : Except String Response) : Transport where
  resolveAppSecret _ := secret
  createInstallationToken _ _ _ _ := token
  post _ _ _ := answer

/-- The answers of the path are those of the transport. -/
structure AnsweredBy (transport : Transport) (h : AppPath) : Prop where
  secret : ∀ reference a, ⟨.resolveAppSecret reference, a⟩ ∈ h → transport.resolveAppSecret reference = a
  post : ∀ url token body a, ⟨.send ⟨"POST", url, token, some body⟩, a⟩ ∈ h →
    transport.post url token body = a.map AppResponse.toResponse

open Program

theorem send_path {request : AppRequest} {h : AppPath} {r : Except GitHubAppError AppResponse}
    (hr : Returns (send request).run h r) : ∃ a, h = [⟨.send request, a⟩] := by
  obtain ⟨a, t, rfl, h1⟩ := returns_call.mp hr
  obtain ⟨rfl, _⟩ := returns_ret.mp h1
  exact ⟨a, rfl⟩

/-- The exchange sends one request at most, without a body. -/
theorem createInstallationToken_path {rsa : Rsa} {cd : Codec} {adapter : GitHubAppAdapter} {appId now : UInt64}
    {installationId : GitHubInstallationId} {secret : ByteArray} {h : AppPath} {r : Except GitHubAppError String}
    (hr : Returns (createInstallationToken rsa adapter cd appId installationId secret now).run h r) :
    ∀ d ∈ h, ∃ request, d.1 = .send request ∧ request.body = none := by
  rcases returns_seq hr with ⟨_, h1, _⟩ | ⟨h₁, h₂, jwt, rfl, h1, h2⟩
  · obtain ⟨rfl, _⟩ := returns_ret.mp h1
    intro d hd
    cases hd
  obtain ⟨rfl, _⟩ := returns_ret.mp h1
  have hone : ∃ request a, h₂ = [⟨.send request, a⟩] ∧ request.body = none := by
    rcases returns_seq h2 with ⟨_, h3, _⟩ | ⟨h₃, h₄, response, rfl, h3, h4⟩
    · obtain ⟨a, ha⟩ := send_path h3
      exact ⟨_, a, ha, rfl⟩
    · obtain ⟨a, rfl⟩ := send_path h3
      split at h4
      · rw [(returns_ret.mp h4).1]
        exact ⟨_, a, rfl, rfl⟩
      · rw [(returns_ret.mp h4).1]
        exact ⟨_, a, rfl, rfl⟩
  obtain ⟨request, a, rfl, hbody⟩ := hone
  intro d hd
  obtain rfl := List.mem_singleton.mp hd
  exact ⟨request, rfl, hbody⟩

theorem createDeployment_constantly (cd : Codec) {adapter : GitHubAppAdapter} {call : DeploymentCall}
    {a : Except GitHubSecretError ByteArray} {secret : ByteArray} {appId : UInt64}
    (hchecked : checkCall adapter.context call = .ok ())
    (ha : a.mapError GitHubAppError.secretResolution = .ok secret)
    (happ : adapter.appId = some appId) (token : Except GitHubAppError String) (answer : Except String Response) :
    createDeployment cd (constantly a token answer) adapter call =
      token >>= fun _ => readResponse cd call.attemptDigest answer := by
  rw [createDeployment, hchecked, happ]
  show (a.mapError _ >>= _) = _
  rw [ha]
  rfl

/-- The secret, the clock, the exchange and the request of the deployment. -/
theorem answeredBy_constantly {reference : GitHubSecretReference} {a : Except GitHubSecretError ByteArray}
    {token : Except GitHubAppError String} {answer : Except String Response} {h t : AppPath}
    (hplain : ∀ d ∈ h, d.1 = .clock ∨ ∃ request, d.1 = .send request ∧ request.body = none)
    (ht : ∀ d ∈ t, ∃ request b, d = ⟨.send request, b⟩ ∧ answer = b.map AppResponse.toResponse) :
    AnsweredBy (constantly a token answer) (⟨.resolveAppSecret reference, a⟩ :: (h ++ t)) := by
  constructor
  · intro reference' a' hmem
    rcases List.mem_cons.mp hmem with heq | hmem
    · cases heq
      rfl
    rcases List.mem_append.mp hmem with hmem | hmem
    · rcases hplain _ hmem with hop | ⟨_, hop, _⟩
      · cases hop
      · cases hop
    · obtain ⟨_, _, heq, _⟩ := ht _ hmem
      cases heq
  · intro url bearer body b hmem
    rcases List.mem_cons.mp hmem with heq | hmem
    · cases heq
    rcases List.mem_append.mp hmem with hmem | hmem
    · rcases hplain _ hmem with hop | ⟨request, hop, hbody⟩
      · cases hop
      · obtain rfl := AppCall.send.inj hop
        cases hbody
    · obtain ⟨_, _, heq, hanswer⟩ := ht _ hmem
      cases heq
      exact hanswer

/-- A live call returns what the adapter returns in a single step over a transport that gives the
answers of the call. -/
theorem createLiveDeployment_returns {rsa : Rsa} {cd : Codec} {adapter : GitHubAppAdapter} {call : DeploymentCall}
    {h : AppPath} {r : Except GitHubAppError DeploymentCreated}
    (hr : Returns (createLiveDeployment rsa adapter cd call).run h r) :
    ∃ transport, AnsweredBy transport h ∧ r = createDeployment cd transport adapter call := by
  rcases returns_seq hr with ⟨e, h1, rfl⟩ | ⟨h₁, h₂, _, rfl, h1, h2⟩
  · obtain ⟨rfl, hchecked⟩ := returns_ret.mp h1
    refine ⟨constantly (.error .emptySecret) (.error .verificationFailed) (.error ""), ⟨by simp, by simp⟩, ?_⟩
    rw [createDeployment, ← hchecked]
    rfl
  obtain ⟨rfl, hchecked⟩ := returns_ret.mp h1
  rw [List.nil_append]
  rcases returns_seq h2 with ⟨e, h3, rfl⟩ | ⟨h₃, h₄, secret, rfl, h3, h4⟩
  · obtain ⟨a, t, rfl, h5⟩ := returns_call.mp h3
    obtain ⟨rfl, ha⟩ := returns_ret.mp h5
    refine ⟨constantly a (.error .verificationFailed) (.error ""),
      answeredBy_constantly (h := []) (by simp) (by simp), ?_⟩
    rw [createDeployment, ← hchecked]
    show _ = (a.mapError _ >>= _)
    rw [← ha]
    rfl
  obtain ⟨a, t, rfl, h5⟩ := returns_call.mp h3
  obtain ⟨rfl, ha⟩ := returns_ret.mp h5
  rw [List.singleton_append]
  cases happ : adapter.appId with
  | none =>
    rw [happ] at h4
    obtain ⟨rfl, rfl⟩ := returns_ret.mp h4
    refine ⟨constantly a (.error .verificationFailed) (.error ""),
      answeredBy_constantly (h := []) (by simp) (by simp), ?_⟩
    rw [createDeployment, ← hchecked, happ]
    show _ = (a.mapError _ >>= _)
    rw [← ha]
    rfl
  | some appId =>
    rw [happ] at h4
    have hlive := createDeployment_constantly cd hchecked.symm ha.symm happ
    rcases returns_seq h4 with ⟨e, h6, rfl⟩ | ⟨h₆, h₇, now, rfl, h6, h7⟩
    · obtain ⟨b, t, rfl, h8⟩ := returns_call.mp h6
      obtain ⟨rfl, _⟩ := returns_ret.mp h8
      refine ⟨constantly a (.error e) (.error ""), ?_, by rw [hlive]; rfl⟩
      exact answeredBy_constantly (h := [⟨.clock, b⟩]) (t := []) (by simp) (by simp)
    obtain ⟨b, t, rfl, h8⟩ := returns_call.mp h6
    obtain ⟨rfl, _⟩ := returns_ret.mp h8
    rcases returns_seq h7 with ⟨e, h9, rfl⟩ | ⟨h₉, h₁₀, token, rfl, h9, h10⟩
    · refine ⟨constantly a (.error e) (.error ""), ?_, by rw [hlive]; rfl⟩
      rw [← List.append_nil h₇, ← List.append_assoc]
      refine answeredBy_constantly (fun d hd => ?_) (by simp)
      rcases List.mem_cons.mp hd with rfl | hd
      · exact Or.inl rfl
      · exact Or.inr (createInstallationToken_path h9 d hd)
    · rcases returns_seq h10 with ⟨e, h11, _⟩ | ⟨h₁₁, h₁₂, answer, rfl, h11, h12⟩
      · obtain ⟨_, _, _, h13⟩ := returns_call.mp h11
        cases (returns_ret.mp h13).2
      obtain ⟨c, t, rfl, h13⟩ := returns_call.mp h11
      obtain ⟨rfl, hc⟩ := returns_ret.mp h13
      obtain rfl := Except.ok.inj hc
      obtain ⟨rfl, rfl⟩ := returns_ret.mp h12
      refine ⟨constantly a (.ok token) (answer.map AppResponse.toResponse), ?_, by rw [hlive]; rfl⟩
      rw [← List.append_assoc]
      refine answeredBy_constantly (fun d hd => ?_) fun d hd => ?_
      · rcases List.mem_cons.mp hd with rfl | hd
        · exact Or.inl rfl
        · exact Or.inr (createInstallationToken_path h9 d hd)
      · rw [List.append_nil] at hd
        obtain rfl := List.mem_singleton.mp hd
        exact ⟨_, answer, rfl, rfl⟩

end Piteka.GitHub
