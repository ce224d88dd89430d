import Piteka.Checks.Guards
import Piteka.GitHub.WebhookSignature
import Piteka.Storage.Digest

/-!
# Creating a deployment

The adapter's local checks of a call, the body that it sends, and what it makes of
the answer. The secret store and the transport are outside the repository and are
the fields of `Transport`.
-/
namespace Piteka.GitHub

set_option autoImplicit false

open Piteka.Checks Piteka.Domain Piteka.Storage Piteka.Text

/-- A nonblank text of decimal digits. -/
def IsNumericId (value : String) : Prop :=
  trimIsEmpty value = false ∧ (Ascii.bytes value).all (fun b => 48 ≤ b && b ≤ 57) = true

structure GitHubInstallationId where
  asStr : String
  numeric : IsNumericId asStr
  deriving DecidableEq

structure GitHubRepositoryId where
  asStr : String
  numeric : IsNumericId asStr
  deriving DecidableEq

structure GitHubRepositoryName where
  asStr : String
  nonblank : trimIsEmpty asStr = false

structure GitHubEnvironmentName where
  asStr : String
  nonblank : trimIsEmpty asStr = false

theorem GitHubEnvironmentName.asStr_inj {a b : GitHubEnvironmentName} :
    a.asStr = b.asStr ↔ a = b := by
  refine ⟨fun h => ?_, fun h => congrArg _ h⟩
  cases a
  cases b
  cases h
  rfl

instance : DecidableEq GitHubEnvironmentName := fun _ _ =>
  decidable_of_iff _ GitHubEnvironmentName.asStr_inj

structure GitHubSecretReference where
  asStr : String
  nonblank : trimIsEmpty asStr = false

structure GitHubInstallationContext where
  installationId : GitHubInstallationId
  repositoryId : GitHubRepositoryId
  repositoryName : GitHubRepositoryName
  environmentName : GitHubEnvironmentName

/-- The answer to a request: its status, its text, and what reading it as a deployment gives. -/
structure Response where
  status : String
  isSuccess : Bool
  text : Option String
  deployment : Except String (UInt64 × String)

structure Transport where
  resolveAppSecret : GitHubSecretReference → Except GitHubSecretError ByteArray
  createInstallationToken : (apiBaseUrl : String) → (appId : UInt64) → GitHubInstallationId →
    (appSecret : ByteArray) → Except GitHubAppError String
  post : (url token : String) → (body : Json) → Except String Response

structure GitHubAppAdapter where
  context : GitHubInstallationContext
  appSecretReference : GitHubSecretReference
  appId : Option UInt64
  apiBaseUrl : String

structure DeploymentCreated where
  deploymentId : UInt64
  url : String
  attemptDigest : Vector UInt8 32

/-- The arguments of `create_deployment`. -/
structure DeploymentCall where
  installationId : GitHubInstallationId
  repositoryId : GitHubRepositoryId
  commitSha : String
  environment : GitHubEnvironmentName
  autoMerge : Bool
  payloadCommitment : String
  attemptDigest : Vector UInt8 32

def isUpperDigit (b : UInt8) : Bool := 65 ≤ b && b ≤ 70

/-- `u8::is_ascii_hexdigit` -/
def isAsciiHexdigit (b : UInt8) : Bool := Hex.isLowerDigit b || isUpperDigit b

/-- The checks that are made before anything is resolved or sent. -/
def checkCall (context : GitHubInstallationContext) (call : DeploymentCall) :
    Except GitHubAppError Unit :=
  if call.installationId ≠ context.installationId then
    .error (.unauthorized "installation does not match the configured GitHub App context")
  else if call.repositoryId ≠ context.repositoryId then
    .error (.unauthorized "repository does not match the configured GitHub App context")
  else if call.environment ≠ context.environmentName then
    .error (.unauthorized "environment does not match the configured GitHub App context")
  else if call.commitSha = "" ∨ (Ascii.bytes call.commitSha).length ≠ 40 then
    .error (.emptyField "commit_sha")
  else if (Ascii.bytes call.commitSha).all isAsciiHexdigit = false then
    .error (.apiError "commit_sha must be a 40-character hexadecimal object ID")
  else if (Ascii.bytes call.payloadCommitment).length ≠ 64 ∨
      (Ascii.bytes call.payloadCommitment).all isAsciiHexdigit = false then
    .error (.emptyField "payload_commitment")
  else if call.autoMerge = true then
    .error (.apiError "auto_merge must be false for production deployments")
  else .ok ()

/-- The payload commitment is skipped when the correlation is written. -/
def correlationPayload (attemptDigest : Vector UInt8 32) : Json :=
  .object [("schema_version", .ofNat 1),
    ("piteka_attempt_digest", .string (ContentDigest.toHex ⟨attemptDigest⟩))]

def deploymentRequestBody (commitSha : String) (environment : GitHubEnvironmentName)
    (attemptDigest : Vector UInt8 32) : Json :=
  .object [("ref", .string commitSha), ("auto_merge", .bool false),
    ("environment", .string environment.asStr), ("payload", correlationPayload attemptDigest)]

def redactApiBody (cd : Codec) (body : String) : String :=
  (((cd.fromSlice (asBytes body)).bind (·.get "message")).bind Json.asStr).getD
    "GitHub API request failed"

/-- What the adapter makes of the answer. -/
def readResponse (cd : Codec) (attemptDigest : Vector UInt8 32) :
    Except String Response → Except GitHubAppError DeploymentCreated
  | .error message => .error (.apiError message)
  | .ok response =>
    if response.isSuccess then
      match response.deployment with
      | .ok (id, url) => .ok ⟨id, url, attemptDigest⟩
      | .error message => .error (.apiError message)
    else .error (.apiError ("deployment creation returned " ++ response.status ++ ": " ++
      redactApiBody cd (response.text.getD "")))

def createDeployment (cd : Codec) (transport : Transport) (adapter : GitHubAppAdapter)
    (call : DeploymentCall) : Except GitHubAppError DeploymentCreated := do
  checkCall adapter.context call
  let appSecret ←
    (transport.resolveAppSecret adapter.appSecretReference).mapError .secretResolution
  match adapter.appId with
  | none => .error (.apiError "live GitHub transport is not configured")
  | some appId =>
    let token ← transport.createInstallationToken adapter.apiBaseUrl appId call.installationId
      appSecret
    let url := adapter.apiBaseUrl ++ "/repos/" ++ adapter.context.repositoryName.asStr ++
      "/deployments"
    readResponse cd call.attemptDigest (transport.post url token
      (deploymentRequestBody call.commitSha call.environment call.attemptDigest))

/-! ## What the checks admit -/

/-- The commit strings that the adapter takes. -/
def AdapterSha (commitSha : String) : Prop :=
  (Ascii.bytes commitSha).length = 40 ∧ (Ascii.bytes commitSha).all isAsciiHexdigit = true

theorem checkCall_ok {context : GitHubInstallationContext} {call : DeploymentCall} :
    checkCall context call = .ok () ↔
      call.installationId = context.installationId ∧ call.repositoryId = context.repositoryId ∧
        call.environment = context.environmentName ∧ AdapterSha call.commitSha ∧
        ((Ascii.bytes call.payloadCommitment).length = 64 ∧
          (Ascii.bytes call.payloadCommitment).all isAsciiHexdigit = true) ∧
        call.autoMerge = false := by
  have hempty : (Ascii.bytes call.commitSha).length = 40 → call.commitSha ≠ "" := by
    intro hlen h
    rw [h] at hlen
    cases hlen
  unfold checkCall AdapterSha
  simp only [guard_eq_ok, ne_eq, not_not, not_or, Bool.not_eq_false, Bool.not_eq_true, and_true]
  constructor
  · rintro ⟨hi, hr, he, ⟨_, hlen⟩, hhex, hpayload, hmerge⟩
    exact ⟨hi, hr, he, ⟨hlen, hhex⟩, hpayload, hmerge⟩
  · rintro ⟨hi, hr, he, ⟨hlen, hhex⟩, hpayload, hmerge⟩
    exact ⟨hi, hr, he, ⟨hempty hlen, hlen⟩, hhex, hpayload, hmerge⟩

theorem readResponse_ok {cd : Codec} {attemptDigest : Vector UInt8 32}
    {answer : Except String Response} {created : DeploymentCreated}
    (h : readResponse cd attemptDigest answer = .ok created) :
    created.attemptDigest = attemptDigest ∧
      ∃ response, answer = .ok response ∧ response.isSuccess = true := by
  cases answer with
  | error message => cases h
  | ok response =>
    cases hsuccess : response.isSuccess with
    | false =>
      rw [readResponse, hsuccess, if_neg Bool.false_ne_true] at h
      cases h
    | true =>
      rw [readResponse, hsuccess, if_pos rfl] at h
      split at h
      · obtain rfl := Except.ok.inj h
        exact ⟨rfl, response, rfl, hsuccess⟩
      · cases h

/-- A deployment is created only of a call that passed the checks, and by the answer to its
body. -/
theorem createDeployment_ok {cd : Codec} {transport : Transport} {adapter : GitHubAppAdapter}
    {call : DeploymentCall} {created : DeploymentCreated}
    (h : createDeployment cd transport adapter call = .ok created) :
    checkCall adapter.context call = .ok () ∧ created.attemptDigest = call.attemptDigest ∧
      ∃ url token response, response.isSuccess = true ∧ transport.post url token
        (deploymentRequestBody call.commitSha call.environment call.attemptDigest) =
          .ok response := by
  obtain ⟨⟨⟩, hchecked, h⟩ := bind_eq_ok.mp h
  obtain ⟨secret, _, h⟩ := bind_eq_ok.mp h
  cases hid : adapter.appId with
  | none =>
    rw [hid] at h
    cases h
  | some appId =>
    rw [hid] at h
    obtain ⟨token, _, h⟩ := bind_eq_ok.mp h
    obtain ⟨hdigest, response, hpost, hsuccess⟩ := readResponse_ok h
    exact ⟨hchecked, hdigest, _, token, response, hsuccess, hpost⟩

end Piteka.GitHub
