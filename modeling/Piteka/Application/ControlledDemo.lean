import Piteka.Application.Points
import Piteka.GitHub.AppAdapter
import Piteka.Interleaving.Layer

/-!
# The controlled demo

The binary that runs one governed deployment from end to end: it proposes and approves
a request, issues the mandate, reserves it, creates the GitHub deployment and completes
the dispatch, and then writes a journal of what the stores say. All ids come from the
repository, the commit, the environment and the run id by SHA-256.
-/
namespace Piteka.Application

set_option autoImplicit false

open Piteka.Interleaving Piteka.Storage Piteka.Domain Piteka.GitHub

/-- What the demo asks of its surroundings besides its ports. -/
inductive DemoCall where
  /-- The connection pool and the migrations. -/
  | connect (databaseUrl : String)
  | readFile (path : String)
  | webhookConfigUrl (adapter : GitHubAppAdapter) (appSecret : Array UInt8)
  | createDeployment (adapter : GitHubAppAdapter) (appSecret : Array UInt8) (call : DeploymentCall)
  /-- The journal as JSON; its layout in the file is not modelled. -/
  | writeJournal (path : String) (journal : Json)

@[reducible] def DemoAnswer : DemoCall → Type
  | .connect _ => StorageResult Unit
  | .readFile _ => Except String (Array UInt8)
  | .webhookConfigUrl _ _ => Except GitHubAppError String
  | .createDeployment _ _ _ => Except GitHubAppError DeploymentCreated
  | .writeJournal _ _ => Except String Unit

/-- What `main` ends with, before it is boxed. -/
inductive DemoError where
  | message (text : String)
  | storage (error : StorageError)
  | useCase (c : Call) (error : c.Error)
  | notDispatched (outcome : DispatchOutcome)
  | gitHub (error : GitHubAppError)
  | gitHubId (error : GitHubIdError)
  | io (message : String)
  | parseInt

abbrev LiveCall := PortCall ⊕ DemoCall

abbrev LiveAnswer := OneOf Answer DemoAnswer

abbrev DemoCase (α : Type) := ExceptT DemoError (Program LiveCall LiveAnswer) α

/-! ## Parts -/

/-- The environment of the process. -/
abbrev Env := String → Option String

def required (env : Env) (name : String) : Except DemoError String :=
  match env name with
  | some value => .ok value
  | none => .error (.message (name ++ " is required"))

/-- The hex digest of the label and the values, each value behind a bar. -/
def demoDigest (rt : Runtime) (label : String) (values : List String) : String :=
  (ContentDigest.of rt (asBytes (values.foldl (fun text value => text ++ "|" ++ value) label))).toHex

/-- `&text[..n]` of an ASCII text. -/
def firstChars (n : Nat) (text : String) : String := String.ofList (text.toList.take n)

structure DemoPlan where
  repository : String
  commitSha : String
  environment : String
  runId : String

namespace DemoPlan

variable (rt : Runtime) (plan : DemoPlan)

def intentId : String :=
  demoDigest rt "piteka-demo-intent-v1" [plan.repository, plan.commitSha, plan.environment, plan.runId]

def mandateId : String := demoDigest rt "piteka-demo-mandate-v1" [plan.intentId rt]

def requestId : String := "req-" ++ firstChars 16 (plan.intentId rt)

def reservationDigest : String := demoDigest rt "piteka-demo-reservation-v1" [plan.mandateId rt]

def correlationKey : String := "piteka:" ++ firstChars 24 (plan.mandateId rt)

def proposal : ProposeArgs where
  requestId := plan.requestId rt
  requestedBy := ⟨"demo-requester", by decide⟩
  intentIdHex := some (plan.intentId rt)

def approval : DecideArgs where
  requestId := plan.requestId rt
  approverId := ⟨"demo-approver", by decide⟩
  intentIdHex := some (plan.intentId rt)
  expectedVersion := 1

def reservation : ReserveArgs where
  requestId := plan.requestId rt
  mandateIdHex := plan.mandateId rt
  intentIdHex := plan.intentId rt
  executorIdentity := "piteka-controlled-demo"
  reservationTokenDigest := plan.reservationDigest rt
  correlationKey := plan.correlationKey rt
  expectedMandateVersion := 1

def completion (dispatched : Dispatched) (deploymentId : Option UInt64) : CompleteArgs where
  attemptIdHex := dispatched.attemptIdHex
  mandateIdHex := plan.mandateId rt
  intentIdHex := plan.intentId rt
  providerAccepted := deploymentId.isSome
  deploymentId := deploymentId
  executorIdentity := "piteka-controlled-demo"
  expectedMandateVersion := 2

def attemptDigest (dispatched : Dispatched) : Vector UInt8 32 :=
  computeAttemptDigest rt dispatched.attemptIdHex (plan.mandateId rt) (plan.intentId rt)

end DemoPlan

def readPlan (env : Env) : Except DemoError DemoPlan := do
  let repository ← required env "PITEKA_DEMO_REPOSITORY"
  if env "PITEKA_CONFIRM_LIVE_DEMO" ≠ some repository then
    .error (.message "PITEKA_CONFIRM_LIVE_DEMO must exactly match PITEKA_DEMO_REPOSITORY")
  else
    let commitSha ← required env "PITEKA_DEMO_COMMIT_SHA"
    let environment ← required env "PITEKA_DEMO_ENVIRONMENT"
    let runId ← required env "PITEKA_DEMO_RUN_ID"
    return { repository, commitSha, environment, runId }

/-- The texts of the ids that the adapter is made of. -/
structure DemoTarget where
  installationId : String
  repositoryId : String
  environmentId : String

def readTarget (env : Env) : Except DemoError DemoTarget := do
  let installationId ← required env "PITEKA_GITHUB_INSTALLATION_ID"
  let repositoryId ← required env "PITEKA_GITHUB_REPOSITORY_ID"
  let environmentId ← required env "PITEKA_GITHUB_ENVIRONMENT_ID"
  return { installationId, repositoryId, environmentId }

def demoAdapter (env : Env) (plan : DemoPlan) (target : DemoTarget) :
    Except DemoError GitHubAppAdapter := do
  let context ← (GitHubInstallationContext.new target.installationId target.repositoryId
    plan.repository target.environmentId plan.environment).mapError .gitHub
  let adapter ← (GitHubAppAdapter.new context "controlled-demo-key" "controlled-demo-webhook").mapError
    .gitHub
  let appId ← required env "PITEKA_GITHUB_APP_ID"
  match parseU64 appId with
  | none => .error .parseInt
  | some appId => return adapter.withLiveTransport appId

def demoDeployment (rt : Runtime) (plan : DemoPlan) (target : DemoTarget) (dispatched : Dispatched) :
    Except DemoError DeploymentCall := do
  let installationId ← (GitHubInstallationId.new target.installationId).mapError .gitHubId
  let repositoryId ← (GitHubRepositoryId.new target.repositoryId).mapError .gitHubId
  let environment ← (GitHubEnvironmentName.new plan.environment).mapError .gitHubId
  return {
    installationId
    repositoryId
    commitSha := plan.commitSha
    environment
    autoMerge := false
    payloadCommitment := plan.intentId rt
    attemptDigest := plan.attemptDigest rt dispatched }

/-- `format!("{state:?}").to_lowercase()` -/
def attemptStateDebugLower : ExecutionAttemptState → String
  | .prepared => "prepared"
  | .dispatching => "dispatching"
  | .accepted => "accepted"
  | .rejected => "rejected"
  | .outcomeAmbiguous => "outcomeambiguous"
  | .reconciledAccepted => "reconciledaccepted"
  | .reconciledNotAccepted => "reconcilednotaccepted"
  | .abandonedAmbiguous => "abandonedambiguous"

def demoJournal (rt : Runtime) (plan : DemoPlan) (dispatched : Dispatched)
    (created : DeploymentCreated) (mandate : MandateProjection) (attempt : ExecutionAttempt) : Json :=
  .object [
    ("schema_version", .ofNat 1),
    ("profile", .string "controlled-demo-postgres-v1"),
    ("run_id", .string plan.runId),
    ("request_id", .string (plan.requestId rt)),
    ("request_status", .string "approved"),
    ("approver", .string "demo-approver"),
    ("intent_id", .string (plan.intentId rt)),
    ("mandate_id", .string (plan.mandateId rt)),
    ("mandate_state", .string mandate.state),
    ("mandate_version", .ofInt64 mandate.version),
    ("attempt_id", .string attempt.attemptIdHex),
    ("attempt_state", .string (attemptStateDebugLower attempt.state)),
    ("attempt_digest", .string (ContentDigest.toHex ⟨plan.attemptDigest rt dispatched⟩)),
    ("github_deployment_id", .ofUInt64 created.deploymentId),
    ("github_deployment_url", .string created.url),
    ("repository", .string plan.repository),
    ("commit_sha", .string plan.commitSha),
    ("environment", .string plan.environment),
    ("limitation", .string "Demo identity is not production identity.")]

/-! ## The program -/

/-- A pure step with `?`. -/
def fromResult {α : Type} (r : Except DemoError α) : DemoCase α := ExceptT.mk (.ret r)

/-- A use case with `.await?`. -/
def runUseCase (rt : Runtime) (c : Call) : DemoCase c.Value :=
  ExceptT.mk ((c.program rt).lift.bind fun r => .ret (r.mapError (.useCase c)))

/-- A store call with `.await?`. -/
def demoAwait (c : StoreCall) : DemoCase c.Ok :=
  ExceptT.mk (.call (.inl (.store c)) fun a => .ret (a.mapError .storage))

/-- A call whose answer the demo handles itself. -/
def demoAsk (c : DemoCall) : DemoCase (DemoAnswer c) :=
  ExceptT.mk (.call (.inr c) fun a => .ret (.ok a))

/-- The request is proposed and approved, and the mandate issued. -/
def authorizeDemo (rt : Runtime) (plan : DemoPlan) : DemoCase Unit := do
  let _ ← runUseCase rt (.propose (plan.proposal rt))
  let _ ← runUseCase rt (.approve (plan.approval rt))
  demoAwait (.mandates (.insert (plan.mandateId rt) "issued"))

def reserveDemo (rt : Runtime) (plan : DemoPlan) : DemoCase Dispatched := do
  match ← runUseCase rt (.reserve (plan.reservation rt)) with
  | .dispatched value => return value
  | other => throw (.notDispatched other)

/-- The url is printed when the environment asks for it. -/
def printWebhookUrl (env : Env) (adapter : GitHubAppAdapter) (key : Array UInt8) : DemoCase Unit :=
  if env "PITEKA_PRINT_WEBHOOK_URL" = some "1" then do
    let url ← demoAsk (.webhookConfigUrl adapter key)
    let _ ← fromResult (url.mapError .gitHub)
    return ()
  else return ()

/-- The key, the adapter and the call, up to the request to GitHub. -/
def deployDemo (rt : Runtime) (env : Env) (plan : DemoPlan) (dispatched : Dispatched) :
    DemoCase (Except GitHubAppError DeploymentCreated) := do
  let keyFile ← fromResult (required env "PITEKA_GITHUB_APP_PRIVATE_KEY_FILE")
  let key ← demoAsk (.readFile keyFile)
  let key ← fromResult (key.mapError .io)
  let target ← fromResult (readTarget env)
  let adapter ← fromResult (demoAdapter env plan target)
  printWebhookUrl env adapter key
  let call ← fromResult (demoDeployment rt plan target dispatched)
  demoAsk (.createDeployment adapter key call)

/-- The stores are read back and the journal is written. -/
def reportDemo (rt : Runtime) (env : Env) (plan : DemoPlan) (dispatched : Dispatched)
    (created : DeploymentCreated) : DemoCase Unit := do
  match ← demoAwait (.mandates (.get (plan.mandateId rt))) with
  | none => throw (.message "mandate disappeared")
  | some mandate =>
    match ← demoAwait (.attempts (.get dispatched.attemptIdHex)) with
    | none => throw (.message "attempt disappeared")
    | some attempt =>
      let path ← fromResult (required env "PITEKA_DEMO_JOURNAL")
      let written ← demoAsk (.writeJournal path (demoJournal rt plan dispatched created mandate attempt))
      fromResult (written.mapError .io)

/-- `main` of the controlled demo. -/
def controlledDemo (rt : Runtime) (env : Env) : DemoCase Unit := do
  let plan ← fromResult (readPlan env)
  let databaseUrl ← fromResult (required env "DATABASE_URL")
  let connected ← demoAsk (.connect databaseUrl)
  fromResult (connected.mapError .storage)
  authorizeDemo rt plan
  let dispatched ← reserveDemo rt plan
  match ← deployDemo rt env plan dispatched with
  | .ok created =>
    runUseCase rt (.completeDispatch (plan.completion rt dispatched (some created.deploymentId)))
    reportDemo rt env plan dispatched created
  | .error error =>
    runUseCase rt (.completeDispatch (plan.completion rt dispatched none))
    throw (.gitHub error)

end Piteka.Application
