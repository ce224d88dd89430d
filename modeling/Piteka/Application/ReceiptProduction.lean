import Piteka.Application.Dispatch
import Piteka.Storage.Json

/-!
# Receipt production

The processor of a webhook: it parses a `deployment_status` payload, finds the
attempt that records the deployment, writes the evidence nodes of the reported
outcome and then the receipt. A failure on the way ends the production; the
processor only notes it in the audit log.
-/
namespace Piteka.Application

set_option autoImplicit false

open Piteka.Interleaving Piteka.Storage

inductive ReceiptProductionError where
  | storage (error : StorageError)
  | attemptNotFound (id : String)
  deriving DecidableEq

instance : FromStorageError ReceiptProductionError := ⟨.storage⟩

def ReceiptProductionError.display : ReceiptProductionError → String
  | .storage err => "storage error: " ++ err.display
  | .attemptNotFound id => "execution attempt `" ++ id ++ "` not found"

/-- A failure resolving a GitHub secret. -/
inductive GitHubSecretError where
  | unknownReference (reference : String)
  | storeUnavailable (source : String)
  | emptySecret
  deriving DecidableEq

def GitHubSecretError.display : GitHubSecretError → String
  | .unknownReference reference => "unknown secret reference: " ++ reference
  | .storeUnavailable source => "secret store unavailable: " ++ source
  | .emptySecret => "resolved secret was empty"

inductive WebhookError where
  | verificationFailed
  | secretResolution (error : GitHubSecretError)
  | storage (error : StorageError)
  | malformed (message : String)
  | unsupportedEventType (eventType : String)
  deriving DecidableEq

instance : FromStorageError WebhookError := ⟨.storage⟩

def WebhookError.display : WebhookError → String
  | .verificationFailed => "webhook signature verification failed"
  | .secretResolution err => "webhook secret resolution failed: " ++ err.display
  | .storage err => "storage error: " ++ err.display
  | .malformed message => "malformed webhook: " ++ message
  | .unsupportedEventType eventType => "unsupported event type: " ++ eventType

/-! ## Deployment status -/

structure DeploymentStatusEvent where
  deploymentId : UInt64
  state : String
  description : Option String
  targetUrl : Option String
  updatedAt : UInt64
  deriving DecidableEq

/-- `u64::try_from` on an `i64` -/
def tryFromInt64 (n : Int64) : Option UInt64 := if n < 0 then none else some n.toUInt64

/-- A numeric time is taken as it is, a text is read as RFC 3339; a negative time is refused. -/
def parseUpdatedAt (cd : Codec) (value : Json) : Option UInt64 :=
  match value.asU64 with
  | some n => some n
  | none =>
    match value.asI64 with
    | some n => tryFromInt64 n
    | none => do
      let text ← value.asStr
      let time ← cd.parseFromRfc3339 text
      tryFromInt64 time

/-- The fields of the status are nested under `deployment_status`, or are those of the
payload itself. -/
def parseDeploymentStatus (cd : Codec) (payload : Array UInt8) : Option DeploymentStatusEvent := do
  let value ← cd.fromSlice payload
  let deployment ← value.get "deployment"
  let id ← deployment.get "id"
  let deploymentId ← id.asU64
  let status := (value.get "deployment_status").getD value
  let stateValue ← status.get "state"
  let state ← stateValue.asStr
  let description := (status.get "description").bind Json.asStr
  let targetUrl := (status.get "target_url").bind Json.asStr
  let updatedAtValue ← status.get "updated_at"
  let updatedAt ← parseUpdatedAt cd updatedAtValue
  return { deploymentId, state, description, targetUrl, updatedAt }

/-- Lower case as far as it matters here: no letter outside ASCII lowers to a text of the table. -/
def toLowercase (text : String) : String := String.ofList (text.toList.map Char.toLower)

def mapGithubStateToOutcome (githubState : String) : ReceiptOutcome :=
  match toLowercase githubState with
  | "success" => .succeeded
  | "failure" | "error" => .failed
  | "inactive" | "pending" | "queued" => .unknown
  | _ => .unknown

def outcomeAsStr : ReceiptOutcome → String
  | .succeeded => "succeeded"
  | .failed => "failed"
  | .rejected => "rejected"
  | .unknown => "unknown"

/-! ## Evidence nodes -/

/-- The text that names a source, in the hashed node ids as in the exported JSON. -/
def sourceText : EvidenceSource → String
  | .piteka => "piteka"
  | .provider name => name
  | .verifier => "verifier"

/-- What the hasher of a node id is fed, one part after the other. -/
def nodePreimage (source : EvidenceSource) (mandateId attemptId evidenceType extra : String) :
    String :=
  sourceText source ++ mandateId ++ "|" ++ attemptId ++ "|" ++ evidenceType ++ "|" ++ extra

def computeEvidenceNodeId (rt : Runtime) (source : EvidenceSource)
    (mandateId attemptId evidenceType extra : String) : ContentDigest :=
  .of rt (asBytes (nodePreimage source mandateId attemptId evidenceType extra))

def observationPayload (event : DeploymentStatusEvent) : Json :=
  .object [
    ("deployment_id", .ofUInt64 event.deploymentId),
    ("state", .string event.state),
    ("description", .ofOption .string event.description),
    ("target_url", .ofOption .string event.targetUrl),
    ("updated_at", .ofUInt64 event.updatedAt)]

def createObservationNode (cd : Codec) (mandateId attemptId : String)
    (event : DeploymentStatusEvent) (collectedAt : Int64) : EvidenceNodeRecord where
  nodeIdHex := "ev-" ++ (computeEvidenceNodeId cd.toRuntime (.provider "github") mandateId attemptId
    "deployment_status" event.state).toHex
  registryId := "org.diewan.evidence.observation.v1"
  source := .provider "github"
  producerIdentity := "github"
  collectedAtUnixSeconds := collectedAt
  assertedEventAtUnixSeconds := some event.updatedAt.toInt64
  contentDigest := .of cd.toRuntime (cd.toVec (observationPayload event))
  mediaType := "application/github-deployment-status+json"
  disclosureClassification := "disclosed"
  relationships := []

def claimPayload (outcome : ReceiptOutcome) : Json :=
  .object [("outcome", .string (outcomeAsStr outcome)), ("claimed_by", .string "piteka")]

def createClaimNode (cd : Codec) (mandateId attemptId : String) (outcome : ReceiptOutcome)
    (collectedAt : Int64) : EvidenceNodeRecord where
  nodeIdHex := "ev-" ++ (computeEvidenceNodeId cd.toRuntime .piteka mandateId attemptId
    "outcome_claim" (outcomeAsStr outcome)).toHex
  registryId := "org.diewan.evidence.claim.v1"
  source := .piteka
  producerIdentity := "piteka"
  collectedAtUnixSeconds := collectedAt
  assertedEventAtUnixSeconds := none
  contentDigest := .of cd.toRuntime (cd.toVec (claimPayload outcome))
  mediaType := "application/piteka-outcome-claim+json"
  disclosureClassification := "disclosed"
  relationships := []

def gapPreimage (mandateId attemptId missingClass reason : String) : String :=
  mandateId ++ "|" ++ attemptId ++ "|" ++ "evidence_gap" ++ "|" ++ missingClass ++ "|" ++ reason

def createGapNode (cd : Codec) (mandateId attemptId missingClass reason : String)
    (collectedAt : Int64) : EvidenceNodeRecord where
  nodeIdHex := "ev-" ++ (ContentDigest.of cd.toRuntime
    (asBytes (gapPreimage mandateId attemptId missingClass reason))).toHex
  registryId := "org.diewan.evidence.gap.v1"
  source := .piteka
  producerIdentity := "piteka"
  collectedAtUnixSeconds := collectedAt
  assertedEventAtUnixSeconds := none
  contentDigest := .of cd.toRuntime (asBytes reason)
  mediaType := "text/plain"
  disclosureClassification := "disclosed"
  relationships := []

/-! ## Receipts -/

structure ReceiptProductionResult where
  receiptIdHex : String
  outcome : ReceiptOutcome
  evidenceNodeIds : List String
  evidenceGaps : List String
  deriving DecidableEq

namespace DeploymentStatusEvent

variable (cd : Codec) (event : DeploymentStatusEvent) (attempt : ExecutionAttempt) (now : Int64)

def outcome : ReceiptOutcome := mapGithubStateToOutcome event.state

def observationNode : EvidenceNodeRecord :=
  createObservationNode cd attempt.mandateIdHex attempt.attemptIdHex event now

def claimNode : EvidenceNodeRecord :=
  createClaimNode cd attempt.mandateIdHex attempt.attemptIdHex event.outcome now

def gapNode : EvidenceNodeRecord :=
  createGapNode cd attempt.mandateIdHex attempt.attemptIdHex "target_outcome"
    "GitHub deployment status is pending/inactive; outcome cannot be determined" now

def evidenceGaps : List String :=
  if event.outcome = .unknown then [(gapNode cd attempt now).nodeIdHex] else []

def receipt : ReceiptProjection where
  receiptIdHex := "rcpt-" ++ attempt.attemptIdHex
  mandateIdHex := attempt.mandateIdHex
  intentIdHex := attempt.intentIdHex
  attemptIdHex := attempt.attemptIdHex
  outcome := event.outcome
  createdAtUnixSeconds := now
  dispatchEvidenceRefs := [(event.claimNode cd attempt now).nodeIdHex]
  targetEvidenceRefs := [(event.observationNode cd attempt now).nodeIdHex]
  evidenceGaps := event.evidenceGaps cd attempt now
  canonicalBytes := none

def producedEvent : AuditEvent where
  occurredAtUnixSeconds := now
  actor := none
  action := "receipt.produced"
  decision := outcomeAsStr event.outcome
  detail := "receipt=" ++ ("rcpt-" ++ attempt.attemptIdHex) ++ " mandate=" ++
    attempt.mandateIdHex ++ " attempt=" ++ attempt.attemptIdHex ++ " github_state=" ++
    event.state ++ " outcome=" ++ outcomeAsStr event.outcome

def result : ReceiptProductionResult where
  receiptIdHex := "rcpt-" ++ attempt.attemptIdHex
  outcome := event.outcome
  evidenceNodeIds := [(event.observationNode cd attempt now).nodeIdHex,
    (event.claimNode cd attempt now).nodeIdHex]
  evidenceGaps := event.evidenceGaps cd attempt now

end DeploymentStatusEvent

/-- The gap node of an outcome that the status leaves open. -/
def storeGap (cd : Codec) (event : DeploymentStatusEvent) (attempt : ExecutionAttempt)
    (now : Int64) : UseCase ReceiptProductionError Unit :=
  if event.outcome = .unknown then
    await (.evidenceNodes (.insert (DeploymentStatusEvent.gapNode cd attempt now)))
  else return ()

def produceReceiptFromWebhook (cd : Codec) (event : DeploymentStatusEvent) :
    UseCase ReceiptProductionError ReceiptProductionResult := do
  let now ← nowSeconds
  match ← await (.attempts (.byDeploymentId event.deploymentId)) with
  | none =>
    throw (.attemptNotFound
      ("no attempt found for deployment_id=" ++ toString event.deploymentId.toNat))
  | some attempt =>
    storeGap cd event attempt now
    await (.evidenceNodes (.insert (event.observationNode cd attempt now)))
    await (.evidenceNodes (.insert (event.claimNode cd attempt now)))
    await (.receipts (.insert (event.receipt cd attempt now)))
    await (.audit (.append (event.producedEvent attempt now)))
    return event.result cd attempt now

/-! ## The processor -/

/-- What the processor notes about a delivery, at the time `now`. -/
def noted (now : Int64) (action decision detail : String) : AuditEvent where
  occurredAtUnixSeconds := now
  actor := none
  action := action
  decision := decision
  detail := detail

/-- The processor's note on how the production went. -/
def productionNote (deliveryId : String) (event : DeploymentStatusEvent) (now : Int64) :
    Except ReceiptProductionError ReceiptProductionResult → AuditEvent
  | .ok result =>
    noted now "webhook.receipt_produced" (outcomeAsStr result.outcome)
      ("delivery_id=" ++ deliveryId ++ " receipt=" ++ result.receiptIdHex ++ " outcome=" ++
        outcomeAsStr result.outcome ++ " evidence_nodes=" ++
        toString result.evidenceNodeIds.length ++ " gaps=" ++ toString result.evidenceGaps.length)
  | .error (.attemptNotFound _) =>
    noted now "webhook.attempt_not_found" "skipped"
      ("delivery_id=" ++ deliveryId ++ " deployment_id=" ++ toString event.deploymentId.toNat ++
        " no matching attempt")
  | .error (.storage err) =>
    noted now "webhook.receipt_production_error" "error"
      ("delivery_id=" ++ deliveryId ++ " error=" ++ (ReceiptProductionError.storage err).display)

/-- The states that end a deployment. -/
def isTerminalStatus (state : String) : Bool :=
  state == "success" || state == "failure" || state == "error"

def deferredNote (deliveryId : String) (event : DeploymentStatusEvent) (now : Int64) : AuditEvent :=
  noted now "webhook.status_non_terminal" "deferred"
    ("delivery_id=" ++ deliveryId ++ " deployment_id=" ++ toString event.deploymentId.toNat ++
      " state=" ++ event.state)

/-- An audit event whose failure is dropped. -/
def appendIgnored {ε : Type} (event : AuditEvent) : UseCase ε Unit := do
  let _ ← ask (.store (.audit (.append event)))
  return ()

/-- `ReceiptProducingProcessor::process`; the annotation `out_of_order` is not used. -/
def process (cd : Codec) (eventType : String) (payload : Array UInt8) (deliveryId : String)
    (_outOfOrder : Bool) : UseCase WebhookError Unit :=
  if eventType ≠ "deployment_status" then throw (.unsupportedEventType eventType)
  else
    match parseDeploymentStatus cd payload with
    | none => throw (.malformed "invalid deployment_status payload")
    | some event =>
      if isTerminalStatus event.state then do
        let produced ← caught (produceReceiptFromWebhook cd event)
        let now ← nowSeconds
        appendIgnored (productionNote deliveryId event now produced)
      else do
        let now ← nowSeconds
        await (.audit (.append (deferredNote deliveryId event now)))

end Piteka.Application
