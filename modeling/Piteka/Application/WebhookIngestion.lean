import Piteka.Application.ReceiptProduction
import Piteka.Domain.Identity
import Piteka.Interleaving.Layer

/-!
# Webhook ingestion

The pipeline of a verified webhook: `ingest` refuses what it cannot read, records
the delivery id, notes the provider's event time and writes an audit event;
`dispatch` hands a new delivery to the processor. The tracker of event times is
kept in memory by the use case, beside the stores.
-/
namespace Piteka.Application

set_option autoImplicit false

open Piteka.Interleaving Piteka.Storage Piteka.Domain

/-! ## The tracker -/

/-- The newest provider timestamp of each deployment. -/
structure LastReceivedTracker where
  latestEventAt : AList (fun _ : UInt64 => UInt64)

namespace LastReceivedTracker

def empty : LastReceivedTracker := ⟨∅⟩

/-- Whether the event is older than the newest one seen, which is then the newer of the two. -/
def record (t : LastReceivedTracker) (deploymentId eventAt : UInt64) :
    Bool × LastReceivedTracker :=
  match t.latestEventAt.lookup deploymentId with
  | none => (false, ⟨t.latestEventAt.insert deploymentId eventAt⟩)
  | some latest =>
    (eventAt < latest, ⟨t.latestEventAt.insert deploymentId (max latest eventAt)⟩)

end LastReceivedTracker

inductive TrackerCall where
  | record (deploymentId eventAt : UInt64)

@[reducible] def TrackerAnswer : TrackerCall → Type
  | .record _ _ => Bool

/-- The tracker is locked for the whole of a call. -/
def TrackerExec (t : LastReceivedTracker) :
    (op : TrackerCall) → TrackerAnswer op → LastReceivedTracker → Prop
  | .record deploymentId eventAt, outOfOrder, t' => t.record deploymentId eventAt = (outOfOrder, t')

/-! ## Use cases with a tracker -/

abbrev ServiceCall := PortCall ⊕ TrackerCall

abbrev ServiceAnswer := OneOf Answer TrackerAnswer

/-- The stores and the tracker of one running service. -/
abbrev Service := Stores × LastReceivedTracker

abbrev ServiceCase (ε α : Type) := ExceptT ε (Program ServiceCall ServiceAnswer) α

abbrev ServiceExec (rt : Runtime) (faults : StoreCall → Prop) :
    Service → (op : ServiceCall) → ServiceAnswer op → Service → Prop :=
  Both (Exec rt faults) TrackerExec

/-- The part of a use case that calls stores, clock and provider. -/
def onPorts {ε α : Type} (p : UseCase ε α) : ServiceCase ε α := Program.liftT p

def track {ε : Type} (event : DeploymentStatusEvent) : ServiceCase ε Bool :=
  ExceptT.mk (.call (.inr (.record event.deploymentId event.updatedAt)) fun b => .ret (.ok b))

/-! ## Ingestion -/

structure GitHubWebhookPayload where
  deliveryId : String
  eventType : String
  signature : String
  body : Array UInt8
  deriving DecidableEq

inductive IngestionOutcome where
  | duplicate
  | processed (outOfOrder : Bool) (rawDigest : ContentDigest)
  deriving DecidableEq

namespace GitHubWebhookPayload

def rawDigest (rt : Runtime) (x : GitHubWebhookPayload) : ContentDigest := .of rt x.body

def receipt (rt : Runtime) (x : GitHubWebhookPayload) (now : Int64) : WebhookReceipt where
  deliveryId := x.deliveryId
  source := "github"
  rawDigest := x.rawDigest rt
  receivedAtUnixSeconds := now

def ingestedEvent (x : GitHubWebhookPayload) (outOfOrder : Bool) (now : Int64) : AuditEvent :=
  noted now (if outOfOrder then "webhook.ingested.out_of_order" else "webhook.ingested") "accepted"
    ("delivery_id=" ++ x.deliveryId ++ " event_type=" ++ x.eventType ++ " out_of_order=" ++
      if outOfOrder then "true" else "false")

end GitHubWebhookPayload

namespace WebhookIngestion

/-- The status that a payload reports, if it is one that the pipeline takes. -/
def accepted (cd : Codec) (x : GitHubWebhookPayload) : Except WebhookError DeploymentStatusEvent :=
  if trimIsEmpty x.deliveryId then .error (.malformed "delivery ID is empty")
  else if x.eventType ≠ "deployment_status" then .error (.unsupportedEventType x.eventType)
  else
    match parseDeploymentStatus cd x.body with
    | none => .error (.malformed "invalid deployment_status payload")
    | some event => .ok event

/-- The check for a replay and the record of the receipt; either can find a duplicate. -/
def recordDelivery (rt : Runtime) (x : GitHubWebhookPayload) :
    UseCase WebhookError WebhookRecordOutcome := do
  match ← await (.webhookReceipts (.get x.deliveryId)) with
  | some _ => return .duplicate
  | none =>
    let now ← nowSeconds
    await (.webhookReceipts (.record (x.receipt rt now)))

def auditIngestion (x : GitHubWebhookPayload) (outOfOrder : Bool) : UseCase WebhookError Unit := do
  let now ← nowSeconds
  await (.audit (.append (x.ingestedEvent outOfOrder now)))

/-- `WebhookIngestionUseCase::ingest` -/
def ingest (cd : Codec) (x : GitHubWebhookPayload) : ServiceCase WebhookError IngestionOutcome :=
  match accepted cd x with
  | .error err => throw err
  | .ok event => do
    match ← onPorts (recordDelivery cd.toRuntime x) with
    | .duplicate => return .duplicate
    | .recorded =>
      let outOfOrder ← track event
      onPorts (auditIngestion x outOfOrder)
      return .processed outOfOrder (x.rawDigest cd.toRuntime)

/-! ## Dispatch -/

/-- `process` of a processor: event type, payload, delivery id and the annotation. -/
abbrev EventProcessor := String → Array UInt8 → String → Bool → UseCase WebhookError Unit

/-- The note that `dispatch` leaves about the processor's result. -/
def processedNote (x : GitHubWebhookPayload) (now : Int64) : Except WebhookError Unit → AuditEvent
  | .ok () =>
    noted now "webhook.processed" "success"
      ("delivery_id=" ++ x.deliveryId ++ " event_type=" ++ x.eventType)
  | .error err =>
    noted now "webhook.process_error" "error"
      ("delivery_id=" ++ x.deliveryId ++ " event_type=" ++ x.eventType ++ " error=" ++ err.display)

/-- `WebhookIngestionUseCase::dispatch`; it returns nothing and does not fail. -/
def dispatch (processor : EventProcessor) (x : GitHubWebhookPayload) (outOfOrder : Bool) :
    UseCase Empty Unit := do
  let processed ← caught (processor x.eventType x.body x.deliveryId outOfOrder)
  let now ← nowSeconds
  appendIgnored (processedNote x now processed)

end WebhookIngestion

/-! ## The handler -/

/-- The API errors that the handler answers with once a payload is verified. -/
inductive ApiError where
  | badRequest (code message : String)
  | internal (message : String)
  deriving DecidableEq

structure WebhookResponse where
  deliveryId : String
  outcome : String
  outOfOrder : Option Bool
  rawDigestHex : Option String
  deriving DecidableEq

namespace WebhookResponse

def duplicate (deliveryId : String) : WebhookResponse := ⟨deliveryId, "duplicate", none, none⟩

def processed (deliveryId : String) (outOfOrder : Bool) (rawDigestHex : String) : WebhookResponse :=
  ⟨deliveryId, "processed", some outOfOrder, some rawDigestHex⟩

end WebhookResponse

/-- `handle_webhook` from its step 4 on: the signature is valid and the event is no `ping`. -/
def handleWebhook (cd : Codec) (processor : WebhookIngestion.EventProcessor)
    (x : GitHubWebhookPayload) :
    Program ServiceCall ServiceAnswer (Except ApiError WebhookResponse) := do
  match ← (WebhookIngestion.ingest cd x).run with
  | .error (.malformed message) => return .error (.badRequest "MALFORMED_WEBHOOK" message)
  | .error (.unsupportedEventType _) =>
    return .error
      (.badRequest "UNSUPPORTED_EVENT_TYPE" "The GitHub event type is not supported")
  | .error _ => return .error (.internal "Webhook ingestion failed")
  | .ok .duplicate => return .ok (.duplicate x.deliveryId)
  | .ok (.processed outOfOrder rawDigest) =>
    let _ ← (WebhookIngestion.dispatch processor x outOfOrder).run.lift
    return .ok (.processed x.deliveryId outOfOrder rawDigest.toHex)

end Piteka.Application
