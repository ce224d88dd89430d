import Piteka.Storage.Model
import Piteka.Table.Keyed

/-!
# In-memory stores

The in-memory adapters, method by method. A method takes the store and returns
its answer with the store after the call; each method holds its lock from start
to end, so it is one atomic step. Where a method walks a hash map, the order of
the walk is an argument.
-/
namespace Piteka.Storage

set_option autoImplicit false

open Piteka.Table

structure InMemoryProtocolObjectStore where
  objects : Keyed String ProtocolObjectRecord (·.objectIdHex)

namespace InMemoryProtocolObjectStore

def put (s : InMemoryProtocolObjectStore) (record : ProtocolObjectRecord) :
    StorageResult Unit × InMemoryProtocolObjectStore :=
  if record.objectIdHex = "" then (.error (.emptyField "object_id_hex"), s)
  else match s.objects.get record.objectIdHex with
    | some existing =>
      if existing.bytes = record.bytes then (.ok (), s)
      else (.error (.immutableViolation record.objectIdHex), s)
    | none => (.ok (), ⟨s.objects.insert record⟩)

def get (s : InMemoryProtocolObjectStore) (objectIdHex : String) :
    StorageResult (Option ProtocolObjectRecord) :=
  .ok (s.objects.get objectIdHex)

end InMemoryProtocolObjectStore

structure InMemoryMandateProjectionStore where
  projections : Keyed String MandateProjection (·.mandateIdHex)

namespace InMemoryMandateProjectionStore

def insert (s : InMemoryMandateProjectionStore) (mandateIdHex state : String) :
    StorageResult Unit × InMemoryMandateProjectionStore :=
  if mandateIdHex = "" then (.error (.emptyField "mandate_id_hex"), s)
  else match s.projections.get mandateIdHex with
    | some _ =>
      (.error (.backend ("mandate projection `" ++ mandateIdHex ++ "` already exists")), s)
    | none => (.ok (), ⟨s.projections.insert ⟨mandateIdHex, 1, state⟩⟩)

def get (s : InMemoryMandateProjectionStore) (mandateIdHex : String) :
    StorageResult (Option MandateProjection) :=
  .ok (s.projections.get mandateIdHex)

def compareAndSwap (s : InMemoryMandateProjectionStore) (mandateIdHex : String)
    (expectedVersion : Int64) (newState : String) :
    StorageResult CasOutcome × InMemoryMandateProjectionStore :=
  match s.projections.get mandateIdHex with
  | none => (.ok .missing, s)
  | some projection =>
    if projection.version ≠ expectedVersion then (.ok (.conflict projection.version), s)
    else (.ok (.applied (projection.version + 1)),
      ⟨s.projections.modify mandateIdHex
        (fun p => { p with version := p.version + 1, state := newState }) fun _ => rfl⟩)

end InMemoryMandateProjectionStore

structure InMemoryWebhookReceiptStore where
  receipts : Keyed String WebhookReceipt (·.deliveryId)

namespace InMemoryWebhookReceiptStore

def record (s : InMemoryWebhookReceiptStore) (receipt : WebhookReceipt) :
    StorageResult WebhookRecordOutcome × InMemoryWebhookReceiptStore :=
  if receipt.deliveryId = "" then (.error (.emptyField "delivery_id"), s)
  else match s.receipts.get receipt.deliveryId with
    | some _ => (.ok .duplicate, s)
    | none => (.ok .recorded, ⟨s.receipts.insert receipt⟩)

def get (s : InMemoryWebhookReceiptStore) (deliveryId : String) :
    StorageResult (Option WebhookReceipt) :=
  .ok (s.receipts.get deliveryId)

end InMemoryWebhookReceiptStore

structure InMemoryEvidenceStore where
  blobs : AList (fun _ : Vector UInt8 32 => Array UInt8)
  descriptors : AList (fun _ : Vector UInt8 32 => EvidenceDescriptor)

namespace InMemoryEvidenceStore

def put (rt : Runtime) (s : InMemoryEvidenceStore) (bytes : Array UInt8) :
    StorageResult ContentDigest × InMemoryEvidenceStore :=
  let digest := ContentDigest.of rt bytes
  match s.blobs.lookup digest.bytes with
  | some _ => (.ok digest, s)
  | none => (.ok digest, { s with blobs := s.blobs.insert digest.bytes bytes })

def get (rt : Runtime) (s : InMemoryEvidenceStore) (digest : ContentDigest) :
    StorageResult (Option (Array UInt8)) :=
  match s.blobs.lookup digest.bytes with
  | none => .ok none
  | some bytes =>
    let found := ContentDigest.of rt bytes
    if found ≠ digest then .error (.evidenceDigestMismatch digest found) else .ok (some bytes)

def putDescriptor (s : InMemoryEvidenceStore) (descriptor : EvidenceDescriptor) :
    StorageResult Unit × InMemoryEvidenceStore :=
  (.ok (), { s with descriptors := s.descriptors.insert descriptor.digest.bytes descriptor })

end InMemoryEvidenceStore

/-- Prefixes used to index evidence nodes by mandate. -/
def mandatePrefixes : List String := ["mand-"]

structure InMemoryEvidenceNodeStore where
  nodes : Keyed String EvidenceNodeRecord (·.nodeIdHex)
  byMandateIndex : AList (fun _ : String => List String)

namespace InMemoryEvidenceNodeStore

def insert (s : InMemoryEvidenceNodeStore) (node : EvidenceNodeRecord) :
    StorageResult Unit × InMemoryEvidenceNodeStore :=
  if node.nodeIdHex = "" then (.error (.emptyField "node_id_hex"), s)
  else match s.nodes.get node.nodeIdHex with
    | some _ => (.error (.backend ("evidence node `" ++ node.nodeIdHex ++ "` already exists")), s)
    | none =>
      (.ok (), {
        nodes := s.nodes.insert node
        byMandateIndex :=
          match mandatePrefixes.find? (fun p => p.toList.isPrefixOf node.nodeIdHex.toList) with
          | none => s.byMandateIndex
          | some p => s.byMandateIndex.insert p
              ((s.byMandateIndex.lookup p).getD [] ++ [node.nodeIdHex]) })

def get (s : InMemoryEvidenceNodeStore) (nodeIdHex : String) :
    StorageResult (Option EvidenceNodeRecord) :=
  .ok (s.nodes.get nodeIdHex)

def byMandate (s : InMemoryEvidenceNodeStore)
    (order : List EvidenceNodeRecord → List EvidenceNodeRecord) (mandateIdHex : String) :
    StorageResult (List EvidenceNodeRecord) :=
  if mandateIdHex = "" then .ok (order s.nodes.values)
  else .ok (((s.byMandateIndex.lookup mandateIdHex).getD []).filterMap s.nodes.get)

end InMemoryEvidenceNodeStore

structure InMemoryAuditLog where
  events : List AuditEvent

namespace InMemoryAuditLog

def append (s : InMemoryAuditLog) (event : AuditEvent) : StorageResult Unit × InMemoryAuditLog :=
  (.ok (), ⟨s.events ++ [event]⟩)

def recent (s : InMemoryAuditLog) (limit : Nat) : StorageResult (List AuditEvent) :=
  .ok (s.events.drop (s.events.length - limit))

end InMemoryAuditLog

structure InMemoryActionRequestStore where
  requests : Keyed String ActionRequest (·.requestId)
  versions : AList (fun _ : String => Int64)

namespace InMemoryActionRequestStore

def insert (s : InMemoryActionRequestStore) (request : ActionRequest) :
    StorageResult Unit × InMemoryActionRequestStore :=
  if request.requestId = "" then (.error (.emptyField "request_id"), s)
  else match s.requests.get request.requestId with
    | some _ =>
      (.error (.backend ("action request `" ++ request.requestId ++ "` already exists")), s)
    | none => (.ok (), { s with requests := s.requests.insert request })

def get (s : InMemoryActionRequestStore) (requestId : String) :
    StorageResult (Option ActionRequest) :=
  .ok (s.requests.get requestId)

def list (s : InMemoryActionRequestStore) (order : List ActionRequest → List ActionRequest) :
    StorageResult (List ActionRequest) :=
  .ok (order s.requests.values)

/-- The versions live in a second map that is filled at the first swap of a request. -/
def currentVersion (s : InMemoryActionRequestStore) (requestId : String) : Int64 :=
  (s.versions.lookup requestId).getD 1

def compareAndSwap (s : InMemoryActionRequestStore) (requestId : String)
    (expectedVersion : Int64) (newStatus : ActionRequestStatus) :
    StorageResult CasOutcome × InMemoryActionRequestStore :=
  match s.requests.get requestId with
  | none => (.ok .missing, s)
  | some _ =>
    if s.currentVersion requestId ≠ expectedVersion then
      (.ok (.conflict (s.currentVersion requestId)), s)
    else
      (.ok (.applied (s.currentVersion requestId + 1)), {
        requests := s.requests.modify requestId (fun r => { r with status := newStatus })
          fun _ => rfl
        versions := s.versions.insert requestId (s.currentVersion requestId + 1) })

end InMemoryActionRequestStore

/-- The insertion shared by the three indexed stores: a non-empty fresh key is required. -/
def insertIndexed {V : Type} {key group : V → String} (field what : String)
    (t : Indexed String String V key group) (v : V) :
    StorageResult Unit × Indexed String String V key group :=
  if key v = "" then (.error (.emptyField field), t)
  else if fresh : t.get (key v) = none then (.ok (), t.insertNew v fresh)
  else (.error (.backend (what ++ " `" ++ key v ++ "` already exists")), t)

structure InMemoryApprovalDecisionStore where
  decisions : Indexed String String ApprovalDecision (·.decisionId) (·.requestId)

namespace InMemoryApprovalDecisionStore

def insert (s : InMemoryApprovalDecisionStore) (decision : ApprovalDecision) :
    StorageResult Unit × InMemoryApprovalDecisionStore :=
  let r := insertIndexed "decision_id" "approval decision" s.decisions decision
  (r.1, ⟨r.2⟩)

def get (s : InMemoryApprovalDecisionStore) (decisionId : String) :
    StorageResult (Option ApprovalDecision) :=
  .ok (s.decisions.get decisionId)

def byRequest (s : InMemoryApprovalDecisionStore) (requestId : String) :
    StorageResult (List ApprovalDecision) :=
  .ok (s.decisions.byGroup requestId)

end InMemoryApprovalDecisionStore

structure InMemoryExecutionAttemptStore where
  attempts : Indexed String String ExecutionAttempt (·.attemptIdHex) (·.mandateIdHex)

namespace InMemoryExecutionAttemptStore

def insert (s : InMemoryExecutionAttemptStore) (attempt : ExecutionAttempt) :
    StorageResult Unit × InMemoryExecutionAttemptStore :=
  let r := insertIndexed "attempt_id_hex" "execution attempt" s.attempts attempt
  (r.1, ⟨r.2⟩)

def get (s : InMemoryExecutionAttemptStore) (attemptIdHex : String) :
    StorageResult (Option ExecutionAttempt) :=
  .ok (s.attempts.get attemptIdHex)

def notFound (attemptIdHex : String) : StorageError :=
  .backend ("execution attempt `" ++ attemptIdHex ++ "` not found")

def updateState (s : InMemoryExecutionAttemptStore) (attemptIdHex : String)
    (newState : ExecutionAttemptState) : StorageResult Unit × InMemoryExecutionAttemptStore :=
  match s.attempts.get attemptIdHex with
  | none => (.error (notFound attemptIdHex), s)
  | some _ =>
    (.ok (), ⟨s.attempts.modify attemptIdHex (fun a => { a with state := newState })
      (fun _ => rfl) fun _ => rfl⟩)

def updateDeploymentId (s : InMemoryExecutionAttemptStore) (attemptIdHex : String)
    (deploymentId : UInt64) : StorageResult Unit × InMemoryExecutionAttemptStore :=
  match s.attempts.get attemptIdHex with
  | none => (.error (notFound attemptIdHex), s)
  | some _ =>
    (.ok (), ⟨s.attempts.modify attemptIdHex
      (fun a => { a with githubDeploymentId := some deploymentId }) (fun _ => rfl) fun _ => rfl⟩)

def byMandate (s : InMemoryExecutionAttemptStore) (mandateIdHex : String) :
    StorageResult (List ExecutionAttempt) :=
  .ok (s.attempts.byGroup mandateIdHex)

def byDeploymentId (s : InMemoryExecutionAttemptStore)
    (order : List ExecutionAttempt → List ExecutionAttempt) (deploymentId : UInt64) :
    StorageResult (Option ExecutionAttempt) :=
  .ok ((order s.attempts.values).find? fun a => a.githubDeploymentId == some deploymentId)

end InMemoryExecutionAttemptStore

structure InMemoryReceiptProjectionStore where
  receipts : Indexed String String ReceiptProjection (·.receiptIdHex) (·.mandateIdHex)

namespace InMemoryReceiptProjectionStore

def insert (s : InMemoryReceiptProjectionStore) (receipt : ReceiptProjection) :
    StorageResult Unit × InMemoryReceiptProjectionStore :=
  let r := insertIndexed "receipt_id_hex" "receipt projection" s.receipts receipt
  (r.1, ⟨r.2⟩)

def get (s : InMemoryReceiptProjectionStore) (receiptIdHex : String) :
    StorageResult (Option ReceiptProjection) :=
  .ok (s.receipts.get receiptIdHex)

def byMandate (s : InMemoryReceiptProjectionStore) (mandateIdHex : String) :
    StorageResult (List ReceiptProjection) :=
  .ok (s.receipts.byGroup mandateIdHex)

end InMemoryReceiptProjectionStore

end Piteka.Storage
