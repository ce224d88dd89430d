import Mathlib.Data.List.Basic

/-!
# Storage records and errors

The records of the storage crate with all their fields. Times and versions are
`i64`, deployment ids `u64`, so both wrap. SHA-256 and the `Debug` text of an
optional string are not part of the repository; they are the fields of `Runtime`,
over which every program of the model is parametric.
-/
namespace Piteka.Storage

set_option autoImplicit false

/-- What the use cases compute with code outside the repository. -/
structure Runtime where
  sha256 : Array UInt8 → Vector UInt8 32
  /-- The text of `{:?}` for an `Option<String>`. -/
  debugOption : Option String → String

/-- A SHA-256 content address for a stored blob. -/
structure ContentDigest where
  bytes : Vector UInt8 32
  deriving DecidableEq

def ContentDigest.of (rt : Runtime) (bytes : Array UInt8) : ContentDigest := ⟨rt.sha256 bytes⟩

def ContentDigest.toHex (d : ContentDigest) : String :=
  String.ofList (d.bytes.toList.flatMap fun b =>
    [Nat.digitChar (b.toNat / 16), Nat.digitChar (b.toNat % 16)])

inductive StorageError where
  | immutableViolation (objectIdHex : String)
  | evidenceDigestMismatch (expected found : ContentDigest)
  | emptyField (field : String)
  | backend (message : String)
  deriving DecidableEq

abbrev StorageResult (α : Type) := Except StorageError α

/-- The `Display` text of a storage error. -/
def StorageError.display : StorageError → String
  | .immutableViolation objectIdHex =>
    "protocol object `" ++ objectIdHex ++ "` already stored with different bytes"
  | .evidenceDigestMismatch expected found =>
    "evidence content address mismatch: expected " ++ expected.toHex ++ ", found " ++ found.toHex
  | .emptyField field => "storage field `" ++ field ++ "` must not be empty"
  | .backend message => "storage backend error: " ++ message

structure ProtocolObjectRecord where
  kind : String
  objectIdHex : String
  bytes : Array UInt8
  deriving DecidableEq

/-- The mutable projection of a single-use mandate's live state. -/
structure MandateProjection where
  mandateIdHex : String
  version : Int64
  state : String
  deriving DecidableEq

inductive CasOutcome where
  | applied (newVersion : Int64)
  | conflict (currentVersion : Int64)
  | missing
  deriving DecidableEq

structure WebhookReceipt where
  deliveryId : String
  source : String
  rawDigest : ContentDigest
  receivedAtUnixSeconds : Int64
  deriving DecidableEq

inductive WebhookRecordOutcome where
  | recorded
  | duplicate
  deriving DecidableEq

structure EvidenceDescriptor where
  digest : ContentDigest
  mediaType : String
  sizeBytes : UInt64
  deriving DecidableEq

structure AuditEvent where
  occurredAtUnixSeconds : Int64
  actor : Option String
  action : String
  decision : String
  detail : String
  deriving DecidableEq

inductive ActionRequestStatus where
  | pending
  | approved
  | rejected
  | revoked
  deriving DecidableEq

structure ActionRequest where
  requestId : String
  requestedBy : String
  intentIdHex : Option String
  status : ActionRequestStatus
  createdAtUnixSeconds : Int64
  deriving DecidableEq

structure ApprovalDecision where
  decisionId : String
  requestId : String
  decidedBy : String
  decision : String
  intentIdHex : Option String
  decidedAtUnixSeconds : Int64
  deriving DecidableEq

inductive ExecutionAttemptState where
  | prepared
  | dispatching
  | accepted
  | rejected
  | outcomeAmbiguous
  | reconciledAccepted
  | reconciledNotAccepted
  | abandonedAmbiguous
  deriving DecidableEq

structure ExecutionAttempt where
  attemptIdHex : String
  mandateIdHex : String
  intentIdHex : String
  reservationTokenDigest : String
  executorIdentity : String
  correlationKey : String
  startedAtUnixSeconds : Int64
  dispatchBoundaryAtUnixSeconds : Option Int64
  state : ExecutionAttemptState
  githubDeploymentId : Option UInt64
  deriving DecidableEq

inductive ReceiptOutcome where
  | succeeded
  | failed
  | rejected
  | unknown
  deriving DecidableEq

inductive EvidenceSource where
  | piteka
  | provider (name : String)
  | verifier
  deriving DecidableEq

structure EvidenceNodeRecord where
  nodeIdHex : String
  registryId : String
  source : EvidenceSource
  producerIdentity : String
  collectedAtUnixSeconds : Int64
  assertedEventAtUnixSeconds : Option Int64
  contentDigest : ContentDigest
  mediaType : String
  disclosureClassification : String
  relationships : List String
  deriving DecidableEq

structure ReceiptProjection where
  receiptIdHex : String
  mandateIdHex : String
  intentIdHex : String
  attemptIdHex : String
  outcome : ReceiptOutcome
  createdAtUnixSeconds : Int64
  dispatchEvidenceRefs : List String
  targetEvidenceRefs : List String
  evidenceGaps : List String
  canonicalBytes : Option (Array UInt8)
  deriving DecidableEq

end Piteka.Storage
