import Piteka.Storage.Memory
import Piteka.Interleaving.Run

/-!
# Port calls

Everything a use case asks of its ports: the store methods, the clock, the
provider closure and the reconciliation query. A store call is one atomic step
on the in-memory stores. The other answers come from outside and are arbitrary.
`faults` says which store calls may fail without effect; with `noFaults` the
stores answer as the in-memory adapters do.
-/
namespace Piteka.Storage

set_option autoImplicit false

open Piteka.Interleaving

structure Stores where
  protocolObjects : InMemoryProtocolObjectStore
  mandates : InMemoryMandateProjectionStore
  webhookReceipts : InMemoryWebhookReceiptStore
  evidence : InMemoryEvidenceStore
  evidenceNodes : InMemoryEvidenceNodeStore
  audit : InMemoryAuditLog
  requests : InMemoryActionRequestStore
  decisions : InMemoryApprovalDecisionStore
  attempts : InMemoryExecutionAttemptStore
  receipts : InMemoryReceiptProjectionStore

namespace Stores

/-- The `Default` stores. -/
def empty : Stores where
  protocolObjects := ⟨.empty⟩
  mandates := ⟨.empty⟩
  webhookReceipts := ⟨.empty⟩
  evidence := ⟨∅, ∅⟩
  evidenceNodes := ⟨.empty, ∅⟩
  audit := ⟨[]⟩
  requests := ⟨.empty, ∅⟩
  decisions := ⟨.empty⟩
  attempts := ⟨.empty⟩
  receipts := ⟨.empty⟩

def mandate (s : Stores) (mandateIdHex : String) : Option MandateProjection :=
  s.mandates.projections.get mandateIdHex

def request (s : Stores) (requestId : String) : Option ActionRequest :=
  s.requests.requests.get requestId

def requestVersion (s : Stores) (requestId : String) : Int64 :=
  s.requests.currentVersion requestId

def decision (s : Stores) (decisionId : String) : Option ApprovalDecision :=
  s.decisions.decisions.get decisionId

def attempt (s : Stores) (attemptIdHex : String) : Option ExecutionAttempt :=
  s.attempts.attempts.get attemptIdHex

def receipt (s : Stores) (receiptIdHex : String) : Option ReceiptProjection :=
  s.receipts.receipts.get receiptIdHex

end Stores

/-- The orders in which the hash maps are walked during one call. -/
structure HashOrder where
  requests : List ActionRequest → List ActionRequest
  attempts : List ExecutionAttempt → List ExecutionAttempt
  nodes : List EvidenceNodeRecord → List EvidenceNodeRecord
  requests_perm : ∀ l, (requests l).Perm l
  attempts_perm : ∀ l, (attempts l).Perm l
  nodes_perm : ∀ l, (nodes l).Perm l

def HashOrder.asListed : HashOrder where
  requests := id
  attempts := id
  nodes := id
  requests_perm _ := .refl _
  attempts_perm _ := .refl _
  nodes_perm _ := .refl _

inductive ProtocolObjectCall where
  | put (record : ProtocolObjectRecord)
  | get (objectIdHex : String)

inductive MandateCall where
  | insert (mandateIdHex state : String)
  | get (mandateIdHex : String)
  | compareAndSwap (mandateIdHex : String) (expectedVersion : Int64) (newState : String)

inductive WebhookReceiptCall where
  | record (receipt : WebhookReceipt)
  | get (deliveryId : String)

inductive EvidenceCall where
  | put (bytes : Array UInt8)
  | get (digest : ContentDigest)
  | putDescriptor (descriptor : EvidenceDescriptor)

inductive EvidenceNodeCall where
  | insert (node : EvidenceNodeRecord)
  | get (nodeIdHex : String)
  | byMandate (mandateIdHex : String)

inductive AuditCall where
  | append (event : AuditEvent)
  | recent (limit : Nat)

inductive ActionRequestCall where
  | insert (request : ActionRequest)
  | get (requestId : String)
  | list
  | compareAndSwap (requestId : String) (expectedVersion : Int64)
      (newStatus : ActionRequestStatus)

inductive ApprovalDecisionCall where
  | insert (decision : ApprovalDecision)
  | get (decisionId : String)
  | byRequest (requestId : String)

inductive ExecutionAttemptCall where
  | insert (attempt : ExecutionAttempt)
  | get (attemptIdHex : String)
  | updateState (attemptIdHex : String) (newState : ExecutionAttemptState)
  | updateDeploymentId (attemptIdHex : String) (deploymentId : UInt64)
  | byMandate (mandateIdHex : String)
  | byDeploymentId (deploymentId : UInt64)

inductive ReceiptProjectionCall where
  | insert (receipt : ReceiptProjection)
  | get (receiptIdHex : String)
  | byMandate (mandateIdHex : String)

inductive StoreCall where
  | protocolObjects (c : ProtocolObjectCall)
  | mandates (c : MandateCall)
  | webhookReceipts (c : WebhookReceiptCall)
  | evidence (c : EvidenceCall)
  | evidenceNodes (c : EvidenceNodeCall)
  | audit (c : AuditCall)
  | requests (c : ActionRequestCall)
  | decisions (c : ApprovalDecisionCall)
  | attempts (c : ExecutionAttemptCall)
  | receipts (c : ReceiptProjectionCall)

/-- What a store call returns when it succeeds. -/
@[reducible] def StoreCall.Ok : StoreCall → Type
  | .protocolObjects (.put _) => Unit
  | .protocolObjects (.get _) => Option ProtocolObjectRecord
  | .mandates (.insert _ _) => Unit
  | .mandates (.get _) => Option MandateProjection
  | .mandates (.compareAndSwap _ _ _) => CasOutcome
  | .webhookReceipts (.record _) => WebhookRecordOutcome
  | .webhookReceipts (.get _) => Option WebhookReceipt
  | .evidence (.put _) => ContentDigest
  | .evidence (.get _) => Option (Array UInt8)
  | .evidence (.putDescriptor _) => Unit
  | .evidenceNodes (.insert _) => Unit
  | .evidenceNodes (.get _) => Option EvidenceNodeRecord
  | .evidenceNodes (.byMandate _) => List EvidenceNodeRecord
  | .audit (.append _) => Unit
  | .audit (.recent _) => List AuditEvent
  | .requests (.insert _) => Unit
  | .requests (.get _) => Option ActionRequest
  | .requests .list => List ActionRequest
  | .requests (.compareAndSwap _ _ _) => CasOutcome
  | .decisions (.insert _) => Unit
  | .decisions (.get _) => Option ApprovalDecision
  | .decisions (.byRequest _) => List ApprovalDecision
  | .attempts (.insert _) => Unit
  | .attempts (.get _) => Option ExecutionAttempt
  | .attempts (.updateState _ _) => Unit
  | .attempts (.updateDeploymentId _ _) => Unit
  | .attempts (.byMandate _) => List ExecutionAttempt
  | .attempts (.byDeploymentId _) => Option ExecutionAttempt
  | .receipts (.insert _) => Unit
  | .receipts (.get _) => Option ReceiptProjection
  | .receipts (.byMandate _) => List ReceiptProjection

/-- The answer of a store call and the stores after it. -/
def StoreCall.run (rt : Runtime) (order : HashOrder) (s : Stores) :
    (c : StoreCall) → StorageResult c.Ok × Stores
  | .protocolObjects (.put r) =>
    let x := s.protocolObjects.put r
    (x.1, { s with protocolObjects := x.2 })
  | .protocolObjects (.get i) => (s.protocolObjects.get i, s)
  | .mandates (.insert m st) =>
    let x := s.mandates.insert m st
    (x.1, { s with mandates := x.2 })
  | .mandates (.get m) => (s.mandates.get m, s)
  | .mandates (.compareAndSwap m v st) =>
    let x := s.mandates.compareAndSwap m v st
    (x.1, { s with mandates := x.2 })
  | .webhookReceipts (.record r) =>
    let x := s.webhookReceipts.record r
    (x.1, { s with webhookReceipts := x.2 })
  | .webhookReceipts (.get i) => (s.webhookReceipts.get i, s)
  | .evidence (.put b) =>
    let x := s.evidence.put rt b
    (x.1, { s with evidence := x.2 })
  | .evidence (.get d) => (s.evidence.get rt d, s)
  | .evidence (.putDescriptor d) =>
    let x := s.evidence.putDescriptor d
    (x.1, { s with evidence := x.2 })
  | .evidenceNodes (.insert n) =>
    let x := s.evidenceNodes.insert n
    (x.1, { s with evidenceNodes := x.2 })
  | .evidenceNodes (.get i) => (s.evidenceNodes.get i, s)
  | .evidenceNodes (.byMandate m) => (s.evidenceNodes.byMandate order.nodes m, s)
  | .audit (.append e) =>
    let x := s.audit.append e
    (x.1, { s with audit := x.2 })
  | .audit (.recent n) => (s.audit.recent n, s)
  | .requests (.insert r) =>
    let x := s.requests.insert r
    (x.1, { s with requests := x.2 })
  | .requests (.get i) => (s.requests.get i, s)
  | .requests .list => (s.requests.list order.requests, s)
  | .requests (.compareAndSwap i v st) =>
    let x := s.requests.compareAndSwap i v st
    (x.1, { s with requests := x.2 })
  | .decisions (.insert d) =>
    let x := s.decisions.insert d
    (x.1, { s with decisions := x.2 })
  | .decisions (.get i) => (s.decisions.get i, s)
  | .decisions (.byRequest r) => (s.decisions.byRequest r, s)
  | .attempts (.insert a) =>
    let x := s.attempts.insert a
    (x.1, { s with attempts := x.2 })
  | .attempts (.get i) => (s.attempts.get i, s)
  | .attempts (.updateState i st) =>
    let x := s.attempts.updateState i st
    (x.1, { s with attempts := x.2 })
  | .attempts (.updateDeploymentId i d) =>
    let x := s.attempts.updateDeploymentId i d
    (x.1, { s with attempts := x.2 })
  | .attempts (.byMandate m) => (s.attempts.byMandate m, s)
  | .attempts (.byDeploymentId d) => (s.attempts.byDeploymentId order.attempts d, s)
  | .receipts (.insert r) =>
    let x := s.receipts.insert r
    (x.1, { s with receipts := x.2 })
  | .receipts (.get i) => (s.receipts.get i, s)
  | .receipts (.byMandate m) => (s.receipts.byMandate m, s)

/-- A provider deployment whose correlation payload matches an attempt. -/
structure CorrelatedDeployment where
  deploymentId : UInt64
  deriving DecidableEq

inductive PortCall where
  | store (c : StoreCall)
  | clock
  /-- The caller's provider closure, with the correlation key and the attempt digest. -/
  | dispatchFn (correlationKey : String) (attemptDigest : Vector UInt8 32)
  | findCorrelatedDeployment (attempt : ExecutionAttempt)

@[reducible] def Answer : PortCall → Type
  | .store c => StorageResult c.Ok
  | .clock => UInt64
  | .dispatchFn _ _ => Option UInt64
  | .findCorrelatedDeployment _ => StorageResult (Option CorrelatedDeployment)

/-- No store call fails other than by the in-memory adapters' own checks. -/
def noFaults : StoreCall → Prop := fun _ => False

/-- One atomic step of a port call. -/
def Exec (rt : Runtime) (faults : StoreCall → Prop) (s : Stores) :
    (op : PortCall) → Answer op → Stores → Prop
  | .store c, a, s' =>
    (∃ order, c.run rt order s = (a, s')) ∨ (faults c ∧ (∃ e, a = .error e) ∧ s' = s)
  | .clock, _, s' => s' = s
  | .dispatchFn _ _, _, s' => s' = s
  | .findCorrelatedDeployment _, _, s' => s' = s

/-- An error type that takes over storage errors, as `?` does. -/
class FromStorageError (ε : Type) where
  ofStorage : StorageError → ε

/-- How a use case with an `.expect` ends early: with an error, or with the panic. -/
inductive Stopped (ε : Type) where
  | err (error : ε)
  | panicked (message : String)
  deriving DecidableEq

instance {ε : Type} [FromStorageError ε] : FromStorageError (Stopped ε) :=
  ⟨fun e => .err (FromStorageError.ofStorage e)⟩

/-- A use case: port calls that may return an error early. -/
abbrev UseCase (ε α : Type) := ExceptT ε (Program PortCall Answer) α

/-- A store call with `.await?`. -/
def await {ε : Type} [FromStorageError ε] (c : StoreCall) : UseCase ε c.Ok :=
  ExceptT.mk (.call (.store c) fun
    | .ok x => .ret (.ok x)
    | .error e => .ret (.error (FromStorageError.ofStorage e)))

/-- A port call whose answer the use case handles itself. -/
def ask {ε : Type} (op : PortCall) : UseCase ε (Answer op) :=
  ExceptT.mk (.call op fun a => .ret (.ok a))

/-- A use case whose result the caller handles itself, as `match` on a `Result` does. -/
def caught {ε ε' α : Type} (p : UseCase ε α) : UseCase ε' (Except ε α) :=
  ExceptT.mk (p.run >>= fun r => .ret (.ok r))

/-- `clock().unix_seconds() as i64` -/
def nowSeconds {ε : Type} : UseCase ε Int64 := do
  let t ← ask .clock
  return t.toInt64

end Piteka.Storage
