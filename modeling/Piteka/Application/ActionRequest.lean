import Piteka.Domain.Identity
import Piteka.Storage.Ports

/-!
# Action requests: propose, approve, reject, revoke

Approve, reject and revoke read the status, swap it with the version their
caller supplied and write the decision and the audit event after the swap. Each
reads the request once more at its end and panics when it has vanished.
-/
namespace Piteka.Application

set_option autoImplicit false

open Piteka.Interleaving Piteka.Storage Piteka.Domain

inductive ActionRequestUseCaseError where
  | storage (error : StorageError)
  | notFound (requestId : String)
  | invalidTransition (current : ActionRequestStatus) (attempted : String)
  | conflict (expectedVersion currentVersion : Int64)
  deriving DecidableEq

instance : FromStorageError ActionRequestUseCaseError := ⟨.storage⟩

abbrev ActionRequestUseCase (α : Type) := UseCase (Stopped ActionRequestUseCaseError) α

structure Proposed where
  request : ActionRequest
  deriving DecidableEq

structure Approved where
  request : ActionRequest
  decision : ApprovalDecision
  deriving DecidableEq

structure Rejected where
  request : ActionRequest
  decision : ApprovalDecision
  deriving DecidableEq

structure Revoked where
  request : ActionRequest
  deriving DecidableEq

def auditEvent (now : Int64) (actor : UserId) (action decision detail : String) : AuditEvent where
  occurredAtUnixSeconds := now
  actor := some actor.asStr
  action := action
  decision := decision
  detail := detail

structure ProposeArgs where
  requestId : String
  requestedBy : UserId
  intentIdHex : Option String
  deriving DecidableEq

def ProposeArgs.request (a : ProposeArgs) (now : Int64) : ActionRequest where
  requestId := a.requestId
  requestedBy := a.requestedBy.asStr
  intentIdHex := a.intentIdHex
  status := .pending
  createdAtUnixSeconds := now

def propose (rt : Runtime) (a : ProposeArgs) : ActionRequestUseCase Proposed := do
  let now ← nowSeconds
  await (.requests (.insert (a.request now)))
  await (.audit (.append (auditEvent now a.requestedBy "propose_action" "granted"
    ("action request " ++ a.requestId ++ " proposed, intent=" ++
      rt.debugOption a.intentIdHex))))
  return ⟨a.request now⟩

/-- The status check and the swap that approve, reject and revoke share. -/
def swapStatus (attempted : String) (required target : ActionRequestStatus) (requestId : String)
    (expectedVersion : Int64) : ActionRequestUseCase Int64 := do
  match ← await (.requests (.get requestId)) with
  | none => throw (.err (.notFound requestId))
  | some request =>
    if request.status ≠ required then
      throw (.err (.invalidTransition request.status attempted))
    else
      match ← await (.requests (.compareAndSwap requestId expectedVersion target)) with
      | .applied newVersion => return newVersion
      | .conflict currentVersion => throw (.err (.conflict expectedVersion currentVersion))
      | .missing => throw (.err (.notFound requestId))

/-- `.get(request_id).await?.expect(...)` after an applied swap. -/
def refreshed (requestId : String) : ActionRequestUseCase ActionRequest := do
  match ← await (.requests (.get requestId)) with
  | some request => return request
  | none => throw (.panicked "CAS applied but request vanished")

/-- The decision id is derived from the request id alone. -/
def decisionIdOf (requestId : String) : String := "dec-" ++ requestId

structure DecideArgs where
  requestId : String
  approverId : UserId
  intentIdHex : Option String
  expectedVersion : Int64
  deriving DecidableEq

def DecideArgs.decision (a : DecideArgs) (now : Int64) (decision : String) :
    ApprovalDecision where
  decisionId := decisionIdOf a.requestId
  requestId := a.requestId
  decidedBy := a.approverId.asStr
  decision := decision
  intentIdHex := a.intentIdHex
  decidedAtUnixSeconds := now

/-- What approve and reject write after an applied swap. -/
def recordDecision (decision : ApprovalDecision) (event : AuditEvent) :
    ActionRequestUseCase ActionRequest := do
  await (.decisions (.insert decision))
  await (.audit (.append event))
  refreshed decision.requestId

def approve (rt : Runtime) (a : DecideArgs) : ActionRequestUseCase Approved := do
  let now ← nowSeconds
  let newVersion ← swapStatus "approve" .pending .approved a.requestId a.expectedVersion
  let request ← recordDecision (a.decision now "approved")
    (auditEvent now a.approverId "approve_action" "granted"
      ("action request " ++ a.requestId ++ " approved by " ++ a.approverId.asStr ++ ", intent=" ++
        rt.debugOption a.intentIdHex ++ ", version=" ++ toString newVersion.toInt))
  return ⟨request, a.decision now "approved"⟩

def reject (a : DecideArgs) : ActionRequestUseCase Rejected := do
  let now ← nowSeconds
  let _ ← swapStatus "reject" .pending .rejected a.requestId a.expectedVersion
  let request ← recordDecision (a.decision now "rejected")
    (auditEvent now a.approverId "reject_action" "denied"
      ("action request " ++ a.requestId ++ " rejected by " ++ a.approverId.asStr))
  return ⟨request, a.decision now "rejected"⟩

structure RevokeArgs where
  requestId : String
  approverId : UserId
  expectedVersion : Int64
  deriving DecidableEq

def revoke (a : RevokeArgs) : ActionRequestUseCase Revoked := do
  let now ← nowSeconds
  let _ ← swapStatus "revoke" .approved .revoked a.requestId a.expectedVersion
  await (.audit (.append (auditEvent now a.approverId "revoke_mandate" "granted"
    ("action request " ++ a.requestId ++ " revoked by " ++ a.approverId.asStr))))
  let request ← refreshed a.requestId
  return ⟨request⟩

end Piteka.Application
