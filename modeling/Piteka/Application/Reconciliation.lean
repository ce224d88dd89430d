import Piteka.Domain.Identity
import Piteka.Storage.Ports

/-!
# Reconciliation: reconcile, abandon unresolved

Both close a quarantined mandate. `reconcile` asks the provider for a deployment
correlated with the ambiguous attempt and consumes the mandate when there is one;
`abandonUnresolved` closes it as abandoned with an `Unknown` receipt. Each reads
the mandate once and swaps with the version its caller supplied.
-/
namespace Piteka.Application

set_option autoImplicit false

open Piteka.Interleaving Piteka.Storage Piteka.Domain

inductive ReconciliationError where
  | storage (error : StorageError)
  | mandateNotFound (mandateIdHex : String)
  | notQuarantined (currentState : String)
  | alreadyTerminal (currentState : String)
  | casConflict (currentVersion : Int64)
  | providerUnavailable (message : String)
  | unauthorizedExecutor (executor : String)
  deriving DecidableEq

instance : FromStorageError ReconciliationError := ⟨.storage⟩

inductive ReconciliationOutcome where
  | reconciledAccepted (mandateIdHex attemptIdHex : String) (newVersion : Int64)
  | abandonedAmbiguous (mandateIdHex attemptIdHex : String) (newVersion : Int64)
  | unresolved (mandateIdHex reason : String)
  deriving DecidableEq

def isTerminalState (state : String) : Bool :=
  state == "consumed" || state == "expired" || state == "revoked" || state == "abandoned" ||
    state == "released"

/-- What both operations do first: read the mandate, which must be quarantined, and find
its ambiguous attempt. `refusal` is the error for a mandate in another state. -/
def quarantinedAttempt (refusal : String → ReconciliationError) (mandateIdHex : String) :
    UseCase ReconciliationError ExecutionAttempt := do
  match ← await (.mandates (.get mandateIdHex)) with
  | none => throw (.mandateNotFound mandateIdHex)
  | some mandate =>
    if mandate.state ≠ "quarantined" then throw (refusal mandate.state)
    else
      let attempts ← await (.attempts (.byMandate mandateIdHex))
      match attempts.find? fun a => a.state = .outcomeAmbiguous with
      | none => throw (.notQuarantined "no ambiguous attempt found")
      | some attempt => return attempt

structure ReconcileArgs where
  mandateIdHex : String
  executorIdentity : String
  expectedMandateVersion : Int64
  deriving DecidableEq

namespace ReconcileArgs

def acceptedEvent (a : ReconcileArgs) (now : Int64) (attemptIdHex : String)
    (deploymentId : UInt64) : AuditEvent where
  occurredAtUnixSeconds := now
  actor := some a.executorIdentity
  action := "reconciliation.accepted"
  decision := "granted"
  detail := "mandate " ++ a.mandateIdHex ++ " reconciled as accepted, attempt " ++ attemptIdHex ++
    ", deployment_id=" ++ toString deploymentId.toNat

def unestablished (a : ReconcileArgs) : ReconciliationOutcome :=
  .unresolved a.mandateIdHex
    "provider data did not establish correlated acceptance; absence does not prove non-occurrence"

def unavailable (a : ReconcileArgs) (error : StorageError) : ReconciliationOutcome :=
  .unresolved a.mandateIdHex ("provider unavailable: " ++ error.display)

end ReconcileArgs

/-- `reconcile` tells terminal states apart; `abandonUnresolved` does not. -/
def reconcileRefusal (state : String) : ReconciliationError :=
  if isTerminalState state then .alreadyTerminal state else .notQuarantined state

/-- The id found by the provider is written unless the attempt has it already. -/
def persistDeploymentId (attempt : ExecutionAttempt) (deploymentId : UInt64) :
    UseCase ReconciliationError Unit :=
  if attempt.githubDeploymentId ≠ some deploymentId then
    await (.attempts (.updateDeploymentId attempt.attemptIdHex deploymentId))
  else return ()

/-- The writes after the mandate has been consumed. -/
def recordReconciled (a : ReconcileArgs) (now : Int64) (attempt : ExecutionAttempt)
    (deploymentId : UInt64) (newVersion : Int64) :
    UseCase ReconciliationError ReconciliationOutcome := do
  persistDeploymentId attempt deploymentId
  await (.attempts (.updateState attempt.attemptIdHex .reconciledAccepted))
  await (.audit (.append (a.acceptedEvent now attempt.attemptIdHex deploymentId)))
  return .reconciledAccepted a.mandateIdHex attempt.attemptIdHex newVersion

def reconcile (a : ReconcileArgs) : UseCase ReconciliationError ReconciliationOutcome :=
  if trimIsEmpty a.executorIdentity then throw (.unauthorizedExecutor a.executorIdentity)
  else do
    let now ← nowSeconds
    let attempt ← quarantinedAttempt reconcileRefusal a.mandateIdHex
    match ← ask (.findCorrelatedDeployment attempt) with
    | .error error => return a.unavailable error
    | .ok none => return a.unestablished
    | .ok (some correlated) =>
      match ← await (.mandates
          (.compareAndSwap a.mandateIdHex a.expectedMandateVersion "consumed")) with
      | .applied newVersion => recordReconciled a now attempt correlated.deploymentId newVersion
      | .conflict currentVersion => throw (.casConflict currentVersion)
      | .missing => throw (.mandateNotFound a.mandateIdHex)

structure AbandonArgs where
  mandateIdHex : String
  executorIdentity : String
  expectedMandateVersion : Int64
  reason : String
  deriving DecidableEq

namespace AbandonArgs

def receipt (a : AbandonArgs) (now : Int64) (attempt : ExecutionAttempt) : ReceiptProjection where
  receiptIdHex := "rcpt-abandoned-" ++ attempt.attemptIdHex
  mandateIdHex := a.mandateIdHex
  intentIdHex := attempt.intentIdHex
  attemptIdHex := attempt.attemptIdHex
  outcome := .unknown
  createdAtUnixSeconds := now
  dispatchEvidenceRefs := []
  targetEvidenceRefs := []
  evidenceGaps := ["target_outcome"]
  canonicalBytes := none

def abandonedEvent (a : AbandonArgs) (now : Int64) (attemptIdHex : String) : AuditEvent where
  occurredAtUnixSeconds := now
  actor := some a.executorIdentity
  action := "reconciliation.abandoned"
  decision := "abandoned"
  detail := "mandate " ++ a.mandateIdHex ++ " abandoned (ambiguous), attempt " ++ attemptIdHex ++
    ", reason=" ++ a.reason

end AbandonArgs

/-- The writes after the mandate has been abandoned. -/
def recordAbandoned (a : AbandonArgs) (now : Int64) (attempt : ExecutionAttempt)
    (newVersion : Int64) : UseCase ReconciliationError ReconciliationOutcome := do
  await (.attempts (.updateState attempt.attemptIdHex .abandonedAmbiguous))
  await (.receipts (.insert (a.receipt now attempt)))
  await (.audit (.append (a.abandonedEvent now attempt.attemptIdHex)))
  return .abandonedAmbiguous a.mandateIdHex attempt.attemptIdHex newVersion

def abandonUnresolved (a : AbandonArgs) : UseCase ReconciliationError ReconciliationOutcome :=
  if trimIsEmpty a.executorIdentity then throw (.unauthorizedExecutor a.executorIdentity)
  else if trimIsEmpty a.reason then
    throw (.providerUnavailable "an explicit abandonment reason is required")
  else do
    let now ← nowSeconds
    let attempt ← quarantinedAttempt .notQuarantined a.mandateIdHex
    match ← await (.mandates
        (.compareAndSwap a.mandateIdHex a.expectedMandateVersion "abandoned")) with
    | .applied newVersion => recordAbandoned a now attempt newVersion
    | .conflict currentVersion => throw (.casConflict currentVersion)
    | .missing => throw (.mandateNotFound a.mandateIdHex)

end Piteka.Application
