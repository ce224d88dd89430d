import Piteka.Storage.Ports

/-!
# Dispatch: reserve, complete, reserve and dispatch

The dispatch use case, call by call. `reserve` checks the request's status and
swaps the mandate to `reserved`; `completeDispatch` writes the attempt and swaps
the mandate to `consumed` or `quarantined`; `reserveAndDispatch` puts the
provider closure between the two.
-/
namespace Piteka.Application

set_option autoImplicit false

open Piteka.Interleaving Piteka.Storage

inductive DispatchError where
  | storage (error : StorageError)
  | notFound (requestId : String)
  | invalidTransition (current : ActionRequestStatus)
  | mandateNotFound (mandateIdHex : String)
  | reservationConflict (currentVersion : Int64)
  | alreadyConsumed (mandateIdHex : String)
  | dispatchFailed (message : String)
  | invalidProviderResponse (message : String)
  | unauthorizedExecutor (executor : String)
  deriving DecidableEq

instance : FromStorageError DispatchError := ⟨.storage⟩

structure Dispatched where
  mandateIdHex : String
  attemptIdHex : String
  intentIdHex : String
  executorIdentity : String
  correlationKey : String
  providerAccepted : Bool
  githubDeploymentId : Option UInt64
  deriving DecidableEq

structure ReservationFailed where
  mandateIdHex : String
  winnerVersion : Int64
  deriving DecidableEq

structure ReplayRejection where
  reasonCode : String
  mandateIdHex : String
  requestId : String
  executorIdentity : String
  mandateState : String
  message : String
  deriving DecidableEq

inductive DispatchOutcome where
  | dispatched (value : Dispatched)
  | reservationFailed (failed : ReservationFailed)
  | replayRejected (rejection : ReplayRejection)
  | dispatchFailed (mandateIdHex attemptIdHex error : String)
  deriving DecidableEq

/-- `attempt_id | mandate_id | intent_id` under SHA-256. -/
def computeAttemptDigest (rt : Runtime) (attemptId mandateId intentId : String) :
    Vector UInt8 32 :=
  rt.sha256
    (attemptId.toUTF8 ++ "|".toUTF8 ++ mandateId.toUTF8 ++ "|".toUTF8 ++ intentId.toUTF8).data

/-- The attempt id is derived from the mandate id alone. -/
def attemptIdOf (mandateIdHex : String) : String := "att-" ++ mandateIdHex

/-- The states that `reserve` reports as a repeat use. -/
def isSpentState (state : String) : Bool :=
  state == "consumed" || state == "quarantined" || state == "abandoned"

def displayInt64 (v : Int64) : String := toString v.toInt

structure ReserveArgs where
  requestId : String
  mandateIdHex : String
  intentIdHex : String
  executorIdentity : String
  reservationTokenDigest : String
  correlationKey : String
  expectedMandateVersion : Int64
  deriving DecidableEq

namespace ReserveArgs

def attempt (a : ReserveArgs) (now : Int64) : ExecutionAttempt where
  attemptIdHex := attemptIdOf a.mandateIdHex
  mandateIdHex := a.mandateIdHex
  intentIdHex := a.intentIdHex
  reservationTokenDigest := a.reservationTokenDigest
  executorIdentity := a.executorIdentity
  correlationKey := a.correlationKey
  startedAtUnixSeconds := now
  dispatchBoundaryAtUnixSeconds := none
  state := .prepared
  githubDeploymentId := none

def grantedEvent (a : ReserveArgs) (now : Int64) : AuditEvent where
  occurredAtUnixSeconds := now
  actor := some a.executorIdentity
  action := "reserve_mandate"
  decision := "granted"
  detail := "mandate " ++ a.mandateIdHex ++ " reserved for request " ++ a.requestId ++
    ", attempt " ++ attemptIdOf a.mandateIdHex ++ ", version " ++
    displayInt64 a.expectedMandateVersion

def replayEvent (a : ReserveArgs) (now : Int64) (state : String) : AuditEvent where
  occurredAtUnixSeconds := now
  actor := some a.executorIdentity
  action := "execute_approved_deployment"
  decision := "denied"
  detail := "MANDATE.REPLAY_DETECTED: mandate " ++ a.mandateIdHex ++ " is " ++ state ++
    "; request " ++ a.requestId ++ "; provider dispatch suppressed"

def replayRejection (a : ReserveArgs) (state : String) : ReplayRejection where
  reasonCode := "MANDATE.REPLAY_DETECTED"
  mandateIdHex := a.mandateIdHex
  requestId := a.requestId
  executorIdentity := a.executorIdentity
  mandateState := state
  message := "Repeat use rejected. Approval " ++ a.mandateIdHex ++
    " was already used; nothing was sent to GitHub."

def reserved (a : ReserveArgs) : Dispatched where
  mandateIdHex := a.mandateIdHex
  attemptIdHex := attemptIdOf a.mandateIdHex
  intentIdHex := a.intentIdHex
  executorIdentity := a.executorIdentity
  correlationKey := a.correlationKey
  providerAccepted := false
  githubDeploymentId := none

end ReserveArgs

def reserve (a : ReserveArgs) : UseCase DispatchError DispatchOutcome := do
  let now ← nowSeconds
  match ← await (.requests (.get a.requestId)) with
  | none => throw (.notFound a.requestId)
  | some request =>
    if request.status ≠ .approved then
      throw (.invalidTransition request.status)
    else
      match ← await (.mandates
          (.compareAndSwap a.mandateIdHex a.expectedMandateVersion "reserved")) with
      | .applied _ =>
        await (.attempts (.insert (a.attempt now)))
        await (.attempts (.updateState (attemptIdOf a.mandateIdHex) .dispatching))
        await (.audit (.append (a.grantedEvent now)))
        return .dispatched a.reserved
      | .conflict currentVersion =>
        -- A conflict against a spent mandate is a repeat use, not a race.
        match ← await (.mandates (.get a.mandateIdHex)) with
        | some projection =>
          if isSpentState projection.state then
            await (.audit (.append (a.replayEvent now projection.state)))
            return .replayRejected (a.replayRejection projection.state)
          else
            return .reservationFailed ⟨a.mandateIdHex, currentVersion⟩
        | none => return .reservationFailed ⟨a.mandateIdHex, currentVersion⟩
      | .missing => throw (.mandateNotFound a.mandateIdHex)

structure CompleteArgs where
  attemptIdHex : String
  mandateIdHex : String
  intentIdHex : String
  providerAccepted : Bool
  deploymentId : Option UInt64
  executorIdentity : String
  expectedMandateVersion : Int64
  deriving DecidableEq

namespace CompleteArgs

def missingDeploymentId (c : CompleteArgs) : Bool := c.providerAccepted && c.deploymentId.isNone

/-- The deployment id of an acceptance that names one; anything else is ambiguous. -/
def acceptedDeployment (c : CompleteArgs) : Option UInt64 :=
  if c.providerAccepted && !c.missingDeploymentId then c.deploymentId else none

def consumeEvent (c : CompleteArgs) (now : Int64) : AuditEvent where
  occurredAtUnixSeconds := now
  actor := some c.executorIdentity
  action := "consume_mandate"
  decision := "granted"
  detail := "mandate " ++ c.mandateIdHex ++ " consumed after provider acceptance, attempt " ++
    c.attemptIdHex

def quarantineEvent (c : CompleteArgs) (now : Int64) : AuditEvent where
  occurredAtUnixSeconds := now
  actor := some c.executorIdentity
  action := "quarantine_mandate"
  decision := "denied"
  detail := "mandate " ++ c.mandateIdHex ++ " quarantined after provider failure, attempt " ++
    c.attemptIdHex

end CompleteArgs

def recordAcceptance (c : CompleteArgs) (now : Int64) (deploymentId : UInt64) :
    UseCase DispatchError Unit := do
  await (.attempts (.updateState c.attemptIdHex .accepted))
  await (.attempts (.updateDeploymentId c.attemptIdHex deploymentId))
  match ← await (.mandates
      (.compareAndSwap c.mandateIdHex c.expectedMandateVersion "consumed")) with
  | .applied _ => await (.audit (.append (c.consumeEvent now)))
  | .conflict _ => throw (.alreadyConsumed c.mandateIdHex)
  | .missing => throw (.mandateNotFound c.mandateIdHex)

def recordAmbiguity (c : CompleteArgs) (now : Int64) : UseCase DispatchError Unit := do
  await (.attempts (.updateState c.attemptIdHex .outcomeAmbiguous))
  match ← await (.mandates
      (.compareAndSwap c.mandateIdHex c.expectedMandateVersion "quarantined")) with
  | .applied _ => await (.audit (.append (c.quarantineEvent now)))
  -- A conflict is swallowed here: the attempt is already ambiguous.
  | .conflict _ => return ()
  | .missing => throw (.mandateNotFound c.mandateIdHex)

/-- An acceptance without an id is on record as ambiguous and is reported as an error. -/
def reportMissing (c : CompleteArgs) : UseCase DispatchError Unit :=
  if c.missingDeploymentId then
    throw (.invalidProviderResponse
      "accepted GitHub deployment response did not include a deployment ID")
  else
    return ()

def completeDispatch (c : CompleteArgs) : UseCase DispatchError Unit := do
  let now ← nowSeconds
  match c.acceptedDeployment with
  | some deploymentId => recordAcceptance c now deploymentId
  | none => recordAmbiguity c now
  reportMissing c

/-- The completion that `reserveAndDispatch` makes of the provider's answer. -/
def ReserveArgs.completion (a : ReserveArgs) (deploymentId : Option UInt64) : CompleteArgs where
  attemptIdHex := attemptIdOf a.mandateIdHex
  mandateIdHex := a.mandateIdHex
  intentIdHex := a.intentIdHex
  providerAccepted := deploymentId.isSome
  deploymentId := deploymentId
  executorIdentity := a.executorIdentity
  expectedMandateVersion := a.expectedMandateVersion + 1

def reserveAndDispatch (rt : Runtime) (a : ReserveArgs) :
    UseCase DispatchError DispatchOutcome := do
  match ← reserve a with
  | .replayRejected rejection => return .replayRejected rejection
  | .reservationFailed failed => return .reservationFailed failed
  | .dispatchFailed m t e => return .dispatchFailed m t e
  | .dispatched dispatched =>
    let attemptDigest :=
      computeAttemptDigest rt dispatched.attemptIdHex a.mandateIdHex a.intentIdHex
    match ← ask (.dispatchFn dispatched.correlationKey attemptDigest) with
    | some deployId =>
      completeDispatch (a.completion (some deployId))
      return .dispatched { dispatched with
        providerAccepted := true
        githubDeploymentId := some deployId }
    | none =>
      completeDispatch (a.completion none)
      return .dispatchFailed a.mandateIdHex dispatched.attemptIdHex
        "provider rejected or timeout"

end Piteka.Application
