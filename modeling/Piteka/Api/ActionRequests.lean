import Piteka.Application.ActionRequest

/-!
# The HTTP handlers of action requests

The handlers behind propose, approve, reject and revoke, with the responses they
give. The `Idempotency-Key` header is an argument that no handler uses. A body is
kept as the value that is serialized; a panic ends a handler without a response.
-/
namespace Piteka.Api

set_option autoImplicit false

open Piteka.Interleaving Piteka.Storage Piteka.Domain Piteka.Application

/-! ## Responses -/

structure ErrorCause where
  code : String
  message : String
  source : Option String
  deriving DecidableEq

structure ErrorDetail where
  code : String
  message : String
  causes : List ErrorCause
  deriving DecidableEq

structure ApprovalDecisionResponse where
  id : String
  decidedBy : String
  decision : String
  intentId : Option String
  decidedAt : UInt64
  deriving DecidableEq

def ApprovalDecisionResponse.of (d : ApprovalDecision) : ApprovalDecisionResponse where
  id := d.decisionId
  decidedBy := d.decidedBy
  decision := d.decision
  intentId := d.intentIdHex
  decidedAt := d.decidedAtUnixSeconds.toUInt64

structure ActionRequestResponse where
  id : String
  requestedBy : String
  intentId : Option String
  status : ActionRequestStatus
  createdAt : UInt64
  decisions : List ApprovalDecisionResponse
  deriving DecidableEq

inductive Body where
  | request (response : ActionRequestResponse)
  | error (detail : ErrorDetail)
  deriving DecidableEq

structure Response where
  status : Nat
  body : Body
  deriving DecidableEq

/-- The errors that these handlers answer with. -/
inductive ApiError where
  | notFound (resource id : String)
  | badRequest (causes : List ErrorCause)
  | invalidState (current attempted : String)
  | conflict (expectedVersion currentVersion : Int64)
  | internal (message : String)

namespace ApiError

def ofBadRequest (code message : String) : ApiError := .badRequest [⟨code, message, none⟩]

def ofStorage : StorageError → ApiError
  | .immutableViolation _ => .internal "immutable violation"
  | .evidenceDigestMismatch _ _ => .internal "evidence digest mismatch"
  | .emptyField field => ofBadRequest "EMPTY_FIELD" ("Required field `" ++ field ++ "` is empty")
  | .backend message => .internal message

/-- `{:?}` of a status. -/
def debugStatus : ActionRequestStatus → String
  | .pending => "Pending"
  | .approved => "Approved"
  | .rejected => "Rejected"
  | .revoked => "Revoked"

def ofUseCase : ActionRequestUseCaseError → ApiError
  | .storage e => ofStorage e
  | .notFound id => .notFound "action request" id
  | .invalidTransition current attempted => .invalidState (debugStatus current) attempted
  | .conflict expectedVersion currentVersion => .conflict expectedVersion currentVersion

def intoResponse : ApiError → Response
  | .notFound resource id =>
    let message := resource ++ " `" ++ id ++ "` not found"
    ⟨404, .error ⟨"NOT_FOUND", message, [⟨"NOT_FOUND", message, some "id"⟩]⟩⟩
  | .badRequest causes =>
    ⟨400, .error ⟨"BAD_REQUEST", "The request body is malformed or missing required fields",
      causes⟩⟩
  | .invalidState current attempted =>
    ⟨409, .error ⟨"INVALID_STATE", "Cannot " ++ attempted ++ " from status `" ++ current ++ "`",
      [⟨"INVALID_STATE", "The action request is in status `" ++ current ++
        "`; expected `Pending` for approve/reject or `Approved` for revoke", some "status"⟩]⟩⟩
  | .conflict expectedVersion currentVersion =>
    ⟨409, .error ⟨"CONFLICT", "Optimistic concurrency conflict",
      [⟨"CONFLICT", "Expected version " ++ toString expectedVersion.toInt ++
          ", current version " ++ toString currentVersion.toInt, some "version"⟩,
        ⟨"OPTIMISTIC_CONFLICT",
          "Another request modified this resource. Retry with the current version.", none⟩]⟩⟩
  | .internal message =>
    ⟨500, .error ⟨"INTERNAL_ERROR", "An internal error occurred",
      [⟨"INTERNAL_ERROR", message, none⟩]⟩⟩

end ApiError

/-! ## Handlers -/

/-- A response, or the message of a panic. -/
abbrev ApiResult := Except String Response

abbrev ApiProgram := Program PortCall Answer ApiResult

def respond (response : Response) : ApiProgram := .ret (.ok response)

/-- A failed use case is answered with its error, and a successful one goes on. -/
def settle {α : Type} (next : α → ApiProgram) :
    Except (Stopped ActionRequestUseCaseError) α → ApiProgram
  | .ok x => next x
  | .error (.err e) => respond (ApiError.ofUseCase e).intoResponse
  | .error (.panicked message) => .ret (.error message)

/-- The request as the client sees it. -/
def shown (status : Nat) (request : ActionRequest) (decisions : List ApprovalDecision) :
    Response where
  status := status
  body := .request {
    id := request.requestId
    requestedBy := request.requestedBy
    intentId := request.intentIdHex
    status := request.status
    createdAt := request.createdAtUnixSeconds.toUInt64
    decisions := decisions.map .of }

/-- The response with the decisions that are read for it. -/
def showDecided (request : ActionRequest) :
    StorageResult (List ApprovalDecision) → ApiProgram
  | .error e => respond (ApiError.ofStorage e).intoResponse
  | .ok decisions => respond (shown 200 request decisions)

/-- A user id that cannot be made is replaced. -/
def userIdOf (text : String) : UserId :=
  match UserId.new text with
  | .ok user => user
  | .error _ => ⟨"unknown", by decide⟩

structure CreateActionRequestRequest where
  requestedBy : String
  intentId : Option String

/-- The body of an approval and of a rejection. -/
structure ApproveRequest where
  approverId : String
  intentId : Option String
  version : Int64

abbrev RejectRequest := ApproveRequest

structure RevokeRequest where
  approverId : String
  version : Int64

def emptyRequestedBy : Response :=
  (ApiError.ofBadRequest "EMPTY_REQUESTED_BY" "The `requested_by` field is required").intoResponse

def emptyApproverId : Response :=
  (ApiError.ofBadRequest "EMPTY_APPROVER_ID" "The `approver_id` field is required").intoResponse

/-- `drawn` is the fresh request id. -/
def proposeActionRequest (rt : Runtime) (_idempotencyKey : Option String) (drawn : String)
    (body : CreateActionRequestRequest) : ApiProgram :=
  if body.requestedBy = "" then respond emptyRequestedBy
  else (propose rt ⟨drawn, userIdOf body.requestedBy, body.intentId⟩).run.bind
    (settle fun proposed => respond (shown 201 proposed.request []))

/-- What approve, reject and revoke share around their use case. -/
def changeActionRequest {α : Type} (requestId approverId : String)
    (useCase : UserId → ActionRequestUseCase α) (request : α → ActionRequest) : ApiProgram :=
  if approverId = "" then respond emptyApproverId
  else (useCase (userIdOf approverId)).run.bind (settle fun changed =>
    .call (.store (.decisions (.byRequest requestId))) (showDecided (request changed)))

def approveActionRequest (rt : Runtime) (_idempotencyKey : Option String) (requestId : String)
    (body : ApproveRequest) : ApiProgram :=
  changeActionRequest requestId body.approverId
    (fun user => approve rt ⟨requestId, user, body.intentId, body.version⟩) (·.request)

def rejectActionRequest (_idempotencyKey : Option String) (requestId : String)
    (body : RejectRequest) : ApiProgram :=
  changeActionRequest requestId body.approverId
    (fun user => reject ⟨requestId, user, body.intentId, body.version⟩) (·.request)

def revokeActionRequest (_idempotencyKey : Option String) (requestId : String)
    (body : RevokeRequest) : ApiProgram :=
  changeActionRequest requestId body.approverId
    (fun user => revoke ⟨requestId, user, body.version⟩) (·.request)

/-- A mutating endpoint, with the body that is sent to it. -/
inductive Mutation where
  | propose (body : CreateActionRequestRequest)
  | approve (requestId : String) (body : ApproveRequest)
  | reject (requestId : String) (body : RejectRequest)
  | revoke (requestId : String) (body : RevokeRequest)

/-- One call of a mutating endpoint, with the id that is drawn for it. -/
structure ApiCall where
  idempotencyKey : Option String
  drawn : String
  mutation : Mutation

def ApiCall.program (rt : Runtime) (c : ApiCall) : ApiProgram :=
  match c.mutation with
  | .propose body => proposeActionRequest rt c.idempotencyKey c.drawn body
  | .approve requestId body => approveActionRequest rt c.idempotencyKey requestId body
  | .reject requestId body => rejectActionRequest c.idempotencyKey requestId body
  | .revoke requestId body => revokeActionRequest c.idempotencyKey requestId body

end Piteka.Api
