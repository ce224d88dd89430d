import Piteka.Domain.Identity
import Piteka.Interleaving.Fallible
import Piteka.Storage.Json
import Piteka.Text.Ascii
import Piteka.Text.Record

/-!
# The tool boundary

The application boundary behind the tool transport. A tool call is a program over
the methods of a backend, which is not constrained: it may give any answer. The
transport supplies the identity; the arguments are any JSON value, which the record
of a tool is read from, by name or by position.
-/
namespace Piteka.Application

set_option autoImplicit false

open Piteka.Interleaving Piteka.Domain Piteka.Storage Piteka.Text
open Piteka.Text.Record (Field RecordError Shape Values readRecord)

def maxArgumentBytes : Nat := 32 * 1024

def maxResponseBytes : Nat := 256 * 1024

structure McpError where
  code : String
  message : String
  details : Option Json

def McpError.new (code message : String) : McpError := ⟨code, message, none⟩

structure McpIdentity where
  serviceIdentity : String
  tenantId : String
  serviceNonblank : trimIsEmpty serviceIdentity = false
  tenantNonblank : trimIsEmpty tenantId = false

def McpIdentity.new (serviceIdentity tenantId : String) : Except McpError McpIdentity :=
  if h : trimIsEmpty serviceIdentity ∨ trimIsEmpty tenantId then
    .error (.new "UNAUTHENTICATED" "An authenticated service identity and tenant are required")
  else
    .ok ⟨serviceIdentity, tenantId, Bool.eq_false_iff.mpr fun hs => h (Or.inl hs),
      Bool.eq_false_iff.mpr fun ht => h (Or.inr ht)⟩

structure RequestDeployment where
  requestId : String
  repositoryId : UInt64
  commitSha : String
  environmentId : UInt64
  intentId : String

structure ObjectRef where
  id : String

structure ExecuteDeployment where
  requestId : String
  mandateId : String
  repositoryId : UInt64
  commitSha : String
  environmentId : UInt64
  intentId : String

/-! ## Reading the arguments -/

/-- A value of another type than the field's. -/
structure InvalidType where
  found : Json
  expected : String

def stringField (name : String) : Field Json InvalidType where
  name := name
  Val := String
  read
    | .string s => .ok s
    | v => .error ⟨v, "a string"⟩
  write := .string
  sound {v x} h := by
    split at h
    · exact congrArg Json.string (Except.ok.inj h)
    · cases h

/-- A negative number is below zero, so only the unsigned ones are read. -/
def u64Field (name : String) : Field Json InvalidType where
  name := name
  Val := UInt64
  read
    | .number (.posInt n) => .ok n
    | v => .error ⟨v, "u64"⟩
  write := .ofUInt64
  sound {v x} h := by
    split at h
    · exact congrArg Json.ofUInt64 (Except.ok.inj h)
    · cases h

def shape : Json → Shape Json
  | .object entries => .object entries
  | .array items => .sequence items
  | _ => .other

/-- The codec with the `Display` text of a reading error. -/
structure ToolCodec extends Codec where
  errorText : RecordError InvalidType → String

def decode {α : Type} (cd : ToolCodec) (fs : List (Field Json InvalidType)) (make : Values fs → α)
    (value : Json) : Except McpError α :=
  match readRecord fs (shape value) with
  | .error e => .error (.new "MALFORMED_ARGUMENTS" ("Invalid tool arguments: " ++ cd.errorText e))
  | .ok values => .ok (make values)

def RequestDeployment.fieldList : List (Field Json InvalidType) :=
  [stringField "request_id", u64Field "repository_id", stringField "commit_sha",
    u64Field "environment_id", stringField "intent_id"]

def RequestDeployment.ofValues : Values RequestDeployment.fieldList → RequestDeployment
  | (requestId, repositoryId, commitSha, environmentId, intentId, ()) =>
    ⟨requestId, repositoryId, commitSha, environmentId, intentId⟩

def ObjectRef.fieldList : List (Field Json InvalidType) := [stringField "id"]

def ObjectRef.ofValues : Values ObjectRef.fieldList → ObjectRef
  | (id, ()) => ⟨id⟩

def ExecuteDeployment.fieldList : List (Field Json InvalidType) :=
  [stringField "request_id", stringField "mandate_id", u64Field "repository_id",
    stringField "commit_sha", u64Field "environment_id", stringField "intent_id"]

def ExecuteDeployment.ofValues : Values ExecuteDeployment.fieldList → ExecuteDeployment
  | (requestId, mandateId, repositoryId, commitSha, environmentId, intentId, ()) =>
    ⟨requestId, mandateId, repositoryId, commitSha, environmentId, intentId⟩

/-- The arguments have exactly these fields, by name or by position. -/
def Presents (arguments : Json) (fields : List (String × Json)) : Prop :=
  (∃ entries, arguments = .object entries ∧ entries.Perm fields) ∨
    arguments = .array (fields.map Prod.snd)

theorem decode_ok {α : Type} {cd : ToolCodec} {fs : List (Field Json InvalidType)}
    {make : Values fs → α} {arguments : Json} {input : α}
    (h : decode cd fs make arguments = .ok input) :
    ∃ values, make values = input ∧ Presents arguments values.fields := by
  unfold decode at h
  cases hread : readRecord fs (shape arguments) with
  | error e =>
    rw [hread] at h
    cases h
  | ok values =>
    rw [hread] at h
    refine ⟨values, Except.ok.inj h, ?_⟩
    cases arguments with
    | object entries => exact Or.inl ⟨entries, rfl, Record.readRecord_object hread⟩
    | array items => exact Or.inr (congrArg Json.array (Record.readRecord_sequence hread))
    | null => cases hread
    | bool => cases hread
    | number => cases hread
    | string => cases hread

/-! ## The backend -/

/-- The methods of `AccountabilityTools` that take an object id. -/
inductive ObjectMethod where
  | getActionStatus
  | getReceipt
  | exportDisputeBundle
  | verifyBundle

/-- A call of `AccountabilityTools`. -/
inductive ToolCall where
  | recomputeIntentId (tenant : String) (repositoryId : UInt64) (commitSha : String)
      (environmentId : UInt64)
  | requestDeployment (identity : McpIdentity) (input : RequestDeployment)
  | executeApprovedDeployment (identity : McpIdentity) (input : ExecuteDeployment)
  | object (method : ObjectMethod) (identity : McpIdentity) (id : String)

@[reducible] def ToolCall.Answer : ToolCall → Type
  | .recomputeIntentId .. => Except McpError String
  | .requestDeployment .. => Except McpError Json
  | .executeApprovedDeployment .. => Except McpError Json
  | .object .. => Except McpError Json

abbrev ToolUse (α : Type) := ExceptT McpError (Program ToolCall ToolCall.Answer) α

def requestDeployment (identity : McpIdentity) (input : RequestDeployment) : ToolUse Json :=
  ExceptT.mk (.call (.requestDeployment identity input) .ret)

def executeApprovedDeployment (identity : McpIdentity) (input : ExecuteDeployment) :
    ToolUse Json :=
  ExceptT.mk (.call (.executeApprovedDeployment identity input) .ret)

def objectCall (method : ObjectMethod) (identity : McpIdentity) (id : String) : ToolUse Json :=
  ExceptT.mk (.call (.object method identity id) .ret)

/-! ## The tools -/

def validSha (commitSha : String) : Bool :=
  (Ascii.bytes commitSha).length == 40 && (Ascii.bytes commitSha).all Hex.isLowerDigit

def validateDeploymentFields (requestId : String) (repositoryId : UInt64) (commitSha : String)
    (environmentId : UInt64) : Except McpError Unit :=
  if trimIsEmpty requestId || repositoryId == 0 || environmentId == 0 || !validSha commitSha then
    .error (.new "MALFORMED_ARGUMENTS"
      "request_id, stable provider IDs, and a lower-case 40-character commit SHA are required")
  else .ok ()

def intentMismatch (supplied computed : String) : McpError where
  code := "INTENT_MISMATCH"
  message := "Deployment parameters do not match the authorized intent"
  details := some (.object [("supplied_intent_id", .string supplied),
    ("computed_intent_id", .string computed)])

def compareIntent (supplied : String) : Except McpError String → Except McpError Unit
  | .error e => .error e
  | .ok computed => if computed ≠ supplied then .error (intentMismatch supplied computed) else .ok ()

def validateIntent (identity : McpIdentity) (repositoryId : UInt64) (commitSha : String)
    (environmentId : UInt64) (supplied : String) : ToolUse Unit :=
  ExceptT.mk (.call (.recomputeIntentId identity.tenantId repositoryId commitSha environmentId)
    fun r => .ret (compareIntent supplied r))

def validateObjectId (id : String) : Except McpError Unit :=
  if trimIsEmpty id then .error (.new "MALFORMED_ARGUMENTS" "id must not be empty") else .ok ()

/-- The checks of the request tool before its first call. -/
def checkRequest (cd : ToolCodec) (arguments : Json) : Except McpError RequestDeployment := do
  let input ← decode cd RequestDeployment.fieldList .ofValues arguments
  validateDeploymentFields input.requestId input.repositoryId input.commitSha input.environmentId
  return input

/-- The checks of the execute tool before its first call. -/
def checkExecute (cd : ToolCodec) (arguments : Json) : Except McpError ExecuteDeployment := do
  let input ← decode cd ExecuteDeployment.fieldList .ofValues arguments
  validateDeploymentFields input.requestId input.repositoryId input.commitSha input.environmentId
  if trimIsEmpty input.mandateId then
    throw (.new "MALFORMED_ARGUMENTS" "mandate_id must not be empty")
  else return input

def checkObject (cd : ToolCodec) (arguments : Json) : Except McpError ObjectRef := do
  let input ← decode cd ObjectRef.fieldList .ofValues arguments
  validateObjectId input.id
  return input

def requestTool (cd : ToolCodec) (identity : McpIdentity) (arguments : Json) : ToolUse Json :=
  match checkRequest cd arguments with
  | .error e => throw e
  | .ok input => do
    validateIntent identity input.repositoryId input.commitSha input.environmentId input.intentId
    requestDeployment identity input

def executeTool (cd : ToolCodec) (identity : McpIdentity) (arguments : Json) : ToolUse Json :=
  match checkExecute cd arguments with
  | .error e => throw e
  | .ok input => do
    validateIntent identity input.repositoryId input.commitSha input.environmentId input.intentId
    executeApprovedDeployment identity input

/-- A tool that takes an object id. -/
def objectTool (method : ObjectMethod) (cd : ToolCodec) (identity : McpIdentity)
    (arguments : Json) : ToolUse Json :=
  match checkObject cd arguments with
  | .error e => throw e
  | .ok input => objectCall method identity input.id

/-- The `match` of `call_tool`. -/
def runTool (cd : ToolCodec) (identity : McpIdentity) (name : String) (arguments : Json) :
    ToolUse Json :=
  match name with
  | "piteka_request_deployment" => requestTool cd identity arguments
  | "piteka_get_action_status" => objectTool .getActionStatus cd identity arguments
  | "piteka_execute_approved_deployment" => executeTool cd identity arguments
  | "piteka_get_receipt" => objectTool .getReceipt cd identity arguments
  | "piteka_export_dispute_bundle" => objectTool .exportDisputeBundle cd identity arguments
  | "piteka_verify_bundle" => objectTool .verifyBundle cd identity arguments
  | _ => throw (.new "TOOL_NOT_FOUND" "Unknown Piteka tool")

def boundResponse (cd : ToolCodec) (response : Json) : Except McpError Json :=
  if maxResponseBytes < (cd.toVec response).size then
    .error (.new "RESPONSE_TOO_LARGE" "Tool response exceeds the 256 KiB limit")
  else .ok response

def callTool (cd : ToolCodec) (identity : McpIdentity) (name : String) (arguments : Json) :
    ToolUse Json :=
  if maxArgumentBytes < (cd.toVec arguments).size then
    throw (.new "ARGUMENTS_TOO_LARGE" "Tool arguments exceed the 32 KiB limit")
  else do
    let response ← runTool cd identity name arguments
    ExceptT.mk (.ret (boundResponse cd response))

end Piteka.Application
