import Piteka.Application.ToolBoundaryPaths

/-!
# The tool transport

The JSON-RPC endpoint in front of the tool boundary, and the catalog of tools that it
publishes. A message without an id is not answered; the identity is the one that the
transport has authenticated, whatever the message says.
-/
namespace Piteka.Application

set_option autoImplicit false

open Piteka.Interleaving Piteka.Storage

def protocolVersion : String := "2025-06-18"

/-! ## The catalog -/

def tool (name description : String) (inputSchema : Json) : Json :=
  .object [("name", .string name), ("description", .string description),
    ("inputSchema", inputSchema)]

def textSchema : Json := .object [("type", .string "string"), ("minLength", .ofNat 1)]

def numberSchema : Json := .object [("type", .string "integer"), ("minimum", .ofNat 1)]

def objectSchema : Json :=
  .object [("type", .string "object"), ("properties", .object [("id", textSchema)]),
    ("required", .ofStrings ["id"]), ("additionalProperties", .bool false)]

def deploymentSchema (execute : Bool) : Json :=
  let properties := [("request_id", textSchema), ("repository_id", numberSchema),
    ("commit_sha",
      .object [("type", .string "string"), ("pattern", .string "^[0-9a-f]\x7b40\x7d$")]),
    ("environment_id", numberSchema), ("intent_id", textSchema)]
  let required := ["request_id", "repository_id", "commit_sha", "environment_id", "intent_id"]
  .object [("type", .string "object"),
    ("properties",
      .object (if execute then properties ++ [("mandate_id", textSchema)] else properties)),
    ("required", .ofStrings (if execute then required ++ ["mandate_id"] else required)),
    ("additionalProperties", .bool false)]

def toolCatalog : Json :=
  .array [
    tool "piteka_request_deployment"
      "Requests review of an exact deployment. Creates a pending action request; it does not approve or execute it."
      (deploymentSchema false),
    tool "piteka_get_action_status"
      "Reads the current status of a tenant-scoped action. No side effects." objectSchema,
    tool "piteka_execute_approved_deployment"
      "SIDE EFFECT: reserves a single-use mandate and may create a GitHub deployment. Requires an exact valid mandate and rejects changed parameters."
      (deploymentSchema true),
    tool "piteka_get_receipt"
      "Reads a tenant-scoped execution receipt. No side effects." objectSchema,
    tool "piteka_export_dispute_bundle"
      "SIDE EFFECT: creates an auditable export of disclosed evidence for a receipt." objectSchema,
    tool "piteka_verify_bundle"
      "Verifies a bundle with the pinned Parwana verifier and returns structured assurance. No provider side effects."
      objectSchema]

/-! ## Messages and replies -/

/-- The codec with the `Display` text of a value. -/
structure TransportCodec extends ToolCodec where
  display : Json → String

/-- `details` is left out when there are none. -/
def McpError.toJson (e : McpError) : Json :=
  .object ([("code", .string e.code), ("message", .string e.message)] ++
    (e.details.map fun details => ("details", details)).toList)

def initialized : Json :=
  .object [("protocolVersion", .string protocolVersion),
    ("capabilities", .object [("tools", .object [("listChanged", .bool false)])]),
    ("serverInfo", .object [("name", .string "piteka-mcp"), ("version", .string "0.1.0")])]

def textContent (text : String) : Json :=
  .array [.object [("type", .string "text"), ("text", .string text)]]

def toolResult (cd : TransportCodec) (value : Json) : Json :=
  .object [("content", textContent (cd.display value)), ("structuredContent", value),
    ("isError", .bool false)]

def errorResult (e : McpError) : Json :=
  .object [("content", textContent e.message),
    ("structuredContent", .object [("error", e.toJson)]), ("isError", .bool true)]

def rpcReply (id result : Json) : Json :=
  .object [("jsonrpc", .string "2.0"), ("id", id), ("result", result)]

/-- A message, with the identity of the connection that it came over. -/
structure Message where
  identity : McpIdentity
  request : Json

namespace Message

variable (m : Message)

def id : Option Json := m.request.get "id"

def method : Option String := (m.request.get "method").bind Json.asStr

def params : Json := (m.request.get "params").getD .null

/-- The tool call that the message describes. -/
def invocation : ToolInvocation where
  identity := m.identity
  name := ((m.params.get "name").bind Json.asStr).getD ""
  arguments := (m.params.get "arguments").getD (.object [])

/-- The `match` of `handle`. -/
def result (cd : TransportCodec) (method : String) : Program ToolCall ToolCall.Answer ToolResult :=
  match method with
  | "initialize" => .ret (.ok initialized)
  | "tools/list" => .ret (.ok (.object [("tools", toolCatalog)]))
  | "tools/call" => (m.invocation.program cd.toToolCodec).bind fun r => .ret (r.map (toolResult cd))
  | _ => .ret (.error (.new "METHOD_NOT_FOUND" "Unknown JSON-RPC method"))

def answer (id : Json) : ToolResult → Json
  | .ok value => rpcReply id value
  | .error e => rpcReply id (errorResult e)

def handle (cd : TransportCodec) : Program ToolCall ToolCall.Answer (Option Json) :=
  match m.method, m.id with
  | some method, some id => (m.result cd method).bind fun r => .ret (some (answer id r))
  | _, _ => .ret none

end Message

end Piteka.Application
