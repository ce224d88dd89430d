import Piteka.Api.ActionRequests
import Piteka.Application.WebhookIngestionPaths
import Piteka.GitHub.WebhookSignature

/-!
# The webhook endpoint

`handle_webhook` from the request to the response: the headers, the body and the
signature are checked before anything is asked of a store, a ping is acknowledged, and
every other event goes to the ingestion.
-/
namespace Piteka.Api

set_option autoImplicit false

open Piteka.Interleaving Piteka.Interleaving.Program Piteka.Storage Piteka.Application Piteka.GitHub

/-- A request as the server hands it over, with header names in lower case; the body is none
when it cannot be read. -/
structure HttpRequest where
  headers : List (String × List UInt8)
  body : Option (Array UInt8)

/-- `HeaderValue::to_str` -/
def headerToStr (value : List UInt8) : Option String :=
  if value.all fun b => (32 ≤ b && b < 127) || b == 9 then
    some (String.ofList (value.map fun b => Char.ofNat b.toNat))
  else none

/-- The first header of the name. -/
def HttpRequest.header (request : HttpRequest) (name : String) : Option String :=
  (request.headers.find? fun h => h.1 = name).bind fun h => headerToStr h.2

inductive WebhookBody where
  | response (response : WebhookResponse)
  | error (detail : ErrorDetail)
  deriving DecidableEq

structure WebhookReply where
  status : Nat
  body : WebhookBody
  deriving DecidableEq

namespace WebhookReply

def badRequest (code message : String) : WebhookReply :=
  ⟨400, .error ⟨"BAD_REQUEST", "The request body is malformed or missing required fields",
    [⟨code, message, none⟩]⟩⟩

def unauthorized (code message : String) : WebhookReply :=
  ⟨401, .error ⟨code, message, [⟨code, message, none⟩]⟩⟩

def internal (message : String) : WebhookReply :=
  ⟨500, .error ⟨"INTERNAL_ERROR", "An internal error occurred", [⟨"INTERNAL_ERROR", message, none⟩]⟩⟩

/-- The response to what has been ingested. -/
def ofHandled : Except Application.ApiError WebhookResponse → WebhookReply
  | .ok response => ⟨200, .response response⟩
  | .error (.badRequest code message) => badRequest code message
  | .error (.internal message) => internal message

end WebhookReply

/-- `WebhookResponse::ping` -/
def pingResponse (deliveryId : String) : WebhookResponse := ⟨deliveryId, "ping", none, none⟩

/-- The adapter with its secret store, and the reference of the configured secret. -/
structure WebhookState where
  crypto : Crypto
  resolver : GitHubSecretResolver
  webhookSecret : GitHubWebhookSecret

/-- A header that has to be there, not empty and readable. -/
def requiredHeader (request : HttpRequest) (name : String) (missing : WebhookReply) :
    Except WebhookReply String :=
  match request.header name with
  | some value => if value = "" then .error missing else .ok value
  | none => .error missing

/-- Steps 1 to 3 of `handle_webhook`: the payload of a request whose signature is valid. -/
def authenticate (w : WebhookState) (request : HttpRequest) :
    Except WebhookReply GitHubWebhookPayload := do
  let deliveryId ← requiredHeader request "x-github-delivery"
    (.badRequest "MISSING_DELIVERY_ID" "The `X-GitHub-Delivery` header is required")
  let eventType ← requiredHeader request "x-github-event"
    (.badRequest "MISSING_EVENT_TYPE" "The `X-GitHub-Event` header is required")
  let signature ← requiredHeader request "x-hub-signature-256"
    (.unauthorized "MISSING_SIGNATURE" "The `X-Hub-Signature-256` header is required")
  match request.body with
  | none => .error (.internal "Failed to read request body")
  | some body =>
    let payload : GitHubWebhookPayload := { deliveryId, eventType, signature, body }
    match verifyWebhookSignature w.crypto w.resolver payload w.webhookSecret with
    | .error _ => .error (.internal "Webhook authentication is unavailable")
    | .ok .valid => .ok payload
    | .ok .missingOrMalformed =>
      .error (.unauthorized "MISSING_OR_MALFORMED_SIGNATURE"
        "The `X-Hub-Signature-256` header is missing or malformed")
    | .ok .invalid =>
      .error (.unauthorized "INVALID_SIGNATURE" "The webhook signature does not match the payload")

/-- `handle_webhook` -/
def webhookEndpoint (cd : Codec) (processor : WebhookIngestion.EventProcessor) (w : WebhookState)
    (request : HttpRequest) : Program ServiceCall ServiceAnswer WebhookReply :=
  match authenticate w request with
  | .error reply => .ret reply
  | .ok payload =>
    if payload.eventType = "ping" then .ret ⟨200, .response (pingResponse payload.deliveryId)⟩
    else (handleWebhook cd processor payload).bind fun handled => .ret (.ofHandled handled)

/-- The endpoint makes calls for authenticated events that are no pings. -/
theorem webhookEndpoint_next {cd : Codec} {processor : WebhookIngestion.EventProcessor} {w : WebhookState}
    {request : HttpRequest} {h : ServicePath} {op : ServiceCall}
    (hn : Next (webhookEndpoint cd processor w request) h op) :
    ∃ x, authenticate w request = .ok x ∧ x.eventType ≠ "ping" ∧ Next (handleWebhook cd processor x) h op := by
  unfold webhookEndpoint at hn
  split at hn
  · exact absurd hn next_ret
  · next x hx =>
    split at hn
    · exact absurd hn next_ret
    · next hping =>
      rcases next_bind hn with h1 | ⟨_, _, _, _, _, h1⟩
      · exact ⟨x, hx, hping, h1⟩
      · exact absurd h1 next_ret

end Piteka.Api
