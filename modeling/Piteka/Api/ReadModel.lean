import Mathlib.Data.List.Infix
import Piteka.Api.ActionRequests
import Piteka.Application.BundleExport
import Piteka.Application.EvidenceFeed
import Piteka.Interleaving.Layer

/-!
# The read API

The handlers of the read routes, over the stores of receipts, nodes, mandates, attempts
and audit events. None of them runs in a transaction: each query is a call of its own,
and others can write between two of them.
-/
namespace Piteka.Api

set_option autoImplicit false

open Piteka.Interleaving Piteka.Storage Piteka.Application

/-- What the read API asks besides the ports. -/
inductive ListCall where
  /-- `list_ids_ordered`, with the order in which the database sorts texts -/
  | listIdsOrdered (collation : Collation)

@[reducible] def ListAnswer : ListCall → Type
  | .listIdsOrdered _ => StorageResult (List Listing)

abbrev ReadCall := PortCall ⊕ ListCall

abbrev ReadAnswer := OneOf Answer ListAnswer

/-- A handler ends early with the error that it answers. -/
abbrev ReadCase (ε α : Type) := ExceptT ε (Program ReadCall ReadAnswer) α

section
variable {ε : Type}

def orError {α : Type} (wrap : StorageError → ε) : StorageResult α → Program ReadCall ReadAnswer (Except ε α)
  | .ok x => .ret (.ok x)
  | .error e => .ret (.error (wrap e))

/-- A query, with what its error becomes. -/
def query (wrap : StorageError → ε) (c : StoreCall) : ReadCase ε c.Ok :=
  ExceptT.mk (.call (.inl (.store c)) (orError wrap))

def queryIds (wrap : StorageError → ε) (collation : Collation) : ReadCase ε (List Listing) :=
  ExceptT.mk (.call (.inr (.listIdsOrdered collation)) (orError wrap))

/-- The export of a receipt, with its own error. -/
def exported (cd : Codec) (id : String) : ReadCase ε (Except BundleExportError (Array UInt8)) :=
  ExceptT.mk ((exportManifestBytes cd id).run.lift.bind fun r => .ret (.ok r))

end

abbrev fromStore (c : StoreCall) : ReadCase ApiError c.Ok := query .ofStorage c

abbrev fromListing (collation : Collation) : ReadCase ApiError (List Listing) := queryIds .ofStorage collation

/-! ## Responses -/

structure ReceiptSummary where
  receiptId : String
  mandateId : String
  outcome : String
  createdAt : Int64
  deriving DecidableEq

structure ReceiptDetail where
  receiptId : String
  mandateId : String
  intentId : String
  attemptId : String
  outcome : String
  createdAt : Int64
  dispatchEvidenceRefs : List String
  targetEvidenceRefs : List String
  evidenceGaps : List String
  deriving DecidableEq

structure MandateDetail where
  mandateId : String
  state : String
  version : Int64
  deriving DecidableEq

structure ChainStep where
  atTime : Int64
  actor : Option String
  action : String
  decision : String
  detail : String
  deriving DecidableEq

structure ChainAttempt where
  attemptId : String
  executorIdentity : String
  state : String
  githubDeploymentId : Option UInt64
  startedAt : Int64
  deriving DecidableEq

structure ChainEvidence where
  nodeId : String
  registryId : String
  source : String
  producerIdentity : String
  contentDigest : String
  mediaType : String
  deriving DecidableEq

structure MandateChain where
  mandate : MandateDetail
  timeline : List ChainStep
  attempts : List ChainAttempt
  receipts : List ReceiptDetail
  evidence : List ChainEvidence
  deriving DecidableEq

def outcomeStr : ReceiptOutcome → String
  | .succeeded => "succeeded"
  | .failed => "failed"
  | .rejected => "rejected"
  | .unknown => "unknown"

def attemptStateStr : ExecutionAttemptState → String
  | .prepared => "prepared"
  | .dispatching => "dispatching"
  | .accepted => "accepted"
  | .rejected => "rejected"
  | .outcomeAmbiguous => "outcome_ambiguous"
  | .reconciledAccepted => "reconciled_accepted"
  | .reconciledNotAccepted => "reconciled_not_accepted"
  | .abandonedAmbiguous => "abandoned_ambiguous"

def sourceStr : EvidenceSource → String
  | .piteka => "piteka"
  | .provider name => "provider:" ++ name
  | .verifier => "verifier"

def receiptSummary (receipt : ReceiptProjection) : ReceiptSummary where
  receiptId := receipt.receiptIdHex
  mandateId := receipt.mandateIdHex
  outcome := outcomeStr receipt.outcome
  createdAt := receipt.createdAtUnixSeconds

def receiptDetail (receipt : ReceiptProjection) : ReceiptDetail where
  receiptId := receipt.receiptIdHex
  mandateId := receipt.mandateIdHex
  intentId := receipt.intentIdHex
  attemptId := receipt.attemptIdHex
  outcome := outcomeStr receipt.outcome
  createdAt := receipt.createdAtUnixSeconds
  dispatchEvidenceRefs := receipt.dispatchEvidenceRefs
  targetEvidenceRefs := receipt.targetEvidenceRefs
  evidenceGaps := receipt.evidenceGaps

def mandateDetail (mandate : MandateProjection) : MandateDetail where
  mandateId := mandate.mandateIdHex
  state := mandate.state
  version := mandate.version

def chainAttempt (attempt : ExecutionAttempt) : ChainAttempt where
  attemptId := attempt.attemptIdHex
  executorIdentity := attempt.executorIdentity
  state := attemptStateStr attempt.state
  githubDeploymentId := attempt.githubDeploymentId
  startedAt := attempt.startedAtUnixSeconds

def chainEvidence (node : EvidenceNodeRecord) : ChainEvidence where
  nodeId := node.nodeIdHex
  registryId := node.registryId
  source := sourceStr node.source
  producerIdentity := node.producerIdentity
  contentDigest := node.contentDigest.toHex
  mediaType := node.mediaType

def chainStep (event : AuditEvent) : ChainStep where
  atTime := event.occurredAtUnixSeconds
  actor := event.actor
  action := event.action
  decision := event.decision
  detail := event.detail

inductive ReadBody where
  | summaries (summaries : List ReceiptSummary)
  | receipt (detail : ReceiptDetail)
  | manifest (bytes : Array UInt8)
  | mandate (detail : MandateDetail)
  | chain (chain : MandateChain)
  | error (body : Body)

structure ReadReply where
  status : Nat
  body : ReadBody

def readReply : Except ApiError ReadBody → ReadReply
  | .ok body => ⟨200, body⟩
  | .error e => ⟨e.intoResponse.status, .error e.intoResponse.body⟩

/-! ## Handlers -/

/-- A row that has to be there. -/
def found {α : Type} (resource id : String) : Option α → ReadCase ApiError α
  | some x => return x
  | none => throw (.notFound resource id)

/-- A loop that reads the row of each id and leaves out what is not there. -/
def gather {α β : Type} (read : String → ReadCase ApiError (Option α)) (shown : α → β) :
    List String → ReadCase ApiError (List β)
  | [] => return []
  | id :: ids => do
    let row ← read id
    let rest ← gather read shown ids
    return (row.map shown).toList ++ rest

def listReceipts (collation : Collation) : ReadCase ApiError (List ReceiptSummary) := do
  let ids ← fromListing collation
  let summaries ← gather (fun id => fromStore (.receipts (.get id))) receiptSummary (ids.map (·.1))
  return summaries.reverse

def getReceipt (id : String) : ReadCase ApiError ReceiptDetail := do
  let receipt ← found "receipt" id (← fromStore (.receipts (.get id)))
  return receiptDetail receipt

def exportReceipt (cd : Codec) (id : String) : ReadCase ApiError (Array UInt8) := do
  let _ ← found "receipt" id (← fromStore (.receipts (.get id)))
  match ← exported cd id with
  | .ok bytes => return bytes
  | .error err => throw (.internal ("cannot export receipt " ++ id ++ ": " ++ err.display))

def getMandate (id : String) : ReadCase ApiError MandateDetail := do
  let mandate ← found "mandate" id (← fromStore (.mandates (.get id)))
  return mandateDetail mandate

/-- `if !evidence_ids.contains(node_id) { evidence_ids.push(node_id.clone()) }` -/
def pushNew (ids : List String) (id : String) : List String :=
  if id ∈ ids then ids else ids ++ [id]

/-- The distinct nodes that the receipts refer to, in the order in which they come. -/
def evidenceIds (receipts : List ReceiptProjection) : List String :=
  (receipts.flatMap fun receipt => receipt.dispatchEvidenceRefs ++ receipt.targetEvidenceRefs).foldl
    pushNew []

/-- The ids by which the events of the chain are found. -/
def matchIds (id : String) (receipts : List ReceiptProjection) (attempts : List ExecutionAttempt) :
    List String :=
  [id] ++ (receipts.flatMap fun receipt =>
    (if receipt.intentIdHex = "" then [] else [receipt.intentIdHex]) ++
      if receipt.attemptIdHex = "" then [] else [receipt.attemptIdHex]) ++
    attempts.map (·.attemptIdHex)

/-- `str::contains` -/
def contains (text needle : String) : Bool := decide (needle.toList <:+: text.toList)

/-- The events that name one of the ids, by their times; the sort is stable. -/
def timelineOf (ids : List String) (recent : List AuditEvent) : List ChainStep :=
  ((recent.filter fun event => ids.any (contains event.detail)).map chainStep).insertionSort
    fun a b => a.atTime ≤ b.atTime

def getMandateChain (id : String) : ReadCase ApiError MandateChain := do
  let mandate ← found "mandate" id (← fromStore (.mandates (.get id)))
  let receipts ← fromStore (.receipts (.byMandate id))
  let attempts ← fromStore (.attempts (.byMandate id))
  let evidence ← gather (fun id => fromStore (.evidenceNodes (.get id))) chainEvidence
    (evidenceIds receipts)
  let recent ← fromStore (.audit (.recent 2000))
  return {
    mandate := mandateDetail mandate
    timeline := timelineOf (matchIds id receipts attempts) recent
    attempts := attempts.map chainAttempt
    receipts := receipts.map receiptDetail
    evidence }

inductive ReadRequest where
  | listReceipts (collation : Collation)
  | getReceipt (id : String)
  | exportReceipt (id : String)
  | getMandate (id : String)
  | getMandateChain (id : String)

/-- The route of the request. -/
def ReadRequest.handle (cd : Codec) : ReadRequest → ReadCase ApiError ReadBody
  | .listReceipts collation => return .summaries (← Api.listReceipts collation)
  | .getReceipt id => return .receipt (← Api.getReceipt id)
  | .exportReceipt id => return .manifest (← Api.exportReceipt cd id)
  | .getMandate id => return .mandate (← Api.getMandate id)
  | .getMandateChain id => return .chain (← Api.getMandateChain id)

def readEndpoint (cd : Codec) (request : ReadRequest) : Program ReadCall ReadAnswer ReadReply :=
  (request.handle cd).run.bind fun r => .ret (readReply r)

end Piteka.Api
