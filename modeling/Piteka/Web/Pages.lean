import Piteka.Storage.Paths
import Piteka.Web.Templates
import Piteka.Web.Timestamps

/-!
# The work queue and the page of a request

The handlers read the stores, turn what they read into rows and render the templates.
A page that panics on the way is `none`.
-/
namespace Piteka.Web

set_option autoImplicit false

open Piteka.Interleaving Piteka.Interleaving.Program Piteka.Storage Piteka.Text.Markup

def requestStatus : ActionRequestStatus → String
  | .pending => "Pending"
  | .approved => "Approved"
  | .rejected => "Rejected"
  | .revoked => "Revoked"

/-- The status class, icon and label of a request. -/
def statusForRequest (status : String) : String × String × String :=
  if status = "Pending" then ("pending", "⏳", "Awaiting review")
  else if status = "Approved" then ("approved", "✓", "Approved — not yet used")
  else if status = "Rejected" then ("rejected", "✗", "Rejected")
  else if status = "Revoked" then ("revoked", "↩", "Revoked")
  else ("indeterminate", "?", status)

/-- The status class and label of a decision. -/
def statusForDecision (decision : String) : String × String :=
  if decision = "approved" then ("approved", "Approved")
  else if decision = "rejected" then ("rejected", "Rejected")
  else ("indeterminate", decision)

/-- The row of a request, with the texts of its time. -/
def workQueueRow (r : ActionRequest) (time : String × String) : WorkQueueRow where
  id := r.requestId
  requestedBy := r.requestedBy
  status := requestStatus r.status
  statusClass := (statusForRequest (requestStatus r.status)).1
  statusIcon := (statusForRequest (requestStatus r.status)).2.1
  statusLabel := (statusForRequest (requestStatus r.status)).2.2
  createdAtHuman := time.1
  createdAtIso := time.2

def workQueueTemplate (requests : List ActionRequest) : Option WorkQueueTemplate := do
  let rows ← requests.mapM fun r => do
    let time ← formatTimestamp r.createdAtUnixSeconds.toUInt64
    return workQueueRow r time
  return { title := "Work queue", currentPage := "work-queue", requests := rows }

/-- The placeholder page under a title. -/
def emptyQueue (title : String) : WorkQueueTemplate where
  title := title
  currentPage := "work-queue"
  requests := []

def WorkQueueTemplate.page (t : WorkQueueTemplate) : String :=
  render WorkQueueTemplate.escape t.pieces

def workQueue : Program PortCall Answer (Option String) :=
  .call (.store (.requests .list)) fun
    | .ok requests => .ret ((workQueueTemplate requests).map (·.page))
    | .error _ => .ret ((workQueueTemplate []).map (·.page))

def decisionRowOf (d : ApprovalDecision) (time : String × String) : DecisionRow where
  decidedBy := d.decidedBy
  decision := d.decision
  decisionClass := (statusForDecision d.decision).1
  decisionLabel := (statusForDecision d.decision).2
  decidedAtHuman := time.1
  decidedAtIso := time.2

def requestRow (r : ActionRequest) (time : String × String) (decisions : List DecisionRow) :
    RequestDetailRow where
  id := r.requestId
  requestedBy := r.requestedBy
  status := requestStatus r.status
  statusClass := (statusForRequest (requestStatus r.status)).1
  statusIcon := (statusForRequest (requestStatus r.status)).2.1
  statusLabel := (statusForRequest (requestStatus r.status)).2.2
  createdAtHuman := time.1
  createdAtIso := time.2
  decisions := decisions

/-- What is shown where a request has no intent. -/
def noIntent : String := "0000000000000000000000000000000000000000000000000000000000000000"

def intentPanel (request : ActionRequest) : IntentPanelData where
  repositoryOwner := "diewan"
  repositoryName := "demo-app"
  commitSha := request.intentIdHex.getD noIntent
  environmentName := "production"
  productionEnvironment := true
  task := "deploy"
  expiresAt := none
  expiresAtHuman := "No expiry set"
  expired := false
  digest := request.intentIdHex.getD noIntent
  evidenceRequirements :=
    ["GitHub commit status: all required contexts passed", "Artifact attestation present"]

def requestDetailTemplate (requestId : String) (request : ActionRequest)
    (decisions : List ApprovalDecision) : Option RequestDetailTemplate := do
  let time ← formatTimestamp request.createdAtUnixSeconds.toUInt64
  let decisionRows ← decisions.mapM fun d => do
    let time ← formatTimestamp d.decidedAtUnixSeconds.toUInt64
    return decisionRowOf d time
  return {
    title := "Request " ++ requestId
    currentPage := "work-queue"
    request := requestRow request time decisionRows
    intent := intentPanel request }

/-- The pieces of the page of a request, unless a hash cannot be shortened. -/
def requestDetailPieces (requestId : String) (request : ActionRequest)
    (decisions : List ApprovalDecision) : Option (List Piece) := do
  let t ← requestDetailTemplate requestId request decisions
  t.pieces

def requestDetailPage (requestId : String) (request : ActionRequest)
    (decisions : List ApprovalDecision) : Option String :=
  (requestDetailPieces requestId request decisions).map (render RequestDetailTemplate.escape)

def requestDetail (requestId : String) : Program PortCall Answer (Option String) :=
  .call (.store (.requests (.get requestId))) fun
    | .ok (some request) =>
      .call (.store (.decisions (.byRequest requestId))) fun
        | .ok decisions => .ret (requestDetailPage requestId request decisions)
        | .error _ => .ret (requestDetailPage requestId request [])
    | .ok none => .ret (some (emptyQueue "Not found").page)
    | .error _ => .ret (some (emptyQueue "Error").page)

/-! ## Runs of the handlers -/

theorem workQueue_returns {h : Path} {r : Option String} (hr : Returns workQueue h r) :
    ∃ requests, r = (workQueueTemplate requests).map (·.page) ∧
      (h = [did (.requests .list) requests] ∨ requests = []) := by
  obtain ⟨a, t, rfl, ht⟩ := returns_call.mp hr
  cases a with
  | error e => exact ⟨[], (returns_ret.mp ht).2, Or.inr rfl⟩
  | ok requests =>
    obtain ⟨rfl, hpage⟩ := returns_ret.mp ht
    exact ⟨requests, hpage, Or.inl rfl⟩

/-- A run reads the request and then its decisions, or it shows a placeholder. -/
theorem requestDetail_returns {requestId : String} {h : Path} {r : Option String}
    (hr : Returns (requestDetail requestId) h r) :
    (∃ title, r = some (emptyQueue title).page) ∨
      ∃ request decisions t, h = did (.requests (.get requestId)) (some request) :: t ∧
        r = requestDetailPage requestId request decisions := by
  obtain ⟨a, t, rfl, ht⟩ := returns_call.mp hr
  match a, ht with
  | .error _, ht => exact Or.inl ⟨"Error", (returns_ret.mp ht).2⟩
  | .ok none, ht => exact Or.inl ⟨"Not found", (returns_ret.mp ht).2⟩
  | .ok (some request), ht =>
    obtain ⟨b, t', rfl, hpage⟩ := returns_call.mp ht
    cases b with
    | error e => exact Or.inr ⟨request, [], _, rfl, (returns_ret.mp hpage).2⟩
    | ok decisions => exact Or.inr ⟨request, decisions, _, rfl, (returns_ret.mp hpage).2⟩

/-! ## What is rendered -/

/-- The text of a time. -/
def shownTime (seconds : Int64) : String := ((civil seconds.toUInt64).map isoText).getD ""

theorem formatTimestamp_eq (seconds : Int64) :
    formatTimestamp seconds.toUInt64 = some (shownTime seconds, shownTime seconds) := by
  obtain ⟨c, hc, _⟩ := civil_spec seconds.toUInt64
  rw [formatTimestamp, shownTime, hc]
  rfl

def shownQueueRow (r : ActionRequest) : WorkQueueRow :=
  workQueueRow r (shownTime r.createdAtUnixSeconds, shownTime r.createdAtUnixSeconds)

def shownDecision (d : ApprovalDecision) : DecisionRow :=
  decisionRowOf d (shownTime d.decidedAtUnixSeconds, shownTime d.decidedAtUnixSeconds)

def shownRequest (r : ActionRequest) (decisions : List ApprovalDecision) : RequestDetailRow :=
  requestRow r (shownTime r.createdAtUnixSeconds, shownTime r.createdAtUnixSeconds)
    (decisions.map shownDecision)

theorem mapM_some {α β : Type} (f : α → β) (l : List α) :
    l.mapM (fun a => (some (f a) : Option β)) = some (l.map f) := List.mapM_pure

theorem workQueueTemplate_eq (requests : List ActionRequest) :
    workQueueTemplate requests =
      some ⟨"Work queue", "work-queue", requests.map shownQueueRow⟩ := by
  simp only [workQueueTemplate, formatTimestamp_eq, Option.bind_eq_bind, Option.bind_some,
    Option.pure_def]
  rw [mapM_some fun r => workQueueRow r _]
  rfl

def shownDetail (requestId : String) (request : ActionRequest)
    (decisions : List ApprovalDecision) : RequestDetailTemplate where
  title := "Request " ++ requestId
  currentPage := "work-queue"
  request := shownRequest request decisions
  intent := intentPanel request

theorem requestDetailTemplate_eq (requestId : String) (request : ActionRequest)
    (decisions : List ApprovalDecision) :
    requestDetailTemplate requestId request decisions =
      some (shownDetail requestId request decisions) := by
  simp only [requestDetailTemplate, formatTimestamp_eq, Option.bind_eq_bind, Option.bind_some,
    Option.pure_def]
  rw [mapM_some fun d => decisionRowOf d _]
  rfl

theorem requestDetailPieces_eq (requestId : String) (request : ActionRequest)
    (decisions : List ApprovalDecision) :
    requestDetailPieces requestId request decisions =
      (truncateHash (request.intentIdHex.getD noIntent)).map fun shown =>
        base ("Request " ++ requestId) "work-queue"
          (requestDetailBody (shownDetail requestId request decisions) shown shown) := by
  rw [requestDetailPieces, requestDetailTemplate_eq, Option.bind_eq_bind, Option.bind_some,
    RequestDetailTemplate.pieces]
  cases h : truncateHash (request.intentIdHex.getD noIntent) <;>
    simp [shownDetail, intentPanel, h]

end Piteka.Web
