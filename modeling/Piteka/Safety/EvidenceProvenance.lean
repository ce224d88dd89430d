import Piteka.Postgres.DeploymentScenario
import Piteka.Safety.WebhookSecret

/-!
# Where stored evidence comes from

Anybody can post to the webhook endpoint. What ends up in the tables of deliveries,
nodes and receipts, whoever runs besides, was posted with a valid signature, or is the
receipt of an abandonment.
-/
namespace Piteka.Safety

set_option autoImplicit false

open Piteka.Interleaving Piteka.Interleaving.Program Piteka.Storage Piteka.Application Piteka.Postgres
  Piteka.Table Piteka.GitHub
open Piteka.Api (WebhookState HttpRequest WebhookReply webhookEndpoint requiredHeader authenticate)

/-- The request has the three headers and a body, and the signature is that of the body under the
key that the adapter takes from the resolved secret. -/
structure Authentic (w : WebhookState) (request : HttpRequest) (x : GitHubWebhookPayload) : Prop where
  deliveryId : request.header "x-github-delivery" = some x.deliveryId ∧ x.deliveryId ≠ ""
  eventType : request.header "x-github-event" = some x.eventType ∧ x.eventType ≠ ""
  signature : request.header "x-hub-signature-256" = some x.signature ∧ x.signature ≠ ""
  body : request.body = some x.body
  signed : ∃ secretBytes, w.resolver.resolveWebhookSecret w.webhookSecret = .ok secretBytes ∧
    SignedWith (w.crypto.hmacSha256 (if secretBytes.IsValidUTF8 then secretBytes else .empty) x.body)
      x.signature

theorem requiredHeader_eq_ok {request : HttpRequest} {name value : String} {missing : WebhookReply} :
    requiredHeader request name missing = .ok value ↔ request.header name = some value ∧ value ≠ "" := by
  unfold requiredHeader
  cases request.header name with
  | none => simp
  | some text =>
    dsimp only
    rw [Checks.guard_eq_ok]
    constructor
    · rintro ⟨hne, heq⟩
      obtain rfl := Except.ok.inj heq
      exact ⟨rfl, hne⟩
    · rintro ⟨heq, hne⟩
      obtain rfl := Option.some.inj heq
      exact ⟨hne, rfl⟩

theorem authenticate_ok {w : WebhookState} (hhex : w.crypto.hex.Documented) {request : HttpRequest}
    {x : GitHubWebhookPayload} (h : authenticate w request = .ok x) : Authentic w request x := by
  obtain ⟨deliveryId, hdelivery, h⟩ := Checks.bind_eq_ok.mp h
  obtain ⟨eventType, hevent, h⟩ := Checks.bind_eq_ok.mp h
  obtain ⟨signature, hsignature, h⟩ := Checks.bind_eq_ok.mp h
  split at h
  · cases h
  next body hbody =>
  dsimp only at h
  split at h
  · cases h
  · next hverified =>
    obtain rfl := Except.ok.inj h
    refine ⟨requiredHeader_eq_ok.mp hdelivery, requiredHeader_eq_ok.mp hevent,
      requiredHeader_eq_ok.mp hsignature, hbody, ?_⟩
    cases hres : w.resolver.resolveWebhookSecret w.webhookSecret with
    | error e =>
      rw [verifyWebhookSignature, hres] at hverified
      cases hverified
    | ok secretBytes => exact ⟨secretBytes, rfl, (adapter_valid_iff hhex hres _).mp hverified⟩
  · cases h
  · cases h

section
variable {ι : Type} {cd : Codec} {rc : RowCodec} {processes : ι → Process} {db₀ db db' : Database}

/-- An authentic request with the payload `x` has been posted. -/
def Posted (processes : ι → Process) (x : GitHubWebhookPayload) : Prop :=
  ∃ i w request, processes i = .webhook w request ∧ Authentic w request x

/-- A posted delivery reports the terminal status `event`. -/
def PostedStatus (cd : Codec) (processes : ι → Process) (event : DeploymentStatusEvent) : Prop :=
  ∃ x, Posted processes x ∧ x.eventType = "deployment_status" ∧
    parseDeploymentStatus cd x.body = some event ∧ isTerminalStatus event.state

/-- The row is what the insertion of the receipt writes. -/
def ReceiptWrittenAs (rc : RowCodec) (q : ReceiptProjection) (row : ReceiptRow) : Prop :=
  ∃ dispatch target gaps, rc.toText q.dispatchEvidenceRefs = .ok dispatch ∧
    rc.toText q.targetEvidenceRefs = .ok target ∧ rc.toText q.evidenceGaps = .ok gaps ∧
    row = PgReceiptProjectionStore.bound q dispatch target gaps

/-- A receipt of a stored attempt: for a posted status, or of a call that abandons its mandate. -/
inductive NewReceipt (cd : Codec) (rc : RowCodec) (processes : ι → Process) (db : Database)
    (row : ReceiptRow) : Prop
  | produced {event : DeploymentStatusEvent} {attempt : ExecutionAttempt} {now : Int64}
      (hposted : PostedStatus cd processes event) (hattempt : db.HasAttempt attempt)
      (hrow : ReceiptWrittenAs rc (event.receipt cd attempt now) row) : NewReceipt cd rc processes db row
  | abandoned {i : ι} {a : AbandonArgs} {attempt : ExecutionAttempt} {now : Int64}
      (hcall : processes i = .useCase (.abandonUnresolved a)) (hattempt : db.HasAttempt attempt)
      (hmandate : attempt.mandateIdHex = a.mandateIdHex)
      (hrow : ReceiptWrittenAs rc (a.receipt now attempt) row) : NewReceipt cd rc processes db row

/-- The rows that were not there at the start, and what they come from. -/
structure Sourced (cd : Codec) (rc : RowCodec) (processes : ι → Process) (db₀ db : Database) : Prop where
  delivery : ∀ id row, db.webhookReceipts.rows.get id = some row →
    db₀.webhookReceipts.rows.get id = some row ∨
      ∃ x now, Posted processes x ∧ row = PgWebhookReceiptStore.bound (x.receipt cd.toRuntime now)
  node : ∀ id row, db.evidenceNodes.rows.get id = some row →
    db₀.evidenceNodes.rows.get id = some row ∨
      ∃ event attempt now node, PostedStatus cd processes event ∧
        ProducedNode cd event attempt now node ∧ WrittenAs rc node row
  receipt : ∀ id row, db.receipts.rows.get id = some row →
    db₀.receipts.rows.get id = some row ∨ NewReceipt cd rc processes db row

theorem sourced_refl (cd : Codec) (rc : RowCodec) (processes : ι → Process) (db : Database) :
    Sourced cd rc processes db db :=
  ⟨fun _ _ => Or.inl, fun _ _ => Or.inl, fun _ _ => Or.inl⟩

theorem NewReceipt.extends {row : ReceiptRow} (h : NewReceipt cd rc processes db row)
    (hext : db.Extends db') : NewReceipt cd rc processes db' row := by
  cases h with
  | produced hposted hattempt hrow => exact .produced hposted (hext.hasAttempt hattempt) hrow
  | abandoned hcall hattempt hmandate hrow => exact .abandoned hcall (hext.hasAttempt hattempt) hmandate hrow

section
variable (hhex : ∀ i w request, processes i = .webhook w request → w.crypto.hex.Documented)
include hhex

theorem posted_of_delivers {i : ι} {x : GitHubWebhookPayload} (h : (processes i).Delivers x) :
    Posted processes x := by
  cases hi : processes i with
  | webhook w request =>
    rw [hi] at h
    exact ⟨i, w, request, hi, authenticate_ok (hhex i w request hi) h.1⟩
  | _ =>
    rw [hi] at h
    exact h.elim

theorem posted_of_reports {i : ι} {event : DeploymentStatusEvent}
    (h : (processes i).ReportsTerminal cd event) : PostedStatus cd processes event := by
  obtain ⟨x, hx, hrest⟩ := h
  exact ⟨x, posted_of_delivers hhex hx, hrest⟩

variable [DecidableEq ι] {log : List (DeployEntry ι)} {p : (i : ι) → DeployProgram (processes i).Res}

/-- A receipt that is inserted is a new one with its source. -/
theorem receipt_sourced {s₀ : Database} (run : DeploymentRun cd rc processes s₀ log db p) {i : ι}
    {q : ReceiptProjection} {row : ReceiptRow}
    (hn : Next ((processes i).program cd) (history i log) (.inl (.receipts (.insert q))))
    (hrow : ReceiptWrittenAs rc q row) : NewReceipt cd rc processes db row := by
  obtain ⟨attempt, hsource⟩ := receipt_insert_deployed hn
  cases hsource with
  | produced hx hread _ => exact .produced (posted_of_reports hhex hx) (deployed_knows run hread) hrow
  | @abandoned a rows attempt now hx hread hmem =>
    obtain ⟨hm, hattempt⟩ := (deployed_knows run hread : ∀ y ∈ rows, _) attempt hmem
    exact .abandoned hx hattempt hm hrow

theorem sourced_step {s₀ : Database} (run : DeploymentRun cd rc processes s₀ log db p)
    (hdb : Sourced cd rc processes db₀ db) {i : ι} {c : DatabaseCall} {a : c.Answer}
    (hn : Next ((processes i).program cd) (history i log) (.inl c)) (hx : DatabaseExec rc db c a db') :
    Sourced cd rc processes db₀ db' := by
  have hext : db.Extends db' := exec_extends (neverReissues_deployed hn) hx
  have hkept : ∀ id row, db.receipts.rows.get id = some row →
      db₀.receipts.rows.get id = some row ∨ NewReceipt cd rc processes db' row :=
    fun id row hrow => (hdb.receipt id row hrow).imp_right fun h => h.extends hext
  rcases exec_state hx with rfl | ⟨scans, rfl⟩
  · exact hdb
  cases c with
  | webhookReceipts c =>
    refine ⟨fun id row hrow => ?_, hdb.node, hkept⟩
    have hafter := delivery_row_after rc.hex db.webhookReceipts c id
    replace hrow : (db.webhookReceipts.answer rc.hex c).2.rows.get id = some row := hrow
    generalize (db.webhookReceipts.answer rc.hex c).2.rows.get id = row' at hafter hrow
    cases hafter with
    | same => exact hdb.delivery id row hrow
    | recorded hc _ _ =>
      subst hc
      obtain ⟨x, now, hdelivers, rfl⟩ := delivery_record_deployed hn
      exact Or.inr ⟨x, now, posted_of_delivers hhex hdelivers, (Option.some.inj hrow).symm⟩
  | evidenceNodes c =>
    refine ⟨hdb.delivery, fun id row hrow => ?_, hkept⟩
    have hafter := node_row_after rc scans.nodes.order db.evidenceNodes c id
    replace hrow : (db.evidenceNodes.answer rc scans.nodes.order c).2.rows.get id = some row := hrow
    generalize (db.evidenceNodes.answer rc scans.nodes.order c).2.rows.get id = row' at hafter hrow
    cases hafter with
    | same => exact hdb.node id row hrow
    | inserted hc _ _ htext =>
      subst hc
      obtain ⟨event, attempt, now, hreports, hnode⟩ := node_insert_deployed hn
      exact Or.inr ⟨event, attempt, now, _, posted_of_reports hhex hreports,
        hnode, _, htext, (Option.some.inj hrow).symm⟩
  | receipts c =>
    refine ⟨hdb.delivery, hdb.node, fun id row hrow => ?_⟩
    have hafter := receipt_row_after rc scans.receipts db.receipts c id
    replace hrow : (db.receipts.answer rc scans.receipts c).2.rows.get id = some row := hrow
    generalize (db.receipts.answer rc scans.receipts c).2.rows.get id = row' at hafter hrow
    cases hafter with
    | same => exact hkept id row hrow
    | inserted hc _ _ hdispatch htarget hgaps =>
      subst hc
      have hnew := receipt_sourced hhex run hn
        ⟨_, _, _, hdispatch, htarget, hgaps, (Option.some.inj hrow).symm⟩
      exact Or.inr (hnew.extends hext)
  | _ => exact ⟨hdb.delivery, hdb.node, hkept⟩

/-- Over any run of the processes of a deployment, with any requests posted by anybody: every row
of a delivery, a node or a receipt that was not there at the start is of a delivery posted with a
valid signature, of the terminal status that such a delivery reports, or of a call that abandons a
mandate; and the receipts are of stored attempts. -/
theorem evidence_authenticated (run : DeploymentRun cd rc processes db log db' p) :
    Sourced cd rc processes db db' := by
  refine run.invariant (I := fun _ s => Sourced cd rc processes db s.1) (sourced_refl cd rc processes db) ?_
  rintro log ⟨db₁, ⟨⟩⟩ p i op a ⟨db₂, ⟨⟩⟩ run hsourced hn hx
  cases op with
  | inl c => exact sourced_step hhex run hsourced hn hx.1
  | inr c => exact hx.2 ▸ hsourced

end

end

/-- The delivery with the valid signature ends in a receipt, the other one is not even recorded. -/
example : (received.state.1.receipts.rows.get "rcpt-att-m-1").isSome ∧
    received.state.1.webhookReceipts.rows.get "d-2" = none := by decide +kernel

theorem evidence_authenticated_received :
    Sourced sampleCodec plainLists posts attemptedDatabase received.state.1 := by
  refine evidence_authenticated (fun i w request hi => ?_) received_run
  cases i <;> cases hi <;> exact Text.Hex.Reader.standard_documented

end Piteka.Safety
