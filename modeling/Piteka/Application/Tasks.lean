import Piteka.Application.BundleExportPaths
import Piteka.Application.Points
import Piteka.Application.ReceiptProductionPaths

/-!
# Use cases, webhook processors and exporters together

The callers of a task run are the use-case calls, the productions of receipts, the
processors of webhook deliveries and the assembly of bundles, in any number and
any order of steps. Only some of them write evidence, and each in its own way.
-/
namespace Piteka.Application

set_option autoImplicit false

open Piteka.Interleaving Piteka.Interleaving.Program Piteka.Storage

inductive Task where
  | useCase (c : Call)
  | produceReceipt (event : DeploymentStatusEvent)
  | process (x : Delivery)
  | assembleBundle (receiptIdHex : String)
  deriving DecidableEq

namespace Task

@[reducible] def Res : Task → Type
  | useCase c => c.Res
  | produceReceipt _ => Except ReceiptProductionError ReceiptProductionResult
  | process _ => Except WebhookError Unit
  | assembleBundle _ => Except BundleExportError BundleExport

def program (cd : Codec) : (t : Task) → Program PortCall Answer t.Res
  | useCase c => c.program cd.toRuntime
  | produceReceipt event => (produceReceiptFromWebhook cd event).run
  | process x => (x.process cd).run
  | assembleBundle id => (Application.assembleBundle cd id).run

/-- The task produces the receipt of a status: on its own or for a delivery. -/
inductive Produces (cd : Codec) : Task → DeploymentStatusEvent → Prop
  | alone (event : DeploymentStatusEvent) : Produces cd (.produceReceipt event) event
  | delivered {x : Delivery} {event : DeploymentStatusEvent} (hx : x.Reports cd event)
      (ht : isTerminalStatus event.state) : Produces cd (.process x) event

theorem Produces.unique {cd : Codec} {t : Task} {event event' : DeploymentStatusEvent}
    (h : t.Produces cd event) (h' : t.Produces cd event') : event = event' := by
  cases h with
  | alone =>
    cases h'
    rfl
  | delivered hx ht =>
    cases h' with
    | delivered hx' ht' => exact Option.some.inj (hx.2.symm.trans hx'.2)

end Task

variable {ι : Type}

/-- A run of the tasks `tasks` from the stores `s₀`. -/
abbrev TaskRun [DecidableEq ι] (cd : Codec) (faults : StoreCall → Prop) (tasks : ι → Task)
    (s₀ : Stores) (log : List (Event ι)) (s : Stores)
    (p : (i : ι) → Program PortCall Answer (tasks i).Res) : Prop :=
  Run (Exec cd.toRuntime faults) s₀ (fun i => (tasks i).program cd) log s p

/-! ## Writers of evidence -/

/-- The stores that no use case touches. -/
def OfEvidence : StoreCall → Prop
  | .protocolObjects _ | .evidence _ | .evidenceNodes _ => True
  | _ => False

theorem Call.no_evidence {rt : Runtime} {c : Call} {h : Path} {sc : StoreCall}
    (hn : Next (c.program rt) h (.store sc)) : ¬ OfEvidence sc := by
  intro he
  generalize hop : PortCall.store sc = op at hn
  cases Call.next hn with
  | propose hp => cases hp <;> cases hop <;> exact he
  | decide hc hp =>
    cases hp with
    | status hp =>
      cases hp <;> cases hop
      all_goals exact he
    | _ =>
      cases hop
      all_goals exact he
  | revoke hp =>
    cases hp with
    | status hp =>
      cases hp <;> cases hop
      all_goals exact he
    | _ =>
      cases hop
      all_goals exact he
  | reserve hc hp => cases hp <;> cases hop <;> exact he
  | dispatch a t q hq v => cases hop
  | complete hc hp => cases hp <;> cases hop <;> exact he
  | reconcile hp => cases hp <;> cases hop <;> exact he
  | abandon hp => cases hp <;> cases hop <;> exact he

/-- What an exporter calls: reads, and the puts of the bundle. -/
inductive ExportCall (cd : Codec) : PortCall → Prop
  | receipt (id : String) : ExportCall cd (.store (.receipts (.get id)))
  | node (id : String) : ExportCall cd (.store (.evidenceNodes (.get id)))
  | blob (node : EvidenceNodeRecord) :
      ExportCall cd (.store (.evidence (.put (nodeBytes cd node))))
  | object (c : CaseFile) : ExportCall cd (.store (.protocolObjects (.put (c.object cd))))
  | descriptor (d : EvidenceDescriptor) :
      ExportCall cd (.store (.evidence (.putDescriptor d)))

/-- The reads of a case file. -/
inductive CaseRead : PortCall → Prop
  | receipt (id : String) : CaseRead (.store (.receipts (.get id)))
  | node (id : String) : CaseRead (.store (.evidenceNodes (.get id)))

section
variable {cd : Codec} {h : Path} {op : PortCall}

theorem CaseRead.exportCall (hread : CaseRead op) : ExportCall cd op := by
  cases hread with
  | receipt id => exact .receipt id
  | node id => exact .node id

theorem readNodes_next {ids : List String} (hn : Next (readNodes ids).run h op) : CaseRead op := by
  induction ids generalizing h with
  | nil => exact absurd hn next_pure
  | cons id ids ih =>
    unfold readNodes at hn
    rcases next_await.mp hn with ⟨_, rfl⟩ | ⟨o, h, rfl, h1⟩
    · exact .node id
    cases o with
    | none =>
      rcases next_seq h1 with h2 | ⟨_, _, _, _, _, h3⟩
      · exact ih h2
      · exact absurd h3 next_pure
    | some node =>
      rcases next_seq h1 with h2 | ⟨_, _, _, _, _, h3⟩
      · exact ih h2
      · exact absurd h3 next_pure

theorem fetchNodes_next {ids : List String} (hn : Next (fetchNodes ids).run h op) :
    CaseRead op := by
  unfold fetchNodes at hn
  rcases next_seq hn with h1 | ⟨_, _, _, _, _, h2⟩
  · exact readNodes_next h1
  · split at h2
    · exact absurd h2 next_pure
    · exact absurd h2 next_throw

theorem readCase_next {id : String} (hn : Next (readCase id).run h op) : CaseRead op := by
  unfold readCase at hn
  rcases next_await.mp hn with ⟨_, rfl⟩ | ⟨o, h, rfl, h1⟩
  · exact .receipt id
  cases o with
  | none => exact absurd h1 next_throw
  | some receipt =>
    rcases next_seq h1 with h2 | ⟨_, _, _, _, _, h2⟩
    · exact fetchNodes_next h2
    rcases next_seq h2 with h3 | ⟨_, _, _, _, _, h3⟩
    · exact fetchNodes_next h3
    rcases next_seq h3 with h4 | ⟨_, _, _, _, _, h4⟩
    · exact fetchNodes_next h4
    · exact absurd h4 next_pure

theorem exportManifestBytes_next {id : String} (hn : Next (exportManifestBytes cd id).run h op) :
    CaseRead op := by
  rw [exportManifestBytes_eq] at hn
  rcases next_seq hn with h1 | ⟨_, _, _, _, _, h1⟩
  · exact readCase_next h1
  · exact absurd h1 next_pure

theorem storeEvidence_next {nodes : List EvidenceNodeRecord}
    (hn : Next (storeEvidence cd nodes).run h op) : ExportCall cd op := by
  induction nodes generalizing h with
  | nil => exact absurd hn next_pure
  | cons node nodes ih =>
    unfold storeEvidence storeEvidenceBlob at hn
    rw [bind_assoc] at hn
    rcases next_await.mp hn with ⟨_, rfl⟩ | ⟨d, h, rfl, h1⟩
    · exact .blob node
    rw [pure_bind] at h1
    rcases next_seq h1 with h2 | ⟨_, _, _, _, _, h3⟩
    · exact ih h2
    · exact absurd h3 next_pure

theorem putDescriptors_next {descriptors : List EvidenceDescriptor}
    (hn : Next (putDescriptors descriptors).run h op) : ExportCall cd op := by
  induction descriptors generalizing h with
  | nil => exact absurd hn next_pure
  | cons d ds ih =>
    unfold putDescriptors at hn
    rcases next_await.mp hn with ⟨_, rfl⟩ | ⟨_, h, rfl, h1⟩
    · exact .descriptor d
    · exact ih h1

theorem assembleBundle_next {id : String} (hn : Next (assembleBundle cd id).run h op) :
    ExportCall cd op := by
  rw [assembleBundle_eq] at hn
  rcases next_seq hn with h1 | ⟨_, _, c, _, _, h1⟩
  · exact (readCase_next h1).exportCall
  unfold storeCase at h1
  rcases next_seq h1 with h2 | ⟨_, _, _, _, _, h2⟩
  · exact storeEvidence_next h2
  rcases next_await.mp h2 with ⟨_, rfl⟩ | ⟨_, _, rfl, h3⟩
  · exact .object c
  rcases next_seq h3 with h4 | ⟨_, _, _, _, _, h4⟩
  · exact putDescriptors_next h4
  · exact absurd h4 next_pure

/-! ## Writes of the tasks -/

variable {t : Task}

/-- A production on its own and that of a processor stand at the same points. -/
theorem production_next {x : Delivery} {sc : StoreCall}
    (hn : Next (x.process cd).run h (.store sc)) (hnote : ∀ event, sc ≠ .audit (.append event)) :
    ∃ event, (Task.process x).Produces cd event ∧ ProducePoint cd event h (.store sc) := by
  generalize hop : PortCall.store sc = op at hn
  cases process_next hn with
  | produce hx ht hp => exact ⟨_, .delivered hx ht, hop ▸ hp⟩
  | clock hx ht hr => cases hop
  | note hx ht hr now =>
    cases hop
    exact absurd rfl (hnote _)
  | deferClock hx ht => cases hop
  | deferNote hx ht now =>
    cases hop
    exact absurd rfl (hnote _)

/-- Only the assembly of a bundle puts a blob, and what it puts is the record of a node. -/
theorem Task.blob_put_next {bytes : Array UInt8}
    (hn : Next (t.program cd) h (.store (.evidence (.put bytes)))) :
    ∃ node, bytes = nodeBytes cd node := by
  cases t with
  | useCase c => exact absurd trivial (Call.no_evidence hn)
  | produceReceipt event => cases produceReceiptFromWebhook_next hn
  | process x =>
    obtain ⟨event, _, hp⟩ := production_next hn (by simp)
    cases hp
  | assembleBundle id =>
    cases assembleBundle_next hn with
    | blob node => exact ⟨node, rfl⟩

theorem Task.object_put_next {q : ProtocolObjectRecord}
    (hn : Next (t.program cd) h (.store (.protocolObjects (.put q)))) :
    ∃ id, t = .assembleBundle id := by
  cases t with
  | useCase c => exact absurd trivial (Call.no_evidence hn)
  | produceReceipt event => cases produceReceiptFromWebhook_next hn
  | process x =>
    obtain ⟨event, _, hp⟩ := production_next hn (by simp)
    cases hp
  | assembleBundle id => exact ⟨id, rfl⟩

/-- The three kinds of nodes that a production writes. -/
inductive ProducedNode (cd : Codec) (event : DeploymentStatusEvent) (x : ExecutionAttempt)
    (now : Int64) : EvidenceNodeRecord → Prop
  | gap (hu : event.outcome = .unknown) :
      ProducedNode cd event x now (DeploymentStatusEvent.gapNode cd x now)
  | observation : ProducedNode cd event x now (event.observationNode cd x now)
  | claim : ProducedNode cd event x now (event.claimNode cd x now)

theorem ProducedNode.id_eq {event : DeploymentStatusEvent} {x : ExecutionAttempt} {now : Int64}
    {n : EvidenceNodeRecord} (hn : ProducedNode cd event x now n) :
    ∃ d : ContentDigest, n.nodeIdHex = "ev-" ++ d.toHex := by
  cases hn with
  | gap => exact ⟨_, rfl⟩
  | observation => exact ⟨_, rfl⟩
  | claim => exact ⟨_, rfl⟩

theorem Task.node_insert_next {n : EvidenceNodeRecord}
    (hn : Next (t.program cd) h (.store (.evidenceNodes (.insert n)))) :
    ∃ event x now, t.Produces cd event ∧ ProducedNode cd event x now n := by
  have hpoint : ∀ event, ProducePoint cd event h (.store (.evidenceNodes (.insert n))) →
      ∃ x now, ProducedNode cd event x now n := by
    intro event hp
    cases hp with
    | gap now x hu => exact ⟨x, _, .gap hu⟩
    | observation now x => exact ⟨x, _, .observation⟩
    | claim now x => exact ⟨x, _, .claim⟩
  cases t with
  | useCase c => exact absurd trivial (Call.no_evidence hn)
  | produceReceipt event =>
    obtain ⟨x, now, hnode⟩ := hpoint event (produceReceiptFromWebhook_next hn)
    exact ⟨event, x, now, .alone event, hnode⟩
  | process y =>
    obtain ⟨event, hprod, hp⟩ := production_next hn (by simp)
    obtain ⟨x, now, hnode⟩ := hpoint event hp
    exact ⟨event, x, now, hprod, hnode⟩
  | assembleBundle id => cases assembleBundle_next hn

/-- The two writers of receipts, with the calls that they have made before. -/
inductive ReceiptWriter (cd : Codec) : Task → Path → ReceiptProjection → Prop
  | production {t : Task} {event : DeploymentStatusEvent} (ht : t.Produces cd event) (now : UInt64)
      (x : ExecutionAttempt) :
      ReceiptWriter cd t (event.claimed cd now x) (event.receipt cd x now.toInt64)
  | abandonment {a : AbandonArgs} {h : Path} (now : UInt64) (x : ExecutionAttempt) :
      ReceiptWriter cd (.useCase (.abandonUnresolved a)) h (a.receipt now.toInt64 x)

theorem Task.receipt_insert_next {q : ReceiptProjection}
    (hn : Next (t.program cd) h (.store (.receipts (.insert q)))) : ReceiptWriter cd t h q := by
  have hpoint : ∀ event, t.Produces cd event →
      ProducePoint cd event h (.store (.receipts (.insert q))) → ReceiptWriter cd t h q := by
    intro event ht hp
    cases hp with
    | receipt now x => exact .production ht now x
  cases t with
  | useCase c =>
    obtain ⟨a, now, _, _, x, _, rfl, _, rfl, _⟩ := Piteka.Application.receipt_insert_next hn
    exact .abandonment now x
  | produceReceipt event => exact hpoint event (.alone event) (produceReceiptFromWebhook_next hn)
  | process y =>
    obtain ⟨event, hprod, hp⟩ := production_next hn (by simp)
    exact hpoint event hprod hp
  | assembleBundle id => cases assembleBundle_next hn

end

/-! ## The receipts of productions -/

/-- The receipt was inserted by a task that produced it for the status. -/
def ProducedReceipt (cd : Codec) (tasks : ι → Task) (log : List (Event ι))
    (event : DeploymentStatusEvent) (q : ReceiptProjection) : Prop :=
  ∃ e ∈ log, e.call = receiptInserted q ∧ (tasks e.caller).Produces cd event

/-- The receipt of a production references nodes that are stored from then on. -/
theorem produced_nodes [DecidableEq ι] {cd : Codec} {faults : StoreCall → Prop} {tasks : ι → Task}
    {s₀ s : Stores} {log : List (Event ι)} {p : (i : ι) → Program PortCall Answer (tasks i).Res}
    {event : DeploymentStatusEvent} (run : TaskRun cd faults tasks s₀ log s p) {q : ReceiptProjection}
    (hq : ProducedReceipt cd tasks log event q) :
    ∃ x now, q = event.receipt cd x now ∧
      ∀ n, ProducedNode cd event x now n → s.evidenceNode n.nodeIdHex = some n := by
  obtain ⟨e, he, hcall, hprod⟩ := hq
  obtain ⟨l₁, l₂, rfl⟩ := List.append_of_mem he
  have hnext := run.at_entry.2
  rw [hcall] at hnext
  generalize hh : history e.caller l₁ = h at hnext
  generalize ht : tasks e.caller = t at hnext hprod
  cases Task.receipt_insert_next hnext with
  | abandonment => cases hprod
  | @production _ event' ht' now x =>
    obtain rfl := hprod.unique ht'
    refine ⟨x, now.toInt64, rfl, fun n hn => ?_⟩
    have hinserted : nodeInserted n ∈ history e.caller l₁ := by
      rw [hh]
      cases hn with
      | gap hu => simp [DeploymentStatusEvent.claimed, DeploymentStatusEvent.gapPath, hu]
      | observation => simp [DeploymentStatusEvent.claimed]
      | claim => simp [DeploymentStatusEvent.claimed]
    obtain ⟨f, hf, _, hfc⟩ := mem_history.mp hinserted
    exact node_stored run.trace (List.mem_append_left _ hf) hfc

end Piteka.Application
