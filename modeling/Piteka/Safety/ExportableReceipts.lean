import Piteka.Application.BundleScenario
import Piteka.Application.FeedContents

/-!
# Which receipts can be exported

The exporters resolve all three lists of a receipt as ids of evidence nodes. A
production stores every node that its receipt references before the receipt. The
receipt of an abandonment names its gap by a class, and no node has such an id. So
the stored receipts export exactly as long as no abandonment has written one.
-/
namespace Piteka.Safety

set_option autoImplicit false

open Piteka.Interleaving Piteka.Interleaving.Program Piteka.Storage Piteka.Application

/-- However the use case evaluates alone and without faults, it returns `Ok`; and it does. -/
def ReturnsOk {ε α : Type} (rt : Runtime) (s : Stores) (p : UseCase ε α) : Prop :=
  (∃ x s', p.run.Eval (Exec rt noFaults) s (.ok x) s') ∧
    ∀ r s', p.run.Eval (Exec rt noFaults) s r s' → ∃ x, r = .ok x

/-- What the exporters and the feed make of the receipt under the id. -/
structure Exportable (cd : Codec) (s : Stores) (id : String) (q : ReceiptProjection) : Prop where
  resolved : Resolved s q
  manifest : ReturnsOk cd.toRuntime s (exportManifestBytes cd id)
  bundle : ReturnsOk cd.toRuntime s (assembleBundle cd id)
  /-- A feed that lists the receipt does not skip it. -/
  fed : ∀ state : FeedState, ∀ l, state.currentReceipts s = .ok l → ∀ x ∈ l, x.1 = id →
    ∃ e ∈ state.feed cd s, e.exportId = id

/-- What a run starts from: stored receipts resolve, no bundle is stored, and no node has the
name of the missing outcome for its id. -/
structure Referential (s : Stores) : Prop where
  resolved : ∀ k q, s.receipt k = some q → Resolved s q
  noNode : s.evidenceNode "target_outcome" = none
  noBundle : ∀ d : ContentDigest, s.protocolObject ("bundle-" ++ d.toHex) = none

/-- The caller is a call of `abandon_unresolved`. -/
def Abandons : Task → Prop
  | .useCase (.abandonUnresolved _) => True
  | _ => False

section
variable {ι : Type} [DecidableEq ι] {cd : Codec} {tasks : ι → Task} {s₀ s : Stores}
  {log : List (Event ι)} {p : (i : ι) → Program PortCall Answer (tasks i).Res}

/-! ## One state -/

theorem returnsOk_of_eval {ε α : Type} {rt : Runtime} {q : UseCase ε α}
    (h : ∀ r s', q.run.Eval (Exec rt noFaults) s r s' → ∃ x, r = .ok x) : ReturnsOk rt s q := by
  have halone := alone_eval (react_sound rt noFaults (.answering none)) q.run s
  obtain ⟨x, hx⟩ := h _ _ halone
  rw [hx] at halone
  exact ⟨⟨x, _, halone⟩, h⟩

/-- Where the references resolve and no bundle is in the way, the receipt exports. -/
theorem exportable_of_resolved {id : String} {q : ReceiptProjection}
    (hq : s.receipt id = some q) (hr : Resolved s q)
    (hfree : ∀ d : ContentDigest, s.protocolObject ("bundle-" ++ d.toHex) = none) :
    Exportable cd s id q := by
  obtain ⟨c, hc⟩ := (caseFile_iff_resolved hq).mpr hr
  have hstorable : Storable cd s c := by
    intro q' hq'
    have hnone : s.protocolObject (c.object cd).objectIdHex = none := hfree _
    rw [hnone] at hq'
    cases hq'
  refine ⟨hr, returnsOk_of_eval fun r s' he => ?_, returnsOk_of_eval fun r s' he => ?_, ?_⟩
  · have hresult := (exportManifestBytes_eval.mp he).1
    rw [hc] at hresult
    exact ⟨_, hresult⟩
  · rcases assembleBundle_eval he with ⟨e, herr, _⟩ | ⟨c', hc', ⟨hns, _⟩ | ⟨_, hok, _⟩⟩
    · rw [hc] at herr
      cases herr
    · obtain rfl := Except.ok.inj (hc.symm.trans hc')
      exact absurd hstorable hns
    · exact ⟨_, hok⟩
  · rintro state l hl x hx rfl
    have hpublished : (x, c.bytes cd) ∈ state.published cd s :=
      mem_published.mpr ⟨l, hl, hx, c, hc, rfl⟩
    have hid : x.1 ∈ (state.feed cd s).map (·.exportId) := by
      rw [FeedState.feed, emit_ids]
      exact List.mem_map.mpr ⟨_, hpublished, rfl⟩
    exact List.mem_map.mp hid

/-! ## Over a run -/

/-- Without an exporter among the callers, no bundle is stored. -/
theorem no_bundle_stored (run : TaskRun cd noFaults tasks s₀ log s p) (start : Referential s₀)
    (hnone : ∀ i id, tasks i ≠ .assembleBundle id) (d : ContentDigest) :
    s.protocolObject ("bundle-" ++ d.toHex) = none := by
  cases hobject : s.protocolObject ("bundle-" ++ d.toHex) with
  | none => rfl
  | some q =>
    obtain ⟨l₁, e, l₂, rfl, hcall, _⟩ :=
      row_written (protocol_object_step · _) run.trace (start.noBundle d) hobject
    have hnext := run.at_entry.2
    rw [hcall] at hnext
    obtain ⟨id, hid⟩ := Task.object_put_next hnext
    exact absurd hid (hnone e.caller id)

/-- The ids of the nodes that are written start with `ev-`. -/
theorem no_outcome_node (run : TaskRun cd noFaults tasks s₀ log s p) (start : Referential s₀) :
    s.evidenceNode "target_outcome" = none := by
  cases hnode : s.evidenceNode "target_outcome" with
  | none => rfl
  | some n =>
    obtain ⟨l₁, e, l₂, rfl, hcall, hid, _⟩ :=
      row_written (evidence_node_step · _) run.trace start.noNode hnode
    have hnext := run.at_entry.2
    rw [hcall] at hnext
    obtain ⟨event, x, now, _, hn⟩ := Task.node_insert_next hnext
    obtain ⟨d, hev⟩ := hn.id_eq
    have hlist := congrArg String.toList (hev.symm.trans hid)
    have he : "ev-".toList = ['e', 'v', '-'] := by decide
    have ht : "target_outcome".toList = 't' :: "arget_outcome".toList := by decide
    rw [String.toList_append, he, ht] at hlist
    simp at hlist

/-- A receipt that a production has written resolves. -/
theorem resolved_of_produced (run : TaskRun cd noFaults tasks s₀ log s p)
    {event : DeploymentStatusEvent} {q : ReceiptProjection}
    (hq : ProducedReceipt cd tasks log event q) : Resolved s q := by
  obtain ⟨x, now, rfl, hnodes⟩ := produced_nodes run hq
  intro id hid
  rcases List.mem_append.mp hid with hid | hid
  · rcases List.mem_append.mp hid with hid | hid
    · rw [List.mem_singleton.mp hid]
      exact ⟨_, hnodes _ .claim⟩
    · rw [List.mem_singleton.mp hid]
      exact ⟨_, hnodes _ .observation⟩
  · by_cases hu : event.outcome = .unknown
    · have hids : (event.receipt cd x now).evidenceGaps =
          [(DeploymentStatusEvent.gapNode cd x now).nodeIdHex] := if_pos hu
      rw [hids] at hid
      rw [List.mem_singleton.mp hid]
      exact ⟨_, hnodes _ (.gap hu)⟩
    · have hids : (event.receipt cd x now).evidenceGaps = [] := if_neg hu
      rw [hids] at hid
      cases hid

/-- Every stored receipt resolves unless an abandonment wrote it. -/
theorem resolved_or_abandoned (run : TaskRun cd noFaults tasks s₀ log s p) (start : Referential s₀)
    {k : String} {q : ReceiptProjection} (hq : s.receipt k = some q) :
    Resolved s q ∨ ∃ e ∈ log, Abandons (tasks e.caller) ∧ e.call = receiptInserted q := by
  cases h₀ : s₀.receipt k with
  | some q₀ =>
    have hsame := row_kept (receipt_add_step · k) run.trace h₀
    obtain rfl := Option.some.inj (hsame.symm.trans hq)
    refine Or.inl fun id hid => ?_
    obtain ⟨node, hnode⟩ := start.resolved k q₀ h₀ id hid
    exact ⟨node, row_kept (evidence_node_step · id) run.trace hnode⟩
  | none =>
    obtain ⟨l₁, e, l₂, rfl, hcall, _⟩ := row_written (receipt_add_step · k) run.trace h₀ hq
    have hmem : e ∈ l₁ ++ e :: l₂ := List.mem_append_right _ List.mem_cons_self
    have hnext := run.at_entry.2
    rw [hcall] at hnext
    generalize ht : tasks e.caller = t at hnext
    generalize history e.caller l₁ = h at hnext
    cases Task.receipt_insert_next hnext with
    | production hprod => exact Or.inl (resolved_of_produced run ⟨e, hmem, hcall, ht ▸ hprod⟩)
    | abandonment =>
      refine Or.inr ⟨e, hmem, ?_, hcall⟩
      rw [ht]
      trivial

/-- The receipt of an abandonment stays without the node that it references. -/
theorem abandoned_unresolved (run : TaskRun cd noFaults tasks s₀ log s p) (start : Referential s₀)
    {e : Event ι} (he : e ∈ log) {q : ReceiptProjection} (ha : Abandons (tasks e.caller))
    (hcall : e.call = receiptInserted q) : ¬ Resolved s q := by
  obtain ⟨l₁, l₂, rfl⟩ := List.append_of_mem he
  have hnext := run.at_entry.2
  rw [hcall] at hnext
  have hgap : "target_outcome" ∈ references q := by
    generalize tasks e.caller = t at hnext ha
    generalize history e.caller l₁ = h at hnext
    cases Task.receipt_insert_next hnext with
    | production hprod => cases hprod <;> exact absurd ha id
    | abandonment => exact List.mem_singleton.mpr rfl
  intro hr
  obtain ⟨node, hnode⟩ := hr _ hgap
  rw [no_outcome_node run start] at hnode
  cases hnode

end

/-- In a run without exporters, every stored receipt exports and the feed skips none of them
exactly if no abandonment has written its receipt. -/
theorem receipts_exportable_iff {ι : Type} [DecidableEq ι] {cd : Codec} {tasks : ι → Task}
    {s₀ s : Stores} {log : List (Event ι)} {p : (i : ι) → Program PortCall Answer (tasks i).Res}
    (run : TaskRun cd noFaults tasks s₀ log s p) (start : Referential s₀)
    (hnone : ∀ i id, tasks i ≠ .assembleBundle id) :
    (∀ k q, s.receipt k = some q → Exportable cd s k q) ↔
      ∀ e ∈ log, Abandons (tasks e.caller) → ∀ q, e.call ≠ receiptInserted q := by
  constructor
  · intro hall e he ha q hcall
    have hexport := hall _ q (receipt_stored run.trace he hcall)
    exact abandoned_unresolved run start he ha hcall hexport.resolved
  · intro hno k q hq
    rcases resolved_or_abandoned run start hq with hr | ⟨e, he, ha, hcall⟩
    · exact exportable_of_resolved hq hr (no_bundle_stored run start hnone)
    · exact absurd hcall (hno e he ha q)

/-! ## An abandoned mandate -/

/-- A dispatch without an answer, then the abandonment of the mandate. -/
def abandoningTasks : Pair → Task
  | .first => .useCase (.reserveAndDispatch (sampleReserve "r-1" "m-1" 1))
  | .second => .useCase (.abandonUnresolved {
      mandateIdHex := "m-1"
      executorIdentity := "executor"
      expectedMandateVersion := 3
      reason := "no answer" })

@[irreducible] def abandoningRun : Snapshot Pair Answer Stores fun i => (abandoningTasks i).Res :=
  Snapshot.play (react sampleCodec.toRuntime)
    ⟨[], afterApproval (Stores.empty.issued "m-1"), fun i => (abandoningTasks i).program sampleCodec⟩
    (steps .first 16 (.answering none) ++ steps .second 12 (.answering none))

theorem abandoningRun_run :
    TaskRun sampleCodec noFaults abandoningTasks (afterApproval (Stores.empty.issued "m-1"))
      abandoningRun.log abandoningRun.state abandoningRun.pool := by
  unfold abandoningRun
  exact play_run (c := ⟨[], _, _⟩) (react_sound _ noFaults) .start _

theorem abandoned_receipt_not_exported :
    TaskRun sampleCodec noFaults abandoningTasks (afterApproval (Stores.empty.issued "m-1"))
        abandoningRun.log abandoningRun.state abandoningRun.pool ∧
      (abandoningRun.state.receipt "rcpt-abandoned-att-m-1").isSome ∧
      ∀ result s', (exportManifestBytes sampleCodec "rcpt-abandoned-att-m-1").run.Eval
        (Exec sampleCodec.toRuntime noFaults) abandoningRun.state result s' →
          result = .error (.incompleteEvidence ["target_outcome"] ["target_outcome"]) := by
  have hcase : caseFile abandoningRun.state "rcpt-abandoned-att-m-1" =
      .error (.incompleteEvidence ["target_outcome"] ["target_outcome"]) := by
    decide +kernel
  refine ⟨abandoningRun_run, by decide +kernel, fun result s' he => ?_⟩
  have hresult := (exportManifestBytes_eval.mp he).1
  rw [hcase] at hresult
  exact hresult

def processingTasks : Pair → Task
  | .first => .process (sampleDelivery "d-1" "success" 200)
  | .second => .process (sampleDelivery "d-2" "failure" 100)

def processingRun : Snapshot Pair Answer Stores fun i => (processingTasks i).Res :=
  Snapshot.play (react sampleCodec.toRuntime)
    ⟨[], recording sampleAttempt, fun i => (processingTasks i).program sampleCodec⟩
    (steps .first 8 (.answering none) ++ steps .second 8 (.answering none))

theorem processed_receipts_exportable :
    (processingRun.state.receipt "rcpt-att-m-1").isSome ∧
      ∀ k q, processingRun.state.receipt k = some q →
        Exportable sampleCodec processingRun.state k q := by
  have run : TaskRun sampleCodec noFaults processingTasks (recording sampleAttempt)
      processingRun.log processingRun.state processingRun.pool :=
    play_run (c := ⟨[], _, _⟩) (react_sound _ noFaults) .start _
  have start : Referential (recording sampleAttempt) := by
    refine ⟨fun k q hq => ?_, rfl, fun d => rfl⟩
    cases hq
  have hnone : ∀ i id, processingTasks i ≠ .assembleBundle id := by
    intro i id h
    cases i <;> cases h
  refine ⟨by decide +kernel, (receipts_exportable_iff run start hnone).mpr fun e _ ha => ?_⟩
  have hnot : ¬ Abandons (processingTasks e.caller) := by
    cases e.caller <;> exact id
  exact absurd ha hnot

end Piteka.Safety
