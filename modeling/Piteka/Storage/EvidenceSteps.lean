import Piteka.Interleaving.Trace
import Piteka.Storage.Paths
import Piteka.Storage.Steps

/-!
# The stores that only add rows

Webhook receipts, evidence nodes, protocol objects and evidence blobs are written
once: an executed call leaves a row alone, or the row was absent and the call
wrote it. The second half says what the stores answer when no call fails.
-/
namespace Piteka.Storage

set_option autoImplicit false

open Piteka.Interleaving Piteka.Table

namespace Stores

def webhookReceipt (s : Stores) (deliveryId : String) : Option WebhookReceipt :=
  s.webhookReceipts.receipts.get deliveryId

def evidenceNode (s : Stores) (nodeIdHex : String) : Option EvidenceNodeRecord :=
  s.evidenceNodes.nodes.get nodeIdHex

def protocolObject (s : Stores) (objectIdHex : String) : Option ProtocolObjectRecord :=
  s.protocolObjects.objects.get objectIdHex

def blob (s : Stores) (digest : ContentDigest) : Option (Array UInt8) :=
  s.evidence.blobs.lookup digest.bytes

end Stores

variable {rt : Runtime} {faults : StoreCall → Prop} {s s' : Stores}

/-- The row stays, or it was absent and the call wrote it. -/
inductive AddStep {V : Type} (written : V → Answered) (before after : Option V) (c : Answered)
    (fits : V → Prop) : Prop
  | same (h : after = before)
  | add (v : V) (hv : fits v) (hc : c = written v) (hb : before = none) (ha : after = some v)

theorem AddStep.kept {V : Type} {written : V → Answered} {before after : Option V} {c : Answered}
    {fits : V → Prop} (h : AddStep written before after c fits) {v : V} (hv : before = some v) :
    after = some v := by
  cases h with
  | same h => rw [h, hv]
  | add w hw hc hb ha =>
    rw [hb] at hv
    cases hv

section
variable {V ι : Type} {written : V → Answered} {fits : V → Prop} {get : Stores → Option V}
  {log : List (Entry ι Answer Stores)}

/-- A row of a store that only adds rows stays through a trace. -/
theorem row_kept (step : ∀ {t t' : Stores} {c : Answered}, Exec rt faults t c.1 c.2 t' →
      AddStep written (get t) (get t') c fits)
    (ht : Trace (Exec rt faults) s log s') {v : V} (hv : get s = some v) : get s' = some v :=
  ht.keeps (Q := fun t => get t = some v)
    (fun {_ op a _} hx => (step (c := ⟨op, a⟩) hx).kept) hv

/-- A row that is there at the end and was not at the start was written by one of the calls. -/
theorem row_written (step : ∀ {t t' : Stores} {c : Answered}, Exec rt faults t c.1 c.2 t' →
      AddStep written (get t) (get t') c fits)
    (ht : Trace (Exec rt faults) s log s') {v : V} (hn : get s = none) (hv : get s' = some v) :
    ∃ l₁ e l₂, log = l₁ ++ e :: l₂ ∧ e.call = written v ∧ fits v ∧ get e.before = none := by
  have hn' : ¬ get s = some v := by simp [hn]
  obtain ⟨l₁, e, l₂, rfl, hb, ha⟩ := ht.linked.enters (Q := fun t => get t = some v) hn' hv
  have hx := ht.executed e (List.mem_append_right _ List.mem_cons_self)
  refine ⟨l₁, e, l₂, rfl, ?_⟩
  cases step hx with
  | same h => exact absurd (h ▸ ha) hb
  | add w hw hc hnone hafter =>
    obtain rfl := Option.some.inj (hafter.symm.trans ha)
    exact ⟨hc, hw, hnone⟩

end

/-- A store call changes no evidence store but its own. -/
theorem run_frame_evidence (rt : Runtime) (order : HashOrder) (s : Stores) (c : StoreCall) :
    ((c.run rt order s).2.webhookReceipts = s.webhookReceipts ∨ ∃ x, c = .webhookReceipts x) ∧
    ((c.run rt order s).2.evidenceNodes = s.evidenceNodes ∨ ∃ x, c = .evidenceNodes x) ∧
    ((c.run rt order s).2.protocolObjects = s.protocolObjects ∨ ∃ x, c = .protocolObjects x) ∧
    ((c.run rt order s).2.evidence = s.evidence ∨ ∃ x, c = .evidence x) := by
  cases c with
  | protocolObjects x => cases x <;> simp [StoreCall.run]
  | mandates x => cases x <;> simp [StoreCall.run]
  | webhookReceipts x => cases x <;> simp [StoreCall.run]
  | evidence x => cases x <;> simp [StoreCall.run]
  | evidenceNodes x => cases x <;> simp [StoreCall.run]
  | audit x => cases x <;> simp [StoreCall.run]
  | requests x => cases x <;> simp [StoreCall.run]
  | decisions x => cases x <;> simp [StoreCall.run]
  | attempts x => cases x <;> simp [StoreCall.run]
  | receipts x => cases x <;> simp [StoreCall.run]

/-! ## Webhook receipts -/

theorem InMemoryWebhookReceiptStore.record_cases (s : InMemoryWebhookReceiptStore)
    (r : WebhookReceipt) :
    (r.deliveryId = "" ∧ s.record r = (.error (.emptyField "delivery_id"), s)) ∨
    (∃ q, s.receipts.get r.deliveryId = some q ∧ s.record r = (.ok .duplicate, s)) ∨
    ∃ t, s.receipts.get r.deliveryId = none ∧ s.record r = (.ok .recorded, t) ∧
      ∀ k, t.receipts.get k = if k = r.deliveryId then some r else s.receipts.get k := by
  unfold record
  by_cases hne : r.deliveryId = ""
  · exact Or.inl ⟨hne, if_pos hne⟩
  · rw [if_neg hne]
    cases hget : s.receipts.get r.deliveryId with
    | some q => exact Or.inr (Or.inl ⟨q, rfl, rfl⟩)
    | none => exact Or.inr (Or.inr ⟨_, rfl, rfl, fun k => Keyed.get_insert _ _ k⟩)

/-- The answer that a webhook receipt has been recorded. -/
abbrev recorded (r : WebhookReceipt) : Answered :=
  ⟨.store (.webhookReceipts (.record r)), .ok .recorded⟩

theorem webhook_receipt_step {c : Answered} (hx : Exec rt faults s c.1 c.2 s') (k : String) :
    AddStep recorded (s.webhookReceipt k) (s'.webhookReceipt k) c (·.deliveryId = k) := by
  rcases exec_cases hx with rfl | ⟨sc, a, order, rfl, hr⟩
  · exact .same rfl
  rcases (run_frame_evidence rt order s sc).1 with hf | ⟨x, rfl⟩
  · rw [hr] at hf
    exact .same (congrArg (·.receipts.get k) hf)
  cases x with
  | get k' =>
    obtain ⟨_, rfl⟩ := Prod.mk.inj hr
    exact .same rfl
  | record r =>
    obtain ⟨rfl, rfl⟩ := Prod.mk.inj hr
    rcases s.webhookReceipts.record_cases r with ⟨_, h⟩ | ⟨q, _, h⟩ | ⟨t, hnone, h, hget⟩
    · exact .same (by simp only [Stores.webhookReceipt, h])
    · exact .same (by simp only [Stores.webhookReceipt, h])
    · by_cases hk : k = r.deliveryId
      · subst hk
        refine .add r rfl (by rw [h]) hnone ?_
        simp only [Stores.webhookReceipt, h, hget, if_true]
      · exact .same (by simp only [Stores.webhookReceipt, h, hget, if_neg hk])

/-! ## Evidence nodes -/

theorem InMemoryEvidenceNodeStore.insert_cases (s : InMemoryEvidenceNodeStore)
    (n : EvidenceNodeRecord) :
    (n.nodeIdHex = "" ∧ ∃ e, s.insert n = (.error e, s)) ∨
    (∃ m e, s.nodes.get n.nodeIdHex = some m ∧ s.insert n = (.error e, s)) ∨
    ∃ t, s.nodes.get n.nodeIdHex = none ∧ s.insert n = (.ok (), t) ∧
      ∀ k, t.nodes.get k = if k = n.nodeIdHex then some n else s.nodes.get k := by
  unfold insert
  by_cases hne : n.nodeIdHex = ""
  · exact Or.inl ⟨hne, _, if_pos hne⟩
  · rw [if_neg hne]
    cases hget : s.nodes.get n.nodeIdHex with
    | some m => exact Or.inr (Or.inl ⟨m, _, rfl, rfl⟩)
    | none => exact Or.inr (Or.inr ⟨_, rfl, rfl, fun k => Keyed.get_insert _ _ k⟩)

/-- The answer that an evidence node has been inserted. -/
abbrev nodeInserted (n : EvidenceNodeRecord) : Answered := did (.evidenceNodes (.insert n)) ()

theorem evidence_node_step {c : Answered} (hx : Exec rt faults s c.1 c.2 s') (k : String) :
    AddStep nodeInserted (s.evidenceNode k) (s'.evidenceNode k) c (·.nodeIdHex = k) := by
  rcases exec_cases hx with rfl | ⟨sc, a, order, rfl, hr⟩
  · exact .same rfl
  rcases (run_frame_evidence rt order s sc).2.1 with hf | ⟨x, rfl⟩
  · rw [hr] at hf
    exact .same (congrArg (·.nodes.get k) hf)
  cases x with
  | get k' =>
    obtain ⟨_, rfl⟩ := Prod.mk.inj hr
    exact .same rfl
  | byMandate m =>
    obtain ⟨_, rfl⟩ := Prod.mk.inj hr
    exact .same rfl
  | insert n =>
    obtain ⟨rfl, rfl⟩ := Prod.mk.inj hr
    rcases s.evidenceNodes.insert_cases n with ⟨_, e, h⟩ | ⟨m, e, _, h⟩ | ⟨t, hnone, h, hget⟩
    · exact .same (by simp only [Stores.evidenceNode, h])
    · exact .same (by simp only [Stores.evidenceNode, h])
    · by_cases hk : k = n.nodeIdHex
      · subst hk
        refine .add n rfl (by rw [h]) hnone ?_
        simp only [Stores.evidenceNode, h, hget, if_true]
      · exact .same (by simp only [Stores.evidenceNode, h, hget, if_neg hk])

/-! ## Protocol objects -/

theorem InMemoryProtocolObjectStore.put_cases (s : InMemoryProtocolObjectStore)
    (r : ProtocolObjectRecord) :
    (r.objectIdHex = "" ∧ ∃ e, s.put r = (.error e, s)) ∨
    (∃ q, s.objects.get r.objectIdHex = some q ∧
      ((q.bytes = r.bytes ∧ s.put r = (.ok (), s)) ∨
        (q.bytes ≠ r.bytes ∧ ∃ e, s.put r = (.error e, s)))) ∨
    ∃ t, s.objects.get r.objectIdHex = none ∧ s.put r = (.ok (), t) ∧
      ∀ k, t.objects.get k = if k = r.objectIdHex then some r else s.objects.get k := by
  unfold put
  by_cases hne : r.objectIdHex = ""
  · exact Or.inl ⟨hne, _, if_pos hne⟩
  · rw [if_neg hne]
    cases hget : s.objects.get r.objectIdHex with
    | none => exact Or.inr (Or.inr ⟨_, rfl, rfl, fun k => Keyed.get_insert _ _ k⟩)
    | some q =>
      refine Or.inr (Or.inl ⟨q, rfl, ?_⟩)
      by_cases hb : q.bytes = r.bytes
      · exact Or.inl ⟨hb, if_pos hb⟩
      · exact Or.inr ⟨hb, _, if_neg hb⟩

/-- The answer that a protocol object is stored. -/
abbrev objectPut (r : ProtocolObjectRecord) : Answered := did (.protocolObjects (.put r)) ()

theorem protocol_object_step {c : Answered} (hx : Exec rt faults s c.1 c.2 s') (k : String) :
    AddStep objectPut (s.protocolObject k) (s'.protocolObject k) c (·.objectIdHex = k) := by
  rcases exec_cases hx with rfl | ⟨sc, a, order, rfl, hr⟩
  · exact .same rfl
  rcases (run_frame_evidence rt order s sc).2.2.1 with hf | ⟨x, rfl⟩
  · rw [hr] at hf
    exact .same (congrArg (·.objects.get k) hf)
  cases x with
  | get k' =>
    obtain ⟨_, rfl⟩ := Prod.mk.inj hr
    exact .same rfl
  | put r =>
    obtain ⟨rfl, rfl⟩ := Prod.mk.inj hr
    rcases s.protocolObjects.put_cases r with
      ⟨_, e, h⟩ | ⟨q, _, ⟨_, h⟩ | ⟨_, e, h⟩⟩ | ⟨t, hnone, h, hget⟩
    · exact .same (by simp only [Stores.protocolObject, h])
    · exact .same (by simp only [Stores.protocolObject, h])
    · exact .same (by simp only [Stores.protocolObject, h])
    · by_cases hk : k = r.objectIdHex
      · subst hk
        refine .add r rfl (by rw [h]) hnone ?_
        simp only [Stores.protocolObject, h, hget, if_true]
      · exact .same (by simp only [Stores.protocolObject, h, hget, if_neg hk])

/-! ## Receipts -/

/-- The answer that a receipt has been inserted. -/
abbrev receiptInserted (q : ReceiptProjection) : Answered := did (.receipts (.insert q)) ()

theorem receipt_add_step {c : Answered} (hx : Exec rt faults s c.1 c.2 s') (k : String) :
    AddStep receiptInserted (s.receipt k) (s'.receipt k) c (·.receiptIdHex = k) := by
  cases receipt_step hx k with
  | same h => exact .same h
  | insert q hi hc hb ha => exact .add q hi hc hb ha

/-! ## Evidence blobs -/

theorem InMemoryEvidenceStore.put_cases (rt : Runtime) (s : InMemoryEvidenceStore)
    (bytes : Array UInt8) :
    ∃ t, s.put rt bytes = (.ok (.of rt bytes), t) ∧
      ∀ k, t.blobs.lookup k = if k = (ContentDigest.of rt bytes).bytes ∧ s.blobs.lookup k = none
        then some bytes else s.blobs.lookup k := by
  cases hget : s.blobs.lookup (ContentDigest.of rt bytes).bytes with
  | some b =>
    refine ⟨s, by simp only [put, hget], fun k => (if_neg ?_).symm⟩
    rintro ⟨rfl, hnone⟩
    rw [hget] at hnone
    cases hnone
  | none =>
    refine ⟨{ s with blobs := s.blobs.insert (ContentDigest.of rt bytes).bytes bytes },
      by simp only [put, hget], fun k => ?_⟩
    by_cases hk : k = (ContentDigest.of rt bytes).bytes
    · subst hk
      rw [if_pos ⟨rfl, hget⟩, AList.lookup_insert]
    · rw [if_neg (fun h => hk h.1), AList.lookup_insert_ne hk]

/-- The answer that a blob is stored under its content address. -/
abbrev blobPut (rt : Runtime) (bytes : Array UInt8) : Answered :=
  did (.evidence (.put bytes)) (.of rt bytes)

theorem blob_step {c : Answered} (hx : Exec rt faults s c.1 c.2 s') (d : ContentDigest) :
    AddStep (blobPut rt) (s.blob d) (s'.blob d) c (fun bytes => .of rt bytes = d) := by
  rcases exec_cases hx with rfl | ⟨sc, a, order, rfl, hr⟩
  · exact .same rfl
  rcases (run_frame_evidence rt order s sc).2.2.2 with hf | ⟨x, rfl⟩
  · rw [hr] at hf
    exact .same (congrArg (·.blobs.lookup d.bytes) hf)
  cases x with
  | get d' =>
    obtain ⟨_, rfl⟩ := Prod.mk.inj hr
    exact .same rfl
  | putDescriptor x =>
    obtain ⟨_, rfl⟩ := Prod.mk.inj hr
    exact .same rfl
  | put bytes =>
    obtain ⟨rfl, rfl⟩ := Prod.mk.inj hr
    obtain ⟨t, h, hget⟩ := s.evidence.put_cases rt bytes
    by_cases hd : d.bytes = (ContentDigest.of rt bytes).bytes ∧ s.blob d = none
    · refine .add bytes ?_ (by rw [h]) hd.2 ?_
      · cases d
        exact congrArg ContentDigest.mk hd.1.symm
      · simp only [Stores.blob, h, hget]
        exact if_pos hd
    · refine .same ?_
      simp only [Stores.blob, h, hget]
      exact if_neg hd

/-! ## Answers without faults -/

/-- A read of a store that does not fail answers with what is stored. -/
theorem read_noFaults {sc : StoreCall} {a x : StorageResult sc.Ok}
    (hx : Exec rt noFaults s (.store sc) a s')
    (hread : ∀ order, sc.run rt order s = (x, s)) : a = x ∧ s' = s := by
  obtain ⟨order, hr⟩ := exec_noFaults hx
  rw [hread order] at hr
  obtain ⟨rfl, rfl⟩ := Prod.mk.inj hr
  exact ⟨rfl, rfl⟩

theorem webhook_get_noFaults {k : String} {a : StorageResult (Option WebhookReceipt)}
    (hx : Exec rt noFaults s (.store (.webhookReceipts (.get k))) a s') :
    a = .ok (s.webhookReceipt k) ∧ s' = s :=
  read_noFaults hx fun _ => rfl

theorem node_get_noFaults {k : String} {a : StorageResult (Option EvidenceNodeRecord)}
    (hx : Exec rt noFaults s (.store (.evidenceNodes (.get k))) a s') :
    a = .ok (s.evidenceNode k) ∧ s' = s :=
  read_noFaults hx fun _ => rfl

theorem receipt_get_noFaults {k : String} {a : StorageResult (Option ReceiptProjection)}
    (hx : Exec rt noFaults s (.store (.receipts (.get k))) a s') :
    a = .ok (s.receipt k) ∧ s' = s :=
  read_noFaults hx fun _ => rfl

/-- The walk over the attempts finds one that records the deployment id, if there is one. -/
theorem by_deployment_noFaults {d : UInt64} {a : StorageResult (Option ExecutionAttempt)}
    (hx : Exec rt noFaults s (.store (.attempts (.byDeploymentId d))) a s') :
    s' = s ∧ ∃ o, a = .ok o ∧
      (∀ x, o = some x → s.attempt x.attemptIdHex = some x ∧ x.githubDeploymentId = some d) ∧
      (o = none → ∀ k x, s.attempt k = some x → x.githubDeploymentId ≠ some d) := by
  obtain ⟨order, hr⟩ := exec_noFaults hx
  obtain ⟨rfl, rfl⟩ := Prod.mk.inj hr
  refine ⟨rfl, _, rfl, ?_, ?_⟩
  · intro x hfind
    have hmem := (order.attempts_perm _).mem_iff.mp (List.mem_of_find?_eq_some hfind)
    have hd : (x.githubDeploymentId == some d) = true :=
      List.find?_some (p := fun a : ExecutionAttempt => a.githubDeploymentId == some d) hfind
    exact ⟨(Keyed.mem_values _ _).mp hmem, eq_of_beq hd⟩
  · intro hnone k x hk hd
    have hkey : x.attemptIdHex = k := s.attempts.attempts.keyed hk
    subst hkey
    have hmem := (order.attempts_perm _).mem_iff.mpr ((Keyed.mem_values _ _).mpr hk)
    have hfalse := List.find?_eq_none.mp hnone x hmem
    exact hfalse (beq_iff_eq.mpr hd)

theorem record_noFaults {r : WebhookReceipt} {a : StorageResult WebhookRecordOutcome}
    (hx : Exec rt noFaults s (.store (.webhookReceipts (.record r))) a s')
    (hne : r.deliveryId ≠ "") :
    (∃ q, s.webhookReceipt r.deliveryId = some q ∧ a = .ok .duplicate ∧ s' = s) ∨
      (s.webhookReceipt r.deliveryId = none ∧ a = .ok .recorded) := by
  obtain ⟨order, hr⟩ := exec_noFaults hx
  obtain ⟨rfl, rfl⟩ := Prod.mk.inj hr
  rcases s.webhookReceipts.record_cases r with ⟨h, _⟩ | ⟨q, hq, h⟩ | ⟨t, hnone, h, _⟩
  · exact absurd h hne
  · exact Or.inl ⟨q, hq, by rw [h], by rw [h]⟩
  · exact Or.inr ⟨hnone, by rw [h]⟩

/-- Without faults an insertion under a taken key fails, one under a free key succeeds. -/
theorem node_insert_noFaults {n : EvidenceNodeRecord} {a : StorageResult Unit}
    (hx : Exec rt noFaults s (.store (.evidenceNodes (.insert n))) a s') (hne : n.nodeIdHex ≠ "") :
    (∃ m e, s.evidenceNode n.nodeIdHex = some m ∧ a = .error e ∧ s' = s) ∨
      (s.evidenceNode n.nodeIdHex = none ∧ a = .ok ()) := by
  obtain ⟨order, hr⟩ := exec_noFaults hx
  obtain ⟨rfl, rfl⟩ := Prod.mk.inj hr
  rcases s.evidenceNodes.insert_cases n with ⟨h, _⟩ | ⟨m, e, hm, h⟩ | ⟨t, hnone, h, _⟩
  · exact absurd h hne
  · exact Or.inl ⟨m, e, hm, by rw [h], by rw [h]⟩
  · exact Or.inr ⟨hnone, by rw [h]⟩

theorem receipt_insert_noFaults {q : ReceiptProjection} {a : StorageResult Unit}
    (hx : Exec rt noFaults s (.store (.receipts (.insert q))) a s') (hne : q.receiptIdHex ≠ "") :
    (∃ r e, s.receipt q.receiptIdHex = some r ∧ a = .error e ∧ s' = s) ∨
      (s.receipt q.receiptIdHex = none ∧ a = .ok ()) := by
  obtain ⟨order, hr⟩ := exec_noFaults hx
  obtain ⟨rfl, rfl⟩ := Prod.mk.inj hr
  cases hget : s.receipt q.receiptIdHex with
  | none =>
    obtain ⟨t, ht⟩ := insertIndexed_fresh "receipt_id_hex" "receipt projection" hne hget
    exact Or.inr ⟨rfl, by rw [InMemoryReceiptProjectionStore.insert, ht]⟩
  | some r =>
    rcases insertIndexed_cases "receipt_id_hex" "receipt projection" s.receipts.receipts q with
      ⟨e, h⟩ | ⟨t, h, hnone, _⟩
    · refine Or.inl ⟨r, e, rfl, ?_, ?_⟩
      · rw [InMemoryReceiptProjectionStore.insert, h]
      · rw [InMemoryReceiptProjectionStore.insert, h]
    · rw [Stores.receipt, hnone] at hget
      cases hget

/-! ## Rows after a call -/

theorem node_inserted {n : EvidenceNodeRecord}
    (hx : Exec rt faults s (.store (.evidenceNodes (.insert n))) (.ok ()) s') :
    s'.evidenceNode n.nodeIdHex = some n := by
  obtain ⟨order, hr⟩ := exec_ok hx
  obtain ⟨he, rfl⟩ := Prod.mk.inj hr
  rcases s.evidenceNodes.insert_cases n with ⟨_, e, h⟩ | ⟨m, e, _, h⟩ | ⟨t, _, h, hget⟩
  · rw [h] at he
    cases he
  · rw [h] at he
    cases he
  · simp only [Stores.evidenceNode, h, hget, if_true]

theorem receipt_inserted {q : ReceiptProjection}
    (hx : Exec rt faults s (.store (.receipts (.insert q))) (.ok ()) s') :
    s'.receipt q.receiptIdHex = some q := by
  obtain ⟨order, hr⟩ := exec_ok hx
  obtain ⟨he, rfl⟩ := Prod.mk.inj hr
  rcases insertIndexed_cases "receipt_id_hex" "receipt projection" s.receipts.receipts q with
    ⟨e, h⟩ | ⟨t, h, _, hget⟩
  · rw [InMemoryReceiptProjectionStore.insert, h] at he
    cases he
  · simp only [Stores.receipt, InMemoryReceiptProjectionStore.insert, h, hget, if_true]

/-- The call can change an attempt. -/
def WritesAttempt : PortCall → Prop
  | .store (.attempts (.insert _)) => True
  | .store (.attempts (.updateState _ _)) => True
  | .store (.attempts (.updateDeploymentId _ _)) => True
  | _ => False

theorem attempt_stands {op : PortCall} {a : Answer op} (hx : Exec rt faults s op a s')
    (hop : ¬ WritesAttempt op) (k : String) : s'.attempt k = s.attempt k := by
  cases attempt_step (c := ⟨op, a⟩) hx k with
  | same h => exact h
  | insert x hi hc hb ha =>
    cases hc
    exact absurd trivial hop
  | state x st hc hb ha =>
    cases hc
    exact absurd trivial hop
  | deployment x d hc hb ha =>
    cases hc
    exact absurd trivial hop

section
variable {ι : Type} {log : List (Entry ι Answer Stores)}

/-- Whoever tried to insert a node, the id is taken from then on. -/
theorem node_present (ht : Trace (Exec rt noFaults) s log s') {e : Entry ι Answer Stores}
    (he : e ∈ log) {n : EvidenceNodeRecord} (hne : n.nodeIdHex ≠ "") {a : StorageResult Unit}
    (hc : e.call = ⟨.store (.evidenceNodes (.insert n)), a⟩) :
    ∃ m, s'.evidenceNode n.nodeIdHex = some m := by
  obtain ⟨l₁, l₂, rfl⟩ := List.append_of_mem he
  have hx := ht.executed e he
  rw [hc] at hx
  rcases node_insert_noFaults hx hne with ⟨m, _, hm, _, hsame⟩ | ⟨_, rfl⟩
  · rw [← hsame] at hm
    exact ⟨m, row_kept (evidence_node_step · _) ht.around.2 hm⟩
  · exact ⟨n, row_kept (evidence_node_step · _) ht.around.2 (node_inserted hx)⟩

theorem receipt_present (ht : Trace (Exec rt noFaults) s log s') {e : Entry ι Answer Stores}
    (he : e ∈ log) {q : ReceiptProjection} (hne : q.receiptIdHex ≠ "") {a : StorageResult Unit}
    (hc : e.call = ⟨.store (.receipts (.insert q)), a⟩) :
    ∃ r, s'.receipt q.receiptIdHex = some r := by
  obtain ⟨l₁, l₂, rfl⟩ := List.append_of_mem he
  have hx := ht.executed e he
  rw [hc] at hx
  rcases receipt_insert_noFaults hx hne with ⟨r, _, hr, _, hsame⟩ | ⟨_, rfl⟩
  · rw [← hsame] at hr
    exact ⟨r, row_kept (receipt_add_step · _) ht.around.2 hr⟩
  · exact ⟨q, row_kept (receipt_add_step · _) ht.around.2 (receipt_inserted hx)⟩

theorem attempts_stand (ht : Trace (Exec rt faults) s log s')
    (hno : ∀ e ∈ log, ¬ WritesAttempt e.call.1) (k : String) : s'.attempt k = s.attempt k := by
  refine ht.linked.keeps (Q := fun t => t.attempt k = s.attempt k) (fun e he hb => ?_) rfl
  rw [← hb]
  exact attempt_stands (ht.executed e he) (hno e he) k

/-- A node whose insertion is on record is stored at the end. -/
theorem node_stored (ht : Trace (Exec rt faults) s log s') {e : Entry ι Answer Stores}
    (he : e ∈ log) {n : EvidenceNodeRecord} (hc : e.call = nodeInserted n) :
    s'.evidenceNode n.nodeIdHex = some n := by
  obtain ⟨l₁, l₂, rfl⟩ := List.append_of_mem he
  have hx := ht.executed e he
  rw [hc] at hx
  exact row_kept (evidence_node_step · _) ht.around.2 (node_inserted hx)

theorem receipt_stored (ht : Trace (Exec rt faults) s log s') {e : Entry ι Answer Stores}
    (he : e ∈ log) {q : ReceiptProjection} (hc : e.call = receiptInserted q) :
    s'.receipt q.receiptIdHex = some q := by
  obtain ⟨l₁, l₂, rfl⟩ := List.append_of_mem he
  have hx := ht.executed e he
  rw [hc] at hx
  exact row_kept (receipt_add_step · _) ht.around.2 (receipt_inserted hx)

end

end Piteka.Storage
