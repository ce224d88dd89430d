import Piteka.Application.BundleExport

/-!
# What the exporters do

Both exporters first read the case file of the receipt. Read alone and without
faults it is a function of the stored rows (`caseFile`), and so are the manifest
and the bundle; on a path, the case file is what the answers of the reads say.
-/
namespace Piteka.Application

set_option autoImplicit false

open Piteka.Interleaving Piteka.Interleaving.Program Piteka.Storage

/-- What both exporters read: the receipt and its three lists of nodes. -/
structure CaseFile where
  receipt : ReceiptProjection
  dispatchNodes : List EvidenceNodeRecord
  targetNodes : List EvidenceNodeRecord
  gapNodes : List EvidenceNodeRecord
  deriving DecidableEq

namespace CaseFile

def nodes (c : CaseFile) : List EvidenceNodeRecord :=
  c.dispatchNodes ++ c.targetNodes ++ c.gapNodes

def bytes (cd : Codec) (c : CaseFile) : Array UInt8 :=
  cd.toVec (assembleManifest c.receipt c.dispatchNodes c.targetNodes c.gapNodes)

def digest (cd : Codec) (c : CaseFile) : ContentDigest := .of cd.toRuntime (c.bytes cd)

/-- The protocol object that holds the bundle. -/
def object (cd : Codec) (c : CaseFile) : ProtocolObjectRecord where
  kind := "dispute_bundle"
  objectIdHex := "bundle-" ++ (c.digest cd).toHex
  bytes := c.bytes cd

/-- The id and the blob address of a node, as the bundle lists them. -/
def listed (cd : Codec) (node : EvidenceNodeRecord) : String :=
  node.nodeIdHex ++ ":" ++ (ContentDigest.of cd.toRuntime (nodeBytes cd node)).toHex

def descriptor (cd : Codec) (node : EvidenceNodeRecord) : EvidenceDescriptor :=
  evidenceDescriptor (.of cd.toRuntime (nodeBytes cd node)) (UInt64.ofNat (nodeBytes cd node).size)

def bundle (cd : Codec) (c : CaseFile) : BundleExport where
  bundleIdHex := "bundle-" ++ (c.digest cd).toHex
  receiptIdHex := c.receipt.receiptIdHex
  mandateIdHex := c.receipt.mandateIdHex
  evidenceNodeIds := c.nodes.map (listed cd)
  evidenceGapIds := c.receipt.evidenceGaps
  bundleDigest := c.digest cd

end CaseFile

def readCase (receiptIdHex : String) : UseCase BundleExportError CaseFile := do
  match ← await (.receipts (.get receiptIdHex)) with
  | none => throw (.receiptNotFound receiptIdHex)
  | some receipt => do
    let dispatchNodes ← fetchNodes receipt.dispatchEvidenceRefs
    let targetNodes ← fetchNodes receipt.targetEvidenceRefs
    let gapNodes ← fetchNodes receipt.evidenceGaps
    return { receipt, dispatchNodes, targetNodes, gapNodes }

/-- What the bundle does with the case file. -/
def storeCase (cd : Codec) (c : CaseFile) : UseCase BundleExportError BundleExport := do
  let stored ← storeEvidence cd c.nodes
  await (.protocolObjects (.put (c.object cd)))
  putDescriptors stored.2
  return { c.bundle cd with evidenceNodeIds := stored.1 }

theorem exportManifestBytes_eq (cd : Codec) (id : String) :
    exportManifestBytes cd id = readCase id >>= fun c => pure (c.bytes cd) := by
  unfold exportManifestBytes readCase
  rw [bind_assoc]
  refine congrArg _ (funext fun o => ?_)
  cases o with
  | none => rfl
  | some receipt =>
    simp only [bind_assoc, pure_bind]
    rfl

theorem assembleBundle_eq (cd : Codec) (id : String) :
    assembleBundle cd id = readCase id >>= storeCase cd := by
  unfold assembleBundle readCase
  rw [bind_assoc]
  refine congrArg _ (funext fun o => ?_)
  cases o with
  | none => rfl
  | some receipt =>
    simp only [bind_assoc, pure_bind]
    rfl

/-! ## Reading alone -/

section
variable {rt : Runtime} {s s' : Stores}

/-- The nodes that the ids resolve to, if every one does. -/
def resolveNodes (s : Stores) (ids : List String) :
    Except BundleExportError (List EvidenceNodeRecord) :=
  if (ids.filter fun id => (s.evidenceNode id).isNone) = [] then .ok (ids.filterMap s.evidenceNode)
  else .error (.incompleteEvidence ids (ids.filter fun id => (s.evidenceNode id).isNone))

/-- The case file that the stored rows make. -/
def caseFile (s : Stores) (id : String) : Except BundleExportError CaseFile := do
  match s.receipt id with
  | none => throw (.receiptNotFound id)
  | some receipt => do
    let dispatchNodes ← resolveNodes s receipt.dispatchEvidenceRefs
    let targetNodes ← resolveNodes s receipt.targetEvidenceRefs
    let gapNodes ← resolveNodes s receipt.evidenceGaps
    return { receipt, dispatchNodes, targetNodes, gapNodes }

theorem readNodes_eval {ids : List String}
    {r : Except BundleExportError (List EvidenceNodeRecord × List String)} :
    (readNodes ids).run.Eval (Exec rt noFaults) s r s' ↔
      r = .ok (ids.filterMap s.evidenceNode, ids.filter fun id => (s.evidenceNode id).isNone) ∧
        s' = s := by
  induction ids generalizing r s' with
  | nil => exact eval_pure
  | cons id ids ih =>
    have hget : ∀ order, (StoreCall.evidenceNodes (.get id)).run rt order s =
        (.ok (s.evidenceNode id), s) := fun _ => rfl
    unfold readNodes
    rw [eval_seq_ok (eval_await_ok hget)]
    cases hnode : s.evidenceNode id with
    | some node =>
      rw [eval_seq_ok ih, eval_pure, List.filterMap_cons_some hnode, List.filter_cons, hnode]
      rfl
    | none =>
      rw [eval_seq_ok ih, eval_pure, List.filterMap_cons_none hnode, List.filter_cons, hnode]
      rfl

theorem fetchNodes_eval {ids : List String}
    {r : Except BundleExportError (List EvidenceNodeRecord)} :
    (fetchNodes ids).run.Eval (Exec rt noFaults) s r s' ↔ r = resolveNodes s ids ∧ s' = s := by
  unfold fetchNodes resolveNodes
  rw [eval_seq_ok readNodes_eval]
  split
  · exact eval_pure
  · exact eval_throw

/-- A lookup in sequence: it fails, or what follows sees the nodes. -/
theorem fetchNodes_then {α : Type} {ids : List String}
    {f : List EvidenceNodeRecord → UseCase BundleExportError α} {r : Except BundleExportError α} :
    (fetchNodes ids >>= f).run.Eval (Exec rt noFaults) s r s' ↔
      match resolveNodes s ids with
      | .error e => r = .error e ∧ s' = s
      | .ok nodes => (f nodes).run.Eval (Exec rt noFaults) s r s' := by
  cases hres : resolveNodes s ids with
  | error e =>
    exact eval_seq_error fun {r s'} => by rw [fetchNodes_eval, hres]
  | ok nodes =>
    exact eval_seq_ok fun {r s'} => by rw [fetchNodes_eval, hres]

theorem readCase_eval {id : String} {r : Except BundleExportError CaseFile} :
    (readCase id).run.Eval (Exec rt noFaults) s r s' ↔ r = caseFile s id ∧ s' = s := by
  have hget : ∀ order, (StoreCall.receipts (.get id)).run rt order s =
      (.ok (s.receipt id), s) := fun _ => rfl
  unfold readCase caseFile
  rw [eval_seq_ok (eval_await_ok hget)]
  cases s.receipt id with
  | none => exact eval_throw
  | some receipt =>
    dsimp only
    rw [fetchNodes_then]
    cases resolveNodes s receipt.dispatchEvidenceRefs with
    | error e => exact Iff.rfl
    | ok dispatchNodes =>
      dsimp only
      rw [fetchNodes_then]
      cases resolveNodes s receipt.targetEvidenceRefs with
      | error e => exact Iff.rfl
      | ok targetNodes =>
        dsimp only
        rw [fetchNodes_then]
        cases resolveNodes s receipt.evidenceGaps with
        | error e => exact Iff.rfl
        | ok gapNodes => exact eval_pure

/-- Exported alone, the manifest is the text of the case file. -/
theorem exportManifestBytes_eval {cd : Codec} {id : String}
    {r : Except BundleExportError (Array UInt8)} :
    (exportManifestBytes cd id).run.Eval (Exec rt noFaults) s r s' ↔
      r = (caseFile s id).map (CaseFile.bytes cd) ∧ s' = s := by
  rw [exportManifestBytes_eq]
  cases hcase : caseFile s id with
  | error e =>
    exact eval_seq_error fun {r s'} => by rw [readCase_eval, hcase]
  | ok c =>
    rw [eval_seq_ok fun {r s'} => by rw [readCase_eval, hcase]]
    exact eval_pure

/-! ## The rows of a case file -/

/-- The ids resolve to the nodes, one by one. -/
def ResolveTo (s : Stores) : List String → List EvidenceNodeRecord → Prop :=
  List.Forall₂ fun id node => s.evidenceNode id = some node

theorem resolveNodes_ok {ids : List String} {nodes : List EvidenceNodeRecord} :
    resolveNodes s ids = .ok nodes ↔ ResolveTo s ids nodes := by
  unfold resolveNodes
  constructor
  · intro h
    split at h
    · next hnone =>
      obtain rfl := Except.ok.inj h
      have hall : ∀ id ∈ ids, ∃ node, s.evidenceNode id = some node := by
        intro id hid
        have hsome := List.filter_eq_nil_iff.mp hnone id hid
        exact Option.ne_none_iff_exists'.mp (by simpa using hsome)
      clear hnone h
      induction ids with
      | nil => exact .nil
      | cons id ids ih =>
        obtain ⟨node, hnode⟩ := hall id List.mem_cons_self
        rw [List.filterMap_cons_some hnode]
        exact .cons hnode (ih fun id' hid => hall id' (List.mem_cons_of_mem _ hid))
    · cases h
  · intro h
    have hboth : (ids.filter fun id => (s.evidenceNode id).isNone) = [] ∧
        ids.filterMap s.evidenceNode = nodes := by
      induction h with
      | nil => exact ⟨rfl, rfl⟩
      | cons hnode _ ih =>
        rw [List.filter_cons, hnode, List.filterMap_cons_some hnode]
        exact ⟨ih.1, congrArg _ ih.2⟩
    rw [if_pos hboth.1, hboth.2]

/-- A list of ids resolves exactly when each of them does. -/
theorem resolves_iff {ids : List String} :
    (∃ nodes, resolveNodes s ids = .ok nodes) ↔ ∀ id ∈ ids, ∃ node, s.evidenceNode id = some node := by
  constructor
  · rintro ⟨nodes, h⟩ id hid
    obtain ⟨i, hi, rfl⟩ := List.mem_iff_getElem.mp hid
    have hall := resolveNodes_ok.mp h
    have hlen : i < nodes.length := hall.length_eq ▸ hi
    exact ⟨nodes[i], hall.get hi hlen⟩
  · intro hall
    refine ⟨_, if_pos (List.filter_eq_nil_iff.mpr fun id hid => ?_)⟩
    obtain ⟨node, hnode⟩ := hall id hid
    rw [hnode]
    exact Bool.false_ne_true

theorem resolveTo_singleton {id : String} {n : EvidenceNodeRecord} {nodes : List EvidenceNodeRecord}
    (hn : s.evidenceNode id = some n) (h : ResolveTo s [id] nodes) : nodes = [n] := by
  cases h with
  | cons hm hnil =>
    cases hnil
    rw [Option.some.inj (hm.symm.trans hn)]

theorem caseFile_ok {id : String} {c : CaseFile} :
    caseFile s id = .ok c ↔ s.receipt id = some c.receipt ∧
      ResolveTo s c.receipt.dispatchEvidenceRefs c.dispatchNodes ∧
      ResolveTo s c.receipt.targetEvidenceRefs c.targetNodes ∧
      ResolveTo s c.receipt.evidenceGaps c.gapNodes := by
  simp only [← resolveNodes_ok]
  constructor
  · intro h
    unfold caseFile at h
    cases hreceipt : s.receipt id with
    | none =>
      rw [hreceipt] at h
      cases h
    | some receipt =>
      rw [hreceipt] at h
      dsimp only at h
      cases hd : resolveNodes s receipt.dispatchEvidenceRefs with
      | error e =>
        rw [hd] at h
        cases h
      | ok dispatchNodes =>
        cases ht : resolveNodes s receipt.targetEvidenceRefs with
        | error e =>
          rw [hd, ht] at h
          cases h
        | ok targetNodes =>
          cases hg : resolveNodes s receipt.evidenceGaps with
          | error e =>
            rw [hd, ht, hg] at h
            cases h
          | ok gapNodes =>
            rw [hd, ht, hg] at h
            obtain rfl := Except.ok.inj h
            exact ⟨rfl, hd, ht, hg⟩
  · rintro ⟨hreceipt, hd, ht, hg⟩
    unfold caseFile
    rw [hreceipt]
    dsimp only
    rw [hd, ht, hg]
    rfl

/-- The references of the receipt, in the order in which the exporters resolve them. -/
def references (q : ReceiptProjection) : List String :=
  q.dispatchEvidenceRefs ++ q.targetEvidenceRefs ++ q.evidenceGaps

/-- Every reference of the receipt is the id of a stored node. -/
def Resolved (s : Stores) (q : ReceiptProjection) : Prop :=
  ∀ id ∈ references q, ∃ node, s.evidenceNode id = some node

/-- A stored receipt has a case file exactly when its references resolve. -/
theorem caseFile_iff_resolved {id : String} {q : ReceiptProjection}
    (hq : s.receipt id = some q) : (∃ c, caseFile s id = .ok c) ↔ Resolved s q := by
  unfold Resolved references
  simp only [List.mem_append, or_imp, forall_and, ← resolves_iff]
  constructor
  · rintro ⟨c, hc⟩
    obtain ⟨hreceipt, hd, ht, hg⟩ := caseFile_ok.mp hc
    rw [Option.some.inj (hq.symm.trans hreceipt)]
    exact ⟨⟨⟨_, resolveNodes_ok.mpr hd⟩, ⟨_, resolveNodes_ok.mpr ht⟩⟩, ⟨_, resolveNodes_ok.mpr hg⟩⟩
  · rintro ⟨⟨⟨dispatchNodes, hd⟩, ⟨targetNodes, ht⟩⟩, ⟨gapNodes, hg⟩⟩
    refine ⟨⟨q, dispatchNodes, targetNodes, gapNodes⟩, caseFile_ok.mpr ⟨hq, ?_, ?_, ?_⟩⟩
    · exact resolveNodes_ok.mp hd
    · exact resolveNodes_ok.mp ht
    · exact resolveNodes_ok.mp hg

/-- The receipts and the nodes of the first state are there in the second. -/
structure RowsKept (s s' : Stores) : Prop where
  receipt : ∀ k q, s.receipt k = some q → s'.receipt k = some q
  node : ∀ k n, s.evidenceNode k = some n → s'.evidenceNode k = some n

theorem rowsKept_of_exec {faults : StoreCall → Prop} {c : Answered}
    (hx : Exec rt faults s c.1 c.2 s') : RowsKept s s' where
  receipt k _ := (receipt_add_step hx k).kept
  node k _ := (evidence_node_step hx k).kept

theorem caseFile_kept (hkept : RowsKept s s') {id : String} {c : CaseFile}
    (hc : caseFile s id = .ok c) : caseFile s' id = .ok c := by
  obtain ⟨hreceipt, hd, ht, hg⟩ := caseFile_ok.mp hc
  have hnodes : ∀ {ids nodes}, ResolveTo s ids nodes → ResolveTo s' ids nodes :=
    fun h => h.imp fun _ _ hn => hkept.node _ _ hn
  exact caseFile_ok.mpr ⟨hkept.receipt _ _ hreceipt, hnodes hd, hnodes ht, hnodes hg⟩

/-! ## Storing alone -/

/-- What the storing of a bundle leaves as it is, and the blobs that it adds. -/
structure BlobsAdded (cd : Codec) (nodes : List EvidenceNodeRecord) (s s' : Stores) : Prop where
  objects : ∀ k, s'.protocolObject k = s.protocolObject k
  kept : ∀ d b, s.blob d = some b → s'.blob d = some b
  added : ∀ d b, s'.blob d = some b → s.blob d = some b ∨
    ∃ node ∈ nodes, nodeBytes cd node = b ∧ ContentDigest.of cd.toRuntime b = d

theorem BlobsAdded.refl (cd : Codec) (s : Stores) : BlobsAdded cd [] s s :=
  ⟨fun _ => rfl, fun _ _ h => h, fun _ _ h => Or.inl h⟩

theorem BlobsAdded.trans {cd : Codec} {l₁ l₂ : List EvidenceNodeRecord} {s₁ : Stores}
    (h₁ : BlobsAdded cd l₁ s s₁) (h₂ : BlobsAdded cd l₂ s₁ s') :
    BlobsAdded cd (l₁ ++ l₂) s s' where
  objects k := (h₂.objects k).trans (h₁.objects k)
  kept d b h := h₂.kept d b (h₁.kept d b h)
  added d b h := by
    rcases h₂.added d b h with h | ⟨node, hn, hb⟩
    · rcases h₁.added d b h with h | ⟨node, hn, hb⟩
      · exact Or.inl h
      · exact Or.inr ⟨node, List.mem_append_left _ hn, hb⟩
    · exact Or.inr ⟨node, List.mem_append_right _ hn, hb⟩

/-- One blob put: the digest of its bytes is answered, and only that address may be new. -/
theorem put_added {cd : Codec} {node : EvidenceNodeRecord} {a : StorageResult ContentDigest}
    (hx : Exec cd.toRuntime noFaults s (.store (.evidence (.put (nodeBytes cd node)))) a s') :
    a = .ok (.of cd.toRuntime (nodeBytes cd node)) ∧ BlobsAdded cd [node] s s' := by
  obtain ⟨order, hr⟩ := exec_noFaults hx
  obtain ⟨t, hput, hget⟩ := s.evidence.put_cases cd.toRuntime (nodeBytes cd node)
  obtain ⟨rfl, rfl⟩ := Prod.mk.inj hr
  refine ⟨by rw [hput], fun _ => rfl, fun d b h => ?_, fun d b h => ?_⟩
  · simp only [Stores.blob, hput, hget]
    rw [if_neg fun hn => ?_]
    · exact h
    · rw [Stores.blob, hn.2] at h
      cases h
  · simp only [Stores.blob, hput, hget] at h
    split at h
    · next hd =>
      obtain rfl := Option.some.inj h
      refine Or.inr ⟨node, List.mem_singleton.mpr rfl, rfl, ?_⟩
      cases d
      exact congrArg ContentDigest.mk hd.1.symm
    · exact Or.inl h

theorem storeEvidence_eval {cd : Codec} {nodes : List EvidenceNodeRecord}
    {r : Except BundleExportError (List String × List EvidenceDescriptor)}
    (he : (storeEvidence cd nodes).run.Eval (Exec cd.toRuntime noFaults) s r s') :
    r = .ok (nodes.map (CaseFile.listed cd), nodes.map (CaseFile.descriptor cd)) ∧
      BlobsAdded cd nodes s s' := by
  induction nodes generalizing s s' r with
  | nil =>
    obtain ⟨rfl, rfl⟩ := eval_pure.mp he
    exact ⟨rfl, .refl cd _⟩
  | cons node nodes ih =>
    unfold storeEvidence storeEvidenceBlob at he
    rw [bind_assoc] at he
    rcases eval_seq.mp he with ⟨e, h1, _⟩ | ⟨d, t, h1, h2⟩
    · rcases eval_await.mp h1 with ⟨e', hx, _⟩ | ⟨_, _, hr⟩
      · cases (put_added hx).1
      · cases hr
    rcases eval_await.mp h1 with ⟨_, _, hr⟩ | ⟨d', hx, hr⟩
    · cases hr
    obtain rfl := Except.ok.inj hr
    obtain ⟨hd, hadd⟩ := put_added hx
    obtain rfl := Except.ok.inj hd
    rw [pure_bind] at h2
    rcases eval_seq.mp h2 with ⟨e, h3, _⟩ | ⟨rest, u, h3, h4⟩
    · cases (ih h3).1
    obtain ⟨hrest, hadd'⟩ := ih h3
    obtain rfl := Except.ok.inj hrest
    obtain ⟨rfl, rfl⟩ := eval_pure.mp h4
    exact ⟨rfl, hadd.trans hadd'⟩

theorem putDescriptors_eval {cd : Codec} {descriptors : List EvidenceDescriptor}
    {r : Except BundleExportError Unit}
    (he : (putDescriptors descriptors).run.Eval (Exec cd.toRuntime noFaults) s r s') :
    r = .ok () ∧ (∀ k, s'.protocolObject k = s.protocolObject k) ∧ ∀ d, s'.blob d = s.blob d := by
  induction descriptors generalizing s r with
  | nil =>
    obtain ⟨rfl, rfl⟩ := eval_pure.mp he
    exact ⟨rfl, fun _ => rfl, fun _ => rfl⟩
  | cons descriptor descriptors ih =>
    have hput : ∀ order, (StoreCall.evidence (.putDescriptor descriptor)).run cd.toRuntime order s =
        (.ok (), { s with evidence := (s.evidence.putDescriptor descriptor).2 }) := fun _ => rfl
    unfold putDescriptors at he
    obtain ⟨hr, hobj, hblob⟩ := ih ((eval_seq_ok (eval_await_ok hput)).mp he)
    exact ⟨hr, hobj, hblob⟩

/-- The object of the case file can be stored: its id is free or holds the same bytes. -/
def Storable (cd : Codec) (s : Stores) (c : CaseFile) : Prop :=
  ∀ q, s.protocolObject (c.object cd).objectIdHex = some q → q.bytes = c.bytes cd

/-- After a bundle: its object is stored, and the blobs of its nodes are. -/
structure BundleStored (cd : Codec) (c : CaseFile) (s s' : Stores) : Prop where
  object : ∃ q, s'.protocolObject (c.object cd).objectIdHex = some q ∧ q.bytes = c.bytes cd
  kept : ∀ d b, s.blob d = some b → s'.blob d = some b
  added : ∀ d b, s'.blob d = some b → s.blob d = some b ∨
    ∃ node ∈ c.nodes, nodeBytes cd node = b ∧ ContentDigest.of cd.toRuntime b = d

theorem object_put {cd : Codec} {c : CaseFile} {a : StorageResult Unit}
    (hx : Exec cd.toRuntime noFaults s (.store (.protocolObjects (.put (c.object cd)))) a s') :
    (∀ d, s'.blob d = s.blob d) ∧
      ((¬ Storable cd s c ∧ ∃ e, a = .error e) ∨
        (Storable cd s c ∧ a = .ok () ∧
          ∃ q, s'.protocolObject (c.object cd).objectIdHex = some q ∧ q.bytes = c.bytes cd)) := by
  obtain ⟨order, hr⟩ := exec_noFaults hx
  obtain ⟨rfl, rfl⟩ := Prod.mk.inj hr
  refine ⟨fun _ => rfl, ?_⟩
  rcases s.protocolObjects.put_cases (c.object cd) with
    ⟨hne, _⟩ | ⟨q, hq, ⟨hb, h⟩ | ⟨hb, e, h⟩⟩ | ⟨t, hnone, h, hget⟩
  · exact absurd (String.append_eq_empty_iff.mp hne).1 (by decide)
  · refine Or.inr ⟨fun q' hq' => ?_, by rw [h], q, ?_, hb⟩
    · obtain rfl := Option.some.inj (hq.symm.trans hq')
      exact hb
    · simp only [Stores.protocolObject, h]
      exact hq
  · exact Or.inl ⟨fun hs => hb (hs q hq), e, by rw [h]⟩
  · refine Or.inr ⟨fun q' hq' => ?_, by rw [h], c.object cd, ?_, rfl⟩
    · rw [Stores.protocolObject, hnone] at hq'
      cases hq'
    · simp only [Stores.protocolObject, h, hget, if_true]

/-- Assembled alone: the case file is refused, its object conflicts, or the bundle is stored. -/
theorem assembleBundle_eval {cd : Codec} {id : String} {r : Except BundleExportError BundleExport}
    (he : (assembleBundle cd id).run.Eval (Exec cd.toRuntime noFaults) s r s') :
    (∃ e, caseFile s id = .error e ∧ r = .error e ∧ s' = s) ∨
      ∃ c, caseFile s id = .ok c ∧
        ((¬ Storable cd s c ∧ ∃ e, r = .error e) ∨
          (Storable cd s c ∧ r = .ok (c.bundle cd) ∧ BundleStored cd c s s')) := by
  rw [assembleBundle_eq] at he
  rcases eval_seq.mp he with ⟨e, h1, rfl⟩ | ⟨c, t, h1, h2⟩
  · obtain ⟨hc, rfl⟩ := readCase_eval.mp h1
    exact Or.inl ⟨e, hc.symm, rfl, rfl⟩
  obtain ⟨hc, rfl⟩ := readCase_eval.mp h1
  refine Or.inr ⟨c, hc.symm, ?_⟩
  unfold storeCase at h2
  rcases eval_seq.mp h2 with ⟨e, h3, _⟩ | ⟨stored, u, h3, h4⟩
  · cases (storeEvidence_eval h3).1
  obtain ⟨hstored, hadd⟩ := storeEvidence_eval h3
  obtain rfl := Except.ok.inj hstored
  have hsame : Storable cd u c ↔ Storable cd t c := by
    rw [Storable, Storable, hadd.objects]
  rcases eval_seq.mp h4 with ⟨e, h5, rfl⟩ | ⟨_, v, h5, h6⟩
  · rcases eval_await.mp h5 with ⟨e', hx, _⟩ | ⟨_, _, hr⟩
    · rcases (object_put hx).2 with ⟨hns, _⟩ | ⟨_, ha, _⟩
      · exact Or.inl ⟨fun hs => hns (hsame.mpr hs), e, rfl⟩
      · cases ha
    · cases hr
  rcases eval_await.mp h5 with ⟨_, _, hr⟩ | ⟨_, hx, _⟩
  · cases hr
  obtain ⟨hblob, ⟨_, e, ha⟩ | ⟨hs, _, q, hq, hb⟩⟩ := object_put hx
  · cases ha
  rcases eval_seq.mp h6 with ⟨e, h7, _⟩ | ⟨_, w, h7, h8⟩
  · cases (putDescriptors_eval h7).1
  obtain ⟨_, hobj, hblob'⟩ := putDescriptors_eval h7
  obtain ⟨rfl, rfl⟩ := eval_pure.mp h8
  refine Or.inr ⟨hsame.mp hs, rfl, ⟨q, (hobj _).trans hq, hb⟩, fun d b h => ?_, fun d b h => ?_⟩
  · rw [hblob', hblob]
    exact hadd.kept d b h
  · rw [hblob', hblob] at h
    exact hadd.added d b h

end

/-! ## On a path -/

theorem readNodes_returns {ids : List String} {h : Path} {nodes : List EvidenceNodeRecord}
    (hr : Returns (readNodes ids).run h (.ok (nodes, []))) :
    List.Forall₂ (fun id node => did (.evidenceNodes (.get id)) (some node) ∈ h) ids nodes := by
  induction ids generalizing h nodes with
  | nil =>
    obtain ⟨_, hret⟩ := returns_pure.mp hr
    cases hret
    exact .nil
  | cons id ids ih =>
    unfold readNodes at hr
    rcases returns_await.mp hr with ⟨e, _, he⟩ | ⟨o, h, rfl, h1⟩
    · cases he
    cases o with
    | none =>
      rcases returns_seq h1 with ⟨e, _, he⟩ | ⟨h₁, h₂, rest, rfl, _, h3⟩
      · cases he
      · obtain ⟨_, hret⟩ := returns_pure.mp h3
        cases hret
    | some node =>
      rcases returns_seq h1 with ⟨e, _, he⟩ | ⟨h₁, h₂, rest, rfl, h2, h3⟩
      · cases he
      obtain ⟨rfl, hret⟩ := returns_pure.mp h3
      obtain ⟨nodes', missing⟩ := rest
      cases hret
      refine .cons List.mem_cons_self ((ih h2).imp fun _ _ hmem => ?_)
      rw [List.append_nil]
      exact List.mem_cons_of_mem _ hmem

theorem fetchNodes_returns {ids : List String} {h : Path} {nodes : List EvidenceNodeRecord}
    (hr : Returns (fetchNodes ids).run h (.ok nodes)) :
    List.Forall₂ (fun id node => did (.evidenceNodes (.get id)) (some node) ∈ h) ids nodes := by
  unfold fetchNodes at hr
  rcases returns_seq hr with ⟨e, _, he⟩ | ⟨h₁, h₂, found, rfl, h1, h2⟩
  · cases he
  obtain ⟨nodes', missing⟩ := found
  split at h2
  · next hnone =>
    obtain ⟨rfl, hret⟩ := returns_pure.mp h2
    obtain rfl := Except.ok.inj hret
    obtain rfl : missing = [] := hnone
    rw [List.append_nil]
    exact readNodes_returns h1
  · obtain ⟨_, hret⟩ := returns_throw.mp h2
    cases hret

section
variable {ι : Type} {faults : StoreCall → Prop} {s s' : Stores}
  {log : List (Entry ι Answer Stores)} {h : Path}

/-- Every call of the path has been executed in the log. -/
def ExecutedIn (log : List (Entry ι Answer Stores)) (h : Path) : Prop :=
  ∀ x ∈ h, ∃ e ∈ log, e.call = x

/-- Nodes that a path has read are stored from then on. -/
theorem fetched_stand {rt : Runtime} (htrace : Trace (Exec rt faults) s log s')
    (hx : ExecutedIn log h) {ids : List String} {nodes : List EvidenceNodeRecord}
    (hread : List.Forall₂ (fun id node => did (.evidenceNodes (.get id)) (some node) ∈ h) ids nodes) :
    ResolveTo s' ids nodes := by
  refine hread.imp fun id node hmem => ?_
  obtain ⟨e, he, hc⟩ := hx _ hmem
  obtain ⟨l₁, l₂, rfl⟩ := List.append_of_mem he
  have hexec := htrace.executed e he
  rw [hc] at hexec
  obtain ⟨order, hr⟩ := exec_ok hexec
  obtain ⟨hread, hsame⟩ := Prod.mk.inj hr
  refine row_kept (evidence_node_step · id) htrace.around.2 ?_
  rw [← hsame]
  exact Except.ok.inj hread

theorem readCase_stands {rt : Runtime} (htrace : Trace (Exec rt faults) s log s') {id : String}
    {c : CaseFile} (hr : Returns (readCase id).run h (.ok c)) (hx : ExecutedIn log h) :
    caseFile s' id = .ok c := by
  unfold readCase at hr
  rcases returns_await.mp hr with ⟨e, _, he⟩ | ⟨o, h, rfl, h1⟩
  · cases he
  cases o with
  | none =>
    obtain ⟨_, hret⟩ := returns_throw.mp h1
    cases hret
  | some receipt =>
    rcases returns_seq h1 with ⟨e, _, he⟩ | ⟨h₁, h₂, dispatchNodes, rfl, hd, h3⟩
    · cases he
    rcases returns_seq h3 with ⟨e, _, he⟩ | ⟨h₃, h₄, targetNodes, rfl, ht, h5⟩
    · cases he
    rcases returns_seq h5 with ⟨e, _, he⟩ | ⟨h₅, h₆, gapNodes, rfl, hg, h7⟩
    · cases he
    obtain ⟨rfl, hret⟩ := returns_pure.mp h7
    obtain rfl := Except.ok.inj hret
    have hstand : ∀ {g : Path} {ids nodes}, (∀ x ∈ g, x ∈ h₁ ++ (h₃ ++ (h₅ ++ []))) →
        Returns (fetchNodes ids).run g (.ok nodes) → ResolveTo s' ids nodes := by
      intro g ids nodes hg hgr
      exact fetched_stand htrace (fun x hxg => hx x (List.mem_cons_of_mem _ (hg x hxg)))
        (fetchNodes_returns hgr)
    refine caseFile_ok.mpr ⟨?_, hstand ?_ hd, hstand ?_ ht, hstand ?_ hg⟩
    · obtain ⟨e, he, hc⟩ := hx _ List.mem_cons_self
      obtain ⟨l₁, l₂, rfl⟩ := List.append_of_mem he
      have hexec := htrace.executed e he
      rw [hc] at hexec
      obtain ⟨order, hrun⟩ := exec_ok hexec
      obtain ⟨hread, hsame⟩ := Prod.mk.inj hrun
      refine row_kept (receipt_add_step · id) htrace.around.2 ?_
      rw [← hsame]
      exact Except.ok.inj hread
    · intro x hxg
      exact List.mem_append_left _ hxg
    · intro x hxg
      exact List.mem_append_right _ (List.mem_append_left _ hxg)
    · intro x hxg
      exact List.mem_append_right _ (List.mem_append_right _ (List.mem_append_left _ hxg))

/-- What a path has stored as blobs is listed with the digests of the blobs. -/
theorem storeEvidence_returns {cd : Codec} (htrace : Trace (Exec cd.toRuntime faults) s log s')
    {nodes : List EvidenceNodeRecord} {x : List String × List EvidenceDescriptor}
    (hr : Returns (storeEvidence cd nodes).run h (.ok x)) (hx : ExecutedIn log h) :
    x = (nodes.map (CaseFile.listed cd), nodes.map (CaseFile.descriptor cd)) := by
  induction nodes generalizing h x with
  | nil =>
    obtain ⟨_, hret⟩ := returns_pure.mp hr
    exact Except.ok.inj hret
  | cons node nodes ih =>
    unfold storeEvidence storeEvidenceBlob at hr
    rw [bind_assoc] at hr
    rcases returns_await.mp hr with ⟨e, _, he⟩ | ⟨d, h, rfl, h1⟩
    · cases he
    rw [pure_bind] at h1
    obtain ⟨e, he, hc⟩ := hx _ List.mem_cons_self
    have hexec := htrace.executed e he
    rw [hc] at hexec
    obtain ⟨order, hrun⟩ := exec_ok hexec
    obtain ⟨t, hput, _⟩ := e.before.evidence.put_cases cd.toRuntime (nodeBytes cd node)
    obtain ⟨hd, _⟩ := Prod.mk.inj hrun
    rw [hput] at hd
    obtain rfl := Except.ok.inj hd
    rcases returns_seq h1 with ⟨e, _, he⟩ | ⟨h₁, h₂, rest, rfl, h2, h3⟩
    · cases he
    obtain ⟨rfl, hret⟩ := returns_pure.mp h3
    rw [ih h2 fun y hy => hx y (List.mem_cons_of_mem _ (List.mem_append_left _ hy))] at hret
    exact Except.ok.inj hret

/-- A path that returned a bundle has read the case file, which stands, and stored its object. -/
theorem assembleBundle_stands {cd : Codec} (htrace : Trace (Exec cd.toRuntime faults) s log s')
    {id : String} {b : BundleExport} (hr : Returns (assembleBundle cd id).run h (.ok b))
    (hx : ExecutedIn log h) :
    ∃ c, caseFile s' id = .ok c ∧ b = c.bundle cd ∧ objectPut (c.object cd) ∈ h := by
  rw [assembleBundle_eq] at hr
  rcases returns_seq hr with ⟨e, _, he⟩ | ⟨h₁, h₂, c, rfl, h1, h2⟩
  · cases he
  have hcase := readCase_stands htrace h1 fun y hy => hx y (List.mem_append_left _ hy)
  unfold storeCase at h2
  rcases returns_seq h2 with ⟨e, _, he⟩ | ⟨h₃, h₄, stored, rfl, h3, h4⟩
  · cases he
  have hstored := storeEvidence_returns htrace h3 fun y hy =>
    hx y (List.mem_append_right _ (List.mem_append_left _ hy))
  rcases returns_await.mp h4 with ⟨e, _, he⟩ | ⟨_, h₅, rfl, h5⟩
  · cases he
  rcases returns_seq h5 with ⟨e, _, he⟩ | ⟨h₆, h₇, _, rfl, _, h6⟩
  · cases he
  obtain ⟨rfl, hb⟩ := returns_pure.mp h6
  obtain rfl := Except.ok.inj hb
  refine ⟨c, hcase, by rw [hstored]; rfl, ?_⟩
  exact List.mem_append_right _ (List.mem_append_right _ List.mem_cons_self)

end

end Piteka.Application
