import Piteka.Application.BundleScenario
import Piteka.Postgres.Backends

/-!
# Evidence nodes on both backends

The same nodes are inserted into the in-memory store and into the table. The
in-memory store returns each accepted node; the table returns it with the source
that its column stands for, and the column of a provider holds the word `provider`
and not the provider's name. Where no accepted node loses its source, the two
answer every read alike, so the exporter computes the same bytes over either.
-/
namespace Piteka.Safety

set_option autoImplicit false

open Piteka.Interleaving Piteka.Interleaving.Program Piteka.Storage Piteka.Application
open Piteka.Postgres

/-- A node is inserted into both node stores. -/
def insertBoth (rc : RowCodec) (x : Backends) (node : EvidenceNodeRecord) : Backends where
  stores := withNodes (x.stores.evidenceNodes.insert node).2 x.stores
  table := (PgEvidenceNodeStore.insert rc x.table node).2

/-- Both node stores after the insertions, with the other stores as in `s`. -/
def filled (rc : RowCodec) (s : Stores) (nodes : List EvidenceNodeRecord) : Backends :=
  nodes.foldl (insertBoth rc) ⟨withNodes ⟨.empty, ∅⟩ s, .empty⟩

/-- The node is inserted with an id that is neither blank nor in use. -/
def InsertedFresh (nodes : List EvidenceNodeRecord) (node : EvidenceNodeRecord) : Prop :=
  node.nodeIdHex ≠ "" ∧ ∃ before after, nodes = before ++ node :: after ∧
    ∀ earlier ∈ before, earlier.nodeIdHex ≠ node.nodeIdHex

/-- Both stores return what was stored, and the exporter gives the same over either. -/
structure BackendsAgree (cd : Codec) (rc : RowCodec) (s : Stores)
    (nodes : List EvidenceNodeRecord) : Prop where
  memory : ∀ node, InsertedFresh nodes node →
    (filled rc s nodes).stores.evidenceNodes.get node.nodeIdHex = .ok (some node)
  table : ∀ node, InsertedFresh nodes node →
    PgEvidenceNodeStore.get rc (filled rc s nodes).table node.nodeIdHex = .ok (some node)
  manifests : ∀ receiptIdHex, ∃ r,
    (exportManifestBytes cd receiptIdHex).run.Yields (Exec cd.toRuntime noFaults)
      (filled rc s nodes).stores r ∧
    (exportManifestBytes cd receiptIdHex).run.Yields (PgExec cd.toRuntime rc noFaults)
      (filled rc s nodes) r

section
variable {cd : Codec} {rc : RowCodec} {s : Stores}

theorem insertBoth_get (x : Backends) (node : EvidenceNodeRecord) (id : String) :
    (insertBoth rc x node).stores.evidenceNode id =
      (x.stores.evidenceNode id).or
        (if node.nodeIdHex = id ∧ id ≠ "" then some node else none) := by
  show (x.stores.evidenceNodes.insert node).2.nodes.get id =
    (x.stores.evidenceNodes.nodes.get id).or _
  rcases x.stores.evidenceNodes.insert_cases node with
    ⟨hblank, e, h⟩ | ⟨found, e, hfound, h⟩ | ⟨t, hnone, h, hget⟩
  · have hno : ¬ (node.nodeIdHex = id ∧ id ≠ "") := fun hn => hn.2 (hn.1 ▸ hblank)
    rw [h, if_neg hno, Option.or_none]
  · rw [h]
    by_cases hn : node.nodeIdHex = id
    · rw [← hn, hfound, Option.some_or]
    · rw [if_neg fun hid => hn hid.1, Option.or_none]
  · have hne := ne_blank_of_inserted h
    rw [h]
    show t.nodes.get id = _
    rw [hget]
    by_cases hn : node.nodeIdHex = id
    · rw [if_pos hn.symm, if_pos ⟨hn, hn ▸ hne⟩, ← hn, hnone, Option.none_or]
    · rw [if_neg fun hid => hn hid.symm, if_neg fun hid => hn hid.1, Option.or_none]

/-- The in-memory store keeps what it held, and else holds the first node of the id. -/
theorem fold_get (nodes : List EvidenceNodeRecord) (x : Backends) (id : String) :
    (nodes.foldl (insertBoth rc) x).stores.evidenceNode id =
      (x.stores.evidenceNode id).or
        (nodes.find? fun n => decide (n.nodeIdHex = id ∧ id ≠ "")) := by
  induction nodes generalizing x with
  | nil => rw [List.foldl_nil, List.find?_nil, Option.or_none]
  | cons node nodes ih =>
    rw [List.foldl_cons, ih, insertBoth_get x node id, Option.or_assoc, List.find?_cons]
    by_cases hn : node.nodeIdHex = id ∧ id ≠ ""
    · rw [if_pos hn, decide_eq_true hn, Option.some_or]
    · rw [if_neg hn, decide_eq_false hn, Option.none_or]

/-- What is stored under an id is the node that was inserted fresh with it. -/
theorem filled_get {nodes : List EvidenceNodeRecord} {id : String} {node : EvidenceNodeRecord} :
    (filled rc s nodes).stores.evidenceNode id = some node ↔
      InsertedFresh nodes node ∧ node.nodeIdHex = id := by
  have hstart : (withNodes ⟨.empty, ∅⟩ s).evidenceNode id = none := rfl
  rw [filled, fold_get, hstart, Option.none_or, List.find?_eq_some_iff_append, decide_eq_true_eq]
  constructor
  · rintro ⟨⟨rfl, hne⟩, before, after, rfl, hbefore⟩
    refine ⟨⟨hne, before, after, rfl, fun earlier he heq => ?_⟩, rfl⟩
    have hfalse := hbefore earlier he
    simp [heq, hne] at hfalse
  · rintro ⟨⟨hne, before, after, rfl, hbefore⟩, rfl⟩
    refine ⟨⟨rfl, hne⟩, before, after, rfl, fun earlier he => ?_⟩
    simp [hbefore earlier he]

/-- The table mirrors the in-memory store through the insertions. -/
theorem fold_mirrors {nodes : List EvidenceNodeRecord} {x : Backends}
    (hm : Mirrors rc x.stores.evidenceNodes x.table)
    (hrt : ∀ node ∈ nodes, rc.RoundTrips node.relationships) :
    Mirrors rc (nodes.foldl (insertBoth rc) x).stores.evidenceNodes
      (nodes.foldl (insertBoth rc) x).table := by
  induction nodes generalizing x with
  | nil => exact hm
  | cons node nodes ih =>
    obtain ⟨text, hwrite, _⟩ := hrt node List.mem_cons_self
    rw [List.foldl_cons]
    exact ih (insert_mirrors hm ⟨text, hwrite⟩).1 fun n hn => hrt n (List.mem_cons_of_mem node hn)

theorem filled_mirrors {nodes : List EvidenceNodeRecord}
    (hrt : ∀ node ∈ nodes, rc.RoundTrips node.relationships) :
    Mirrors rc (filled rc s nodes).stores.evidenceNodes (filled rc s nodes).table :=
  fold_mirrors mirrors_empty hrt

/-- The table returns each stored node as its row gives it back. -/
theorem filled_table_get {nodes : List EvidenceNodeRecord} (hhex : rc.hex.Documented)
    (hrt : ∀ node ∈ nodes, rc.RoundTrips node.relationships) (id : String) :
    PgEvidenceNodeStore.get rc (filled rc s nodes).table id =
      .ok (((filled rc s nodes).stores.evidenceNode id).map restored) := by
  refine get_mirrors (filled_mirrors hrt) hhex fun node hnode => ?_
  obtain ⟨_, before, after, rfl, _⟩ := (filled_get.mp hnode).1
  exact hrt node (List.mem_append_right before List.mem_cons_self)

/-- Two node stores that answer every read alike serve the exporter alike. -/
theorem manifests_agree {x : Backends}
    (hget : ∀ id, PgEvidenceNodeStore.get rc x.table id = .ok (x.stores.evidenceNode id))
    (receiptIdHex : String) :
    ∃ r, (exportManifestBytes cd receiptIdHex).run.Yields (Exec cd.toRuntime noFaults) x.stores r ∧
      (exportManifestBytes cd receiptIdHex).run.Yields (PgExec cd.toRuntime rc noFaults) x r := by
  have hmemory : (exportManifestBytes cd receiptIdHex).run.Yields (Exec cd.toRuntime noFaults)
      x.stores ((caseFile x.stores receiptIdHex).map (CaseFile.bytes cd)) :=
    fun _ _ => exportManifestBytes_eval
  refine ⟨_, hmemory, hmemory.transfer ?_ ?_⟩
  · intro h op hn a s' hx
    cases exportManifestBytes_next hn with
    | receipt id =>
      obtain ⟨_, rfl⟩ := receipt_get_noFaults hx
      exact ⟨rfl, hx, rfl⟩
    | node id =>
      obtain ⟨rfl, rfl⟩ := node_get_noFaults hx
      refine ⟨rfl, Or.inl ⟨⟨fun l => l, fun _ => .refl _, ?_⟩, rfl⟩⟩
      exact congrArg (·, x.table) (hget id)
  · intro h op hn a x' hx
    cases exportManifestBytes_next hn with
    | receipt id =>
      obtain ⟨hx, htable⟩ := hx
      obtain ⟨_, hstores⟩ := receipt_get_noFaults hx
      rw [hstores] at hx
      refine ⟨?_, hx⟩
      cases x'
      exact congrArg₂ Backends.mk hstores htable
    | node id =>
      rcases hx with ⟨⟨scan, _, hr⟩, hstores⟩ | ⟨hf, _, _⟩
      · obtain ⟨rfl, htable⟩ := Prod.mk.inj hr
        refine ⟨?_, Or.inl ⟨.asListed, ?_⟩⟩
        · cases x'
          exact congrArg₂ Backends.mk hstores htable.symm
        · exact congrArg (·, x.stores) (hget id).symm
      · exact hf.elim

/-- The backends agree exactly when the sources of the stored nodes survive their column. -/
theorem backends_agree_iff {nodes : List EvidenceNodeRecord} (hhex : rc.hex.Documented)
    (hrt : ∀ node ∈ nodes, rc.RoundTrips node.relationships) :
    BackendsAgree cd rc s nodes ↔ ∀ node, InsertedFresh nodes node → ColumnKeeps node.source := by
  constructor
  · intro agree node hfresh
    have hstored : (filled rc s nodes).stores.evidenceNode node.nodeIdHex = some node :=
      filled_get.mpr ⟨hfresh, rfl⟩
    have hread := agree.table node hfresh
    rw [filled_table_get hhex hrt, hstored] at hread
    exact (restored_eq_iff node).mp (Option.some.inj (Except.ok.inj hread))
  · intro hkeeps
    have hget : ∀ id, PgEvidenceNodeStore.get rc (filled rc s nodes).table id =
        .ok ((filled rc s nodes).stores.evidenceNode id) := by
      intro id
      rw [filled_table_get hhex hrt]
      cases hnode : (filled rc s nodes).stores.evidenceNode id with
      | none => rfl
      | some node =>
        have hkept := (restored_eq_iff node).mpr (hkeeps node (filled_get.mp hnode).1)
        rw [Option.map_some, hkept]
    refine ⟨fun node hfresh => ?_, fun node hfresh => ?_, manifests_agree hget⟩
    · exact congrArg Except.ok (filled_get.mpr ⟨hfresh, rfl⟩)
    · rw [hget]
      exact congrArg Except.ok (filled_get.mpr ⟨hfresh, rfl⟩)

end

/-! ## Nodes of a production -/

/-- JSON lists as they are written; of what is read, the samples have the empty list. -/
def sampleRows : RowCodec where
  toText l := .ok (compact (.ofStrings l))
  fromStr text :=
    if text = "[]" then .ok [] else .error "expected value at line 1 column 1"
  hex := Text.Hex.Reader.standard

theorem sampleRows_roundTrips : sampleRows.RoundTrips [] := by
  have hempty : compact (.ofStrings []) = "[]" := by decide
  exact ⟨"[]", congrArg Except.ok hempty, rfl⟩

theorem sole_fresh {node : EvidenceNodeRecord} (hne : node.nodeIdHex ≠ "") :
    InsertedFresh [node] node :=
  ⟨hne, [], [], rfl, fun _ h => absurd h List.not_mem_nil⟩

theorem claims_survive : BackendsAgree sampleCodec sampleRows .empty [sampleClaim] := by
  refine (backends_agree_iff Text.Hex.Reader.standard_documented fun node hnode => ?_).mpr
    fun node hfresh => ?_
  · obtain rfl := List.mem_singleton.mp hnode
    exact sampleRows_roundTrips
  · obtain ⟨_, before, after, hsplit, _⟩ := hfresh
    have hmem : node ∈ [sampleClaim] := hsplit ▸ List.mem_append_right before List.mem_cons_self
    obtain rfl := List.mem_singleton.mp hmem
    trivial

/-- The observation of a deployment comes back from the table as one of no named provider. -/
theorem provider_name_lost :
    PgEvidenceNodeStore.get sampleRows (filled sampleRows .empty [sampleObservation]).table
        sampleObservation.nodeIdHex =
      .ok (some { sampleObservation with source := .provider "provider" }) ∧
    ¬ BackendsAgree sampleCodec sampleRows .empty [sampleObservation] := by
  have hne : sampleObservation.nodeIdHex ≠ "" := nodeIdOf_ne_empty _ _
  have hread : PgEvidenceNodeStore.get sampleRows
      (filled sampleRows .empty [sampleObservation]).table sampleObservation.nodeIdHex =
        .ok (some { sampleObservation with source := .provider "provider" }) := by
    rw [filled_table_get Text.Hex.Reader.standard_documented fun node hnode => ?_,
      filled_get.mpr ⟨sole_fresh hne, rfl⟩]
    · rfl
    · obtain rfl := List.mem_singleton.mp hnode
      exact sampleRows_roundTrips
  refine ⟨hread, fun agree => ?_⟩
  have hsource : EvidenceSource.provider "provider" = .provider "github" :=
    congrArg EvidenceNodeRecord.source
      (Option.some.inj (Except.ok.inj (hread.symm.trans (agree.table _ (sole_fresh hne)))))
  exact absurd hsource (by decide)

end Piteka.Safety
