import Piteka.Postgres.MandateProjections
import Piteka.Storage.Digest
import Piteka.Storage.EvidenceSteps
import Piteka.Text.Like
import Mathlib.Data.Option.Basic

/-!
# The Postgres node store

A row is the tuple of the values that the insertion binds; its primary key is the
node id. Each method runs one statement, so it is one atomic step on the table.
The table mirrors an in-memory store when both have the same ids, each with the
row that its node is written as; insertions keep that, and reading is then
decoding what was encoded.
-/
namespace Piteka.Postgres

set_option autoImplicit false

open Piteka.Storage Piteka.Table Piteka.Text

structure NodeRow where
  nodeIdHex : String
  registryId : String
  source : String
  producerIdentity : String
  collectedAt : Int64
  assertedEventAt : Option Int64
  contentDigest : String
  mediaType : String
  disclosureClassification : String
  relationships : String
  deriving DecidableEq

/-- What the store uses of other crates: the JSON text of a list of texts, its reader, and
the reader of hexadecimal text. -/
structure RowCodec where
  toText : List String → Except String String
  fromStr : String → Except String (List String)
  hex : Hex.Reader

structure NodeTable where
  rows : Keyed String NodeRow (·.nodeIdHex)

def NodeTable.empty : NodeTable := ⟨.empty⟩

def sourceColumn : EvidenceSource → String
  | .piteka => "piteka"
  | .provider _ => "provider"
  | .verifier => "verifier"

def sourceOfColumn (sourceStr : String) : EvidenceSource :=
  if sourceStr = "piteka" then .piteka
  else if sourceStr = "verifier" then .verifier
  else .provider sourceStr

namespace PgEvidenceNodeStore

/-- The values bound for a node, with the text of its relationships. -/
def bound (node : EvidenceNodeRecord) (relationships : String) : NodeRow where
  nodeIdHex := node.nodeIdHex
  registryId := node.registryId
  source := sourceColumn node.source
  producerIdentity := node.producerIdentity
  collectedAt := node.collectedAtUnixSeconds
  assertedEventAt := node.assertedEventAtUnixSeconds
  contentDigest := node.contentDigest.toHex
  mediaType := node.mediaType
  disclosureClassification := node.disclosureClassification
  relationships := relationships

variable (rc : RowCodec) (t : NodeTable)

def insert (node : EvidenceNodeRecord) : StorageResult Unit × NodeTable :=
  if node.nodeIdHex = "" then (.error (.emptyField "node_id_hex"), t)
  else
    match rc.toText node.relationships with
    | .error e => (.error (.backend ("failed to serialize relationships: " ++ e)), t)
    | .ok relationships =>
      match t.rows.get node.nodeIdHex with
      | some _ => (.error (sqlError "duplicate key value violates unique constraint"), t)
      | none => (.ok (), ⟨t.rows.insert (bound node relationships)⟩)

/-- The node that a row is read as, under the id `nodeIdHex`. -/
def decode (nodeIdHex : String) (row : NodeRow) : StorageResult EvidenceNodeRecord :=
  match ContentDigest.fromHex rc.hex row.contentDigest with
  | none => .error (.backend "stored content_digest is not valid hex")
  | some contentDigest =>
    match rc.fromStr row.relationships with
    | .error e => .error (.backend ("failed to deserialize relationships: " ++ e))
    | .ok relationships =>
      .ok {
        nodeIdHex
        registryId := row.registryId
        source := sourceOfColumn row.source
        producerIdentity := row.producerIdentity
        collectedAtUnixSeconds := row.collectedAt
        assertedEventAtUnixSeconds := row.assertedEventAt
        contentDigest
        mediaType := row.mediaType
        disclosureClassification := row.disclosureClassification
        relationships }

def get (nodeIdHex : String) : StorageResult (Option EvidenceNodeRecord) :=
  match t.rows.get nodeIdHex with
  | none => .ok none
  | some row => (decode rc nodeIdHex row).map some

/-- `SELECT … WHERE node_id_hex LIKE $1`, in the order of the table. -/
def matching (mandateIdHex : String) : List NodeRow :=
  t.rows.values.filter fun row => like (mandateIdHex ++ "%").toList row.nodeIdHex.toList

/-- The rows come by their times; `scan` is the order in which rows of one time are found. -/
def byMandate (scan : List NodeRow → List NodeRow) (mandateIdHex : String) :
    StorageResult (List EvidenceNodeRecord) :=
  ((scan (matching t mandateIdHex)).mergeSort fun a b => decide (a.collectedAt ≤ b.collectedAt)).mapM
    fun row => decode rc row.nodeIdHex row

variable {rc t} {node : EvidenceNodeRecord}

theorem insert_blank (hblank : node.nodeIdHex = "") :
    insert rc t node = (.error (.emptyField "node_id_hex"), t) := if_pos hblank

theorem insert_taken {text : String} (htext : rc.toText node.relationships = .ok text)
    {row : NodeRow} (htaken : t.rows.get node.nodeIdHex = some row) :
    ∃ e, insert rc t node = (.error e, t) := by
  by_cases hne : node.nodeIdHex = ""
  · exact ⟨_, insert_blank hne⟩
  · simp only [insert, if_neg hne, htext, htaken]
    exact ⟨_, rfl⟩

theorem insert_free {text : String} (htext : rc.toText node.relationships = .ok text)
    (hne : node.nodeIdHex ≠ "") (hfree : t.rows.get node.nodeIdHex = none) :
    insert rc t node = (.ok (), ⟨t.rows.insert (bound node text)⟩) := by
  simp only [insert, if_neg hne, htext, hfree]

end PgEvidenceNodeStore

/-! ## The table as a mirror -/

open PgEvidenceNodeStore

/-- The list is written, and what is written reads back as the list. -/
def RowCodec.RoundTrips (rc : RowCodec) (l : List String) : Prop :=
  ∃ text, rc.toText l = .ok text ∧ rc.fromStr text = .ok l

/-- The row is what the insertion of the node writes. -/
def WrittenAs (rc : RowCodec) (node : EvidenceNodeRecord) (row : NodeRow) : Prop :=
  ∃ text, rc.toText node.relationships = .ok text ∧ row = bound node text

/-- Under every id the store has a node and the table its row, or neither has anything. -/
structure Mirrors (rc : RowCodec) (s : InMemoryEvidenceNodeStore) (t : NodeTable) : Prop where
  rows : ∀ id, Option.Rel (WrittenAs rc) (s.nodes.get id) (t.rows.get id)

/-- A node as it comes out of its row: the column of the source has no provider's name. -/
def restored (node : EvidenceNodeRecord) : EvidenceNodeRecord :=
  { node with source := sourceOfColumn (sourceColumn node.source) }

/-- The source is no provider, or one whose name is the text of the column. -/
def ColumnKeeps : EvidenceSource → Prop
  | .provider name => name = "provider"
  | _ => True

theorem restored_eq_iff (node : EvidenceNodeRecord) : restored node = node ↔ ColumnKeeps node.source := by
  have hsource : restored node = node ↔ sourceOfColumn (sourceColumn node.source) = node.source := by
    constructor
    · intro h
      exact congrArg EvidenceNodeRecord.source h
    · intro h
      rw [restored, h]
  rw [hsource]
  cases node.source with
  | piteka => exact iff_of_true rfl trivial
  | verifier => exact iff_of_true rfl trivial
  | provider name =>
    show EvidenceSource.provider "provider" = .provider name ↔ name = "provider"
    rw [EvidenceSource.provider.injEq]
    exact eq_comm

section
variable {rc : RowCodec} {s : InMemoryEvidenceNodeStore} {t : NodeTable}

theorem mirrors_empty : Mirrors rc ⟨.empty, ∅⟩ .empty := ⟨fun _ => .none⟩

theorem Mirrors.row_of_node (hm : Mirrors rc s t) {id : String} {node : EvidenceNodeRecord}
    (hs : s.nodes.get id = some node) : ∃ row, t.rows.get id = some row ∧ WrittenAs rc node row := by
  have hrow := hm.rows id
  rw [hs] at hrow
  cases ht : t.rows.get id with
  | none =>
    rw [ht] at hrow
    cases hrow
  | some row =>
    rw [ht] at hrow
    cases hrow with
    | some h => exact ⟨row, rfl, h⟩

theorem Mirrors.row_of_none (hm : Mirrors rc s t) {id : String} (hs : s.nodes.get id = none) :
    t.rows.get id = none := by
  have hrow := hm.rows id
  rw [hs] at hrow
  cases ht : t.rows.get id with
  | none => rfl
  | some row =>
    rw [ht] at hrow
    cases hrow

theorem ne_blank_of_inserted {s' : InMemoryEvidenceNodeStore} {node : EvidenceNodeRecord}
    (h : s.insert node = (.ok (), s')) : node.nodeIdHex ≠ "" := by
  intro hblank
  rw [InMemoryEvidenceNodeStore.insert, if_pos hblank] at h
  cases (Prod.mk.inj h).1

/-- An insertion is accepted by both or refused by both, and they stay mirrors. -/
theorem insert_mirrors (hm : Mirrors rc s t) {node : EvidenceNodeRecord}
    (hw : ∃ text, rc.toText node.relationships = .ok text) :
    Mirrors rc (s.insert node).2 (PgEvidenceNodeStore.insert rc t node).2 ∧
      ((s.insert node).1 = .ok () ↔ (PgEvidenceNodeStore.insert rc t node).1 = .ok ()) := by
  obtain ⟨text, htext⟩ := hw
  rcases s.insert_cases node with ⟨hblank, e, h⟩ | ⟨found, e, hs, h⟩ | ⟨s', hs, h, hget⟩
  · rw [h, insert_blank hblank]
    exact ⟨hm, iff_of_false (by simp) (by simp)⟩
  · obtain ⟨row, ht, _⟩ := hm.row_of_node hs
    obtain ⟨e', h'⟩ := insert_taken htext ht
    rw [h, h']
    exact ⟨hm, iff_of_false (by simp) (by simp)⟩
  · rw [h, insert_free htext (ne_blank_of_inserted h) (hm.row_of_none hs)]
    refine ⟨⟨fun id => ?_⟩, Iff.rfl⟩
    dsimp only
    rw [hget, Keyed.get_insert]
    by_cases hid : id = node.nodeIdHex
    · rw [if_pos hid, if_pos (show id = (bound node text).nodeIdHex from hid)]
      exact .some ⟨text, htext, rfl⟩
    · rw [if_neg hid, if_neg (show ¬ id = (bound node text).nodeIdHex from hid)]
      exact hm.rows id

theorem decode_bound (hhex : rc.hex.Documented) {node : EvidenceNodeRecord} {text : String}
    (hread : rc.fromStr text = .ok node.relationships) :
    decode rc node.nodeIdHex (bound node text) = .ok (restored node) := by
  unfold decode
  rw [show (bound node text).contentDigest = node.contentDigest.toHex from rfl,
    ContentDigest.fromHex_toHex hhex, show (bound node text).relationships = text from rfl, hread]
  rfl

/-- What the table reads under an id is the node of the store, as its row gives it back. -/
theorem get_mirrors (hm : Mirrors rc s t) (hhex : rc.hex.Documented) {id : String}
    (hread : ∀ node, s.nodes.get id = some node → rc.RoundTrips node.relationships) :
    PgEvidenceNodeStore.get rc t id = .ok ((s.nodes.get id).map restored) := by
  cases hs : s.nodes.get id with
  | none =>
    rw [PgEvidenceNodeStore.get, hm.row_of_none hs]
    rfl
  | some node =>
    obtain ⟨row, ht, text, hwrite, rfl⟩ := hm.row_of_node hs
    obtain ⟨text', hwrite', hback⟩ := hread node hs
    obtain rfl := Except.ok.inj (hwrite.symm.trans hwrite')
    have hid : node.nodeIdHex = id := s.nodes.keyed hs
    rw [PgEvidenceNodeStore.get, ht]
    dsimp only
    rw [← hid, decode_bound hhex hback]
    rfl

end

end Piteka.Postgres
