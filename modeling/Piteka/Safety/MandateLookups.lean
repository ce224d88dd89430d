import Piteka.Safety.NodeRows
import Piteka.Safety.OneReceipt

/-!
# Evidence nodes by mandate

The id of a node is a hash behind `ev-` and has no mandate in it. The in-memory
store indexes the ids that begin with `mand-`, of which there are none; the table
matches the mandate id as a pattern against the hashed ids. So in a run the lookup
by a mandate is right only while no node has been inserted for it, and then only
if its id, read as a pattern, matches no stored id.
-/
namespace Piteka.Safety

set_option autoImplicit false

open Piteka.Interleaving Piteka.Interleaving.Program Piteka.Storage Piteka.Application
open Piteka.Postgres Piteka.Table Piteka.Text

/-- The calls include a lookup that found an attempt of the mandate. -/
def WorksFor (m : String) (h : Path) : Prop :=
  ∃ d x, did (.attempts (.byDeploymentId d)) (some x) ∈ h ∧ x.mandateIdHex = m

/-- The run is one of the callers' programs over both node stores. -/
abbrev MirroredRun {ι : Type} [DecidableEq ι] (cd : Codec) (rc : RowCodec)
    (faults : StoreCall → Prop) (tasks : ι → Task) (x₀ : Backends)
    (log : List (Entry ι Answer Backends)) (x : Backends)
    (p : (i : ι) → Program PortCall Answer (tasks i).Res) : Prop :=
  Run (MirroredExec cd.toRuntime rc faults) x₀ (fun i => (tasks i).program cd) log x p

/-- The node was inserted by a caller that works for an attempt of the mandate. -/
def InsertedFor {ι : Type} [DecidableEq ι] (m : String) (log : List (Entry ι Answer Backends))
    (node : EvidenceNodeRecord) : Prop :=
  ∃ e ∈ log, e.call = nodeInserted node ∧ WorksFor m (history e.caller log)

/-- The answer lists exactly the nodes of `P`, each once. -/
def Exactly (r : StorageResult (List EvidenceNodeRecord)) (P : EvidenceNodeRecord → Prop) : Prop :=
  ∃ l, r = .ok l ∧ l.Nodup ∧ ∀ node, node ∈ l ↔ P node

/-- The lookup by the mandate gives, on both backends, the nodes inserted for it. -/
structure LookupExact {ι : Type} [DecidableEq ι] (rc : RowCodec) (m : String)
    (log : List (Entry ι Answer Backends)) (x : Backends) : Prop where
  memory : ∀ order, Exactly (x.stores.evidenceNodes.byMandate order m) (InsertedFor m log)
  table : ∀ scan, (∀ l, (scan l).Perm l) →
    Exactly (PgEvidenceNodeStore.byMandate rc x.table scan m) (InsertedFor m log)
  same : ∀ order scan l l', (∀ l, (scan l).Perm l) →
    x.stores.evidenceNodes.byMandate order m = .ok l →
    PgEvidenceNodeStore.byMandate rc x.table scan m = .ok l' → ∀ node, node ∈ l ↔ node ∈ l'

/-- Neither node store has a node. -/
structure NoNodes (x : Backends) : Prop where
  memory : x.stores.evidenceNodes = ⟨.empty, ∅⟩
  table : x.table = .empty

/-! ## What productions store -/

/-- Both stores hold produced nodes only, and the index of the in-memory store is empty. -/
structure Produced (rc : RowCodec) (x : Backends) : Prop where
  mirrors : Mirrors rc x.stores.evidenceNodes x.table
  index : x.stores.evidenceNodes.byMandateIndex = ∅
  ids : ∀ id node, x.stores.evidenceNode id = some node → ∃ d : ContentDigest, id = "ev-" ++ d.toHex

theorem not_mandatePrefix (d : ContentDigest) :
    mandatePrefixes.find? (fun p => p.toList.isPrefixOf ("ev-" ++ d.toHex).toList) = none := by
  rw [String.toList_append]
  rfl

/-- An insertion of a node with a hashed id leaves the index as it is. -/
theorem insert_index {s : InMemoryEvidenceNodeStore} {node : EvidenceNodeRecord}
    {d : ContentDigest} (hid : node.nodeIdHex = "ev-" ++ d.toHex) :
    (s.insert node).2.byMandateIndex = s.byMandateIndex := by
  unfold InMemoryEvidenceNodeStore.insert
  split
  · rfl
  · cases s.nodes.get node.nodeIdHex with
    | some found => rfl
    | none =>
      dsimp only
      rw [hid, not_mandatePrefix]

theorem relationships_of_produced {cd : Codec} {event : DeploymentStatusEvent}
    {a : ExecutionAttempt} {now : Int64} {node : EvidenceNodeRecord}
    (hn : ProducedNode cd event a now node) : node.relationships = [] := by
  cases hn with
  | gap => rfl
  | observation => rfl
  | claim => rfl

section
variable {cd : Codec} {rc : RowCodec} {x₀ x : Backends}

theorem NoNodes.produced (hno : NoNodes x₀) : Produced rc x₀ where
  mirrors := by
    rw [hno.memory, hno.table]
    exact mirrors_empty
  index := by rw [hno.memory]
  ids id node h := by
    have hnone : x₀.stores.evidenceNode id = none := by
      rw [Stores.evidenceNode, hno.memory]
      rfl
    rw [hnone] at h
    cases h

theorem Produced.insert (hp : Produced rc x) (hwrites : ∃ text, rc.toText [] = .ok text)
    {event : DeploymentStatusEvent} {a : ExecutionAttempt} {now : Int64}
    {node : EvidenceNodeRecord} (hn : ProducedNode cd event a now node) {x' : Backends}
    (hs : x'.stores.evidenceNodes = (x.stores.evidenceNodes.insert node).2)
    (ht : x'.table = (PgEvidenceNodeStore.insert rc x.table node).2) : Produced rc x' := by
  obtain ⟨d, hid⟩ := hn.id_eq
  have hwrites' : ∃ text, rc.toText node.relationships = .ok text :=
    relationships_of_produced hn ▸ hwrites
  refine ⟨?_, ?_, fun id found h => ?_⟩
  · rw [hs, ht]
    exact (insert_mirrors hp.mirrors hwrites').1
  · rw [hs, insert_index hid, hp.index]
  · rw [Stores.evidenceNode, hs] at h
    rcases x.stores.evidenceNodes.insert_cases node with
      ⟨_, e, hr⟩ | ⟨_, e, _, hr⟩ | ⟨t, _, hr, hget⟩
    · rw [hr] at h
      exact hp.ids id found h
    · rw [hr] at h
      exact hp.ids id found h
    · rw [hr] at h
      dsimp only at h
      rw [hget] at h
      by_cases hk : id = node.nodeIdHex
      · exact ⟨d, hk.trans hid⟩
      · rw [if_neg hk] at h
        exact hp.ids id found h

variable {ι : Type} [DecidableEq ι] {faults : StoreCall → Prop} {tasks : ι → Task}
  {log : List (Entry ι Answer Backends)} {p : (i : ι) → Program PortCall Answer (tasks i).Res}

theorem produced_run (hwrites : ∃ text, rc.toText [] = .ok text) (hno : NoNodes x₀)
    (run : MirroredRun cd rc faults tasks x₀ log x p) : Produced rc x := by
  refine run.invariant (I := fun _ x => Produced rc x) hno.produced ?_
  intro log x p i op a x' _ hp hnext hx
  rcases mirrored_cases hx with ⟨hs, ht⟩ | ⟨node, rfl, hs, ht⟩
  · refine ⟨?_, ?_, fun id found h => hp.ids id found ?_⟩
    · rw [hs, ht]
      exact hp.mirrors
    · rw [hs, hp.index]
    · rwa [Stores.evidenceNode, hs] at h
  · obtain ⟨event, b, now, _, hn⟩ := Task.node_insert_next hnext
    exact hp.insert hwrites hn hs ht

/-! ## What the lookups find -/

theorem memory_lookup (hp : Produced rc x) {m : String} (hm : m ≠ "")
    (order : List EvidenceNodeRecord → List EvidenceNodeRecord) :
    x.stores.evidenceNodes.byMandate order m = .ok [] := by
  rw [InMemoryEvidenceNodeStore.byMandate, if_neg hm, hp.index]
  rfl

/-- No stored id is matched by the mandate id, read as the beginning of a pattern. -/
def Unmatched (m : String) (x : Backends) : Prop :=
  ∀ id node, x.stores.evidenceNode id = some node → like (m ++ "%").toList id.toList = false

theorem matching_nil_iff (hp : Produced rc x) {m : String} :
    PgEvidenceNodeStore.matching x.table m = [] ↔ Unmatched m x := by
  rw [PgEvidenceNodeStore.matching, List.filter_eq_nil_iff]
  constructor
  · intro hno id node hnode
    obtain ⟨row, hrow, _⟩ := hp.mirrors.row_of_node hnode
    have hid : row.nodeIdHex = id := x.table.rows.keyed hrow
    subst hid
    exact Bool.eq_false_iff.mpr (hno row ((Keyed.mem_values _ _).mpr hrow))
  · intro hno row hrow
    have hget := (Keyed.mem_values _ _).mp hrow
    cases hnode : x.stores.evidenceNode row.nodeIdHex with
    | none =>
      rw [hp.mirrors.row_of_none hnode] at hget
      cases hget
    | some node => exact Bool.eq_false_iff.mp (hno _ node hnode)

theorem mapM_eq_nil {α β ε : Type} {f : α → Except ε β} {l : List α} (h : l.mapM f = .ok []) :
    l = [] := by
  cases l with
  | nil => rfl
  | cons a l =>
    rw [List.mapM_cons] at h
    cases ha : f a with
    | error e =>
      rw [ha] at h
      cases h
    | ok b =>
      cases hl : l.mapM f with
      | error e =>
        rw [ha, hl] at h
        cases h
      | ok bs =>
        rw [ha, hl] at h
        cases h

/-- The table answers with no node exactly when it matches no row. -/
theorem table_lookup_nil_iff {t : NodeTable} {scan : List NodeRow → List NodeRow}
    (hscan : ∀ l, (scan l).Perm l) {m : String} :
    PgEvidenceNodeStore.byMandate rc t scan m = .ok [] ↔
      PgEvidenceNodeStore.matching t m = [] := by
  constructor
  · intro h
    have hsorted := mapM_eq_nil h
    have hperm := (List.mergeSort_perm (scan (PgEvidenceNodeStore.matching t m))
      fun a b => decide (a.collectedAt ≤ b.collectedAt)).trans (hscan _)
    rw [hsorted] at hperm
    exact List.nil_perm.mp hperm
  · intro h
    have hnil : scan [] = [] := List.perm_nil.mp (hscan [])
    rw [PgEvidenceNodeStore.byMandate, h, hnil, List.mergeSort_nil]
    rfl

theorem exactly_nil_iff {P : EvidenceNodeRecord → Prop} :
    Exactly (.ok []) P ↔ ∀ node, ¬ P node := by
  constructor
  · rintro ⟨l, h, _, hl⟩ node hnode
    obtain rfl := Except.ok.inj h
    exact List.not_mem_nil ((hl node).mpr hnode)
  · intro hno
    exact ⟨[], rfl, List.nodup_nil, fun node => iff_of_false List.not_mem_nil (hno node)⟩

/-- In a run the lookup by a mandate is exact while no node has been inserted for it and no
stored id happens to match it. -/
theorem lookup_exact_iff (hwrites : ∃ text, rc.toText [] = .ok text) (hno : NoNodes x₀)
    (run : MirroredRun cd rc faults tasks x₀ log x p) {m : String} (hm : m ≠ "") :
    LookupExact rc m log x ↔ (∀ node, ¬ InsertedFor m log node) ∧ Unmatched m x := by
  have hp := produced_run hwrites hno run
  constructor
  · intro hexact
    have hnone : ∀ node, ¬ InsertedFor m log node := by
      have hmemory := hexact.memory id
      rwa [memory_lookup hp hm, exactly_nil_iff] at hmemory
    refine ⟨hnone, ?_⟩
    have hscan : ∀ l : List NodeRow, (id l).Perm l := fun _ => .refl _
    obtain ⟨l, hl, _, hmem⟩ := hexact.table id hscan
    have hnil : l = [] := List.eq_nil_iff_forall_not_mem.mpr fun node h =>
      hnone node ((hmem node).mp h)
    rw [hnil, table_lookup_nil_iff hscan] at hl
    exact (matching_nil_iff hp).mp hl
  · rintro ⟨hnone, hunmatched⟩
    have htable : ∀ scan, (∀ l, (scan l).Perm l) →
        PgEvidenceNodeStore.byMandate rc x.table scan m = .ok [] := fun scan hscan =>
      (table_lookup_nil_iff hscan).mpr ((matching_nil_iff hp).mpr hunmatched)
    refine ⟨fun order => ?_, fun scan hscan => ?_, fun order scan l l' hscan hl hl' node => ?_⟩
    · rw [memory_lookup hp hm]
      exact exactly_nil_iff.mpr hnone
    · rw [htable scan hscan]
      exact exactly_nil_iff.mpr hnone
    · rw [memory_lookup hp hm] at hl
      rw [htable scan hscan] at hl'
      rw [← Except.ok.inj hl, ← Except.ok.inj hl']

/-- A mandate id without wildcards matches no hashed id unless the two begin alike. -/
theorem unmatched_of_head (hp : Produced rc x) {m : String} {c : Char} {rest : List Char}
    (hm : m.toList = c :: rest) (hlit : ∀ d ∈ m.toList, Literal d) (hc : c ≠ 'e') :
    Unmatched m x := by
  intro id node hnode
  obtain ⟨d, rfl⟩ := hp.ids id node hnode
  refine Bool.eq_false_iff.mpr fun h => hc ?_
  rw [String.toList_append, show "%".toList = ['%'] from rfl, like_prefix_iff hlit, hm,
    String.toList_append] at h
  exact (List.cons_prefix_cons.mp h).1

end

/-! ## A production for one mandate -/

def sampleTasks (_ : Unit) : Task := .produceReceipt (sampleEvent "success" 200)

def sampleBackends : Backends := ⟨recording sampleAttempt, .empty⟩

theorem sampleBackends_noNodes : NoNodes sampleBackends := ⟨rfl, rfl⟩

/-- The lookup of the sample production finds the attempt. -/
theorem sample_lookup : MirroredExec sampleCodec.toRuntime sampleRows noFaults sampleBackends
    (.store (.attempts (.byDeploymentId 42))) (.ok (some sampleAttempt)) sampleBackends := by
  have hx : Exec sampleCodec.toRuntime noFaults sampleBackends.stores
      (.store (.attempts (.byDeploymentId 42)))
      (sampleBackends.stores.attempts.byDeploymentId id 42) sampleBackends.stores :=
    Or.inl ⟨.asListed, rfl⟩
  rw [recording_only.found hx] at hx
  exact ⟨hx, rfl⟩

/-- Both stores take the observation. -/
theorem sample_insertion : MirroredExec sampleCodec.toRuntime sampleRows noFaults sampleBackends
    (.store (.evidenceNodes (.insert sampleObservation))) (.ok ())
    (insertBoth sampleRows sampleBackends sampleObservation) := by
  have hne : sampleObservation.nodeIdHex ≠ "" := nodeIdOf_ne_empty _ _
  refine Or.inl ⟨.asListed, id, fun _ => .refl _, rfl, rfl, Or.inl ?_⟩
  show Except.ok () = (sampleBackends.stores.evidenceNodes.insert sampleObservation).1
  rw [InMemoryEvidenceNodeStore.insert, if_neg hne]
  rfl

def samplePath : Path :=
  [ticked 0, did (.attempts (.byDeploymentId 42)) (some sampleAttempt), nodeInserted sampleObservation]

/-- The production looks up the attempt and inserts its observation. -/
theorem observation_run : ∃ log x p,
    MirroredRun sampleCodec sampleRows noFaults sampleTasks sampleBackends log x p ∧
      history () log = samplePath := by
  have hclock : MirroredExec sampleCodec.toRuntime sampleRows noFaults sampleBackends .clock
      (0 : UInt64) sampleBackends := ⟨rfl, rfl⟩
  have begun : MirroredRun sampleCodec sampleRows noFaults sampleTasks sampleBackends []
      sampleBackends fun i => (sampleTasks i).program sampleCodec := .start
  obtain ⟨log, p, run, hh⟩ := begun.walk (i := ()) (h := samplePath)
    (.call (.call (.call (.here _)))) ⟨_, hclock, _, sample_lookup, _, sample_insertion, rfl⟩
  exact ⟨log, _, p, run, hh⟩

theorem sample_insertedFor {log : List (Entry Unit Answer Backends)}
    (hh : history () log = samplePath) : InsertedFor "m-1" log sampleObservation := by
  have hinserted : nodeInserted sampleObservation ∈ history () log := by
    rw [hh]
    simp [samplePath]
  obtain ⟨e, he, _, hc⟩ := mem_history.mp hinserted
  refine ⟨e, he, hc, 42, sampleAttempt, ?_, rfl⟩
  rw [hh]
  simp [samplePath]

/-- In that run the lookup by another mandate is exact: it finds nothing, and there is nothing. -/
theorem other_mandate_exact : ∃ log x p,
    MirroredRun sampleCodec sampleRows noFaults sampleTasks sampleBackends log x p ∧
      history () log = samplePath ∧ LookupExact sampleRows "m-2" log x := by
  obtain ⟨log, x, p, run, hh⟩ := observation_run
  have hp := produced_run ⟨_, rfl⟩ sampleBackends_noNodes run
  refine ⟨log, x, p, run, hh, (lookup_exact_iff ⟨_, rfl⟩ sampleBackends_noNodes run
    (by decide)).mpr ⟨?_, unmatched_of_head hp rfl (by simp [Literal]) (by decide)⟩⟩
  rintro node ⟨e, _, _, d, a, hfound, hm⟩
  rw [show history e.caller log = samplePath from hh] at hfound
  obtain ⟨_, rfl⟩ : d = 42 ∧ a = sampleAttempt := by simpa [samplePath] using hfound
  exact absurd hm (by decide)

/-- After that insertion neither backend finds the observation under its mandate. -/
theorem observation_not_found : ∃ log x p,
    MirroredRun sampleCodec sampleRows noFaults sampleTasks sampleBackends log x p ∧
      InsertedFor "m-1" log sampleObservation ∧
      (∀ order, x.stores.evidenceNodes.byMandate order "m-1" = .ok []) ∧
      (∀ scan, (∀ l, (scan l).Perm l) →
        PgEvidenceNodeStore.byMandate sampleRows x.table scan "m-1" = .ok []) ∧
      ¬ LookupExact sampleRows "m-1" log x := by
  obtain ⟨log, x, p, run, hh⟩ := observation_run
  have hinserted := sample_insertedFor hh
  have hp := produced_run ⟨_, rfl⟩ sampleBackends_noNodes run
  have hunmatched : Unmatched "m-1" x :=
    unmatched_of_head hp rfl (by simp [Literal]) (by decide)
  refine ⟨log, x, p, run, hinserted, fun order => memory_lookup hp (by decide) order,
    fun scan hscan => (table_lookup_nil_iff hscan).mpr ((matching_nil_iff hp).mpr hunmatched),
    fun hexact => ?_⟩
  have hmemory := hexact.memory id
  rw [memory_lookup hp (by decide), exactly_nil_iff] at hmemory
  exact hmemory _ hinserted

end Piteka.Safety
