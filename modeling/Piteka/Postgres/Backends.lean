import Piteka.Postgres.EvidenceNodes

/-!
# Use cases over the node table

The use cases run over the in-memory stores, or with the Postgres table in place
of the node store. In a mirrored run both node stores take every call and the
caller sees the answer of either; every run over one of the two is a part of such
a run.
-/
namespace Piteka.Postgres

set_option autoImplicit false

open Piteka.Interleaving Piteka.Storage

/-- The in-memory stores with a node table beside them. -/
structure Backends where
  stores : Stores
  table : NodeTable

/-- The table's answer to a call of the node store. -/
def NodeTable.answer (rc : RowCodec) (scan : List NodeRow → List NodeRow) (t : NodeTable) :
    (c : EvidenceNodeCall) → StorageResult (StoreCall.evidenceNodes c).Ok × NodeTable
  | .insert node => PgEvidenceNodeStore.insert rc t node
  | .get id => (PgEvidenceNodeStore.get rc t id, t)
  | .byMandate m => (PgEvidenceNodeStore.byMandate rc t scan m, t)

variable (rt : Runtime) (rc : RowCodec) (faults : StoreCall → Prop)

/-- One call with the nodes in the table. -/
def PgExec (x : Backends) : (op : PortCall) → Answer op → Backends → Prop
  | .store (.evidenceNodes c), a, x' =>
    ((∃ scan, (∀ l, (scan l).Perm l) ∧ x.table.answer rc scan c = (a, x'.table)) ∧
      x'.stores = x.stores) ∨
    (faults (.evidenceNodes c) ∧ (∃ e, a = .error e) ∧ x' = x)
  | op, a, x' => Exec rt faults x.stores op a x'.stores ∧ x'.table = x.table

/-- One call with the nodes in both; the caller sees the answer of either. -/
def MirroredExec (x : Backends) : (op : PortCall) → Answer op → Backends → Prop
  | .store (.evidenceNodes c), a, x' =>
    (∃ order scan, (∀ l, (scan l).Perm l) ∧
      x'.stores = ((StoreCall.evidenceNodes c).run rt order x.stores).2 ∧
      x'.table = (x.table.answer rc scan c).2 ∧
      (a = ((StoreCall.evidenceNodes c).run rt order x.stores).1 ∨
        a = (x.table.answer rc scan c).1)) ∨
    (faults (.evidenceNodes c) ∧ (∃ e, a = .error e) ∧ x' = x)
  | op, a, x' => Exec rt faults x.stores op a x'.stores ∧ x'.table = x.table

variable {rt rc faults}

/-- The call is one of the node store. -/
def OfNodes : PortCall → Prop
  | .store (.evidenceNodes _) => True
  | _ => False

theorem nodes_or_other (op : PortCall) :
    (∃ c, op = .store (.evidenceNodes c)) ∨ ¬ OfNodes op := by
  cases op with
  | store sc =>
    cases sc with
    | evidenceNodes c => exact Or.inl ⟨c, rfl⟩
    | _ => exact Or.inr id
  | _ => exact Or.inr id

theorem pgExec_other {x x' : Backends} {op : PortCall} {a : Answer op} (hop : ¬ OfNodes op) :
    PgExec rt rc faults x op a x' ↔ Exec rt faults x.stores op a x'.stores ∧ x'.table = x.table := by
  cases op with
  | store sc =>
    cases sc with
    | evidenceNodes c => exact absurd trivial hop
    | _ => exact Iff.rfl
  | _ => exact Iff.rfl

theorem mirroredExec_other {x x' : Backends} {op : PortCall} {a : Answer op} (hop : ¬ OfNodes op) :
    MirroredExec rt rc faults x op a x' ↔
      Exec rt faults x.stores op a x'.stores ∧ x'.table = x.table := by
  cases op with
  | store sc =>
    cases sc with
    | evidenceNodes c => exact absurd trivial hop
    | _ => exact Iff.rfl
  | _ => exact Iff.rfl

/-- A mirrored call leaves both node stores alone, or is an insertion that both take. -/
theorem mirrored_cases {x x' : Backends} {op : PortCall} {a : Answer op}
    (hx : MirroredExec rt rc faults x op a x') :
    (x'.stores.evidenceNodes = x.stores.evidenceNodes ∧ x'.table = x.table) ∨
    ∃ node, op = .store (.evidenceNodes (.insert node)) ∧
      x'.stores.evidenceNodes = (x.stores.evidenceNodes.insert node).2 ∧
      x'.table = (PgEvidenceNodeStore.insert rc x.table node).2 := by
  rcases nodes_or_other op with ⟨c, rfl⟩ | hop
  · rcases hx with ⟨order, scan, _, hs, ht, _⟩ | ⟨_, _, rfl⟩
    · cases c with
      | insert node => exact Or.inr ⟨node, rfl, congrArg Stores.evidenceNodes hs, ht⟩
      | get id => exact Or.inl ⟨congrArg Stores.evidenceNodes hs, ht⟩
      | byMandate m => exact Or.inl ⟨congrArg Stores.evidenceNodes hs, ht⟩
    · exact Or.inl ⟨rfl, rfl⟩
  · obtain ⟨hx, ht⟩ := (mirroredExec_other hop).mp hx
    refine Or.inl ⟨?_, ht⟩
    rcases exec_cases (c := ⟨op, a⟩) hx with h | ⟨sc, a', order, hc, hr⟩
    · rw [h]
    · rcases (run_frame_evidence rt order x.stores sc).2.1 with hf | ⟨c, rfl⟩
      · rw [← hf, hr]
      · obtain rfl : op = .store (.evidenceNodes c) := congrArg Sigma.fst hc
        exact absurd trivial hop

/-- A call over the in-memory stores is one of a mirrored run. -/
theorem exec_mirrored {x : Backends} {op : PortCall} {a : Answer op} {s' : Stores}
    (hx : Exec rt faults x.stores op a s') :
    ∃ x', MirroredExec rt rc faults x op a x' ∧ x'.stores = s' := by
  rcases nodes_or_other op with ⟨c, rfl⟩ | hop
  · rcases hx with ⟨order, hr⟩ | ⟨hf, he, rfl⟩
    · refine ⟨⟨s', (x.table.answer rc id c).2⟩, Or.inl ⟨order, id, fun _ => .refl _, ?_⟩, rfl⟩
      rw [hr]
      exact ⟨rfl, rfl, Or.inl rfl⟩
    · exact ⟨x, Or.inr ⟨hf, he, rfl⟩, rfl⟩
  · exact ⟨⟨s', x.table⟩, (mirroredExec_other hop).mpr ⟨hx, rfl⟩, rfl⟩

/-- The stores with another node store. -/
def withNodes (nodes : InMemoryEvidenceNodeStore) (s : Stores) : Stores :=
  { s with evidenceNodes := nodes }

/-- A call that is not one of the node store neither reads nor changes that store. -/
theorem exec_withNodes {nodes : InMemoryEvidenceNodeStore} {s s' : Stores} {op : PortCall}
    {a : Answer op} (hop : ¬ OfNodes op) (hx : Exec rt faults (withNodes nodes s) op a s') :
    ∃ t, Exec rt faults s op a t ∧ withNodes nodes t = s' := by
  cases op with
  | store sc =>
    rcases hx with ⟨order, hr⟩ | ⟨hf, he, rfl⟩
    · have hrun : sc.run rt order (withNodes nodes s) =
          ((sc.run rt order s).1, withNodes nodes (sc.run rt order s).2) := by
        cases sc with
        | evidenceNodes c => exact absurd trivial hop
        | protocolObjects c => cases c <;> rfl
        | mandates c => cases c <;> rfl
        | webhookReceipts c => cases c <;> rfl
        | evidence c => cases c <;> rfl
        | audit c => cases c <;> rfl
        | requests c => cases c <;> rfl
        | decisions c => cases c <;> rfl
        | attempts c => cases c <;> rfl
        | receipts c => cases c <;> rfl
      obtain ⟨rfl, rfl⟩ := Prod.mk.inj (hrun.symm.trans hr)
      exact ⟨_, Or.inl ⟨order, rfl⟩, rfl⟩
    · exact ⟨s, Or.inr ⟨hf, he, rfl⟩, rfl⟩
  | clock => exact ⟨s, rfl, Eq.symm hx⟩
  | dispatchFn => exact ⟨s, rfl, Eq.symm hx⟩
  | findCorrelatedDeployment => exact ⟨s, rfl, Eq.symm hx⟩

/-- The two backends as the Postgres deployment has them: its in-memory node store stays `nodes`. -/
def pgView (nodes : InMemoryEvidenceNodeStore) (x : Backends) : Backends :=
  ⟨withNodes nodes x.stores, x.table⟩

theorem pgExec_mirrored {nodes : InMemoryEvidenceNodeStore} {x y : Backends} {op : PortCall}
    {a : Answer op} (hx : PgExec rt rc faults (pgView nodes x) op a y) :
    ∃ x', MirroredExec rt rc faults x op a x' ∧ pgView nodes x' = y := by
  rcases nodes_or_other op with ⟨c, rfl⟩ | hop
  · rcases hx with ⟨⟨scan, hscan, hr⟩, hs⟩ | ⟨hf, he, rfl⟩
    · have htable : x.table.answer rc scan c = (a, y.table) := hr
      have hrest : withNodes nodes ((StoreCall.evidenceNodes c).run rt .asListed x.stores).2 =
          withNodes nodes x.stores := by
        cases c <;> rfl
      refine ⟨⟨((StoreCall.evidenceNodes c).run rt .asListed x.stores).2, y.table⟩,
        Or.inl ⟨.asListed, scan, hscan, rfl, ?_, Or.inr ?_⟩, ?_⟩
      · rw [htable]
      · rw [htable]
      · rw [pgView, hrest, ← show y.stores = withNodes nodes x.stores from hs]
    · exact ⟨x, Or.inr ⟨hf, he, rfl⟩, rfl⟩
  · obtain ⟨hx, ht⟩ := (pgExec_other hop).mp hx
    obtain ⟨t, hx', hy⟩ := exec_withNodes hop hx
    refine ⟨⟨t, x.table⟩, (mirroredExec_other hop).mpr ⟨hx', rfl⟩, ?_⟩
    rw [pgView, hy, ← show y.table = x.table from ht]

section
variable {ι : Type} [DecidableEq ι] {Res : ι → Type} {p₀ p : (i : ι) → Program PortCall Answer (Res i)}

/-- Every run over the in-memory stores is a part of a mirrored run. -/
theorem memory_run_mirrored {x₀ : Backends} {log : List (Entry ι Answer Stores)} {s : Stores}
    (run : Run (Exec rt faults) x₀.stores p₀ log s p) :
    ∃ log' x, Run (MirroredExec rt rc faults) x₀ p₀ log' x p ∧ x.stores = s ∧
      log'.map (Entry.seen Backends.stores) = log :=
  run.of_view Backends.stores exec_mirrored

/-- Every run over the table is a part of a mirrored run. -/
theorem pg_run_mirrored {nodes : InMemoryEvidenceNodeStore} {x₀ y : Backends}
    {log : List (Entry ι Answer Backends)}
    (run : Run (PgExec rt rc faults) (pgView nodes x₀) p₀ log y p) :
    ∃ log' x, Run (MirroredExec rt rc faults) x₀ p₀ log' x p ∧ pgView nodes x = y ∧
      log'.map (Entry.seen (pgView nodes)) = log :=
  run.of_view (pgView nodes) pgExec_mirrored

end

end Piteka.Postgres
