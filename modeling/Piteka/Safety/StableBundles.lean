import Piteka.Application.BundleScenario

/-!
# Bundles are stable

Receipts, evidence nodes and protocol objects are only ever added. So what a bundle
was assembled from is still there in every later state, the object under its id has
the bytes it was stored with, and putting the same bytes again is no conflict. That
holds for any hash: the same case file has the same digest.
-/
namespace Piteka.Safety

set_option autoImplicit false

open Piteka.Interleaving Piteka.Interleaving.Program Piteka.Storage Piteka.Application

/-- The caller has assembled the bundle `b` of the receipt `id`. -/
def Assembled (id : String) (b : BundleExport) : (t : Task) → Program PortCall Answer t.Res → Prop
  | .assembleBundle id', .ret (.ok b') => id' = id ∧ b' = b
  | _, _ => False

section
variable {ι : Type} {cd : Codec} {faults : StoreCall → Prop} {s₀ s : Stores} {log : List (Event ι)}

/-- An object whose put is on record is stored at the end with its bytes. -/
theorem object_stored (htrace : Trace (Exec cd.toRuntime faults) s₀ log s) {e : Event ι}
    (he : e ∈ log) {r : ProtocolObjectRecord} (hc : e.call = objectPut r) :
    ∃ q, s.protocolObject r.objectIdHex = some q ∧ q.bytes = r.bytes := by
  obtain ⟨l₁, l₂, rfl⟩ := List.append_of_mem he
  have hx := htrace.executed e he
  rw [hc] at hx
  obtain ⟨order, hr⟩ := exec_ok hx
  obtain ⟨hok, hafter⟩ := Prod.mk.inj hr
  have hstored : ∃ q, e.after.protocolObject r.objectIdHex = some q ∧ q.bytes = r.bytes := by
    rw [← hafter]
    rcases e.before.protocolObjects.put_cases r with
      ⟨_, e', h⟩ | ⟨q, hq, ⟨hb, h⟩ | ⟨_, e', h⟩⟩ | ⟨t, _, h, hget⟩
    · rw [h] at hok
      cases hok
    · refine ⟨q, ?_, hb⟩
      simp only [Stores.protocolObject, h]
      exact hq
    · rw [h] at hok
      cases hok
    · refine ⟨r, ?_, rfl⟩
      simp only [Stores.protocolObject, h, hget, if_true]
  obtain ⟨q, hq, hb⟩ := hstored
  exact ⟨q, row_kept (protocol_object_step · _) htrace.around.2 hq, hb⟩

/-- A caller that has assembled a bundle has made the calls of its path. -/
theorem assembled_returns {r : String} {b : BundleExport} {t : Task}
    {q : Program PortCall Answer t.Res} {h : Path} (hq : Assembled r b t q)
    (hf : (t.program cd).Follows h q) : (assembleBundle cd r).run.Returns h (.ok b) := by
  cases t with
  | useCase c => exact absurd hq id
  | produceReceipt event => exact absurd hq id
  | process x => exact absurd hq id
  | assembleBundle r' =>
    cases q with
    | call op k => exact absurd hq id
    | ret result =>
      cases result with
      | error e => exact absurd hq id
      | ok b' =>
        obtain ⟨rfl, rfl⟩ := hq
        exact hf

end

/-- Once a bundle has been assembled in a run, assembling it again in whatever state the run
has come to gives the same bundle, and the stored object is the exported manifest. -/
theorem bundles_stable {ι : Type} [DecidableEq ι] {cd : Codec} {tasks : ι → Task}
    {s₀ s : Stores} {log : List (Event ι)} {p : (i : ι) → Program PortCall Answer (tasks i).Res}
    (run : TaskRun cd noFaults tasks s₀ log s p) {i : ι} {r : String} {b : BundleExport}
    (hi : Assembled r b (tasks i) (p i)) :
    (∃ s', (assembleBundle cd r).run.Eval (Exec cd.toRuntime noFaults) s (.ok b) s') ∧
    (∀ result s', (assembleBundle cd r).run.Eval (Exec cd.toRuntime noFaults) s result s' →
      result = .ok b) ∧
    ∃ q, s.protocolObject b.bundleIdHex = some q ∧
      ∀ result s', (exportManifestBytes cd r).run.Eval (Exec cd.toRuntime noFaults) s result s' ↔
        result = .ok q.bytes ∧ s' = s := by
  have htrace := run.trace
  have hexecuted : ExecutedIn log (history i log) := by
    intro x hx
    obtain ⟨e, he, _, hc⟩ := mem_history.mp hx
    exact ⟨e, he, hc⟩
  obtain ⟨c, hcase, rfl, hput⟩ :=
    assembleBundle_stands htrace (assembled_returns hi (run.follows i)) hexecuted
  obtain ⟨e, he, _, hc⟩ := mem_history.mp hput
  obtain ⟨q, hq, hbytes⟩ := object_stored htrace he hc
  have hstorable : Storable cd s c := by
    intro q' hq'
    obtain rfl := Option.some.inj (hq.symm.trans hq')
    exact hbytes
  have hagain : ∀ result s',
      (assembleBundle cd r).run.Eval (Exec cd.toRuntime noFaults) s result s' →
        result = .ok (c.bundle cd) := by
    intro result s' heval
    rcases assembleBundle_eval heval with ⟨e', herr, _⟩ | ⟨c', hc', ⟨hns, _⟩ | ⟨_, hok, _⟩⟩
    · rw [hcase] at herr
      cases herr
    · obtain rfl := Except.ok.inj (hcase.symm.trans hc')
      exact absurd hstorable hns
    · obtain rfl := Except.ok.inj (hcase.symm.trans hc')
      exact hok
  have halone := alone_eval (react_sound cd.toRuntime noFaults (.answering none))
    (assembleBundle cd r).run s
  have hresult := hagain _ _ halone
  rw [hresult] at halone
  refine ⟨⟨_, halone⟩, hagain, q, hq, fun result s' => ?_⟩
  rw [exportManifestBytes_eval, hcase, hbytes]
  exact Iff.rfl

theorem sample_assembled : Assembled "rcpt-att-m-1" (sampleCase.bundle bundleCodec)
    (deliveredThenExported .second) (exportRun.pool .second) := by
  rw [exportRun_bundle]
  exact ⟨rfl, rfl⟩

theorem sample_bundle_stays :
    (∃ s', (assembleBundle bundleCodec "rcpt-att-m-1").run.Eval
      (Exec bundleCodec.toRuntime noFaults) exportRun.state
        (.ok (sampleCase.bundle bundleCodec)) s') ∧
    ∀ result s', (assembleBundle bundleCodec "rcpt-att-m-1").run.Eval
      (Exec bundleCodec.toRuntime noFaults) exportRun.state result s' →
        result = .ok (sampleCase.bundle bundleCodec) := by
  have hstable := bundles_stable (exportRun_run noFaults) sample_assembled
  exact ⟨hstable.1, hstable.2.1⟩

end Piteka.Safety
