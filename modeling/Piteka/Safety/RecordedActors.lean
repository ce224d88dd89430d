import Piteka.Api.ActorRecords
import Piteka.Safety.RepeatedCalls

/-!
# Recorded actors

The handlers refuse the empty text only, and then replace a blank one. A call that
succeeds is attributed to the submitted text exactly if that text is not blank, and
two different texts are recorded alike exactly if the replacement merges them. The
stores may fail in any way.
-/
namespace Piteka.Safety

set_option autoImplicit false

open Piteka.Interleaving Piteka.Storage Piteka.Domain Piteka.Application Piteka.Api

section
variable {ι : Type}

/-- The entries store the row of the mutation, if it has one, and its audit event, both with the
actor, and name no other. -/
structure Attributed (m : Mutation) (actor : String) (es : List (Event ι)) : Prop where
  row : m.rows actor ≠ [] → ∃ e ∈ es, StoresRow actor e
  event : ∃ e ∈ es, StoresEvent (some actor) e
  rowOnly : ∀ e ∈ es, ∀ other, StoresRow other e → other = actor
  eventOnly : ∀ e ∈ es, ∀ other, StoresEvent other e → other = some actor

theorem Attributed.unique {m m' : Mutation} {x y : String} {es : List (Event ι)}
    (hx : Attributed m x es) (hy : Attributed m' y es) : x = y := by
  obtain ⟨e, he, hevent⟩ := hx.event
  exact Option.some.inj (hy.eventOnly e he (some x) hevent)

/-- Both calls are attributed to one actor. -/
def RecordedAlike (m m' : Mutation) (es es' : List (Event ι)) : Prop :=
  ∃ actor, Attributed m actor es ∧ Attributed m' actor es'

theorem mem_rows {m : Mutation} {actor other : String} (h : other ∈ m.rows actor) :
    other = actor := by
  cases m with
  | propose => exact List.mem_singleton.mp h
  | approve => exact List.mem_singleton.mp h
  | reject => exact List.mem_singleton.mp h
  | revoke => cases h

/-- What a path records is what its entries store. -/
theorem attributed_of_records {rt : Runtime} {faults : StoreCall → Prop} {m : Mutation}
    {actor : String} {es : List (Event ι)}
    (h : Records (es.map (·.call)) (m.rows actor) actor)
    (hx : ∀ e ∈ es, Exec rt faults e.before e.call.1 e.call.2 e.after) :
    Attributed m actor es where
  row := by
    intro hne
    obtain ⟨other, hother⟩ := List.exists_mem_of_ne_nil _ hne
    have hmem := hother
    rw [← h.rows] at hmem
    obtain ⟨c, hc, hactor⟩ := List.mem_filterMap.mp hmem
    obtain ⟨e, he, rfl⟩ := List.mem_map.mp hc
    rw [mem_rows hother] at hactor
    exact ⟨e, he, (storesRow_iff (hx e he)).mpr hactor⟩
  event := by
    have hmem : some actor ∈ (es.map (·.call)).filterMap eventActor := by
      rw [h.events]
      exact List.mem_singleton_self _
    obtain ⟨c, hc, hactor⟩ := List.mem_filterMap.mp hmem
    obtain ⟨e, he, rfl⟩ := List.mem_map.mp hc
    exact ⟨e, he, (storesEvent_iff (hx e he)).mpr hactor⟩
  rowOnly := by
    intro e he other hstored
    have hmem := List.mem_filterMap.mpr
      ⟨e.call, List.mem_map_of_mem he, (storesRow_iff (hx e he)).mp hstored⟩
    rw [h.rows] at hmem
    exact mem_rows hmem
  eventOnly := by
    intro e he other hstored
    have hmem := List.mem_filterMap.mpr
      ⟨e.call, List.mem_map_of_mem he, (storesEvent_iff (hx e he)).mp hstored⟩
    rw [h.events] at hmem
    exact List.mem_singleton.mp hmem

variable [DecidableEq ι] {rt : Runtime} {faults : StoreCall → Prop} {programs p : ι → ApiProgram}
  {s₀ s : Stores} {log : List (Event ι)}

/-- A call that has returned with success. -/
structure Succeeded (rt : Runtime) (programs p : ι → ApiProgram) (i : ι) (c : ApiCall) : Prop where
  program : programs i = c.program rt
  returned : ∃ response, p i = .ret (.ok response) ∧ Succeeds response

theorem call_attributed (run : Run (Exec rt faults) s₀ programs log s p) {i : ι} {c : ApiCall}
    (h : Succeeded rt programs p i c) :
    Attributed c.mutation (recordedActor c.mutation.actor) (own i log) := by
  obtain ⟨hc, response, hr, hok⟩ := h
  have hreturns := run.returns hr
  rw [hc, history_own] at hreturns
  have hx : ∀ e ∈ own i log, Exec rt faults e.before e.call.1 e.call.2 e.after := by
    intro e he
    exact run.exec_of_mem (List.mem_of_mem_filter he)
  exact attributed_of_records (call_records hreturns hok) hx

theorem recorded_actors_iff (run : Run (Exec rt faults) s₀ programs log s p) :
    (∀ i c, Succeeded rt programs p i c →
      (Attributed c.mutation c.mutation.actor (own i log) ↔
        trimIsEmpty c.mutation.actor = false)) ∧
    ∀ i j c c', Succeeded rt programs p i c → Succeeded rt programs p j c' →
      c.mutation.actor ≠ c'.mutation.actor →
      (RecordedAlike c.mutation c'.mutation (own i log) (own j log) ↔
        Merged c.mutation.actor c'.mutation.actor) := by
  constructor
  · intro i c h
    have hrecorded := call_attributed run h
    rw [← recordedActor_eq_self]
    refine ⟨hrecorded.unique, fun hsame => ?_⟩
    rw [hsame] at hrecorded
    exact hrecorded
  · intro i j c c' h h' hne
    have hrecorded := call_attributed run h
    have hrecorded' := call_attributed run h'
    rw [← recordedActor_eq_iff hne]
    constructor
    · rintro ⟨actor, hactor, hactor'⟩
      exact (hrecorded.unique hactor).trans (hactor'.unique hrecorded')
    · intro hsame
      rw [← hsame] at hrecorded'
      exact ⟨_, hrecorded, hrecorded'⟩

end

/-! Two proposals, one with a blank user and one of a user with the name of the replacement. -/

def submissions : Pair → ApiCall
  | .first => ⟨none, "r-1", .propose ⟨" ", none⟩⟩
  | .second => ⟨none, "r-2", .propose ⟨"unknown", none⟩⟩

def submitted : Snapshot Pair Answer Stores fun _ => ApiResult :=
  Snapshot.play (react sampleRuntime) ⟨[], .empty, fun i => (submissions i).program sampleRuntime⟩
    (steps .first 3 (.answering none) ++ steps .second 3 (.answering none))

theorem submitted_run :
    Run (Exec sampleRuntime noFaults) .empty (fun i => (submissions i).program sampleRuntime)
      submitted.log submitted.state submitted.pool :=
  play_run (react_sound sampleRuntime noFaults) .start _

theorem submitted_succeeded (i : Pair) :
    Succeeded sampleRuntime (fun i => (submissions i).program sampleRuntime) submitted.pool i
      (submissions i) := by
  refine ⟨rfl, ?_⟩
  cases i with
  | first => exact ⟨shown 201 ⟨"r-1", "unknown", none, .pending, 0⟩ [], rfl, by decide⟩
  | second => exact ⟨shown 201 ⟨"r-2", "unknown", none, .pending, 0⟩ [], rfl, by decide⟩

theorem recorded_actors_iff_submitted :
    Attributed (submissions .second).mutation "unknown" (own .second submitted.log) ∧
      RecordedAlike (submissions .first).mutation (submissions .second).mutation
        (own .first submitted.log) (own .second submitted.log) :=
  ⟨((recorded_actors_iff submitted_run).1 .second _ (submitted_succeeded .second)).mpr (by decide),
    ((recorded_actors_iff submitted_run).2 .first .second _ _ (submitted_succeeded .first)
      (submitted_succeeded .second) (by decide)).mpr (Or.inl ⟨by decide, Or.inr rfl⟩)⟩

theorem blank_actor_replaced :
    ¬ ∀ (programs p : Pair → ApiProgram) (s₀ s : Stores) (log : List (Event Pair)),
      Run (Exec sampleRuntime noFaults) s₀ programs log s p →
      (∀ i c, Succeeded sampleRuntime programs p i c →
        Attributed c.mutation c.mutation.actor (own i log)) ∧
      ∀ i j c c', Succeeded sampleRuntime programs p i c → Succeeded sampleRuntime programs p j c' →
        c.mutation.actor ≠ c'.mutation.actor →
        ¬ RecordedAlike c.mutation c'.mutation (own i log) (own j log) := by
  intro h
  obtain ⟨hexact, _⟩ := h _ _ _ _ _ submitted_run
  have hsubmitted := hexact .first _ (submitted_succeeded .first)
  have hrecorded := call_attributed submitted_run (submitted_succeeded .first)
  exact absurd (hsubmitted.unique hrecorded) (by decide)

end Piteka.Safety
