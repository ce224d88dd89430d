import Piteka.Application.Scenario
import Piteka.Safety.SingleDispatch
import Piteka.Safety.Swaps

/-!
# The approved intent and the dispatched intent

A decision records the intent that was approved; a reservation takes its intent
from its caller and looks at no decision. The two agree in exactly the runs in
which every reservation that presents the stored version of its mandate names an
intent for which an approval is on record. A decision is never deleted, so what
holds at the reservation holds for the attempt, the dispatch and from then on.
-/
namespace Piteka.Safety

set_option autoImplicit false

open Piteka.Interleaving Piteka.Storage Piteka.Application

variable {ι : Type}

/-- An approval of the intent `i` is on record for the request `r`. -/
def IntentApproved (r i : String) (s : Stores) : Prop :=
  ∃ d ∈ s.decisions.decisions.byGroup r, d.decision = "approved" ∧ d.intentIdHex = some i

instance (r i : String) (s : Stores) : Decidable (IntentApproved r i s) :=
  inferInstanceAs (Decidable (∃ d ∈ _, _))

/-- A reservation that presents the stored version of its mandate names an approved intent. -/
def ReservesApproved (calls : ι → Call) (log : List (Event ι)) : Prop :=
  ∀ e ∈ log, ∀ a ∈ (calls e.caller).reserving, Presents a.mandateIdHex "reserved" e →
    IntentApproved a.requestId a.intentIdHex e.before

instance (calls : ι → Call) (log : List (Event ι)) : Decidable (ReservesApproved calls log) :=
  inferInstanceAs (Decidable (∀ e ∈ log, _))

/-- Only approved intents are dispatched. -/
structure IntentBound (calls : ι → Call) (log : List (Event ι)) (s : Stores) : Prop where
  /-- An inserted attempt has its approval on record, and keeps it. -/
  attempts : ∀ e ∈ log, ∀ a ∈ (calls e.caller).reserving, ∀ x : ExecutionAttempt,
    e.call = did (.attempts (.insert x)) () →
    IntentApproved a.requestId x.intentIdHex e.before ∧ IntentApproved a.requestId x.intentIdHex s
  /-- The provider closure is invoked for approved intents. -/
  invocations : ∀ e ∈ log, ∀ a ∈ invoking calls e, IntentApproved a.requestId a.intentIdHex e.before
  /-- Without an approval on record no step of a dispatcher changes a mandate. -/
  refused : ∀ e ∈ log, ∀ a ∈ (calls e.caller).reserving,
    ¬ IntentApproved a.requestId a.intentIdHex e.before →
    ∀ m, e.after.mandate m = e.before.mandate m

theorem intentApproved_iff {r i : String} {s : Stores} :
    IntentApproved r i s ↔ ∃ d, s.decision d.decisionId = some d ∧ d.requestId = r ∧
      d.decision = "approved" ∧ d.intentIdHex = some i := by
  constructor
  · intro ⟨d, hd, happroved, hintent⟩
    obtain ⟨hget, hr⟩ := (Table.Indexed.mem_byGroup _ _ _).mp hd
    exact ⟨d, hget, hr, happroved, hintent⟩
  · intro ⟨d, hget, hr, happroved, hintent⟩
    exact ⟨d, (Table.Indexed.mem_byGroup _ _ _).mpr ⟨hget, hr⟩, happroved, hintent⟩

variable {rt : Runtime} {faults : StoreCall → Prop} {calls : ι → Call} {s₀ s s' : Stores}
  {log : List (Event ι)} {p : (i : ι) → Program PortCall Answer (calls i).Res}

/-- A decision on record stays on record. -/
theorem intentApproved_kept {c : Answered} {r i : String} (hx : Exec rt faults s c.1 c.2 s')
    (h : IntentApproved r i s) : IntentApproved r i s' := by
  obtain ⟨d, hget, hrest⟩ := intentApproved_iff.mp h
  refine intentApproved_iff.mpr ⟨d, ?_, hrest⟩
  cases decision_step hx d.decisionId with
  | same hs => exact hs.trans hget
  | insert d' hi hc hb ha =>
    rw [hget] at hb
    cases hb

/-- A dispatcher completes after its own reservation. -/
theorem reserved_of_completes {c : Call} {x : CompleteArgs} {h : Path} {a : ReserveArgs}
    (hc : c.Completes rt h x) (ha : c.reserving = some a) :
    ∃ v, did (.mandates (.compareAndSwap a.mandateIdHex a.expectedMandateVersion "reserved"))
      (.applied v) ∈ h := by
  cases hc with
  | alone x => cases ha
  | dispatched b t q hq v d =>
    obtain rfl : b = a := Option.some.inj ha
    exact ⟨v, List.mem_append_left _ b.reserved_mem_granted⟩

section
variable [DecidableEq ι]

/-- The caller of a reservation that has been applied named an approved intent. -/
theorem approved_of_reserved (run : SystemRun rt faults calls s₀ log s p)
    (happroved : ReservesApproved calls log) {i : ι} {a : ReserveArgs}
    (ha : (calls i).reserving = some a) {v : Int64}
    (hmem : did (.mandates (.compareAndSwap a.mandateIdHex a.expectedMandateVersion "reserved"))
      (.applied v) ∈ history i log) : IntentApproved a.requestId a.intentIdHex s := by
  obtain ⟨e, he, rfl, hcall⟩ := mem_history.mp hmem
  have hx := run.exec_of_mem he
  have hpres : Presents a.mandateIdHex "reserved" e :=
    (presents_of_applied hx (appliedState_of_call hcall)).1
  have hbefore := happroved e he a ha hpres
  obtain ⟨l₁, l₂, rfl⟩ := List.append_of_mem he
  refine run.linked.around.2.keeps (Q := IntentApproved a.requestId a.intentIdHex) ?_
    (intentApproved_kept hx hbefore)
  intro f hf hq
  exact intentApproved_kept (run.exec_of_mem (by simp [hf])) hq

/-- A caller that is past its reservation named an approved intent. -/
theorem approved_at_entry {l₁ l₂ : List (Event ι)} {e : Event ι}
    (run : SystemRun rt faults calls s₀ (l₁ ++ e :: l₂) s p)
    (happroved : ReservesApproved calls (l₁ ++ e :: l₂)) {a : ReserveArgs}
    (ha : (calls e.caller).reserving = some a) {v : Int64}
    (hmem : did (.mandates (.compareAndSwap a.mandateIdHex a.expectedMandateVersion "reserved"))
      (.applied v) ∈ history e.caller l₁) :
    IntentApproved a.requestId a.intentIdHex e.before := by
  obtain ⟨⟨p', hrun⟩, _⟩ := run.at_entry
  exact approved_of_reserved hrun (fun f hf => happroved f (List.mem_append_left _ hf)) ha hmem

/-- A dispatcher that changes a mandate has an approval of its intent on record. -/
theorem approved_of_changed (run : SystemRun rt faults calls s₀ log s p)
    (happroved : ReservesApproved calls log) {e : Event ι} (he : e ∈ log) {a : ReserveArgs}
    (ha : (calls e.caller).reserving = some a) {m : String}
    (hm : e.after.mandate m ≠ e.before.mandate m) :
    IntentApproved a.requestId a.intentIdHex e.before := by
  obtain ⟨l₁, l₂, rfl⟩ := List.append_of_mem he
  rcases mandate_entry run m with hs | ⟨q, st, hb, _, hcall, hs⟩
  · exact absurd hs hm
  generalize hc : calls e.caller = c at hs
  generalize hh : history e.caller l₁ = h at hs
  have hca := ha
  rw [hc] at hca
  generalize hv : q.version = v at hs
  cases hs with
  | reserve hr t q' hq' =>
    obtain rfl := Option.some.inj (hca.symm.trans hr)
    exact happroved e he a ha (presents_of_call hcall hb)
  | consume hr t d hd =>
    obtain ⟨w, hw⟩ := reserved_of_completes hr hca
    exact approved_at_entry run happroved ha (hh ▸ List.mem_append_left _ hw)
  | quarantine hr t hd =>
    obtain ⟨w, hw⟩ := reserved_of_completes hr hca
    exact approved_at_entry run happroved ha (hh ▸ List.mem_append_left _ hw)
  | reconcile => cases hca
  | abandon => cases hca

theorem intentBound_of_reservesApproved (run : SystemRun rt faults calls s₀ log s p)
    (happroved : ReservesApproved calls log) : IntentBound calls log s where
  attempts := by
    intro e he a ha x hcall
    obtain ⟨l₁, l₂, rfl⟩ := List.append_of_mem he
    have hn := run.at_entry.2
    rw [hcall] at hn
    obtain ⟨b, t, q, v, hb, _, hh, rfl⟩ := attempt_insert_next hn
    obtain rfl : b = a := Option.some.inj (hb.symm.trans ha)
    have hbefore := approved_at_entry run happroved ha (v := v)
      (by rw [hh]; simp [ReserveArgs.swapped])
    refine ⟨hbefore, ?_⟩
    refine run.linked.around.2.keeps (Q := IntentApproved b.requestId b.intentIdHex) ?_
      (intentApproved_kept (run.exec_of_mem he) hbefore)
    intro f hf hq
    exact intentApproved_kept (run.exec_of_mem (by simp [hf])) hq
  invocations := by
    intro e he a ha
    obtain ⟨hc, key, digest, hop⟩ := invoking_eq_some ha
    obtain ⟨l₁, l₂, rfl⟩ := List.append_of_mem he
    have hn := run.at_entry.2
    rw [hop] at hn
    obtain ⟨b, t, q, v, hb, _, hh, _⟩ := dispatchFn_next hn
    obtain rfl : b = a := Call.reserveAndDispatch.inj (hb.symm.trans hc)
    refine approved_at_entry run happroved (by rw [hc]; rfl) (v := v) ?_
    rw [hh]
    exact b.reserved_mem_granted
  refused := by
    intro e he a ha hnot m
    by_contra hm
    exact hnot (approved_of_changed run happroved he ha hm)

theorem reservesApproved_of_intentBound (run : SystemRun rt noFaults calls s₀ log s p)
    (hbound : IntentBound calls log s) : ReservesApproved calls log := by
  intro e he a ha hpres
  obtain ⟨q, hq, _, hafter⟩ := applied_of_presents (run.exec_of_mem he) hpres
  by_contra hnot
  have hsame := hbound.refused e he a ha hnot a.mandateIdHex
  rw [hq, hafter] at hsame
  have hv : q.version + 1 = q.version := congrArg MandateProjection.version (Option.some.inj hsame)
  exact absurd (Int64.add_eq_left.mp hv) (by decide)

/-- Whatever the calls and the faults, dispatch is bound to approved intents when every
reservation that presents its mandate's version names one; without faults only then. -/
theorem dispatch_bound_to_approval (run : SystemRun rt faults calls s₀ log s p) :
    (ReservesApproved calls log → IntentBound calls log s) ∧
      ((∀ c, ¬ faults c) → IntentBound calls log s → ReservesApproved calls log) := by
  refine ⟨intentBound_of_reservesApproved run, fun hf hbound => ?_⟩
  have hnone : faults = noFaults := funext fun c => propext (iff_of_false (hf c) id)
  subst hnone
  exact reservesApproved_of_intentBound run hbound

/-! ## Two intents under one request -/

/-- A dispatch of the intent `i` under the request `r-1`. -/
def intentCalls (i : String) : Unit → Call :=
  fun _ => .reserveAndDispatch { sampleReserve "r-1" "m-1" 1 with intentIdHex := i }

/-- The request has been proposed and approved with the intent `i-1` before. -/
def intentRun (i : String) : Snapshot Unit Answer Stores fun j => (intentCalls i j).Res :=
  played sampleRuntime (intentCalls i) (afterApproval (Stores.empty.issued "m-1"))
    (steps () 12 (.answering (some 7)))

/-- With `i-1` approved, an attempt with the intent `i-2` is inserted and dispatched. -/
theorem unapproved_intent_dispatched :
    SystemRun sampleRuntime noFaults (intentCalls "i-2")
        (afterApproval (Stores.empty.issued "m-1")) (intentRun "i-2").log (intentRun "i-2").state
        (intentRun "i-2").pool ∧
      IntentApproved "r-1" "i-1" (intentRun "i-2").state ∧
      (invocations (intentCalls "i-2") (intentRun "i-2").log).map (·.intentIdHex) = ["i-2"] ∧
      InState "m-1" "consumed" (intentRun "i-2").state ∧
      ¬ IntentBound (intentCalls "i-2") (intentRun "i-2").log (intentRun "i-2").state := by
  have hasked : ¬ ReservesApproved (intentCalls "i-2") (intentRun "i-2").log := by decide +kernel
  have hrun : SystemRun sampleRuntime noFaults (intentCalls "i-2")
      (afterApproval (Stores.empty.issued "m-1")) (intentRun "i-2").log (intentRun "i-2").state
      (intentRun "i-2").pool := played_run _ _ _ _ _
  refine ⟨hrun, by decide +kernel, by decide +kernel, by decide +kernel, ?_⟩
  exact fun hbound => hasked (reservesApproved_of_intentBound hrun hbound)

theorem dispatch_bound_to_approval_once :
    IntentBound (intentCalls "i-1") (intentRun "i-1").log (intentRun "i-1").state ∧
      ReservesApproved (intentCalls "i-1") (intentRun "i-1").log := by
  have h := dispatch_bound_to_approval (played_run sampleRuntime noFaults (intentCalls "i-1")
    (afterApproval (Stores.empty.issued "m-1")) (steps () 12 (.answering (some 7))))
  have happroved : ReservesApproved (intentCalls "i-1") (intentRun "i-1").log := by decide +kernel
  have hbound := h.1 happroved
  exact ⟨hbound, h.2 (fun _ => id) hbound⟩

end

end Piteka.Safety
