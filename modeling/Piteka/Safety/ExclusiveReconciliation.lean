import Piteka.Application.Scenario
import Piteka.Safety.Swaps

/-!
# Exclusive reconciliation

Reconcilers and abandoners of one quarantined mandate. Each reads the state once
and swaps later with the version its caller supplied, so a caller that guesses
the version after another one's swap closes the mandate a second time. Exactly
the runs in which no closing swap presents the version of a mandate that has
left `quarantined` close it at most once.
-/
namespace Piteka.Safety

set_option autoImplicit false

open Piteka.Interleaving Piteka.Interleaving.Program Piteka.Storage Piteka.Application

variable {ι : Type} {rt : Runtime} {faults : StoreCall → Prop} {calls : ι → Call}
  {s₀ s : Stores} {log : List (Event ι)} {p : (i : ι) → Program PortCall Answer (calls i).Res}
  {m : String}

/-- Every caller reconciles or abandons the mandate `m`. -/
def OnlyClosers (m : String) (calls : ι → Call) : Prop :=
  ∀ i, (∃ a, calls i = .reconcile a ∧ a.mandateIdHex = m) ∨
    ∃ a, calls i = .abandonUnresolved a ∧ a.mandateIdHex = m

/-- A closing swap that presents the stored version finds the mandate still quarantined. -/
def ClosesOnlyQuarantined (m : String) (log : List (Event ι)) : Prop :=
  ∀ e ∈ log, Presents m "consumed" e ∨ Presents m "abandoned" e → InState m "quarantined" e.before

instance (m : String) (log : List (Event ι)) : Decidable (ClosesOnlyQuarantined m log) :=
  inferInstanceAs (Decidable (∀ e ∈ log, _))

/-- The outcome closes the mandate. -/
def closes : ReconciliationOutcome → Bool
  | .reconciledAccepted _ _ _ => true
  | .abandonedAmbiguous _ _ _ => true
  | .unresolved _ _ => false

/-- The call has returned `ReconciledAccepted` or `AbandonedAmbiguous`. -/
def HasClosed : (c : Call) → Program PortCall Answer c.Res → Prop
  | .reconcile _, .ret (.ok x) => closes x
  | .abandonUnresolved _, .ret (.ok x) => closes x
  | _, _ => False

/-- At most one transition, to `consumed` or `abandoned`, and at most one closing caller. -/
def Exclusive (m : String) (calls : ι → Call) (log : List (Event ι))
    (p : (i : ι) → Program PortCall Answer (calls i).Res) : Prop :=
  (transitions m log = [] ∨ transitions m log = ["consumed"] ∨ transitions m log = ["abandoned"]) ∧
    ∀ i j, HasClosed (calls i) (p i) → HasClosed (calls j) (p j) → i = j

theorem closer_target {i : ι} {h : Path} {st : String} {v : Int64} (hcalls : OnlyClosers m calls)
    (hs : MandateSwap rt (calls i) h m v st) : st = "consumed" ∨ st = "abandoned" := by
  generalize hc : calls i = c at hs
  rcases hcalls i with ⟨a, ha, _⟩ | ⟨a, ha, _⟩
  · rw [hc] at ha
    subst ha
    cases hs with
    | reserve hc t q hq => cases hc
    | consume hc t d hd => cases hc
    | quarantine hc t hd => cases hc
    | reconcile a t p rows x hx d => exact Or.inl rfl
  · rw [hc] at ha
    subst ha
    cases hs with
    | reserve hc t q hq => cases hc
    | consume hc t d hd => cases hc
    | quarantine hc t hd => cases hc
    | abandon a t p rows x hx => exact Or.inr rfl

/-- A caller that has closed the mandate has moved it itself. -/
theorem moved_of_hasClosed {c : Call} {q : Program PortCall Answer c.Res} {h : Path}
    (hc : (∃ a, c = .reconcile a ∧ a.mandateIdHex = m) ∨
      ∃ a, c = .abandonUnresolved a ∧ a.mandateIdHex = m)
    (hq : HasClosed c q) (hf : (c.program rt).Follows h q) :
    ∃ v w st, did (.mandates (.compareAndSwap m v st)) (.applied w) ∈ h := by
  rcases hc with ⟨a, rfl, rfl⟩ | ⟨a, rfl, rfl⟩
  · rcases q with ⟨e | x⟩ | _
    · exact hq.elim
    · have hx : closes x = true := hq
      cases reconcile_returns hf with
      | unavailable t p rows y hy e => cases hx
      | unestablished t p rows y hy => cases hx
      | accepted t p rows y hy d v =>
        exact ⟨a.expectedMandateVersion, v, "consumed", by simp [ReconcileArgs.swapped]⟩
    · exact hq.elim
  · rcases q with ⟨e | x⟩ | _
    · exact hq.elim
    · cases abandonUnresolved_returns hf with
      | abandoned t p rows y hy v =>
        exact ⟨a.expectedMandateVersion, v, "abandoned", by simp [AbandonArgs.swapped]⟩
    · exact hq.elim

section
variable [DecidableEq ι]

theorem applied_target (hcalls : OnlyClosers m calls) (run : SystemRun rt faults calls s₀ log s p)
    {e : Event ι} (he : e ∈ log) {st : String} (hst : appliedState m e = some st) :
    st = "consumed" ∨ st = "abandoned" := by
  obtain ⟨l₁, l₂, rfl⟩ := List.append_of_mem he
  obtain ⟨v, hswap⟩ := swap_of_applied run hst
  exact closer_target hcalls hswap

/-- The transitions of a quarantined mandate that reconciliation allows. -/
def ClosingEdge (st st' : String) : Prop :=
  st = "quarantined" ∧ (st' = "consumed" ∨ st' = "abandoned")

theorem closing_isChain_iff {l : List String} :
    ("quarantined" :: l).IsChain ClosingEdge ↔ l = [] ∨ l = ["consumed"] ∨ l = ["abandoned"] := by
  rcases l with _ | ⟨st, _ | ⟨st', l⟩⟩
  · exact ⟨fun _ => Or.inl rfl, fun _ => List.IsChain.singleton _⟩
  · rw [List.isChain_cons_cons]
    simp [ClosingEdge]
  · rw [List.isChain_cons_cons, List.isChain_cons_cons]
    constructor
    · rintro ⟨⟨_, hst⟩, ⟨hst', _⟩, _⟩
      subst hst'
      rcases hst with h | h <;> exact absurd h (by decide)
    · rintro (h | h | h) <;> cases h

/-- Without faults the condition says that every transition is allowed. -/
theorem closesOnlyQuarantined_iff (hcalls : OnlyClosers m calls)
    (run : SystemRun rt noFaults calls s₀ log s p) :
    ClosesOnlyQuarantined m log ↔ ∀ e ∈ log, ∀ st, appliedState m e = some st →
      ∀ st', InState m st' e.before → ClosingEdge st' st := by
  constructor
  · intro hcond e he st hst st' hst'
    have htarget := applied_target hcalls run he hst
    have hpres : Presents m st e := (presents_of_applied (run.exec_of_mem he) hst).1
    have hbefore : InState m "quarantined" e.before := by
      rcases htarget with rfl | rfl
      · exact hcond e he (Or.inl hpres)
      · exact hcond e he (Or.inr hpres)
    exact ⟨hst'.unique hbefore, htarget⟩
  · intro hedge e he hpres
    have hmoved : ∃ q st, e.before.mandate m = some q ∧ appliedState m e = some st := by
      rcases hpres with h | h <;>
      · obtain ⟨q, hq, hc, _⟩ := applied_of_presents (run.exec_of_mem he) h
        exact ⟨q, _, hq, appliedState_of_call hc⟩
    obtain ⟨q, st, hq, hst⟩ := hmoved
    exact ⟨q, hq, (hedge e he st hst q.state ⟨q, hq, rfl⟩).1⟩

/-- Two callers that have closed the mandate have moved it twice. -/
theorem closed_once (hcalls : OnlyClosers m calls) (run : SystemRun rt faults calls s₀ log s p)
    (hlen : (transitions m log).length ≤ 1) {i j : ι} (hi : HasClosed (calls i) (p i))
    (hj : HasClosed (calls j) (p j)) : i = j := by
  obtain ⟨v, w, st, hvi⟩ := moved_of_hasClosed (hcalls i) hi (run.follows i)
  obtain ⟨v', w', st', hvj⟩ := moved_of_hasClosed (hcalls j) hj (run.follows j)
  refine caller_unique (once_of_length_filterMap hlen) hvi hvj ?_ ?_
  · intro e hce
    rw [appliedState_of_call hce, Option.isSome_some]
  · intro f hcf
    rw [appliedState_of_call hcf, Option.isSome_some]

/-- A quarantined mandate is closed at most once, by at most one call, exactly in the runs in
which every closing swap that presents the stored version finds it still quarantined. -/
theorem reconciliation_exclusive (hcalls : OnlyClosers m calls) (h₀ : InState m "quarantined" s₀)
    (run : SystemRun rt noFaults calls s₀ log s p) :
    Exclusive m calls log p ↔ ClosesOnlyQuarantined m log := by
  rw [closesOnlyQuarantined_iff hcalls run, ← transitions_isChain_iff run h₀, closing_isChain_iff]
  refine ⟨fun h => h.1, fun h => ⟨h, fun i j hi hj => closed_once hcalls run ?_ hi hj⟩⟩
  rcases h with h | h | h <;> rw [h] <;> decide

/-! ## Two closers -/

/-- A dispatch that timed out: the mandate is quarantined at version 3. -/
def timedOut : Stores :=
  (played sampleRuntime (fun _ : Unit => .reserveAndDispatch (sampleReserve "r-1" "m-1" 1))
    (afterApproval (Stores.empty.issued "m-1")) (steps () 12 (.answering none))).state

/-- A reconciler with the stored version and an abandoner with the version after it. -/
def closingCalls : Pair → Call
  | .first => .reconcile ⟨"m-1", "operator", 3⟩
  | .second => .abandonUnresolved ⟨"m-1", "operator", 4, "no answer"⟩

/-- Both read the mandate as quarantined before either swaps. -/
def closingRun : Snapshot Pair Answer Stores fun i => (closingCalls i).Res :=
  played sampleRuntime closingCalls timedOut
    (steps .first 4 (.answering (some 7)) ++ steps .second 3 (.answering none) ++
      steps .first 6 (.answering none) ++ steps .second 6 (.answering none))

theorem closing_onlyClosers : OnlyClosers "m-1" closingCalls
  | .first => Or.inl ⟨_, rfl, rfl⟩
  | .second => Or.inr ⟨_, rfl, rfl⟩

/-- The mandate is consumed and then abandoned, and both calls return their success. -/
theorem consumed_then_abandoned :
    SystemRun sampleRuntime noFaults closingCalls timedOut closingRun.log closingRun.state
        closingRun.pool ∧
      timedOut.mandate "m-1" = some ⟨"m-1", 3, "quarantined"⟩ ∧
      transitions "m-1" closingRun.log = ["consumed", "abandoned"] ∧
      closingRun.pool .first = .ret (.ok (.reconciledAccepted "m-1" "att-m-1" 4)) ∧
      closingRun.pool .second = .ret (.ok (.abandonedAmbiguous "m-1" "att-m-1" 5)) ∧
      ¬ Exclusive "m-1" closingCalls closingRun.log closingRun.pool := by
  have htrans : transitions "m-1" closingRun.log = ["consumed", "abandoned"] := by decide +kernel
  refine ⟨played_run _ _ _ _ _, by decide +kernel, htrans, rfl, rfl, fun h => ?_⟩
  have hone := h.1
  rw [htrans] at hone
  exact absurd hone (by decide)

theorem reconciliation_exclusive_two :
    Exclusive "m-1" closingCalls closingRun.log closingRun.pool ↔
      ClosesOnlyQuarantined "m-1" closingRun.log :=
  reconciliation_exclusive closing_onlyClosers (by decide +kernel)
    (played_run sampleRuntime noFaults _ _ _)

end

end Piteka.Safety
