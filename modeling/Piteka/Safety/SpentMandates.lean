import Piteka.Application.DispatchEffects
import Piteka.Application.Scenario
import Piteka.Safety.Swaps

/-!
# Spent mandates

`consumed`, `quarantined` and `abandoned` are documented as final for dispatch.
`reserve` inspects the state only after its swap was refused, so what keeps a
spent mandate spent is the version: it stays spent in every run in which no
reservation presents its stored version, and one reservation that does reopens it.
-/
namespace Piteka.Safety

set_option autoImplicit false

open Piteka.Interleaving Piteka.Interleaving.Program Piteka.Storage Piteka.Application

variable {ι : Type} {rt : Runtime} {faults : StoreCall → Prop} {calls : ι → Call}
  {s₀ s : Stores} {log : List (Event ι)} {p : (i : ι) → Program PortCall Answer (calls i).Res}

/-- The mandate is in one of the states documented as final for dispatch. -/
def Spent (m : String) (s : Stores) : Prop := ∃ p ∈ s.mandate m, isSpentState p.state

instance (m : String) (s : Stores) : Decidable (Spent m s) :=
  inferInstanceAs (Decidable (∃ p ∈ _, _))

/-- No reservation presents the stored version of the mandate while it is spent. -/
def ReservesOnlyUnspent (m : String) (log : List (Event ι)) : Prop :=
  ∀ e ∈ log, Presents m "reserved" e → ¬ Spent m e.before

instance (m : String) (log : List (Event ι)) : Decidable (ReservesOnlyUnspent m log) :=
  inferInstanceAs (Decidable (∀ e ∈ log, _))

/-- Apart from reservations, every swap leads to a spent state. -/
theorem swap_state {c : Call} {h : Path} {m st : String} {v : Int64}
    (hs : MandateSwap rt c h m v st) : st = "reserved" ∨ isSpentState st := by
  cases hs with
  | reserve hc t q hq => exact Or.inl rfl
  | consume hc t d hd => exact Or.inr (by decide)
  | quarantine hc t hd => exact Or.inr (by decide)
  | reconcile a t p rows x hc d => exact Or.inr (by decide)
  | abandon a t p rows x hc => exact Or.inr (by decide)

/-- What the documentation promises for a reservation of a spent mandate. -/
def ReplayRefused (a : ReserveArgs) (p : MandateProjection)
    (r : Except DispatchError DispatchOutcome) (s' : Stores) : Prop :=
  r = .ok (.replayRejected (a.replayRejection p.state)) ∧ s'.mandate a.mandateIdHex = some p

/-- An approved reservation of a spent mandate is refused as a replay exactly when it
presents another version than the stored one. -/
theorem replayRefused_iff {a : ReserveArgs} {p : MandateProjection} {s' : Stores}
    {r : Except DispatchError DispatchOutcome} (hq : ApprovedIn s a.requestId)
    (hp : s.mandate a.mandateIdHex = some p) (hs : isSpentState p.state)
    (he : (reserve a).run.Eval (Exec rt noFaults) s r s') :
    ReplayRefused a p r s' ↔ a.expectedMandateVersion ≠ p.version := by
  cases reserve_effect he with
  | refused hq' hk e => exact absurd hq hq'
  | noMandate hq' hp' hk =>
    rw [hp] at hp'
    cases hp'
  | replay hq' p' hp' hv hs' hk =>
    rw [hp] at hp'
    cases hp'
    exact ⟨fun _ => Ne.symm hv, fun _ => ⟨rfl, (hk.1 _).trans hp⟩⟩
  | lost hq' p' hp' hv hs' hk =>
    rw [hp] at hp'
    cases hp'
    exact absurd hs hs'
  | taken hq' p' hp' hv x hx hm ha e =>
    rw [hp] at hp'
    cases hp'
    refine ⟨fun h => ?_, fun h => absurd hv.symm h⟩
    cases h.1
  | granted hq' p' hp' hv hx hm now ha =>
    rw [hp] at hp'
    cases hp'
    refine ⟨fun h => ?_, fun h => absurd hv.symm h⟩
    cases h.1

section
variable [DecidableEq ι]

/-- One step: a spent mandate stays spent unless a reservation presents its version. -/
theorem spent_kept (run : SystemRun rt faults calls s₀ log s p) {m : String}
    (hcond : ReservesOnlyUnspent m log) {e : Event ι} (he : e ∈ log) (hs : Spent m e.before) :
    Spent m e.after := by
  have hno : Presents m "reserved" e → False := fun h => hcond e he h hs
  obtain ⟨p, hp, hst⟩ := hs
  obtain ⟨l₁, l₂, rfl⟩ := List.append_of_mem he
  rcases mandate_entry run m with h | ⟨p', st, hb, ha, hc, hswap⟩
  · exact ⟨p, h.trans hp, hst⟩
  · rcases swap_state hswap with rfl | hspent
    · exact (hno (presents_of_call hc hb)).elim
    · exact ⟨_, ha, hspent⟩

/-- In every run in which no reservation presents the version of the spent mandate, a spent
mandate is spent from there on; and in every state reached by any run an approved reservation of
it is refused as a replay exactly when it presents another version than the stored one. -/
theorem spent_absorbing (run : SystemRun rt faults calls s₀ log s p) (m : String) :
    (ReservesOnlyUnspent m log →
      ∀ l₁ e l₂, log = l₁ ++ e :: l₂ → Spent m e.before → Spent m s) ∧
      ∀ a p r s', a.mandateIdHex = m → ApprovedIn s a.requestId → s.mandate m = some p →
        isSpentState p.state → (reserve a).run.Eval (Exec rt noFaults) s r s' →
        (ReplayRefused a p r s' ↔ a.expectedMandateVersion ≠ p.version) := by
  constructor
  · intro hcond l₁ e l₂ hlog hs
    subst hlog
    have hafter : Spent m e.after :=
      spent_kept run hcond (List.mem_append_right _ List.mem_cons_self) hs
    refine run.linked.around.2.keeps (fun f hf hQ => ?_) hafter
    exact spent_kept run hcond (List.mem_append_right _ (List.mem_cons_of_mem _ hf)) hQ
  · intro a p r s' hm hq hp hs he
    subst hm
    exact replayRefused_iff hq hp hs he

/-- A dispatch that the provider accepts, then a reservation with the stored version. -/
def spentCalls : Unit → Call := fun _ => .reserveAndDispatch (sampleReserve "r-1" "m-1" 1)

def spentRun : Snapshot Unit Answer Stores fun i => (spentCalls i).Res :=
  played sampleRuntime spentCalls (afterApproval (Stores.empty.issued "m-1"))
    (steps () 12 (.answering (some 7)))

def reopening : (Except DispatchError DispatchOutcome) × Stores :=
  (reserve (sampleReserve "r-1" "m-1" 3)).run.alone (react sampleRuntime (.answering none))
    spentRun.state

def replayed : (Except DispatchError DispatchOutcome) × Stores :=
  (reserve (sampleReserve "r-1" "m-1" 1)).run.alone (react sampleRuntime (.answering none))
    spentRun.state

/-- The mandate is consumed at version 3; a reservation with version 3 moves it back. -/
theorem reserve_reopens_consumed :
    SystemRun sampleRuntime noFaults spentCalls (afterApproval (Stores.empty.issued "m-1"))
        spentRun.log spentRun.state spentRun.pool ∧
      ApprovedIn spentRun.state "r-1" ∧
      spentRun.state.mandate "m-1" = some ⟨"m-1", 3, "consumed"⟩ ∧
      (reserve (sampleReserve "r-1" "m-1" 3)).run.Eval (Exec sampleRuntime noFaults)
        spentRun.state reopening.1 reopening.2 ∧
      reopening.1 = .error (.storage (.backend "execution attempt `att-m-1` already exists")) ∧
      reopening.2.mandate "m-1" = some ⟨"m-1", 4, "reserved"⟩ :=
  ⟨played_run _ _ _ _ _, ⟨_, rfl, rfl⟩, by decide +kernel,
    alone_eval (react_sound _ _ _) _ _, by decide +kernel, by decide +kernel⟩

/-- The spent mandate at version 3 refuses a reservation with the stale version 1. -/
theorem spent_absorbing_replay :
    (∀ l₁ e l₂, spentRun.log = l₁ ++ e :: l₂ → Spent "m-1" e.before →
        Spent "m-1" spentRun.state) ∧
      ReplayRefused (sampleReserve "r-1" "m-1" 1) ⟨"m-1", 3, "consumed"⟩
        replayed.1 replayed.2 := by
  have h := spent_absorbing (played_run sampleRuntime noFaults spentCalls
    (afterApproval (Stores.empty.issued "m-1")) (steps () 12 (.answering (some 7)))) "m-1"
  have hcond : ReservesOnlyUnspent "m-1" spentRun.log := by decide +kernel
  have heval : (reserve (sampleReserve "r-1" "m-1" 1)).run.Eval (Exec sampleRuntime noFaults)
      spentRun.state replayed.1 replayed.2 := alone_eval (react_sound _ _ _) _ _
  refine ⟨h.1 hcond, ?_⟩
  exact (h.2 (sampleReserve "r-1" "m-1" 1) ⟨"m-1", 3, "consumed"⟩ _ _ rfl ⟨_, rfl, rfl⟩
    (by decide +kernel) (by decide) heval).mpr (by decide)

end

end Piteka.Safety
