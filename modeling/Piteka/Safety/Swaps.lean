import Piteka.Application.Points
import Piteka.Storage.Steps

/-!
# Swaps in a log

What one entry of a run does to a mandate projection or to a request: nothing, or
one applied swap whose caller stands at it. `Presents` is the condition under
which a swap is applied, stated on the call's argument and the state before it.
-/
namespace Piteka.Safety

set_option autoImplicit false

open Piteka.Interleaving Piteka.Storage Piteka.Application

variable {ι : Type}

/-- The mandate swap that an entry asks for: mandate, expected version, new state. -/
def mandateSwap (e : Event ι) : Option (String × Int64 × String) :=
  match e.call.1 with
  | .store (.mandates (.compareAndSwap m v st)) => some (m, v, st)
  | _ => none

/-- The entry asks to swap the mandate `m` to `state` and presents its stored version. -/
def Presents (m state : String) (e : Event ι) : Prop :=
  ∃ p ∈ e.before.mandate m, mandateSwap e = some (m, p.version, state)

instance (m state : String) (e : Event ι) : Decidable (Presents m state e) :=
  inferInstanceAs (Decidable (∃ p ∈ _, _))

/-- The status swap that an entry asks for: request, expected version, new status. -/
def statusSwap (e : Event ι) : Option (String × Int64 × ActionRequestStatus) :=
  match e.call.1 with
  | .store (.requests (.compareAndSwap r v st)) => some (r, v, st)
  | _ => none

/-- The status to which an entry asks to swap `r`, if it presents the stored version. -/
def presentedStatus (r : String) (e : Event ι) : Option ActionRequestStatus :=
  match statusSwap e with
  | some (r', v, st) => if r' = r ∧ v = e.before.requestVersion r then some st else none
  | none => none

theorem mandateSwap_eq_some {e : Event ι} {m st : String} {v : Int64}
    (h : mandateSwap e = some (m, v, st)) :
    e.call.1 = .store (.mandates (.compareAndSwap m v st)) := by
  unfold mandateSwap at h
  split at h
  · next hop =>
    cases h
    exact hop
  · cases h

theorem statusSwap_eq_some {e : Event ι} {r : String} {v : Int64} {st : ActionRequestStatus}
    (h : statusSwap e = some (r, v, st)) :
    e.call.1 = .store (.requests (.compareAndSwap r v st)) := by
  unfold statusSwap at h
  split at h
  · next hop =>
    cases h
    exact hop
  · cases h

/-- The mandate is stored in the state `st`. -/
def InState (m st : String) (s : Stores) : Prop := ∃ p ∈ s.mandate m, p.state = st

instance (m st : String) (s : Stores) : Decidable (InState m st s) :=
  inferInstanceAs (Decidable (∃ p ∈ _, _))

theorem InState.unique {m st st' : String} {s : Stores} (h : InState m st s)
    (h' : InState m st' s) : st = st' := by
  obtain ⟨p, hp, rfl⟩ := h
  obtain ⟨p', hp', rfl⟩ := h'
  rw [Option.some.inj (hp.symm.trans hp')]

/-- The request is stored with the status `st`. -/
def HasStatus (r : String) (st : ActionRequestStatus) (s : Stores) : Prop :=
  ∃ q ∈ s.request r, q.status = st

instance (r : String) (st : ActionRequestStatus) (s : Stores) : Decidable (HasStatus r st s) :=
  inferInstanceAs (Decidable (∃ q ∈ _, _))

theorem HasStatus.unique {r : String} {st st' : ActionRequestStatus} {s : Stores}
    (h : HasStatus r st s) (h' : HasStatus r st' s) : st = st' := by
  obtain ⟨q, hq, rfl⟩ := h
  obtain ⟨q', hq', rfl⟩ := h'
  rw [Option.some.inj (hq.symm.trans hq')]

/-- The state to which an entry has moved the mandate `m`. -/
def appliedState (m : String) (e : Event ι) : Option String :=
  match e.call with
  | ⟨.store (.mandates (.compareAndSwap m' _ st)), .ok (.applied _)⟩ =>
    if m' = m then some st else none
  | _ => none

/-- The states to which the mandate `m` has been moved, in order. -/
def transitions (m : String) (log : List (Event ι)) : List String := log.filterMap (appliedState m)

theorem appliedState_eq_some {e : Event ι} {m st : String} (h : appliedState m e = some st) :
    ∃ v w, e.call = did (.mandates (.compareAndSwap m v st)) (.applied w) := by
  unfold appliedState at h
  split at h
  · next m' v st' w hc =>
    split at h
    · next hm =>
      subst hm
      cases h
      exact ⟨v, w, hc⟩
    · cases h
  · cases h

theorem appliedState_of_call {e : Event ι} {m st : String} {v w : Int64}
    (hc : e.call = did (.mandates (.compareAndSwap m v st)) (.applied w)) :
    appliedState m e = some st := by
  rw [appliedState, hc]
  exact if_pos rfl

variable {rt : Runtime} {faults : StoreCall → Prop}

/-- Without faults a swap that presents the stored version is applied. -/
theorem applied_of_presents {e : Event ι} {m st : String}
    (hx : Exec rt noFaults e.before e.call.1 e.call.2 e.after) (h : Presents m st e) :
    ∃ p, e.before.mandate m = some p ∧
      e.call = did (.mandates (.compareAndSwap m p.version st)) (.applied (p.version + 1)) ∧
      e.after.mandate m = some (p.swapped st) := by
  obtain ⟨p, hp, hsw⟩ := h
  obtain ⟨i, ⟨op, a⟩, s, s'⟩ := e
  have hop := mandateSwap_eq_some hsw
  dsimp only at hx hp hop
  subst hop
  obtain ⟨o, rfl⟩ := mandate_swap_noFaults hx
  cases o with
  | applied w =>
    obtain ⟨p', hp', hv, rfl, hafter⟩ := mandate_applied hx
    obtain rfl := Option.some.inj (hp.symm.trans hp')
    exact ⟨p, hp, rfl, hafter⟩
  | conflict w =>
    obtain ⟨_, p', hp', hv, _⟩ := mandate_conflict hx
    obtain rfl := Option.some.inj (hp.symm.trans hp')
    exact absurd rfl hv
  | missing =>
    obtain ⟨_, hnone⟩ := mandate_missing hx
    rw [hnone] at hp
    cases hp

variable {calls : ι → Call} {s₀ s : Stores} {log : List (Event ι)}
  {p : (i : ι) → Program PortCall Answer (calls i).Res}

/-- What an entry of a run does to a mandate: nothing, or a swap that its caller stands at. -/
theorem mandate_entry [DecidableEq ι] {l₁ l₂ : List (Event ι)} {e : Event ι}
    (run : SystemRun rt faults calls s₀ (l₁ ++ e :: l₂) s p) (m : String) :
    e.after.mandate m = e.before.mandate m ∨
      ∃ p st, e.before.mandate m = some p ∧ e.after.mandate m = some (p.swapped st) ∧
        e.call = did (.mandates (.compareAndSwap m p.version st)) (.applied (p.version + 1)) ∧
        MandateSwap rt (calls e.caller) (history e.caller l₁) m p.version st := by
  have hx := run.exec_of_mem (List.mem_append_right _ List.mem_cons_self)
  have hn := run.at_entry.2
  cases mandate_step hx m with
  | same h => exact Or.inl h
  | insert st hc hb ha =>
    rw [hc] at hn
    exact absurd hn no_mandate_insert
  | swap p st hc hb ha =>
    rw [hc] at hn
    exact Or.inr ⟨p, st, hb, ha, hc, mandate_swap_next hn⟩

/-- An entry that moves the mandate presents the stored version. -/
theorem presents_of_applied {e : Event ι} {m st : String}
    (hx : Exec rt faults e.before e.call.1 e.call.2 e.after) (h : appliedState m e = some st) :
    Presents m st e ∧ ∃ p, e.before.mandate m = some p ∧ e.after.mandate m = some (p.swapped st) := by
  obtain ⟨v, w, hc⟩ := appliedState_eq_some h
  rw [hc] at hx
  obtain ⟨p, hp, rfl, _, ha⟩ := mandate_applied hx
  exact ⟨⟨p, hp, by rw [mandateSwap, hc]⟩, p, hp, ha⟩

/-- An entry that moves the mandate is made by a caller that stands at that swap. -/
theorem swap_of_applied [DecidableEq ι] {l₁ l₂ : List (Event ι)} {e : Event ι}
    (run : SystemRun rt faults calls s₀ (l₁ ++ e :: l₂) s p) {m st : String}
    (h : appliedState m e = some st) :
    ∃ v, MandateSwap rt (calls e.caller) (history e.caller l₁) m v st := by
  obtain ⟨v, w, hc⟩ := appliedState_eq_some h
  have hn := run.at_entry.2
  rw [hc] at hn
  exact ⟨v, mandate_swap_next hn⟩

/-- An entry that does not move the mandate leaves its row alone. -/
theorem mandate_same [DecidableEq ι] {e : Event ι} (run : SystemRun rt faults calls s₀ log s p)
    (he : e ∈ log) {m : String} (h : appliedState m e = none) :
    e.after.mandate m = e.before.mandate m := by
  obtain ⟨l₁, l₂, rfl⟩ := List.append_of_mem he
  rcases mandate_entry run m with hs | ⟨p, st, _, _, hc, _⟩
  · exact hs
  · rw [appliedState_of_call hc] at h
    cases h

/-- The states through which a mandate is moved form a chain in `R` exactly when every applied
swap steps in `R` from the state it finds. -/
theorem transitions_isChain_iff [DecidableEq ι] (run : SystemRun rt faults calls s₀ log s p)
    {m st₀ : String} (h₀ : InState m st₀ s₀) {R : String → String → Prop} :
    (st₀ :: transitions m log).IsChain R ↔
      ∀ e ∈ log, ∀ st, appliedState m e = some st → ∀ st', InState m st' e.before → R st' st := by
  refine run.linked.chain_iff (fun s st => InState m st s) InState.unique ?_ ?_ h₀
  · rintro e he hnone st ⟨q, hq, hst⟩
    exact ⟨q, (mandate_same run he hnone).trans hq, hst⟩
  · intro e he st hst
    obtain ⟨_, q, _, ha⟩ := presents_of_applied (run.exec_of_mem he) hst
    exact ⟨_, ha, rfl⟩

/-! ## Status swaps -/

/-- The status to which an entry has moved the request `r`. -/
def appliedStatus (r : String) (e : Event ι) : Option ActionRequestStatus :=
  match e.call with
  | ⟨.store (.requests (.compareAndSwap r' _ st)), .ok (.applied _)⟩ =>
    if r' = r then some st else none
  | _ => none

/-- The statuses to which the request `r` has been moved, in order. -/
def statusTransitions (r : String) (log : List (Event ι)) : List ActionRequestStatus :=
  log.filterMap (appliedStatus r)

theorem appliedStatus_eq_some {e : Event ι} {r : String} {st : ActionRequestStatus}
    (h : appliedStatus r e = some st) :
    ∃ v w, e.call = did (.requests (.compareAndSwap r v st)) (.applied w) := by
  unfold appliedStatus at h
  split at h
  · next r' v st' w hc =>
    split at h
    · next hr =>
      subst hr
      cases h
      exact ⟨v, w, hc⟩
    · cases h
  · cases h

theorem appliedStatus_of_call {e : Event ι} {r : String} {st : ActionRequestStatus} {v w : Int64}
    (hc : e.call = did (.requests (.compareAndSwap r v st)) (.applied w)) :
    appliedStatus r e = some st := by
  rw [appliedStatus, hc]
  exact if_pos rfl

/-- An entry that moves the request found it stored, and writes that status. -/
theorem hasStatus_of_applied {e : Event ι} {r : String} {st : ActionRequestStatus}
    (hx : Exec rt faults e.before e.call.1 e.call.2 e.after) (h : appliedStatus r e = some st) :
    presentedStatus r e = some st ∧ (e.before.request r).isSome ∧ HasStatus r st e.after := by
  obtain ⟨v, w, hc⟩ := appliedStatus_eq_some h
  rw [hc] at hx
  obtain ⟨q, hq, hv, rfl, ha, _⟩ := request_applied hx
  refine ⟨?_, by rw [hq, Option.isSome_some], _, ha, rfl⟩
  rw [presentedStatus, statusSwap, hc]
  exact if_pos ⟨rfl, hv.symm⟩

/-- Without faults a stored request is moved by every swap that presents its version. -/
theorem applied_of_presentedStatus {e : Event ι} {r : String} {st : ActionRequestStatus}
    (hx : Exec rt noFaults e.before e.call.1 e.call.2 e.after)
    (hq : (e.before.request r).isSome) (h : presentedStatus r e = some st) :
    appliedStatus r e = some st := by
  unfold presentedStatus at h
  cases hsw : statusSwap e with
  | none =>
    rw [hsw] at h
    cases h
  | some x =>
    obtain ⟨r', v, st'⟩ := x
    rw [hsw] at h
    dsimp only at h
    split at h
    · next hr =>
      obtain ⟨rfl, rfl⟩ := hr
      cases h
      obtain ⟨q, hstored⟩ := Option.isSome_iff_exists.mp hq
      have hop := statusSwap_eq_some hsw
      obtain ⟨i, ⟨op, a⟩, s, s'⟩ := e
      dsimp only at hop hx hstored
      subst hop
      obtain ⟨w, rfl⟩ := request_swap_noFaults hx hstored rfl
      exact appliedStatus_of_call rfl
    · cases h

/-- What an entry of a run without proposals does to a request it does not move: nothing. -/
theorem request_same {e : Event ι} (hx : Exec rt faults e.before e.call.1 e.call.2 e.after)
    {r : String} {q : ActionRequest} (hq : e.before.request r = some q)
    (h : appliedStatus r e = none) : e.after.request r = some q := by
  cases request_step hx r with
  | same hs => exact (congrArg Prod.fst hs).trans hq
  | insert q' hr hc hb ha =>
    rw [hq] at hb
    cases hb
  | swap q' v st hc hb ha =>
    rw [appliedStatus_of_call hc] at h
    cases h

theorem statusTransitions_isChain_iff [DecidableEq ι] (run : SystemRun rt faults calls s₀ log s p)
    {r : String} {st₀ : ActionRequestStatus} (h₀ : HasStatus r st₀ s₀)
    {R : ActionRequestStatus → ActionRequestStatus → Prop} :
    (st₀ :: statusTransitions r log).IsChain R ↔
      ∀ e ∈ log, ∀ st, appliedStatus r e = some st → ∀ st', HasStatus r st' e.before → R st' st := by
  refine run.linked.chain_iff (fun s st => HasStatus r st s) HasStatus.unique ?_ ?_ h₀
  · rintro e he hnone st ⟨q, hq, hst⟩
    exact ⟨q, request_same (run.exec_of_mem he) hq hnone, hst⟩
  · intro e he st hst
    exact (hasStatus_of_applied (run.exec_of_mem he) hst).2.2

theorem presents_of_call {e : Event ι} {m st : String} {p : MandateProjection} {o : CasOutcome}
    (hc : e.call = did (.mandates (.compareAndSwap m p.version st)) o)
    (hp : e.before.mandate m = some p) : Presents m st e :=
  ⟨p, hp, by rw [mandateSwap, hc]⟩

end Piteka.Safety
