import Piteka.Application.DispatchPaths
import Piteka.Application.Scenario
import Piteka.Storage.Steps

/-!
# What a dispatch outcome says about its call

A refusal of `reserve_and_dispatch` is returned by calls that have read, had their
swap turned down and at most left one audit event; an outcome of a dispatch is
returned by calls that have put the one question to the provider that the outcome
answers. This holds whatever the other callers do and whatever store calls fail.
-/
namespace Piteka.Safety

set_option autoImplicit false

open Piteka.Interleaving Piteka.Interleaving.Program Piteka.Storage Piteka.Application

/-! ## What the calls of a path show -/

/-- What the provider closure returned, if the call is its invocation. -/
def closureAnswer : Answered → Option (Option UInt64)
  | ⟨.dispatchFn _ _, d⟩ => some d
  | _ => none

/-- The answers of the provider closure on a path. -/
def closureAnswers (h : Path) : List (Option UInt64) := h.filterMap closureAnswer

/-- The audit event that a call asks to append, with the answer. -/
def appending : Answered → Option (AuditEvent × StorageResult Unit)
  | ⟨.store (.audit (.append event)), a⟩ => some (event, a)
  | _ => none

def appends (h : Path) : List (AuditEvent × StorageResult Unit) := h.filterMap appending

/-- The answered call changes at most the audit log: it reads, appends an audit event, or is a
swap of the mandate that was not applied. -/
inductive Harmless : Answered → Prop
  | clock (t : UInt64) : Harmless (ticked t)
  | request (r : String) (x : Option ActionRequest) : Harmless (did (.requests (.get r)) x)
  | mandate (m : String) (x : Option MandateProjection) : Harmless (did (.mandates (.get m)) x)
  | conflict (m : String) (v : Int64) (st : String) (w : Int64) :
      Harmless (did (.mandates (.compareAndSwap m v st)) (.conflict w))
  | append (event : AuditEvent) : Harmless (did (.audit (.append event)) ())

variable {rt : Runtime} {faults : StoreCall → Prop} {s s' : Stores}

theorem Harmless.effect {c : Answered} (hc : Harmless c) (hx : Exec rt faults s c.1 c.2 s') :
    s' = { s with audit := s'.audit } := by
  cases hc with
  | clock t =>
    obtain rfl : s' = s := hx
    rfl
  | request r x =>
    obtain ⟨order, hr⟩ := exec_ok hx
    obtain ⟨_, rfl⟩ := Prod.mk.inj hr
    rfl
  | mandate m x =>
    obtain ⟨order, hr⟩ := exec_ok hx
    obtain ⟨_, rfl⟩ := Prod.mk.inj hr
    rfl
  | conflict m v st w =>
    obtain ⟨rfl, _⟩ := mandate_conflict hx
    rfl
  | append event =>
    obtain ⟨order, hr⟩ := exec_ok hx
    obtain ⟨_, rfl⟩ := Prod.mk.inj hr
    rfl

theorem mandate_read {m : String} {x : Option MandateProjection}
    (hx : Exec rt faults s (.store (.mandates (.get m))) (.ok x) s') : s.mandate m = x := by
  obtain ⟨order, hr⟩ := exec_ok hx
  exact Except.ok.inj (Prod.mk.inj hr).1

/-! ## Truthful outcomes -/

section
variable {ι : Type} [DecidableEq ι]

/-- The call has not invoked the closure, and has written nothing but audit events. -/
structure NothingSent (i : ι) (log : List (Event ι)) : Prop where
  closure : closureAnswers (history i log) = []
  unwritten : ∀ e ∈ log, e.caller = i → e.after = { e.before with audit := e.after.audit }

/-- What each outcome says about the calls that its caller has made in the run. -/
def Truthful (a : ReserveArgs) (i : ι) (log : List (Event ι)) :
    Except DispatchError DispatchOutcome → Prop
  | .ok (.reservationFailed _) | .error (.notFound _) | .error (.invalidTransition _) =>
    NothingSent i log ∧ appends (history i log) = []
  | .ok (.replayRejected rejection) =>
    NothingSent i log ∧
      (∃ event, appends (history i log) = [(event, .ok ())] ∧ event.decision = "denied") ∧
      rejection.mandateIdHex = a.mandateIdHex ∧
      ∃ e ∈ log, e.caller = i ∧
        ∃ q ∈ e.before.mandate a.mandateIdHex, q.state = rejection.mandateState
  | .ok (.dispatched x) =>
    ∃ d, closureAnswers (history i log) = [some d] ∧ x.providerAccepted = true ∧
      x.githubDeploymentId = some d
  | .ok (.dispatchFailed _ _ _) => closureAnswers (history i log) = [none]
  | .error _ => True

/-- A dispatch that has returned has returned a truthful outcome. -/
def TruthfulCall (i : ι) (log : List (Event ι)) : (c : Call) → Program PortCall Answer c.Res → Prop
  | .reserveAndDispatch a, .ret r => Truthful a i log r
  | _, _ => True

end

/-! ## Refusals -/

theorem swapped_harmless {a : ReserveArgs} {t : UInt64} {q : ActionRequest} {v : Int64} :
    ∀ c ∈ a.swapped t q (.conflict v), Harmless c := by
  intro c hc
  simp only [ReserveArgs.swapped, List.mem_cons, List.not_mem_nil, or_false] at hc
  rcases hc with rfl | rfl | rfl
  · exact .clock t
  · exact .request a.requestId q
  · exact .conflict _ _ _ v

section
variable {ι : Type} [DecidableEq ι] {i : ι} {log : List (Event ι)}

/-- A caller whose calls are all harmless has sent and written nothing. -/
theorem nothingSent_of_harmless (executed : ∀ e ∈ log, Exec rt faults e.before e.call.1 e.call.2
      e.after) (harmless : ∀ c ∈ history i log, Harmless c) : NothingSent i log where
  closure := by
    refine List.filterMap_eq_nil_iff.mpr fun c hc => ?_
    cases harmless c hc <;> rfl
  unwritten e he hi :=
    (harmless _ (mem_history.mpr ⟨e, he, hi, rfl⟩)).effect (executed e he)

/-- A reservation that is turned down without a fault has sent nothing, and leaves the audit event
of a replay if it reports one. -/
theorem truthful_of_refusal {a : ReserveArgs} {h : Path} {r : Except DispatchError DispatchOutcome}
    (executed : ∀ e ∈ log, Exec rt faults e.before e.call.1 e.call.2 e.after)
    (hh : history i log = h) (hr : ReserveResult a h r) (hd : r ≠ .ok (.dispatched a.reserved)) :
    Truthful a i log r := by
  cases hr with
  | failed h c e hp => trivial
  | mandateNotFound t q hq => trivial
  | dispatched t q hq v => exact absurd rfl hd
  | notFound t =>
    refine ⟨nothingSent_of_harmless executed (fun c hc => ?_), by rw [hh]; rfl⟩
    rw [hh] at hc
    simp only [List.mem_cons, List.not_mem_nil, or_false] at hc
    rcases hc with rfl | rfl
    · exact .clock t
    · exact .request a.requestId none
  | invalidTransition t q hq =>
    refine ⟨nothingSent_of_harmless executed (fun c hc => ?_), by rw [hh]; rfl⟩
    rw [hh] at hc
    simp only [List.mem_cons, List.not_mem_nil, or_false] at hc
    rcases hc with rfl | rfl
    · exact .clock t
    · exact .request a.requestId q
  | reservationFailed t q hq v found hf =>
    refine ⟨nothingSent_of_harmless executed (fun c hc => ?_), by rw [hh]; rfl⟩
    rw [hh] at hc
    rcases List.mem_append.mp hc with hc | hc
    · exact swapped_harmless c hc
    · rw [List.mem_singleton.mp hc]
      exact .mandate a.mandateIdHex found
  | replayRejected t q hq v p hp =>
    refine ⟨nothingSent_of_harmless executed (fun c hc => ?_),
      ⟨a.replayEvent t.toInt64 p.state, by rw [hh]; rfl, rfl⟩, rfl, ?_⟩
    · rw [hh] at hc
      rcases List.mem_append.mp hc with hc | hc
      · exact swapped_harmless c hc
      · simp only [List.mem_cons, List.not_mem_nil, or_false] at hc
        rcases hc with rfl | rfl
        · exact .mandate a.mandateIdHex (some p)
        · exact .append _
    -- The reported state is the one that the call read.
    · have hread : did (.mandates (.get a.mandateIdHex)) (some p) ∈ history i log := by
        rw [hh]
        exact List.mem_append_right _ List.mem_cons_self
      obtain ⟨e, he, hi, hcall⟩ := mem_history.mp hread
      have hx := executed e he
      rw [hcall] at hx
      exact ⟨e, he, hi, p, mandate_read hx, rfl⟩

end

/-! ## Dispatches -/

theorem closureAnswers_append (h₁ h₂ : Path) :
    closureAnswers (h₁ ++ h₂) = closureAnswers h₁ ++ closureAnswers h₂ :=
  List.filterMap_append

/-- A completion does not ask the provider. -/
theorem completion_asks_nothing {c : CompleteArgs} {h : Path} {r : Except DispatchError Unit}
    (hr : CompleteResult c h r) : closureAnswers h = [] := by
  cases hr with
  | failed h sc e hp =>
    rw [closureAnswers_append]
    cases hp <;> rfl
  | consumed t d hd v => rfl
  | alreadyConsumed t d hd v => rfl
  | consumedMissing t d hd => rfl
  | quarantined t hd v => rfl
  | swallowed t hd v => rfl
  | quarantineMissing t hd => rfl

section
variable {ι : Type} [DecidableEq ι] {calls : ι → Call} {s₀ : Stores} {log : List (Event ι)}
  {p : (i : ι) → Program PortCall Answer (calls i).Res}

theorem truthful_of_result {a : ReserveArgs} {i : ι} {h : Path}
    {r : Except DispatchError DispatchOutcome}
    (executed : ∀ e ∈ log, Exec rt faults e.before e.call.1 e.call.2 e.after)
    (hh : history i log = h) (hr : DispatchResult rt a h r) : Truthful a i log r := by
  cases hr with
  | refused hr hd => exact truthful_of_refusal executed hh hr hd
  | failed t q hq v d hr =>
    -- A completion fails with none of the errors that a refusal is reported with.
    generalize hres : (Except.error _ : Except DispatchError Unit) = res at hr
    cases hr with
    | failed h sc e hp =>
      cases hres
      trivial
    | alreadyConsumed t' d' hd v' =>
      cases hres
      trivial
    | consumedMissing t' d' hd =>
      cases hres
      trivial
    | quarantineMissing t' hd =>
      cases hres
      trivial
    | consumed t' d' hd v' => cases hres
    | quarantined t' hd v' =>
      rw [ReserveArgs.completion_reported] at hres
      cases hres
    | swallowed t' hd v' =>
      rw [ReserveArgs.completion_reported] at hres
      cases hres
  | completed t q hq v d hr =>
    have hasked : closureAnswers (history i log) = [d] := by
      rw [hh, closureAnswers_append, completion_asks_nothing hr]
      rfl
    cases d with
    | some d => exact ⟨d, hasked, rfl, rfl⟩
    | none => exact hasked

/-- In every run, with any callers, any faults and any interleaving, what a dispatch returns is
true of the calls that it has made. -/
theorem dispatch_outcomes_truthful (run : SystemRun rt faults calls s₀ log s p) (i : ι) :
    TruthfulCall i log (calls i) (p i) := by
  have executed : ∀ e ∈ log, Exec rt faults e.before e.call.1 e.call.2 e.after :=
    fun e he => run.exec_of_mem he
  have hcall : ∀ (c : Call) (q : Program PortCall Answer c.Res),
      (c.program rt).Follows (history i log) q → TruthfulCall i log c q := by
    intro c q hf
    cases c with
    | reserveAndDispatch a =>
      cases q with
      | call op k => trivial
      | ret r => exact truthful_of_result executed rfl (reserveAndDispatch_returns hf)
    | _ => trivial
  exact hcall (calls i) (p i) (run.follows i)

end

/-! ## A dispatch and its replay -/

/-- Two dispatchers of one mandate, the second after the first has completed. -/
def replayedCalls : Pair → Call := fun _ => .reserveAndDispatch (sampleReserve "r-1" "m-1" 1)

def replayedRun : Snapshot Pair Answer Stores fun i => (replayedCalls i).Res :=
  played sampleRuntime replayedCalls (afterApproval (Stores.empty.issued "m-1"))
    (steps .first 11 (.answering (some 7)) ++ steps .second 5 (.answering none))

/-- What the second dispatcher returns, a replay of a consumed mandate, is true of its calls. -/
theorem dispatch_outcomes_truthful_replay :
    replayedRun.pool .second = .ret (.ok (.replayRejected
        ((sampleReserve "r-1" "m-1" 1).replayRejection "consumed"))) ∧
      TruthfulCall .second replayedRun.log (replayedCalls .second) (replayedRun.pool .second) :=
  ⟨rfl, dispatch_outcomes_truthful (played_run sampleRuntime noFaults _ _ _) Pair.second⟩

end Piteka.Safety
