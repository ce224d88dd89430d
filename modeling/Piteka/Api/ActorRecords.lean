import Piteka.Api.ActionRequests
import Piteka.Application.ActionRequestPaths
import Piteka.Application.System
import Piteka.Storage.Steps

/-!
# The actors that a mutating call records

A call that succeeds writes one row, if it is no revocation, and one audit event,
and all of them name the user id that its handler made of the submitted text.
-/
namespace Piteka.Api

set_option autoImplicit false

open Piteka.Interleaving Piteka.Interleaving.Program Piteka.Storage Piteka.Domain Piteka.Application

/-- The user that the body names. -/
def Mutation.actor : Mutation → String
  | .propose body => body.requestedBy
  | .approve _ body => body.approverId
  | .reject _ body => body.approverId
  | .revoke _ body => body.approverId

/-- The actors of the rows that a successful mutation writes for `actor`. -/
def Mutation.rows (actor : String) : Mutation → List String
  | .propose _ => [actor]
  | .approve _ _ => [actor]
  | .reject _ _ => [actor]
  | .revoke _ _ => []

def Succeeds (response : Response) : Prop := 200 ≤ response.status ∧ response.status < 300

instance (response : Response) : Decidable (Succeeds response) :=
  inferInstanceAs (Decidable (_ ∧ _))

/-- The text that the handlers record for a submitted one. -/
def recordedActor (submitted : String) : String := (userIdOf submitted).asStr

theorem recordedActor_blank {submitted : String} (h : trimIsEmpty submitted = true) :
    recordedActor submitted = "unknown" := by
  simp [recordedActor, userIdOf, UserId.new, h]

theorem recordedActor_nonblank {submitted : String} (h : trimIsEmpty submitted = false) :
    recordedActor submitted = submitted := by
  simp [recordedActor, userIdOf, UserId.new, h]

theorem recordedActor_eq_self {submitted : String} :
    recordedActor submitted = submitted ↔ trimIsEmpty submitted = false := by
  refine ⟨fun h => ?_, recordedActor_nonblank⟩
  rw [← h]
  exact (userIdOf submitted).nonblank

/-- Different texts for which the handlers record the same one: two blank texts, or a blank one
and the replacement. -/
def Merged (x y : String) : Prop :=
  trimIsEmpty x = true ∧ (trimIsEmpty y = true ∨ y = "unknown") ∨
    x = "unknown" ∧ trimIsEmpty y = true

theorem recordedActor_eq_iff {x y : String} (hne : x ≠ y) :
    recordedActor x = recordedActor y ↔ Merged x y := by
  have hunknown : trimIsEmpty "unknown" = false := by decide
  unfold Merged
  cases hx : trimIsEmpty x with
  | true =>
    rw [recordedActor_blank hx]
    cases hy : trimIsEmpty y with
    | true => simp [recordedActor_blank hy]
    | false => simp [recordedActor_nonblank hy, eq_comm]
  | false =>
    rw [recordedActor_nonblank hx]
    cases hy : trimIsEmpty y with
    | true => simp [recordedActor_blank hy]
    | false => simp [recordedActor_nonblank hy, hne]

/-! ## What the answered calls write -/

/-- The actor of the row that an answered call has written. -/
def rowActor : Answered → Option String
  | ⟨.store (.requests (.insert q)), .ok _⟩ => some q.requestedBy
  | ⟨.store (.decisions (.insert d)), .ok _⟩ => some d.decidedBy
  | _ => none

/-- The actor of the audit event that an answered call has appended. -/
def eventActor : Answered → Option (Option String)
  | ⟨.store (.audit (.append event)), .ok _⟩ => some event.actor
  | _ => none

theorem rowActor_eq_some {c : Answered} {actor : String} (h : rowActor c = some actor) :
    (∃ q, c = did (.requests (.insert q)) () ∧ q.requestedBy = actor) ∨
      ∃ d, c = did (.decisions (.insert d)) () ∧ d.decidedBy = actor := by
  unfold rowActor at h
  split at h
  · next q _ => exact Or.inl ⟨q, rfl, Option.some.inj h⟩
  · next d _ => exact Or.inr ⟨d, rfl, Option.some.inj h⟩
  · cases h

theorem eventActor_eq_some {c : Answered} {actor : Option String}
    (h : eventActor c = some actor) :
    ∃ event, c = did (.audit (.append event)) () ∧ event.actor = actor := by
  unfold eventActor at h
  split at h
  · next event _ => exact ⟨event, rfl, Option.some.inj h⟩
  · cases h

/-- The rows and the events of a path name one actor. -/
structure Records (h : Path) (rows : List String) (actor : String) : Prop where
  rows : h.filterMap rowActor = rows
  events : h.filterMap eventActor = [some actor]

theorem refused_use_case (e : ActionRequestUseCaseError) :
    400 ≤ (ApiError.ofUseCase e).intoResponse.status := by
  cases e with
  | storage err =>
    cases err with
    | immutableViolation => exact Nat.le_of_ble_eq_true rfl
    | evidenceDigestMismatch => exact Nat.le_of_ble_eq_true rfl
    | emptyField => exact Nat.le_refl 400
    | backend => exact Nat.le_of_ble_eq_true rfl
  | notFound => exact Nat.le_of_ble_eq_true rfl
  | invalidTransition => exact Nat.le_of_ble_eq_true rfl
  | conflict => exact Nat.le_of_ble_eq_true rfl

/-- A handler that succeeds has gone on from a use case that has. -/
theorem settle_succeeds {α : Type} {next : α → ApiProgram}
    {a : Except (Stopped ActionRequestUseCaseError) α} {h : Path} {response : Response}
    (hr : Returns (settle next a) h (.ok response)) (hok : Succeeds response) :
    ∃ x, a = .ok x ∧ Returns (next x) h (.ok response) := by
  cases a with
  | ok x => exact ⟨x, rfl, hr⟩
  | error stopped =>
    cases stopped with
    | err e =>
      obtain rfl := Except.ok.inj (returns_ret.mp hr).2
      exact absurd hok.2 (by have := refused_use_case e; omega)
    | panicked message => cases (returns_ret.mp hr).2

theorem propose_returns_ok {rt : Runtime} {a : ProposeArgs} {h : Path} {x : Proposed}
    (hr : Returns (propose rt a).run h (.ok x)) :
    Records h [a.requestedBy.asStr] a.requestedBy.asStr := by
  obtain ⟨t, h, rfl, h1⟩ := returns_nowSeconds.mp hr
  rcases returns_await.mp h1 with ⟨e, _, he⟩ | ⟨_, h, rfl, h2⟩
  · cases he
  rcases returns_await.mp h2 with ⟨e, _, he⟩ | ⟨_, h, rfl, h3⟩
  · cases he
  obtain ⟨rfl, _⟩ := returns_pure.mp h3
  exact ⟨rfl, rfl⟩

/-- The path of a decision names the approver in the decision and in the event. -/
theorem decided_records {a : DecideArgs} {target : ActionRequestStatus} {decision : String}
    {t : UInt64} {q q' : ActionRequest} {w : Int64} {event : AuditEvent}
    (hactor : event.actor = some a.approverId.asStr) :
    Records (a.decided target decision t q q' w event) [a.approverId.asStr] a.approverId.asStr where
  rows := rfl
  events := congrArg (fun actor => [actor]) hactor

theorem approve_records {rt : Runtime} {a : DecideArgs} {h : Path} {x : Approved}
    (hr : Returns (approve rt a).run h (.ok x)) :
    Records h [a.approverId.asStr] a.approverId.asStr := by
  obtain ⟨t, q, q', w, event, _, hactor, _, rfl⟩ := approve_returns_ok hr
  exact decided_records hactor

theorem reject_records {a : DecideArgs} {h : Path} {x : Rejected}
    (hr : Returns (reject a).run h (.ok x)) :
    Records h [a.approverId.asStr] a.approverId.asStr := by
  obtain ⟨t, q, q', w, event, _, hactor, _, rfl⟩ := reject_returns_ok hr
  exact decided_records hactor

theorem revoke_records {a : RevokeArgs} {h : Path} {x : Revoked}
    (hr : Returns (revoke a).run h (.ok x)) : Records h [] a.approverId.asStr := by
  obtain ⟨t, q, q', w, event, _, hactor, _, rfl⟩ := revoke_returns_ok hr
  exact ⟨rfl, congrArg (fun actor => [actor]) hactor⟩

/-- Approve, reject and revoke add one read of the decisions, which records nothing. -/
theorem changeActionRequest_records {α : Type} {requestId approverId : String}
    {useCase : UserId → ActionRequestUseCase α} {request : α → ActionRequest} {rows : List String}
    {h : Path} {response : Response}
    (huse : ∀ h x, Returns (useCase (userIdOf approverId)).run h (.ok x) →
      Records h rows (recordedActor approverId))
    (hr : Returns (changeActionRequest requestId approverId useCase request) h (.ok response))
    (hok : Succeeds response) : Records h rows (recordedActor approverId) := by
  unfold changeActionRequest at hr
  split at hr
  · obtain rfl := Except.ok.inj (returns_ret.mp hr).2
    exact absurd hok.2 (by decide)
  obtain ⟨h₁, h₂, a, rfl, h1, h2⟩ := returns_bind hr
  obtain ⟨x, rfl, h3⟩ := settle_succeeds h2 hok
  obtain ⟨d, h, rfl, h4⟩ := returns_call.mp h3
  have hnil : h = [] := by
    cases d with
    | error e => exact (returns_ret.mp h4).1
    | ok decisions => exact (returns_ret.mp h4).1
  obtain ⟨hrows, hevents⟩ := huse h₁ x h1
  subst hnil
  refine ⟨?_, ?_⟩
  · rw [List.filterMap_append, hrows]
    exact List.append_nil rows
  · rw [List.filterMap_append, hevents]
    rfl

/-- A call that succeeds records the user id that its handler made. -/
theorem call_records {rt : Runtime} {c : ApiCall} {h : Path} {response : Response}
    (hr : Returns (c.program rt) h (.ok response)) (hok : Succeeds response) :
    Records h (c.mutation.rows (recordedActor c.mutation.actor))
      (recordedActor c.mutation.actor) := by
  unfold ApiCall.program at hr
  cases hc : c.mutation with
  | propose body =>
    rw [hc] at hr
    dsimp only [proposeActionRequest] at hr
    split at hr
    · obtain rfl := Except.ok.inj (returns_ret.mp hr).2
      exact absurd hok.2 (by decide)
    obtain ⟨h₁, h₂, a, rfl, h1, h2⟩ := returns_bind hr
    obtain ⟨x, rfl, h3⟩ := settle_succeeds h2 hok
    obtain ⟨rfl, _⟩ := returns_ret.mp h3
    rw [List.append_nil]
    exact propose_returns_ok h1
  | approve requestId body =>
    rw [hc] at hr
    exact changeActionRequest_records (fun _ _ => approve_records) hr hok
  | reject requestId body =>
    rw [hc] at hr
    exact changeActionRequest_records (fun _ _ => reject_records) hr hok
  | revoke requestId body =>
    rw [hc] at hr
    exact changeActionRequest_records (fun _ _ => revoke_records) hr hok

/-! ## What the stores hold afterwards -/

section
variable {ι : Type} {rt : Runtime} {faults : StoreCall → Prop} {e : Event ι} {actor : String}

/-- The entry has added a request or a decision that names the actor. -/
def StoresRow (actor : String) (e : Event ι) : Prop :=
  (∃ r q, e.before.request r = none ∧ e.after.request r = some q ∧ q.requestedBy = actor) ∨
    ∃ i d, e.before.decision i = none ∧ e.after.decision i = some d ∧ d.decidedBy = actor

/-- The entry has appended an audit event with the actor. -/
def StoresEvent (actor : Option String) (e : Event ι) : Prop :=
  ∃ event, e.after.audit.events = e.before.audit.events ++ [event] ∧ event.actor = actor

theorem storesRow_iff (hx : Exec rt faults e.before e.call.1 e.call.2 e.after) :
    StoresRow actor e ↔ rowActor e.call = some actor := by
  constructor
  · rintro (⟨r, q, hb, ha, rfl⟩ | ⟨i, d, hb, ha, rfl⟩)
    · cases request_step hx r with
      | same h =>
        have hsame : e.after.request r = e.before.request r := congrArg Prod.fst h
        rw [hsame, hb] at ha
        cases ha
      | insert q' _ hc _ hafter =>
        obtain rfl := Option.some.inj (ha.symm.trans (congrArg Prod.fst hafter))
        rw [hc]
        rfl
      | swap q' v st _ hbefore _ =>
        have hrow := hb.symm.trans (congrArg Prod.fst hbefore)
        cases hrow
    · cases decision_step hx i with
      | same h =>
        rw [h, hb] at ha
        cases ha
      | insert d' _ hc _ hafter =>
        obtain rfl := Option.some.inj (ha.symm.trans hafter)
        rw [hc]
        rfl
  · intro h
    rcases rowActor_eq_some h with ⟨q, hc, hactor⟩ | ⟨d, hc, hactor⟩
    · rw [hc] at hx
      obtain ⟨hb, ha, _⟩ := request_inserted hx
      exact Or.inl ⟨q.requestId, q, hb, ha, hactor⟩
    · rw [hc] at hx
      obtain ⟨hb, ha⟩ := decision_inserted hx
      exact Or.inr ⟨d.decisionId, d, hb, ha, hactor⟩

theorem storesEvent_iff {actor : Option String}
    (hx : Exec rt faults e.before e.call.1 e.call.2 e.after) :
    StoresEvent actor e ↔ eventActor e.call = some actor := by
  constructor
  · rintro ⟨event, ha, rfl⟩
    cases audit_step hx with
    | same h =>
      rw [h] at ha
      cases List.self_eq_append_right.mp ha
    | append event' hc hafter =>
      obtain rfl := List.singleton_injective (List.append_cancel_left (ha.symm.trans hafter))
      rw [hc]
      rfl
  · intro h
    obtain ⟨event, hc, hactor⟩ := eventActor_eq_some h
    rw [hc] at hx
    exact ⟨event, audit_appended hx, hactor⟩

end

end Piteka.Api
