import Piteka.Application.ActionRequestPaths
import Piteka.Application.DispatchPaths
import Piteka.Application.ReconciliationPaths
import Piteka.Application.System

/-!
# Which caller makes which call

The points of all callers together, and for each kind of write the callers that
can make it with the calls they have made before. The invariants of runs use
only these facts about the programs.
-/
namespace Piteka.Application

set_option autoImplicit false

open Piteka.Interleaving Piteka.Interleaving.Program Piteka.Storage

inductive ProposePoint (a : ProposeArgs) : Path → PortCall → Prop
  | clock : ProposePoint a [] .clock
  | insert (t : UInt64) :
      ProposePoint a [ticked t] (.store (.requests (.insert (a.request t.toInt64))))
  | audit (t : UInt64) (event : AuditEvent) :
      ProposePoint a [ticked t, did (.requests (.insert (a.request t.toInt64))) ()]
        (.store (.audit (.append event)))

theorem propose_next {rt : Runtime} {a : ProposeArgs} {h : Path} {op : PortCall}
    (hn : Next (propose rt a).run h op) : ProposePoint a h op := by
  rcases next_nowSeconds.mp hn with ⟨rfl, rfl⟩ | ⟨t, h, rfl, h1⟩
  · exact .clock
  rcases next_await.mp h1 with ⟨rfl, rfl⟩ | ⟨_, h, rfl, h2⟩
  · exact .insert t
  rcases next_await.mp h2 with ⟨rfl, rfl⟩ | ⟨_, h, rfl, h3⟩
  · exact .audit t _
  · exact absurd h3 next_pure

/-- The arguments with which a call reserves a mandate. -/
def Call.reserving : Call → Option ReserveArgs
  | .reserve a => some a
  | .reserveAndDispatch a => some a
  | _ => none

/-- What a deciding call decides: its arguments, the status it sets and the decision's text. -/
def Call.deciding : Call → Option (DecideArgs × ActionRequestStatus × String)
  | .approve a => some (a, .approved, "approved")
  | .reject a => some (a, .rejected, "rejected")
  | _ => none

/-- The calls before a completion, and the arguments of the completion. -/
inductive Call.Completes (rt : Runtime) : Call → Path → CompleteArgs → Prop
  | alone (x : CompleteArgs) : Completes rt (.completeDispatch x) [] x
  | dispatched (a : ReserveArgs) (t : UInt64) (q : ActionRequest) (hq : q.status = .approved)
      (v : Int64) (d : Option UInt64) :
      Completes rt (.reserveAndDispatch a) (a.invoked rt t q v d) (a.completion d)

/-- Where a caller stands. Reservation and completion are the same parts wherever they occur. -/
inductive Call.Point (rt : Runtime) : Call → Path → PortCall → Prop
  | propose {a : ProposeArgs} {h : Path} {op : PortCall} (hp : ProposePoint a h op) :
      Point rt (.propose a) h op
  | decide {c : Call} {a : DecideArgs} {target : ActionRequestStatus} {decision : String}
      {h : Path} {op : PortCall} (hc : c.deciding = some (a, target, decision))
      (hp : DecidePoint a target decision h op) : Point rt c h op
  | revoke {a : RevokeArgs} {h : Path} {op : PortCall} (hp : RevokePoint a h op) :
      Point rt (.revoke a) h op
  | reserve {c : Call} {a : ReserveArgs} {h : Path} {op : PortCall} (hc : c.reserving = some a)
      (hp : ReservePoint a h op) : Point rt c h op
  | dispatch (a : ReserveArgs) (t : UInt64) (q : ActionRequest) (hq : q.status = .approved)
      (v : Int64) : Point rt (.reserveAndDispatch a) (a.granted t q v) (a.dispatchCall rt)
  | complete {c : Call} {x : CompleteArgs} {h₁ h : Path} {op : PortCall}
      (hc : c.Completes rt h₁ x) (hp : CompletePoint x h op) : Point rt c (h₁ ++ h) op
  | reconcile {a : ReconcileArgs} {h : Path} {op : PortCall} (hp : ReconcilePoint a h op) :
      Point rt (.reconcile a) h op
  | abandon {a : AbandonArgs} {h : Path} {op : PortCall} (hp : AbandonPoint a h op) :
      Point rt (.abandonUnresolved a) h op

theorem Call.next {rt : Runtime} {c : Call} {h : Path} {op : PortCall}
    (hn : Next (c.program rt) h op) : c.Point rt h op := by
  cases c with
  | propose a => exact .propose (propose_next hn)
  | approve a => exact .decide rfl (approve_next hn)
  | reject a => exact .decide rfl (reject_next hn)
  | revoke a => exact .revoke (revoke_next hn)
  | reserve a => exact .reserve rfl (reserve_next hn)
  | completeDispatch x => exact .complete (.alone x) (completeDispatch_next hn)
  | reserveAndDispatch a =>
    cases reserveAndDispatch_next hn with
    | reserve hp => exact .reserve rfl hp
    | dispatch t q hq v => exact .dispatch a t q hq v
    | complete t q hq v d hp => exact .complete (.dispatched a t q hq v d) hp
  | reconcile a => exact .reconcile (reconcile_next hn)
  | abandonUnresolved a => exact .abandon (abandonUnresolved_next hn)

variable {rt : Runtime} {c : Call} {h : Path}

/-! ## Mandate projections -/

/-- No use case creates a mandate projection. -/
theorem no_mandate_insert {m st : String} :
    ¬ Next (c.program rt) h (.store (.mandates (.insert m st))) := by
  intro hn
  cases Call.next hn with
  | propose hp => cases hp
  | decide hc hp =>
    cases hp with
    | status hp => cases hp
  | revoke hp =>
    cases hp with
    | status hp => cases hp
  | reserve hc hp => cases hp
  | complete hc hp => cases hp
  | reconcile hp => cases hp
  | abandon hp => cases hp

/-- The swaps of a mandate projection: who makes them, after which calls. -/
inductive MandateSwap (rt : Runtime) : Call → Path → String → Int64 → String → Prop
  | reserve {c : Call} {a : ReserveArgs} (hc : c.reserving = some a) (t : UInt64)
      (q : ActionRequest) (hq : q.status = .approved) :
      MandateSwap rt c [ticked t, did (.requests (.get a.requestId)) (some q)]
        a.mandateIdHex a.expectedMandateVersion "reserved"
  | consume {c : Call} {x : CompleteArgs} {h₁ : Path} (hc : c.Completes rt h₁ x) (t d : UInt64)
      (hd : x.acceptedDeployment = some d) :
      MandateSwap rt c
        (h₁ ++ [ticked t, did (.attempts (.updateState x.attemptIdHex .accepted)) (),
          did (.attempts (.updateDeploymentId x.attemptIdHex d)) ()])
        x.mandateIdHex x.expectedMandateVersion "consumed"
  | quarantine {c : Call} {x : CompleteArgs} {h₁ : Path} (hc : c.Completes rt h₁ x) (t : UInt64)
      (hd : x.acceptedDeployment = none) :
      MandateSwap rt c
        (h₁ ++ [ticked t, did (.attempts (.updateState x.attemptIdHex .outcomeAmbiguous)) ()])
        x.mandateIdHex x.expectedMandateVersion "quarantined"
  | reconcile (a : ReconcileArgs) (t : UInt64) (p : MandateProjection)
      (rows : List ExecutionAttempt) (x : ExecutionAttempt) (hc : Chosen p rows x) (d : UInt64) :
      MandateSwap rt (.reconcile a) (a.found t p rows x d) a.mandateIdHex a.expectedMandateVersion
        "consumed"
  | abandon (a : AbandonArgs) (t : UInt64) (p : MandateProjection) (rows : List ExecutionAttempt)
      (x : ExecutionAttempt) (hc : Chosen p rows x) :
      MandateSwap rt (.abandonUnresolved a) (chosenPath a.mandateIdHex t p rows) a.mandateIdHex
        a.expectedMandateVersion "abandoned"

theorem mandate_swap_next {m st : String} {v : Int64}
    (hn : Next (c.program rt) h (.store (.mandates (.compareAndSwap m v st)))) :
    MandateSwap rt c h m v st := by
  cases Call.next hn with
  | propose hp => cases hp
  | decide hc hp =>
    cases hp with
    | status hp => cases hp
  | revoke hp =>
    cases hp with
    | status hp => cases hp
  | reserve hc hp =>
    cases hp with
    | swap t q hq => exact .reserve hc t q hq
  | complete hc hp =>
    cases hp with
    | consume t d hd => exact .consume hc t d hd
    | quarantine t hd => exact .quarantine hc t hd
  | reconcile hp =>
    cases hp with
    | swap t p rows x hc d => exact .reconcile _ t p rows x hc d
  | abandon hp =>
    cases hp with
    | swap t p rows x hc => exact .abandon _ t p rows x hc

/-! ## Provider calls and attempts -/

theorem dispatchFn_next {key : String} {digest : Vector UInt8 32}
    (hn : Next (c.program rt) h (.dispatchFn key digest)) :
    ∃ a t q v, c = .reserveAndDispatch a ∧ q.status = .approved ∧ h = a.granted t q v ∧
      PortCall.dispatchFn key digest = a.dispatchCall rt := by
  generalize hop : PortCall.dispatchFn key digest = op at hn
  cases Call.next hn with
  | dispatch a t q hq v => exact ⟨a, t, q, v, rfl, hq, rfl, rfl⟩
  | propose hp => cases hp <;> cases hop
  | decide hc hp =>
    cases hp with
    | status hp => cases hp <;> cases hop
    | _ => cases hop
  | revoke hp =>
    cases hp with
    | status hp => cases hp <;> cases hop
    | _ => cases hop
  | reserve hc hp => cases hp <;> cases hop
  | complete hc hp => cases hp <;> cases hop
  | reconcile hp => cases hp <;> cases hop
  | abandon hp => cases hp <;> cases hop

theorem attempt_insert_next {x : ExecutionAttempt}
    (hn : Next (c.program rt) h (.store (.attempts (.insert x)))) :
    ∃ a t q v, c.reserving = some a ∧ q.status = .approved ∧
      h = a.swapped t q (.applied v) ∧ x = a.attempt t.toInt64 := by
  cases Call.next hn with
  | propose hp => cases hp
  | decide hc hp =>
    cases hp with
    | status hp => cases hp
  | revoke hp =>
    cases hp with
    | status hp => cases hp
  | reserve hc hp =>
    cases hp with
    | insert t q hq v => exact ⟨_, t, q, v, hc, hq, rfl, rfl⟩
  | complete hc hp => cases hp
  | reconcile hp => cases hp
  | abandon hp => cases hp

/-- The writes to an attempt's state: who makes them, after which calls. -/
inductive AttemptMark (rt : Runtime) : Call → Path → String → ExecutionAttemptState → Prop
  | dispatching {c : Call} {a : ReserveArgs} (hc : c.reserving = some a) (t : UInt64)
      (q : ActionRequest) (hq : q.status = .approved) (v : Int64) :
      AttemptMark rt c
        (a.swapped t q (.applied v) ++ [did (.attempts (.insert (a.attempt t.toInt64))) ()])
        (attemptIdOf a.mandateIdHex) .dispatching
  | accepted {c : Call} {x : CompleteArgs} {h₁ : Path} (hc : c.Completes rt h₁ x) (t d : UInt64)
      (hd : x.acceptedDeployment = some d) :
      AttemptMark rt c (h₁ ++ [ticked t]) x.attemptIdHex .accepted
  | ambiguous {c : Call} {x : CompleteArgs} {h₁ : Path} (hc : c.Completes rt h₁ x) (t : UInt64)
      (hd : x.acceptedDeployment = none) :
      AttemptMark rt c (h₁ ++ [ticked t]) x.attemptIdHex .outcomeAmbiguous
  | reconciled (a : ReconcileArgs) (t : UInt64) (p : MandateProjection)
      (rows : List ExecutionAttempt) (x : ExecutionAttempt) (hc : Chosen p rows x) (d : UInt64)
      (v : Int64) :
      AttemptMark rt (.reconcile a) (a.swapped t p rows x d (.applied v) ++ persisted x d)
        x.attemptIdHex .reconciledAccepted
  | abandoned (a : AbandonArgs) (t : UInt64) (p : MandateProjection)
      (rows : List ExecutionAttempt) (x : ExecutionAttempt) (hc : Chosen p rows x) (v : Int64) :
      AttemptMark rt (.abandonUnresolved a) (a.swapped t p rows (.applied v)) x.attemptIdHex
        .abandonedAmbiguous

theorem attempt_mark_next {i : String} {st : ExecutionAttemptState}
    (hn : Next (c.program rt) h (.store (.attempts (.updateState i st)))) :
    AttemptMark rt c h i st := by
  cases Call.next hn with
  | propose hp => cases hp
  | decide hc hp =>
    cases hp with
    | status hp => cases hp
  | revoke hp =>
    cases hp with
    | status hp => cases hp
  | reserve hc hp =>
    cases hp with
    | dispatching t q hq v => exact .dispatching hc t q hq v
  | complete hc hp =>
    cases hp with
    | accepted t d hd => exact .accepted hc t d hd
    | ambiguous t hd => exact .ambiguous hc t hd
  | reconcile hp =>
    cases hp with
    | accept t p rows x hc d v => exact .reconciled _ t p rows x hc d v
  | abandon hp =>
    cases hp with
    | abandon t p rows x hc v => exact .abandoned _ t p rows x hc v

/-- The writes of a deployment id. -/
inductive DeploymentMark (rt : Runtime) : Call → Path → String → UInt64 → Prop
  | accepted {c : Call} {x : CompleteArgs} {h₁ : Path} (hc : c.Completes rt h₁ x) (t d : UInt64)
      (hd : x.acceptedDeployment = some d) :
      DeploymentMark rt c
        (h₁ ++ [ticked t, did (.attempts (.updateState x.attemptIdHex .accepted)) ()])
        x.attemptIdHex d
  | reconciled (a : ReconcileArgs) (t : UInt64) (p : MandateProjection)
      (rows : List ExecutionAttempt) (x : ExecutionAttempt) (hc : Chosen p rows x) (d : UInt64)
      (v : Int64) :
      DeploymentMark rt (.reconcile a) (a.swapped t p rows x d (.applied v)) x.attemptIdHex d

theorem deployment_mark_next {i : String} {d : UInt64}
    (hn : Next (c.program rt) h (.store (.attempts (.updateDeploymentId i d)))) :
    DeploymentMark rt c h i d := by
  cases Call.next hn with
  | propose hp => cases hp
  | decide hc hp =>
    cases hp with
    | status hp => cases hp
  | revoke hp =>
    cases hp with
    | status hp => cases hp
  | reserve hc hp => cases hp
  | complete hc hp =>
    cases hp with
    | deployment t d hd => exact .accepted hc t d hd
  | reconcile hp =>
    cases hp with
    | persist t p rows x hc d v => exact .reconciled _ t p rows x hc d v
  | abandon hp => cases hp

/-! ## Requests, decisions and receipts -/

/-- What a call swaps a request's status from and to. -/
def Call.swapping : Call → Option (String × Int64 × ActionRequestStatus × ActionRequestStatus)
  | .approve a => some (a.requestId, a.expectedVersion, .pending, .approved)
  | .reject a => some (a.requestId, a.expectedVersion, .pending, .rejected)
  | .revoke a => some (a.requestId, a.expectedVersion, .approved, .revoked)
  | _ => none

theorem Call.swapping_of_deciding {a : DecideArgs} {target : ActionRequestStatus}
    {decision : String} (hc : c.deciding = some (a, target, decision)) :
    c.swapping = some (a.requestId, a.expectedVersion, .pending, target) := by
  cases c <;> simp_all [deciding, swapping]

theorem request_swap_next {r : String} {v : Int64} {target : ActionRequestStatus}
    (hn : Next (c.program rt) h (.store (.requests (.compareAndSwap r v target)))) :
    ∃ required t q, c.swapping = some (r, v, required, target) ∧ q.status = required ∧
      h = [ticked t, did (.requests (.get r)) (some q)] := by
  cases Call.next hn with
  | propose hp => cases hp
  | decide hc hp =>
    cases hp with
    | status hp =>
      cases hp with
      | swap t q hq => exact ⟨_, t, q, Call.swapping_of_deciding hc, hq, rfl⟩
  | revoke hp =>
    cases hp with
    | status hp =>
      cases hp with
      | swap t q hq => exact ⟨_, t, q, rfl, hq, rfl⟩
  | reserve hc hp => cases hp
  | complete hc hp => cases hp
  | reconcile hp => cases hp
  | abandon hp => cases hp

theorem decision_insert_next {x : ApprovalDecision}
    (hn : Next (c.program rt) h (.store (.decisions (.insert x)))) :
    ∃ a target decision t q w, c.deciding = some (a, target, decision) ∧ q.status = .pending ∧
      h = statusPath a.requestId t q a.expectedVersion target (.applied w) ∧
      x = a.decision t.toInt64 decision := by
  cases Call.next hn with
  | propose hp => cases hp
  | decide hc hp =>
    cases hp with
    | status hp => cases hp
    | insert t q hq w => exact ⟨_, _, _, t, q, w, hc, hq, rfl, rfl⟩
  | revoke hp =>
    cases hp with
    | status hp => cases hp
  | reserve hc hp => cases hp
  | complete hc hp => cases hp
  | reconcile hp => cases hp
  | abandon hp => cases hp

theorem receipt_insert_next {x : ReceiptProjection}
    (hn : Next (c.program rt) h (.store (.receipts (.insert x)))) :
    ∃ a t p rows y v, c = .abandonUnresolved a ∧ Chosen p rows y ∧
      x = a.receipt t.toInt64 y ∧ h = a.swapped t p rows (.applied v) ++
        [did (.attempts (.updateState y.attemptIdHex .abandonedAmbiguous)) ()] := by
  cases Call.next hn with
  | propose hp => cases hp
  | decide hc hp =>
    cases hp with
    | status hp => cases hp
  | revoke hp =>
    cases hp with
    | status hp => cases hp
  | reserve hc hp => cases hp
  | complete hc hp => cases hp
  | reconcile hp => cases hp
  | abandon hp =>
    cases hp with
    | receipt t p rows y hc v => exact ⟨_, t, p, rows, y, v, rfl, hc, rfl, rfl⟩

end Piteka.Application
