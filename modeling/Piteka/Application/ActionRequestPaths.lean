import Piteka.Application.ActionRequest
import Piteka.Storage.Paths

/-!
# Where an action-request caller stands

Each point of approve, reject and revoke. They share the status check and the
swap; approve and reject go on with the decision, revoke with the audit event.
-/
namespace Piteka.Application

set_option autoImplicit false

open Piteka.Interleaving Piteka.Interleaving.Program Piteka.Storage Piteka.Domain

theorem swapStatus_next {verb : String} {required target : ActionRequestStatus} {r : String}
    {v : Int64} {h : Path} {op : PortCall}
    (hn : Next (swapStatus verb required target r v).run h op) :
    (h = [] ∧ op = .store (.requests (.get r))) ∨
      ∃ q, q.status = required ∧ h = [did (.requests (.get r)) (some q)] ∧
        op = .store (.requests (.compareAndSwap r v target)) := by
  rcases next_await.mp hn with h1 | ⟨x, h, rfl, h1⟩
  · exact Or.inl h1
  cases x with
  | none => exact absurd h1 next_throw
  | some q =>
    by_cases hq : q.status = required
    · simp only [hq, ne_eq, not_true_eq_false, if_false] at h1
      rcases next_await.mp h1 with ⟨rfl, rfl⟩ | ⟨o, h, rfl, h2⟩
      · exact Or.inr ⟨q, hq, rfl, rfl⟩
      cases o with
      | applied w => exact absurd h2 next_pure
      | conflict w => exact absurd h2 next_throw
      | missing => exact absurd h2 next_throw
    · simp only [ne_eq, hq, not_false_eq_true, if_true] at h1
      exact absurd h1 next_throw

/-- How a status swap returns: by a failing call, by the status that it read, or by the answer of
the swap. -/
inductive SwapStatusResult (verb : String) (required target : ActionRequestStatus) (r : String)
    (v : Int64) : Path → Except (Stopped ActionRequestUseCaseError) Int64 → Prop
  | readFailed (e : StorageError) :
      SwapStatusResult verb required target r v [⟨.store (.requests (.get r)), .error e⟩]
        (.error (.err (.storage e)))
  | notFound :
      SwapStatusResult verb required target r v [did (.requests (.get r)) none]
        (.error (.err (.notFound r)))
  | invalidTransition (q : ActionRequest) (hq : q.status ≠ required) :
      SwapStatusResult verb required target r v [did (.requests (.get r)) (some q)]
        (.error (.err (.invalidTransition q.status verb)))
  | swapFailed (q : ActionRequest) (hq : q.status = required) (e : StorageError) :
      SwapStatusResult verb required target r v
        [did (.requests (.get r)) (some q), ⟨.store (.requests (.compareAndSwap r v target)), .error e⟩]
        (.error (.err (.storage e)))
  | applied (q : ActionRequest) (hq : q.status = required) (w : Int64) :
      SwapStatusResult verb required target r v
        [did (.requests (.get r)) (some q), did (.requests (.compareAndSwap r v target)) (.applied w)]
        (.ok w)
  | conflict (q : ActionRequest) (hq : q.status = required) (w : Int64) :
      SwapStatusResult verb required target r v
        [did (.requests (.get r)) (some q), did (.requests (.compareAndSwap r v target)) (.conflict w)]
        (.error (.err (.conflict v w)))
  | missing (q : ActionRequest) (hq : q.status = required) :
      SwapStatusResult verb required target r v
        [did (.requests (.get r)) (some q), did (.requests (.compareAndSwap r v target)) .missing]
        (.error (.err (.notFound r)))

theorem swapStatus_returns {verb : String} {required target : ActionRequestStatus} {r : String}
    {v : Int64} {h : Path} {o : Except (Stopped ActionRequestUseCaseError) Int64}
    (hr : Returns (swapStatus verb required target r v).run h o) :
    SwapStatusResult verb required target r v h o := by
  rcases returns_await.mp hr with ⟨e, rfl, rfl⟩ | ⟨x, h, rfl, h1⟩
  · exact .readFailed e
  cases x with
  | none =>
    obtain ⟨rfl, rfl⟩ := returns_throw.mp h1
    exact .notFound
  | some q =>
    by_cases hq : q.status = required
    · simp only [hq, ne_eq, not_true_eq_false, if_false] at h1
      rcases returns_await.mp h1 with ⟨e, rfl, rfl⟩ | ⟨a, h, rfl, h2⟩
      · exact .swapFailed q hq e
      cases a with
      | applied w =>
        obtain ⟨rfl, rfl⟩ := returns_pure.mp h2
        exact .applied q hq w
      | conflict w =>
        obtain ⟨rfl, rfl⟩ := returns_throw.mp h2
        exact .conflict q hq w
      | missing =>
        obtain ⟨rfl, rfl⟩ := returns_throw.mp h2
        exact .missing q hq
    · simp only [ne_eq, hq, not_false_eq_true, if_true] at h1
      obtain ⟨rfl, rfl⟩ := returns_throw.mp h1
      exact .invalidTransition q hq

/-- A status swap that goes on has read the required status and has been applied. -/
theorem swapStatus_returns_ok {verb : String} {required target : ActionRequestStatus} {r : String}
    {v w : Int64} {h : Path} (hr : Returns (swapStatus verb required target r v).run h (.ok w)) :
    ∃ q, q.status = required ∧ h = [did (.requests (.get r)) (some q),
      did (.requests (.compareAndSwap r v target)) (.applied w)] := by
  cases swapStatus_returns hr with
  | applied q hq w => exact ⟨q, hq, rfl⟩

theorem refreshed_next {r : String} {h : Path} {op : PortCall}
    (hn : Next (refreshed r).run h op) : h = [] ∧ op = .store (.requests (.get r)) := by
  rcases next_await.mp hn with h1 | ⟨x, h, rfl, h1⟩
  · exact h1
  cases x with
  | none => exact absurd h1 next_throw
  | some q => exact absurd h1 next_pure

theorem refreshed_returns_ok {r : String} {h : Path} {q : ActionRequest}
    (hr : Returns (refreshed r).run h (.ok q)) : h = [did (.requests (.get r)) (some q)] := by
  rcases returns_await.mp hr with ⟨e, _, he⟩ | ⟨x, h, rfl, h1⟩
  · cases he
  cases x with
  | none =>
    obtain ⟨_, he⟩ := returns_throw.mp h1
    cases he
  | some q' =>
    obtain ⟨rfl, he⟩ := returns_pure.mp h1
    cases he
    rfl

/-- The path through the status swap, with its outcome. -/
def statusPath (r : String) (t : UInt64) (q : ActionRequest) (v : Int64)
    (target : ActionRequestStatus) (o : CasOutcome) : Path :=
  [ticked t, did (.requests (.get r)) (some q), did (.requests (.compareAndSwap r v target)) o]

/-- The points that approve, reject and revoke share. -/
inductive StatusPoint (r : String) (v : Int64) (required target : ActionRequestStatus) :
    Path → PortCall → Prop
  | clock : StatusPoint r v required target [] .clock
  | read (t : UInt64) : StatusPoint r v required target [ticked t] (.store (.requests (.get r)))
  | swap (t : UInt64) (q : ActionRequest) (hq : q.status = required) :
      StatusPoint r v required target [ticked t, did (.requests (.get r)) (some q)]
        (.store (.requests (.compareAndSwap r v target)))

inductive DecidePoint (a : DecideArgs) (target : ActionRequestStatus) (decision : String) :
    Path → PortCall → Prop
  | status {h : Path} {op : PortCall} (hp : StatusPoint a.requestId a.expectedVersion .pending target h op) :
      DecidePoint a target decision h op
  | insert (t : UInt64) (q : ActionRequest) (hq : q.status = .pending) (w : Int64) :
      DecidePoint a target decision
        (statusPath a.requestId t q a.expectedVersion target (.applied w))
        (.store (.decisions (.insert (a.decision t.toInt64 decision))))
  | audit (t : UInt64) (q : ActionRequest) (hq : q.status = .pending) (w : Int64)
      (event : AuditEvent) :
      DecidePoint a target decision
        (statusPath a.requestId t q a.expectedVersion target (.applied w) ++
          [did (.decisions (.insert (a.decision t.toInt64 decision))) ()])
        (.store (.audit (.append event)))
  | refresh (t : UInt64) (q : ActionRequest) (hq : q.status = .pending) (w : Int64)
      (event : AuditEvent) :
      DecidePoint a target decision
        (statusPath a.requestId t q a.expectedVersion target (.applied w) ++
          [did (.decisions (.insert (a.decision t.toInt64 decision))) (),
            did (.audit (.append event)) ()])
        (.store (.requests (.get a.requestId)))

/-- The path of an approval or a rejection that returns `Ok`. -/
def DecideArgs.decided (a : DecideArgs) (target : ActionRequestStatus) (decision : String)
    (t : UInt64) (q q' : ActionRequest) (w : Int64) (event : AuditEvent) : Path :=
  statusPath a.requestId t q a.expectedVersion target (.applied w) ++
    [did (.decisions (.insert (a.decision t.toInt64 decision))) (),
      did (.audit (.append event)) (), did (.requests (.get a.requestId)) (some q')]

inductive RevokePoint (a : RevokeArgs) : Path → PortCall → Prop
  | status {h : Path} {op : PortCall}
      (hp : StatusPoint a.requestId a.expectedVersion .approved .revoked h op) :
      RevokePoint a h op
  | audit (t : UInt64) (q : ActionRequest) (hq : q.status = .approved) (w : Int64)
      (event : AuditEvent) :
      RevokePoint a (statusPath a.requestId t q a.expectedVersion .revoked (.applied w))
        (.store (.audit (.append event)))
  | refresh (t : UInt64) (q : ActionRequest) (hq : q.status = .approved) (w : Int64)
      (event : AuditEvent) :
      RevokePoint a
        (statusPath a.requestId t q a.expectedVersion .revoked (.applied w) ++
          [did (.audit (.append event)) ()])
        (.store (.requests (.get a.requestId)))

theorem recordDecision_next {d : ApprovalDecision} {event : AuditEvent} {h : Path}
    {op : PortCall} (hn : Next (recordDecision d event).run h op) :
    (h = [] ∧ op = .store (.decisions (.insert d))) ∨
      (h = [did (.decisions (.insert d)) ()] ∧ op = .store (.audit (.append event))) ∨
      (h = [did (.decisions (.insert d)) (), did (.audit (.append event)) ()] ∧
        op = .store (.requests (.get d.requestId))) := by
  rcases next_await.mp hn with h1 | ⟨_, h, rfl, h1⟩
  · exact Or.inl h1
  rcases next_await.mp h1 with ⟨rfl, rfl⟩ | ⟨_, h, rfl, h2⟩
  · exact Or.inr (Or.inl ⟨rfl, rfl⟩)
  obtain ⟨rfl, rfl⟩ := refreshed_next h2
  exact Or.inr (Or.inr ⟨rfl, rfl⟩)

theorem recordDecision_returns_ok {d : ApprovalDecision} {event : AuditEvent} {h : Path}
    {q : ActionRequest} (hr : Returns (recordDecision d event).run h (.ok q)) :
    h = [did (.decisions (.insert d)) (), did (.audit (.append event)) (),
      did (.requests (.get d.requestId)) (some q)] := by
  rcases returns_await.mp hr with ⟨e, _, he⟩ | ⟨_, h, rfl, h1⟩
  · cases he
  rcases returns_await.mp h1 with ⟨e, _, he⟩ | ⟨_, h, rfl, h2⟩
  · cases he
  rw [refreshed_returns_ok h2]

/-- The part of approve and reject after the clock, one lemma for both. -/
private theorem decide_next {β : Type} {a : DecideArgs} {verb decision : String}
    {target : ActionRequestStatus} (event : Int64 → AuditEvent)
    {f : ActionRequest → ActionRequestUseCase β} {t : UInt64} {h : Path} {op : PortCall}
    (hf : ∀ q h op, ¬ Next (f q).run h op)
    (hn : Next (swapStatus verb .pending target a.requestId a.expectedVersion >>= fun w =>
      recordDecision (a.decision t.toInt64 decision) (event w) >>= f).run h op) :
    DecidePoint a target decision (ticked t :: h) op := by
  rcases next_seq hn with h1 | ⟨h₁, h₂, w, rfl, h1, h2⟩
  · rcases swapStatus_next h1 with ⟨rfl, rfl⟩ | ⟨q, hq, rfl, rfl⟩
    · exact .status (.read t)
    · exact .status (.swap t q hq)
  obtain ⟨q, hq, rfl⟩ := swapStatus_returns_ok h1
  rcases next_seq h2 with h3 | ⟨_, _, _, rfl, _, h3⟩
  · rcases recordDecision_next h3 with ⟨rfl, rfl⟩ | ⟨rfl, rfl⟩ | ⟨rfl, rfl⟩
    · exact .insert t q hq w
    · exact .audit t q hq w (event w)
    · exact .refresh t q hq w (event w)
  · exact absurd h3 (hf _ _ _)

private theorem decide_returns_ok {β : Type} {a : DecideArgs} {verb decision : String}
    {target : ActionRequestStatus} (event : Int64 → AuditEvent)
    {f : ActionRequest → β} {t : UInt64} {h : Path} {x : β}
    (hr : Returns (swapStatus verb .pending target a.requestId a.expectedVersion >>= fun w =>
      recordDecision (a.decision t.toInt64 decision) (event w) >>= fun q =>
        (pure (f q) : ActionRequestUseCase β)).run h (.ok x)) :
    ∃ q q' w, q.status = .pending ∧ x = f q' ∧
      ticked t :: h = a.decided target decision t q q' w (event w) := by
  rcases returns_seq hr with ⟨e, _, he⟩ | ⟨h₁, h₂, w, rfl, h1, h2⟩
  · cases he
  obtain ⟨q, hq, rfl⟩ := swapStatus_returns_ok h1
  rcases returns_seq h2 with ⟨e, _, he⟩ | ⟨h₃, h₄, q', rfl, h3, h4⟩
  · cases he
  obtain ⟨rfl, he⟩ := returns_pure.mp h4
  rw [recordDecision_returns_ok h3]
  cases he
  exact ⟨q, q', w, hq, rfl, rfl⟩

theorem approve_next {rt : Runtime} {a : DecideArgs} {h : Path} {op : PortCall}
    (hn : Next (approve rt a).run h op) : DecidePoint a .approved "approved" h op := by
  rcases next_nowSeconds.mp hn with ⟨rfl, rfl⟩ | ⟨t, h, rfl, h1⟩
  · exact .status .clock
  · exact decide_next _ (fun _ _ _ => next_pure) h1

theorem reject_next {a : DecideArgs} {h : Path} {op : PortCall}
    (hn : Next (reject a).run h op) : DecidePoint a .rejected "rejected" h op := by
  rcases next_nowSeconds.mp hn with ⟨rfl, rfl⟩ | ⟨t, h, rfl, h1⟩
  · exact .status .clock
  · exact decide_next (fun _ => _) (fun _ _ _ => next_pure) h1

theorem approve_returns_ok {rt : Runtime} {a : DecideArgs} {h : Path} {x : Approved}
    (hr : Returns (approve rt a).run h (.ok x)) :
    ∃ t q q' w event, q.status = .pending ∧ event.actor = some a.approverId.asStr ∧
      x = ⟨q', a.decision t.toInt64 "approved"⟩ ∧ h = a.decided .approved "approved" t q q' w event := by
  obtain ⟨t, h, rfl, h1⟩ := returns_nowSeconds.mp hr
  obtain ⟨q, q', w, hq, hx, hh⟩ := decide_returns_ok _ h1
  exact ⟨t, q, q', w, _, hq, rfl, hx, hh⟩

theorem reject_returns_ok {a : DecideArgs} {h : Path} {x : Rejected}
    (hr : Returns (reject a).run h (.ok x)) :
    ∃ t q q' w event, q.status = .pending ∧ event.actor = some a.approverId.asStr ∧
      x = ⟨q', a.decision t.toInt64 "rejected"⟩ ∧ h = a.decided .rejected "rejected" t q q' w event := by
  obtain ⟨t, h, rfl, h1⟩ := returns_nowSeconds.mp hr
  obtain ⟨q, q', w, hq, hx, hh⟩ := decide_returns_ok
    (fun _ => auditEvent t.toInt64 a.approverId "reject_action" "denied" _) h1
  exact ⟨t, q, q', w, _, hq, rfl, hx, hh⟩

theorem revoke_next {a : RevokeArgs} {h : Path} {op : PortCall}
    (hn : Next (revoke a).run h op) : RevokePoint a h op := by
  rcases next_nowSeconds.mp hn with ⟨rfl, rfl⟩ | ⟨t, h, rfl, h1⟩
  · exact .status .clock
  rcases next_seq h1 with h2 | ⟨h₁, h₂, w, rfl, h2, h3⟩
  · rcases swapStatus_next h2 with ⟨rfl, rfl⟩ | ⟨q, hq, rfl, rfl⟩
    · exact .status (.read t)
    · exact .status (.swap t q hq)
  obtain ⟨q, hq, rfl⟩ := swapStatus_returns_ok h2
  rcases next_await.mp h3 with ⟨rfl, rfl⟩ | ⟨_, h, rfl, h4⟩
  · exact .audit t q hq w _
  rcases next_seq h4 with h5 | ⟨_, _, _, rfl, _, h5⟩
  · obtain ⟨rfl, rfl⟩ := refreshed_next h5
    exact .refresh t q hq w _
  · exact absurd h5 next_pure

theorem revoke_returns_ok {a : RevokeArgs} {h : Path} {x : Revoked}
    (hr : Returns (revoke a).run h (.ok x)) :
    ∃ t q q' w event, q.status = .approved ∧ event.actor = some a.approverId.asStr ∧ x = ⟨q'⟩ ∧
      h = statusPath a.requestId t q a.expectedVersion .revoked (.applied w) ++
        [did (.audit (.append event)) (), did (.requests (.get a.requestId)) (some q')] := by
  obtain ⟨t, h, rfl, h1⟩ := returns_nowSeconds.mp hr
  rcases returns_seq h1 with ⟨e, _, he⟩ | ⟨h₁, h₂, w, rfl, h2, h3⟩
  · cases he
  obtain ⟨q, hq, rfl⟩ := swapStatus_returns_ok h2
  rcases returns_await.mp h3 with ⟨e, _, he⟩ | ⟨_, h, rfl, h4⟩
  · cases he
  rcases returns_seq h4 with ⟨e, _, he⟩ | ⟨h₃, h₄, q', rfl, h5, h6⟩
  · cases he
  obtain ⟨rfl, he⟩ := returns_pure.mp h6
  rw [refreshed_returns_ok h5]
  cases he
  exact ⟨t, q, q', w, _, hq, rfl, rfl, rfl⟩

end Piteka.Application
