import Piteka.Application.ActionRequest
import Piteka.Application.Dispatch
import Piteka.Application.Reconciliation
import Piteka.Interleaving.Trace

/-!
# The system of callers

Any number of callers, each in one use-case call, over the same stores. The
callers step in any order, one port call at a time.
-/
namespace Piteka.Application

set_option autoImplicit false

open Piteka.Interleaving Piteka.Storage

inductive Call where
  | propose (a : ProposeArgs)
  | approve (a : DecideArgs)
  | reject (a : DecideArgs)
  | revoke (a : RevokeArgs)
  | reserve (a : ReserveArgs)
  | completeDispatch (c : CompleteArgs)
  | reserveAndDispatch (a : ReserveArgs)
  | reconcile (a : ReconcileArgs)
  | abandonUnresolved (a : AbandonArgs)
  deriving DecidableEq

namespace Call

@[reducible] def Error : Call → Type
  | propose _ | approve _ | reject _ | revoke _ => Stopped ActionRequestUseCaseError
  | reserve _ | completeDispatch _ | reserveAndDispatch _ => DispatchError
  | reconcile _ | abandonUnresolved _ => ReconciliationError

@[reducible] def Value : Call → Type
  | propose _ => Proposed
  | approve _ => Approved
  | reject _ => Rejected
  | revoke _ => Revoked
  | reserve _ | reserveAndDispatch _ => DispatchOutcome
  | completeDispatch _ => Unit
  | reconcile _ | abandonUnresolved _ => ReconciliationOutcome

@[reducible] def Res (c : Call) : Type := Except c.Error c.Value

def useCase (rt : Runtime) : (c : Call) → UseCase c.Error c.Value
  | propose a => Application.propose rt a
  | approve a => Application.approve rt a
  | reject a => Application.reject a
  | revoke a => Application.revoke a
  | reserve a => Application.reserve a
  | completeDispatch c => Application.completeDispatch c
  | reserveAndDispatch a => Application.reserveAndDispatch rt a
  | reconcile a => Application.reconcile a
  | abandonUnresolved a => Application.abandonUnresolved a

def program (rt : Runtime) (c : Call) : Program PortCall Answer c.Res := (c.useCase rt).run

end Call

variable {ι : Type}

abbrev Event (ι : Type) := Entry ι Answer Stores

/-- The callers at their start. -/
def pool (rt : Runtime) (calls : ι → Call) (i : ι) : Program PortCall Answer (calls i).Res :=
  (calls i).program rt

/-- A run of the callers `calls` from the stores `s₀`. -/
abbrev SystemRun [DecidableEq ι] (rt : Runtime) (faults : StoreCall → Prop) (calls : ι → Call)
    (s₀ : Stores) (log : List (Event ι)) (s : Stores)
    (p : (i : ι) → Program PortCall Answer (calls i).Res) : Prop :=
  Run (Exec rt faults) s₀ (pool rt calls) log s p

end Piteka.Application
