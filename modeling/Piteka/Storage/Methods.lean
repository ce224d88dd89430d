import Piteka.Storage.Memory

/-!
# What the store methods do

One inversion for each method that writes: the answers it can give, when it gives
them, and the rows after it. Nothing above this file looks into a method.
-/
namespace Piteka.Storage

set_option autoImplicit false

open Piteka.Table

namespace InMemoryMandateProjectionStore

theorem insert_cases (s : InMemoryMandateProjectionStore) (m st : String) :
    (∃ e, s.insert m st = (.error e, s)) ∨
    ∃ t, s.insert m st = (.ok (), t) ∧ s.projections.get m = none ∧
      ∀ k, t.projections.get k = if k = m then some ⟨m, 1, st⟩ else s.projections.get k := by
  unfold insert
  split
  · exact Or.inl ⟨_, rfl⟩
  · cases hget : s.projections.get m with
    | some p => exact Or.inl ⟨_, rfl⟩
    | none => exact Or.inr ⟨_, rfl, rfl, fun k => Keyed.get_insert _ _ k⟩

/-- The swap has three answers; only `applied` writes, and only that row. -/
theorem swap_cases (s : InMemoryMandateProjectionStore) (m : String) (v : Int64) (st : String) :
    (s.projections.get m = none ∧ s.compareAndSwap m v st = (.ok .missing, s)) ∨
    (∃ p, s.projections.get m = some p ∧ p.version ≠ v ∧
      s.compareAndSwap m v st = (.ok (.conflict p.version), s)) ∨
    ∃ p t, s.projections.get m = some p ∧ p.version = v ∧
      s.compareAndSwap m v st = (.ok (.applied (p.version + 1)), t) ∧
      ∀ k, t.projections.get k = if k = m then
        some { p with version := p.version + 1, state := st } else s.projections.get k := by
  unfold compareAndSwap
  cases hget : s.projections.get m with
  | none => exact Or.inl ⟨rfl, rfl⟩
  | some p =>
    by_cases hv : p.version = v
    · refine Or.inr (Or.inr ⟨p, _, rfl, hv, if_neg (not_not.mpr hv), fun k => ?_⟩)
      rw [Keyed.get_modify, hget, Option.map_some]
    · exact Or.inr (Or.inl ⟨p, rfl, hv, if_pos hv⟩)

end InMemoryMandateProjectionStore

namespace InMemoryActionRequestStore

theorem insert_cases (s : InMemoryActionRequestStore) (q : ActionRequest) :
    (∃ e, s.insert q = (.error e, s)) ∨
    ∃ t, s.insert q = (.ok (), t) ∧ s.requests.get q.requestId = none ∧
      (∀ k, t.requests.get k = if k = q.requestId then some q else s.requests.get k) ∧
      ∀ k, t.currentVersion k = s.currentVersion k := by
  unfold insert
  split
  · exact Or.inl ⟨_, rfl⟩
  · cases hget : s.requests.get q.requestId with
    | some p => exact Or.inl ⟨_, rfl⟩
    | none => exact Or.inr ⟨_, rfl, rfl, fun k => Keyed.get_insert _ _ k, fun _ => rfl⟩

theorem swap_cases (s : InMemoryActionRequestStore) (r : String) (v : Int64)
    (st : ActionRequestStatus) :
    (s.requests.get r = none ∧ s.compareAndSwap r v st = (.ok .missing, s)) ∨
    (∃ q, s.requests.get r = some q ∧ s.currentVersion r ≠ v ∧
      s.compareAndSwap r v st = (.ok (.conflict (s.currentVersion r)), s)) ∨
    ∃ q t, s.requests.get r = some q ∧ s.currentVersion r = v ∧
      s.compareAndSwap r v st = (.ok (.applied (v + 1)), t) ∧
      (∀ k, t.requests.get k = if k = r then some { q with status := st }
        else s.requests.get k) ∧
      ∀ k, t.currentVersion k = if k = r then v + 1 else s.currentVersion k := by
  unfold compareAndSwap
  cases hget : s.requests.get r with
  | none => exact Or.inl ⟨rfl, rfl⟩
  | some q =>
    by_cases hv : s.currentVersion r = v
    · subst hv
      refine Or.inr (Or.inr ⟨q, _, rfl, rfl, if_neg (not_not.mpr rfl), fun k => ?_, fun k => ?_⟩)
      · rw [Keyed.get_modify, hget, Option.map_some]
      · by_cases hk : k = r
        · rw [if_pos hk, hk, currentVersion, AList.lookup_insert, Option.getD_some]
        · rw [if_neg hk, currentVersion, AList.lookup_insert_ne hk]
          rfl
    · exact Or.inr (Or.inl ⟨q, rfl, hv, if_pos hv⟩)

end InMemoryActionRequestStore

/-- The indexed stores insert under a fresh key, or refuse and change nothing. -/
theorem insertIndexed_cases {V : Type} {key group : V → String} (field what : String)
    (t : Indexed String String V key group) (v : V) :
    (∃ e, insertIndexed field what t v = (.error e, t)) ∨
    ∃ t', insertIndexed field what t v = (.ok (), t') ∧ t.get (key v) = none ∧
      ∀ k, t'.get k = if k = key v then some v else t.get k := by
  unfold insertIndexed
  split
  · exact Or.inl ⟨_, rfl⟩
  · split
    · next fresh => exact Or.inr ⟨_, rfl, fresh, fun k => Indexed.get_insertNew t v fresh k⟩
    · exact Or.inl ⟨_, rfl⟩

/-- A key that is not blank and not taken is accepted. -/
theorem insertIndexed_fresh {V : Type} {key group : V → String} (field what : String)
    {t : Indexed String String V key group} {v : V} (hne : key v ≠ "")
    (fresh : t.get (key v) = none) :
    ∃ t', insertIndexed field what t v = (.ok (), t') := by
  refine ⟨t.insertNew v fresh, ?_⟩
  rw [insertIndexed, if_neg hne, dif_pos fresh]

namespace InMemoryExecutionAttemptStore

theorem updateState_cases (s : InMemoryExecutionAttemptStore) (i : String)
    (st : ExecutionAttemptState) :
    (s.attempts.get i = none ∧ s.updateState i st = (.error (notFound i), s)) ∨
    ∃ a t, s.attempts.get i = some a ∧ s.updateState i st = (.ok (), t) ∧
      ∀ k, t.attempts.get k = if k = i then some { a with state := st } else s.attempts.get k := by
  unfold updateState
  cases hget : s.attempts.get i with
  | none => exact Or.inl ⟨rfl, rfl⟩
  | some a =>
    refine Or.inr ⟨a, _, rfl, rfl, fun k => ?_⟩
    rw [Indexed.get_modify, hget, Option.map_some]

theorem updateDeploymentId_cases (s : InMemoryExecutionAttemptStore) (i : String) (d : UInt64) :
    (s.attempts.get i = none ∧ s.updateDeploymentId i d = (.error (notFound i), s)) ∨
    ∃ a t, s.attempts.get i = some a ∧ s.updateDeploymentId i d = (.ok (), t) ∧
      ∀ k, t.attempts.get k =
        if k = i then some { a with githubDeploymentId := some d } else s.attempts.get k := by
  unfold updateDeploymentId
  cases hget : s.attempts.get i with
  | none => exact Or.inl ⟨rfl, rfl⟩
  | some a =>
    refine Or.inr ⟨a, _, rfl, rfl, fun k => ?_⟩
    rw [Indexed.get_modify, hget, Option.map_some]

end InMemoryExecutionAttemptStore

/-! ## Refused calls -/

/-- A method that fails leaves its store `t` alone. -/
def LeavesOnError {T α : Type} (t : T) (r : StorageResult α × T) : Prop :=
  ∀ e, r.1 = .error e → r.2 = t

theorem leavesOnError_error {T α : Type} (t : T) (e : StorageError) :
    LeavesOnError (α := α) t (.error e, t) := fun _ _ => rfl

theorem leavesOnError_ok {T α : Type} (t t' : T) (x : α) : LeavesOnError t (.ok x, t') := by
  intro e he
  cases he

theorem InMemoryProtocolObjectStore.put_leaves (s : InMemoryProtocolObjectStore)
    (r : ProtocolObjectRecord) : LeavesOnError s (s.put r) := by
  unfold put
  split
  · exact leavesOnError_error s _
  · split
    · split
      · exact leavesOnError_ok s _ _
      · exact leavesOnError_error s _
    · exact leavesOnError_ok s _ _

theorem InMemoryMandateProjectionStore.insert_leaves (s : InMemoryMandateProjectionStore)
    (m st : String) : LeavesOnError s (s.insert m st) := by
  rcases s.insert_cases m st with ⟨e, h⟩ | ⟨t, h, _⟩
  · rw [h]
    exact leavesOnError_error s e
  · rw [h]
    exact leavesOnError_ok s t _

theorem InMemoryMandateProjectionStore.swap_leaves (s : InMemoryMandateProjectionStore)
    (m : String) (v : Int64) (st : String) : LeavesOnError s (s.compareAndSwap m v st) := by
  rcases s.swap_cases m v st with ⟨_, h⟩ | ⟨p, _, _, h⟩ | ⟨p, t, _, _, h, _⟩ <;>
    rw [h] <;> exact leavesOnError_ok s _ _

theorem InMemoryWebhookReceiptStore.record_leaves (s : InMemoryWebhookReceiptStore)
    (r : WebhookReceipt) : LeavesOnError s (s.record r) := by
  unfold record
  split
  · exact leavesOnError_error s _
  · split <;> exact leavesOnError_ok s _ _

theorem InMemoryEvidenceStore.put_leaves (rt : Runtime) (s : InMemoryEvidenceStore)
    (b : Array UInt8) : LeavesOnError s (s.put rt b) := by
  unfold put
  dsimp only
  split <;> exact leavesOnError_ok s _ _

theorem InMemoryEvidenceNodeStore.insert_leaves (s : InMemoryEvidenceNodeStore)
    (n : EvidenceNodeRecord) : LeavesOnError s (s.insert n) := by
  unfold insert
  split
  · exact leavesOnError_error s _
  · split
    · exact leavesOnError_error s _
    · exact leavesOnError_ok s _ _

theorem InMemoryActionRequestStore.insert_leaves (s : InMemoryActionRequestStore)
    (q : ActionRequest) : LeavesOnError s (s.insert q) := by
  rcases s.insert_cases q with ⟨e, h⟩ | ⟨t, h, _⟩
  · rw [h]
    exact leavesOnError_error s e
  · rw [h]
    exact leavesOnError_ok s t _

theorem InMemoryActionRequestStore.swap_leaves (s : InMemoryActionRequestStore) (r : String)
    (v : Int64) (st : ActionRequestStatus) : LeavesOnError s (s.compareAndSwap r v st) := by
  rcases s.swap_cases r v st with ⟨_, h⟩ | ⟨p, _, _, h⟩ | ⟨p, t, _, _, h, _⟩ <;>
    rw [h] <;> exact leavesOnError_ok s _ _

theorem insertIndexed_leaves {V : Type} {key group : V → String} (field what : String)
    (t : Indexed String String V key group) (v : V) :
    LeavesOnError t (insertIndexed field what t v) := by
  rcases insertIndexed_cases field what t v with ⟨e, h⟩ | ⟨t', h, _⟩
  · rw [h]
    exact leavesOnError_error t e
  · rw [h]
    exact leavesOnError_ok t t' _

theorem InMemoryExecutionAttemptStore.updateState_leaves (s : InMemoryExecutionAttemptStore)
    (i : String) (st : ExecutionAttemptState) : LeavesOnError s (s.updateState i st) := by
  unfold updateState
  split
  · exact leavesOnError_error s _
  · exact leavesOnError_ok s _ _

theorem InMemoryExecutionAttemptStore.updateDeploymentId_leaves
    (s : InMemoryExecutionAttemptStore) (i : String) (d : UInt64) :
    LeavesOnError s (s.updateDeploymentId i d) := by
  unfold updateDeploymentId
  split
  · exact leavesOnError_error s _
  · exact leavesOnError_ok s _ _

end Piteka.Storage
