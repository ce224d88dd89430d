import Piteka.Storage.Paths
import Piteka.Storage.Steps
import Piteka.Table.Ordered

/-!
# The rows in the order of their insertion

What the accepted calls have made of four of the stores, read off the answered calls
alone: an accepted insertion comes last, and a change stays in its place. The stores
list these rows (`Kept`), whatever calls come between.
-/
namespace Piteka.Storage

set_option autoImplicit false

open Piteka.Interleaving Piteka.Interleaving.Program Piteka.Table

structure Ledgers where
  requests : List ActionRequest
  decisions : List ApprovalDecision
  attempts : List ExecutionAttempt
  receipts : List ReceiptProjection

namespace Ledgers

def empty : Ledgers := ⟨[], [], [], []⟩

def enter (l : Ledgers) : Answered → Ledgers
  | ⟨.store (.requests (.insert q)), .ok _⟩ => { l with requests := l.requests ++ [q] }
  | ⟨.store (.requests (.compareAndSwap r _ st)), .ok (.applied _)⟩ =>
    { l with requests := changeAt (·.requestId) r (fun q => { q with status := st }) l.requests }
  | ⟨.store (.decisions (.insert d)), .ok _⟩ => { l with decisions := l.decisions ++ [d] }
  | ⟨.store (.attempts (.insert a)), .ok _⟩ => { l with attempts := l.attempts ++ [a] }
  | ⟨.store (.attempts (.updateState i st)), .ok _⟩ =>
    { l with attempts := changeAt (·.attemptIdHex) i (fun a => { a with state := st }) l.attempts }
  | ⟨.store (.attempts (.updateDeploymentId i d)), .ok _⟩ =>
    { l with
      attempts := changeAt (·.attemptIdHex) i (fun a => { a with githubDeploymentId := some d })
        l.attempts }
  | ⟨.store (.receipts (.insert r)), .ok _⟩ => { l with receipts := l.receipts ++ [r] }
  | _ => l

/-- The rows after the answered calls. -/
def after (h : Path) : Ledgers := h.foldl enter empty

end Ledgers

/-! ## The methods on listed rows -/

section
variable {l : List ActionRequest} {s : InMemoryActionRequestStore}

theorem InMemoryActionRequestStore.insert_lists (h : s.requests.Lists l) (q : ActionRequest) :
    (∃ e, s.insert q = (.error e, s)) ∨
      ∃ t, s.insert q = (.ok (), t) ∧ t.requests.Lists (l ++ [q]) := by
  unfold insert
  split
  · exact Or.inl ⟨_, rfl⟩
  · cases hget : s.requests.get q.requestId with
    | some p => exact Or.inl ⟨_, rfl⟩
    | none => exact Or.inr ⟨_, rfl, h.insert hget⟩

theorem InMemoryActionRequestStore.swap_lists (h : s.requests.Lists l) (r : String) (v : Int64)
    (st : ActionRequestStatus) :
    (∃ o, s.compareAndSwap r v st = (.ok o, s) ∧ ∀ w, o ≠ .applied w) ∨
      ∃ w t, s.compareAndSwap r v st = (.ok (.applied w), t) ∧
        t.requests.Lists (changeAt (·.requestId) r (fun q => { q with status := st }) l) := by
  unfold compareAndSwap
  cases hget : s.requests.get r with
  | none => exact Or.inl ⟨_, rfl, fun _ h => by cases h⟩
  | some q =>
    by_cases hv : s.currentVersion r = v
    · refine Or.inr ⟨_, _, if_neg (not_not.mpr hv), ?_⟩
      apply h.modify
      intro q
      rfl
    · exact Or.inl ⟨_, if_pos hv, fun _ h => by cases h⟩

end

theorem insertIndexed_lists {V : Type} {key group : V → String} (field what : String)
    {t : Indexed String String V key group} {l : List V} (h : t.Lists l) (v : V) :
    (∃ e, insertIndexed field what t v = (.error e, t)) ∨
      ∃ t', insertIndexed field what t v = (.ok (), t') ∧ t'.Lists (l ++ [v]) := by
  unfold insertIndexed
  split
  · exact Or.inl ⟨_, rfl⟩
  · split
    · next fresh => exact Or.inr ⟨_, rfl, h.insertNew fresh⟩
    · exact Or.inl ⟨_, rfl⟩

section
variable {l : List ExecutionAttempt} {s : InMemoryExecutionAttemptStore}

theorem InMemoryExecutionAttemptStore.updateState_lists (h : s.attempts.Lists l) (i : String)
    (st : ExecutionAttemptState) :
    (∃ e, s.updateState i st = (.error e, s)) ∨
      ∃ t, s.updateState i st = (.ok (), t) ∧
        t.attempts.Lists (changeAt (·.attemptIdHex) i (fun a => { a with state := st }) l) := by
  unfold updateState
  cases hget : s.attempts.get i with
  | none => exact Or.inl ⟨_, rfl⟩
  | some a =>
    refine Or.inr ⟨_, rfl, ?_⟩
    apply h.modify
    intro a
    rfl

theorem InMemoryExecutionAttemptStore.updateDeploymentId_lists (h : s.attempts.Lists l)
    (i : String) (d : UInt64) :
    (∃ e, s.updateDeploymentId i d = (.error e, s)) ∨
      ∃ t, s.updateDeploymentId i d = (.ok (), t) ∧
        t.attempts.Lists
          (changeAt (·.attemptIdHex) i (fun a => { a with githubDeploymentId := some d }) l) := by
  unfold updateDeploymentId
  cases hget : s.attempts.get i with
  | none => exact Or.inl ⟨_, rfl⟩
  | some a =>
    refine Or.inr ⟨_, rfl, ?_⟩
    apply h.modify
    intro a
    rfl

end

/-! ## Runs -/

/-- The stores list the rows of the ledgers. -/
structure Kept (s : Stores) (l : Ledgers) : Prop where
  requests : s.requests.requests.Lists l.requests
  decisions : s.decisions.decisions.Lists l.decisions
  attempts : s.attempts.attempts.Lists l.attempts
  receipts : s.receipts.receipts.Lists l.receipts

theorem kept_empty : Kept .empty .empty where
  requests := .empty
  decisions := .empty
  attempts := .empty
  receipts := .empty

variable {rt : Runtime} {faults : StoreCall → Prop} {s s' : Stores} {l : Ledgers}

theorem kept_requests {order : HashOrder} {x : ActionRequestCall}
    {a : StorageResult (StoreCall.requests x).Ok} (hk : Kept s l)
    (hr : (StoreCall.requests x).run rt order s = (a, s')) :
    Kept s' (l.enter ⟨.store (.requests x), a⟩) := by
  cases x with
  | get i =>
    obtain ⟨rfl, rfl⟩ := Prod.mk.inj hr
    exact hk
  | list =>
    obtain ⟨rfl, rfl⟩ := Prod.mk.inj hr
    exact hk
  | insert q =>
    obtain ⟨rfl, rfl⟩ := Prod.mk.inj hr
    rcases InMemoryActionRequestStore.insert_lists hk.requests q with ⟨e, h⟩ | ⟨t, h, hl⟩
    · rw [h]
      exact hk
    · rw [h]
      exact { hk with requests := hl }
  | compareAndSwap r v st =>
    obtain ⟨rfl, rfl⟩ := Prod.mk.inj hr
    rcases InMemoryActionRequestStore.swap_lists hk.requests r v st with
      ⟨o, h, ho⟩ | ⟨w, t, h, hl⟩
    · rw [h]
      cases o with
      | applied w => exact absurd rfl (ho w)
      | conflict w => exact hk
      | missing => exact hk
    · rw [h]
      exact { hk with requests := hl }

theorem kept_decisions {order : HashOrder} {x : ApprovalDecisionCall}
    {a : StorageResult (StoreCall.decisions x).Ok} (hk : Kept s l)
    (hr : (StoreCall.decisions x).run rt order s = (a, s')) :
    Kept s' (l.enter ⟨.store (.decisions x), a⟩) := by
  cases x with
  | get i =>
    obtain ⟨rfl, rfl⟩ := Prod.mk.inj hr
    exact hk
  | byRequest r =>
    obtain ⟨rfl, rfl⟩ := Prod.mk.inj hr
    exact hk
  | insert d =>
    obtain ⟨rfl, rfl⟩ := Prod.mk.inj hr
    rcases insertIndexed_lists "decision_id" "approval decision" hk.decisions d with
      ⟨e, h⟩ | ⟨t, h, hl⟩
    · simp only [InMemoryApprovalDecisionStore.insert, h]
      exact hk
    · simp only [InMemoryApprovalDecisionStore.insert, h]
      exact { hk with decisions := hl }

theorem kept_attempts {order : HashOrder} {x : ExecutionAttemptCall}
    {a : StorageResult (StoreCall.attempts x).Ok} (hk : Kept s l)
    (hr : (StoreCall.attempts x).run rt order s = (a, s')) :
    Kept s' (l.enter ⟨.store (.attempts x), a⟩) := by
  cases x with
  | get i =>
    obtain ⟨rfl, rfl⟩ := Prod.mk.inj hr
    exact hk
  | byMandate m =>
    obtain ⟨rfl, rfl⟩ := Prod.mk.inj hr
    exact hk
  | byDeploymentId d =>
    obtain ⟨rfl, rfl⟩ := Prod.mk.inj hr
    exact hk
  | insert a =>
    obtain ⟨rfl, rfl⟩ := Prod.mk.inj hr
    rcases insertIndexed_lists "attempt_id_hex" "execution attempt" hk.attempts a with
      ⟨e, h⟩ | ⟨t, h, hl⟩
    · simp only [InMemoryExecutionAttemptStore.insert, h]
      exact hk
    · simp only [InMemoryExecutionAttemptStore.insert, h]
      exact { hk with attempts := hl }
  | updateState i st =>
    obtain ⟨rfl, rfl⟩ := Prod.mk.inj hr
    rcases InMemoryExecutionAttemptStore.updateState_lists hk.attempts i st with
      ⟨e, h⟩ | ⟨t, h, hl⟩
    · rw [h]
      exact hk
    · rw [h]
      exact { hk with attempts := hl }
  | updateDeploymentId i d =>
    obtain ⟨rfl, rfl⟩ := Prod.mk.inj hr
    rcases InMemoryExecutionAttemptStore.updateDeploymentId_lists hk.attempts i d with
      ⟨e, h⟩ | ⟨t, h, hl⟩
    · rw [h]
      exact hk
    · rw [h]
      exact { hk with attempts := hl }

theorem kept_receipts {order : HashOrder} {x : ReceiptProjectionCall}
    {a : StorageResult (StoreCall.receipts x).Ok} (hk : Kept s l)
    (hr : (StoreCall.receipts x).run rt order s = (a, s')) :
    Kept s' (l.enter ⟨.store (.receipts x), a⟩) := by
  cases x with
  | get i =>
    obtain ⟨rfl, rfl⟩ := Prod.mk.inj hr
    exact hk
  | byMandate m =>
    obtain ⟨rfl, rfl⟩ := Prod.mk.inj hr
    exact hk
  | insert r =>
    obtain ⟨rfl, rfl⟩ := Prod.mk.inj hr
    rcases insertIndexed_lists "receipt_id_hex" "receipt projection" hk.receipts r with
      ⟨e, h⟩ | ⟨t, h, hl⟩
    · simp only [InMemoryReceiptProjectionStore.insert, h]
      exact hk
    · simp only [InMemoryReceiptProjectionStore.insert, h]
      exact { hk with receipts := hl }

theorem Ledgers.enter_error (l : Ledgers) (sc : StoreCall) (e : StorageError) :
    l.enter ⟨.store sc, .error e⟩ = l := by
  cases sc with
  | requests x => cases x <;> rfl
  | decisions x => cases x <;> rfl
  | attempts x => cases x <;> rfl
  | receipts x => cases x <;> rfl
  | _ => rfl

/-- A call of another store. -/
theorem kept_other {sc : StoreCall} {a : StorageResult sc.Ok} {order : HashOrder} (hk : Kept s l)
    (hr : sc.run rt order s = (a, s')) (hrequests : ∀ x, sc ≠ .requests x)
    (hdecisions : ∀ x, sc ≠ .decisions x) (hattempts : ∀ x, sc ≠ .attempts x)
    (hreceipts : ∀ x, sc ≠ .receipts x) : Kept s' l := by
  obtain ⟨_, h₁, h₂, h₃, h₄⟩ := run_frame rt order s sc
  rw [hr] at h₁ h₂ h₃ h₄
  constructor
  · rw [h₁.resolve_right fun ⟨x, hx⟩ => hrequests x hx]
    exact hk.requests
  · rw [h₂.resolve_right fun ⟨x, hx⟩ => hdecisions x hx]
    exact hk.decisions
  · rw [h₃.resolve_right fun ⟨x, hx⟩ => hattempts x hx]
    exact hk.attempts
  · rw [h₄.resolve_right fun ⟨x, hx⟩ => hreceipts x hx]
    exact hk.receipts

theorem kept_step {c : Answered} (hk : Kept s l) (hx : Exec rt faults s c.1 c.2 s') :
    Kept s' (l.enter c) := by
  obtain ⟨op, a⟩ := c
  cases op with
  | clock =>
    obtain rfl : s' = s := hx
    exact hk
  | dispatchFn =>
    obtain rfl : s' = s := hx
    exact hk
  | findCorrelatedDeployment =>
    obtain rfl : s' = s := hx
    exact hk
  | store sc =>
    rcases hx with ⟨order, hr⟩ | ⟨_, ⟨e, rfl⟩, rfl⟩
    · cases sc with
      | requests x => exact kept_requests hk hr
      | decisions x => exact kept_decisions hk hr
      | attempts x => exact kept_attempts hk hr
      | receipts x => exact kept_receipts hk hr
      | _ => exact kept_other hk hr (by simp) (by simp) (by simp) (by simp)
    · rw [l.enter_error]
      exact hk

/-- From listed rows on, whatever is called. -/
theorem kept_steps {h : Path} (hk : Kept s l) (hs : Steps (Exec rt faults) s h s') :
    Kept s' (h.foldl Ledgers.enter l) := by
  induction h generalizing s l with
  | nil =>
    obtain rfl : s' = s := hs
    exact hk
  | cons c h ih =>
    obtain ⟨t, hx, hs⟩ := hs
    exact ih (kept_step hk hx) hs

theorem kept_after {h : Path} (hs : Steps (Exec rt faults) .empty h s) :
    Kept s (Ledgers.after h) := kept_steps kept_empty hs

end Piteka.Storage
