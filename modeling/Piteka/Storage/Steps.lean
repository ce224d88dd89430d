import Piteka.Storage.Methods
import Piteka.Storage.Ports

/-!
# What one call does to one row

One inversion for each table: an executed call leaves the row alone or is one of
the listed store calls, with the row before and after it. Failed calls, refused
swaps and the calls of other tables all leave the row alone. The last section
goes the other way: what a store call with a given answer read or wrote.
-/
namespace Piteka.Storage

set_option autoImplicit false

open Piteka.Interleaving

/-- A mandate projection after an applied swap. -/
def MandateProjection.swapped (p : MandateProjection) (state : String) : MandateProjection :=
  { p with version := p.version + 1, state := state }

/-- An answered port call. -/
abbrev Answered := (op : PortCall) × Answer op

variable {rt : Runtime} {faults : StoreCall → Prop} {s s' : Stores}

/-- A store call changes no store but its own. -/
theorem run_frame (rt : Runtime) (order : HashOrder) (s : Stores) (c : StoreCall) :
    ((c.run rt order s).2.mandates = s.mandates ∨ ∃ x, c = .mandates x) ∧
    ((c.run rt order s).2.requests = s.requests ∨ ∃ x, c = .requests x) ∧
    ((c.run rt order s).2.decisions = s.decisions ∨ ∃ x, c = .decisions x) ∧
    ((c.run rt order s).2.attempts = s.attempts ∨ ∃ x, c = .attempts x) ∧
    ((c.run rt order s).2.receipts = s.receipts ∨ ∃ x, c = .receipts x) := by
  cases c with
  | protocolObjects x => cases x <;> simp [StoreCall.run]
  | mandates x => cases x <;> simp [StoreCall.run]
  | webhookReceipts x => cases x <;> simp [StoreCall.run]
  | evidence x => cases x <;> simp [StoreCall.run]
  | evidenceNodes x => cases x <;> simp [StoreCall.run]
  | audit x => cases x <;> simp [StoreCall.run]
  | requests x => cases x <;> simp [StoreCall.run]
  | decisions x => cases x <;> simp [StoreCall.run]
  | attempts x => cases x <;> simp [StoreCall.run]
  | receipts x => cases x <;> simp [StoreCall.run]

/-- An executed call changes nothing, or is a store call that the stores answered. -/
theorem exec_cases {c : Answered} (hx : Exec rt faults s c.1 c.2 s') :
    s' = s ∨ ∃ sc a order, c = ⟨.store sc, a⟩ ∧ sc.run rt order s = (a, s') := by
  obtain ⟨op, a⟩ := c
  cases op with
  | store sc =>
    rcases hx with ⟨order, h⟩ | ⟨_, _, h⟩
    · exact Or.inr ⟨sc, a, order, rfl, h⟩
    · exact Or.inl h
  | clock => exact Or.inl hx
  | dispatchFn => exact Or.inl hx
  | findCorrelatedDeployment => exact Or.inl hx

theorem exec_noFaults {sc : StoreCall} {a : StorageResult sc.Ok}
    (hx : Exec rt noFaults s (.store sc) a s') : ∃ order, sc.run rt order s = (a, s') := by
  rcases hx with h | ⟨hf, _⟩
  · exact h
  · exact absurd hf id

/-! ## Mandate projections -/

inductive MandateStep (m : String) (c : Answered) (before after : Option MandateProjection) :
    Prop
  | same (h : after = before)
  | insert (state : String) (hc : c = ⟨.store (.mandates (.insert m state)), .ok ()⟩)
      (hb : before = none) (ha : after = some ⟨m, 1, state⟩)
  | swap (p : MandateProjection) (state : String)
      (hc : c = ⟨.store (.mandates (.compareAndSwap m p.version state)),
        .ok (.applied (p.version + 1))⟩)
      (hb : before = some p) (ha : after = some (p.swapped state))

theorem mandate_step {c : Answered} (hx : Exec rt faults s c.1 c.2 s') (m : String) :
    MandateStep m c (s.mandate m) (s'.mandate m) := by
  rcases exec_cases hx with rfl | ⟨sc, a, order, rfl, hr⟩
  · exact .same rfl
  rcases (run_frame rt order s sc).1 with hf | ⟨x, rfl⟩
  · rw [hr] at hf
    exact .same (congrArg (·.projections.get m) hf)
  cases x with
  | get m' =>
    obtain ⟨_, rfl⟩ := Prod.mk.inj hr
    exact .same rfl
  | insert m' state =>
    obtain ⟨rfl, rfl⟩ := Prod.mk.inj hr
    rcases s.mandates.insert_cases m' state with ⟨e, h⟩ | ⟨t, h, hnone, hget⟩
    · exact .same (by simp only [Stores.mandate, h])
    · by_cases hm : m = m'
      · subst hm
        exact .insert state (by rw [h]) hnone (by simp only [Stores.mandate, h, hget, if_true])
      · exact .same (by simp only [Stores.mandate, h, hget, if_neg hm])
  | compareAndSwap m' v state =>
    obtain ⟨rfl, rfl⟩ := Prod.mk.inj hr
    rcases s.mandates.swap_cases m' v state with ⟨_, h⟩ | ⟨p, _, _, h⟩ | ⟨p, t, hp, rfl, h, hget⟩
    · exact .same (by simp only [Stores.mandate, h])
    · exact .same (by simp only [Stores.mandate, h])
    · by_cases hm : m = m'
      · subst hm
        refine .swap p state (by rw [h]) hp ?_
        simp only [Stores.mandate, h, hget, if_true, MandateProjection.swapped]
      · exact .same (by simp only [Stores.mandate, h, hget, if_neg hm])

/-! ## Action requests -/

/-- The row and the version of a request move together. -/
inductive RequestStep (r : String) (c : Answered)
    (before after : Option ActionRequest × Int64) : Prop
  | same (h : after = before)
  | insert (q : ActionRequest) (hr : q.requestId = r)
      (hc : c = ⟨.store (.requests (.insert q)), .ok ()⟩)
      (hb : before.1 = none) (ha : after = (some q, before.2))
  | swap (q : ActionRequest) (v : Int64) (st : ActionRequestStatus)
      (hc : c = ⟨.store (.requests (.compareAndSwap r v st)), .ok (.applied (v + 1))⟩)
      (hb : before = (some q, v)) (ha : after = (some { q with status := st }, v + 1))

theorem request_step {c : Answered} (hx : Exec rt faults s c.1 c.2 s') (r : String) :
    RequestStep r c (s.request r, s.requestVersion r) (s'.request r, s'.requestVersion r) := by
  rcases exec_cases hx with rfl | ⟨sc, a, order, rfl, hr⟩
  · exact .same rfl
  rcases (run_frame rt order s sc).2.1 with hf | ⟨x, rfl⟩
  · rw [hr] at hf
    exact .same (congrArg (fun t => (t.requests.get r, t.currentVersion r)) hf)
  cases x with
  | get r' =>
    obtain ⟨_, rfl⟩ := Prod.mk.inj hr
    exact .same rfl
  | list =>
    obtain ⟨_, rfl⟩ := Prod.mk.inj hr
    exact .same rfl
  | insert q =>
    obtain ⟨rfl, rfl⟩ := Prod.mk.inj hr
    rcases s.requests.insert_cases q with ⟨e, h⟩ | ⟨t, h, hnone, hget, hver⟩
    · exact .same (by simp only [Stores.request, Stores.requestVersion, h])
    · by_cases hq : r = q.requestId
      · subst hq
        refine .insert q rfl (by rw [h]) hnone ?_
        simp only [Stores.request, Stores.requestVersion, h, hget, hver, if_true]
      · refine .same ?_
        simp only [Stores.request, Stores.requestVersion, h, hget, hver, if_neg hq]
  | compareAndSwap r' v st =>
    obtain ⟨rfl, rfl⟩ := Prod.mk.inj hr
    rcases s.requests.swap_cases r' v st with
      ⟨_, h⟩ | ⟨q, _, _, h⟩ | ⟨q, t, hq, hv, h, hget, hver⟩
    · exact .same (by simp only [Stores.request, Stores.requestVersion, h])
    · exact .same (by simp only [Stores.request, Stores.requestVersion, h])
    · by_cases hr : r = r'
      · subst hr
        refine .swap q v st (by rw [h]) ?_ ?_
        · simp only [Stores.request, Stores.requestVersion, hq, hv]
        · simp only [Stores.request, Stores.requestVersion, h, hget, hver, if_true]
      · refine .same ?_
        simp only [Stores.request, Stores.requestVersion, h, hget, hver, if_neg hr]

/-! ## Approval decisions -/

inductive DecisionStep (i : String) (c : Answered) (before after : Option ApprovalDecision) :
    Prop
  | same (h : after = before)
  | insert (d : ApprovalDecision) (hi : d.decisionId = i)
      (hc : c = ⟨.store (.decisions (.insert d)), .ok ()⟩)
      (hb : before = none) (ha : after = some d)

theorem decision_step {c : Answered} (hx : Exec rt faults s c.1 c.2 s') (i : String) :
    DecisionStep i c (s.decision i) (s'.decision i) := by
  rcases exec_cases hx with rfl | ⟨sc, a, order, rfl, hr⟩
  · exact .same rfl
  rcases (run_frame rt order s sc).2.2.1 with hf | ⟨x, rfl⟩
  · rw [hr] at hf
    exact .same (congrArg (·.decisions.get i) hf)
  cases x with
  | get i' =>
    obtain ⟨_, rfl⟩ := Prod.mk.inj hr
    exact .same rfl
  | byRequest r =>
    obtain ⟨_, rfl⟩ := Prod.mk.inj hr
    exact .same rfl
  | insert d =>
    obtain ⟨rfl, rfl⟩ := Prod.mk.inj hr
    rcases insertIndexed_cases "decision_id" "approval decision" s.decisions.decisions d with
      ⟨e, h⟩ | ⟨t, h, hnone, hget⟩
    · refine .same ?_
      simp only [Stores.decision, InMemoryApprovalDecisionStore.insert, h]
    · by_cases hi : i = d.decisionId
      · subst hi
        refine .insert d rfl (by rw [InMemoryApprovalDecisionStore.insert, h]) hnone ?_
        simp only [Stores.decision, InMemoryApprovalDecisionStore.insert, h, hget, if_true]
      · refine .same ?_
        simp only [Stores.decision, InMemoryApprovalDecisionStore.insert, h, hget, if_neg hi]

/-! ## Execution attempts -/

inductive AttemptStep (i : String) (c : Answered) (before after : Option ExecutionAttempt) :
    Prop
  | same (h : after = before)
  | insert (a : ExecutionAttempt) (hi : a.attemptIdHex = i)
      (hc : c = ⟨.store (.attempts (.insert a)), .ok ()⟩)
      (hb : before = none) (ha : after = some a)
  | state (a : ExecutionAttempt) (st : ExecutionAttemptState)
      (hc : c = ⟨.store (.attempts (.updateState i st)), .ok ()⟩)
      (hb : before = some a) (ha : after = some { a with state := st })
  | deployment (a : ExecutionAttempt) (d : UInt64)
      (hc : c = ⟨.store (.attempts (.updateDeploymentId i d)), .ok ()⟩)
      (hb : before = some a) (ha : after = some { a with githubDeploymentId := some d })

theorem attempt_step {c : Answered} (hx : Exec rt faults s c.1 c.2 s') (i : String) :
    AttemptStep i c (s.attempt i) (s'.attempt i) := by
  rcases exec_cases hx with rfl | ⟨sc, a, order, rfl, hr⟩
  · exact .same rfl
  rcases (run_frame rt order s sc).2.2.2.1 with hf | ⟨x, rfl⟩
  · rw [hr] at hf
    exact .same (congrArg (·.attempts.get i) hf)
  cases x with
  | get i' =>
    obtain ⟨_, rfl⟩ := Prod.mk.inj hr
    exact .same rfl
  | byMandate m =>
    obtain ⟨_, rfl⟩ := Prod.mk.inj hr
    exact .same rfl
  | byDeploymentId d =>
    obtain ⟨_, rfl⟩ := Prod.mk.inj hr
    exact .same rfl
  | insert a =>
    obtain ⟨rfl, rfl⟩ := Prod.mk.inj hr
    rcases insertIndexed_cases "attempt_id_hex" "execution attempt" s.attempts.attempts a with
      ⟨e, h⟩ | ⟨t, h, hnone, hget⟩
    · refine .same ?_
      simp only [Stores.attempt, InMemoryExecutionAttemptStore.insert, h]
    · by_cases hi : i = a.attemptIdHex
      · subst hi
        refine .insert a rfl (by rw [InMemoryExecutionAttemptStore.insert, h]) hnone ?_
        simp only [Stores.attempt, InMemoryExecutionAttemptStore.insert, h, hget, if_true]
      · refine .same ?_
        simp only [Stores.attempt, InMemoryExecutionAttemptStore.insert, h, hget, if_neg hi]
  | updateState i' st =>
    obtain ⟨rfl, rfl⟩ := Prod.mk.inj hr
    rcases s.attempts.updateState_cases i' st with ⟨_, h⟩ | ⟨a, t, ha, h, hget⟩
    · exact .same (by simp only [Stores.attempt, h])
    · by_cases hi : i = i'
      · subst hi
        exact .state a st (by rw [h]) ha (by simp only [Stores.attempt, h, hget, if_true])
      · exact .same (by simp only [Stores.attempt, h, hget, if_neg hi])
  | updateDeploymentId i' d =>
    obtain ⟨rfl, rfl⟩ := Prod.mk.inj hr
    rcases s.attempts.updateDeploymentId_cases i' d with ⟨_, h⟩ | ⟨a, t, ha, h, hget⟩
    · exact .same (by simp only [Stores.attempt, h])
    · by_cases hi : i = i'
      · subst hi
        exact .deployment a d (by rw [h]) ha (by simp only [Stores.attempt, h, hget, if_true])
      · exact .same (by simp only [Stores.attempt, h, hget, if_neg hi])

/-! ## Receipts -/

inductive ReceiptStep (i : String) (c : Answered) (before after : Option ReceiptProjection) :
    Prop
  | same (h : after = before)
  | insert (q : ReceiptProjection) (hi : q.receiptIdHex = i)
      (hc : c = ⟨.store (.receipts (.insert q)), .ok ()⟩)
      (hb : before = none) (ha : after = some q)

theorem receipt_step {c : Answered} (hx : Exec rt faults s c.1 c.2 s') (i : String) :
    ReceiptStep i c (s.receipt i) (s'.receipt i) := by
  rcases exec_cases hx with rfl | ⟨sc, a, order, rfl, hr⟩
  · exact .same rfl
  rcases (run_frame rt order s sc).2.2.2.2 with hf | ⟨x, rfl⟩
  · rw [hr] at hf
    exact .same (congrArg (·.receipts.get i) hf)
  cases x with
  | get i' =>
    obtain ⟨_, rfl⟩ := Prod.mk.inj hr
    exact .same rfl
  | byMandate m =>
    obtain ⟨_, rfl⟩ := Prod.mk.inj hr
    exact .same rfl
  | insert q =>
    obtain ⟨rfl, rfl⟩ := Prod.mk.inj hr
    rcases insertIndexed_cases "receipt_id_hex" "receipt projection" s.receipts.receipts q with
      ⟨e, h⟩ | ⟨t, h, hnone, hget⟩
    · refine .same ?_
      simp only [Stores.receipt, InMemoryReceiptProjectionStore.insert, h]
    · by_cases hi : i = q.receiptIdHex
      · subst hi
        refine .insert q rfl (by rw [InMemoryReceiptProjectionStore.insert, h]) hnone ?_
        simp only [Stores.receipt, InMemoryReceiptProjectionStore.insert, h, hget, if_true]
      · refine .same ?_
        simp only [Stores.receipt, InMemoryReceiptProjectionStore.insert, h, hget, if_neg hi]

/-! ## The audit log -/

inductive AuditStep (c : Answered) (before after : List AuditEvent) : Prop
  | same (h : after = before)
  | append (event : AuditEvent) (hc : c = ⟨.store (.audit (.append event)), .ok ()⟩)
      (ha : after = before ++ [event])

theorem audit_step {c : Answered} (hx : Exec rt faults s c.1 c.2 s') :
    AuditStep c s.audit.events s'.audit.events := by
  rcases exec_cases hx with rfl | ⟨sc, a, order, rfl, hr⟩
  · exact .same rfl
  have hstate : (sc.run rt order s).2 = s' := congrArg Prod.snd hr
  cases sc with
  | audit x =>
    cases x with
    | append event =>
      obtain ⟨rfl, rfl⟩ := Prod.mk.inj hr
      exact .append event rfl rfl
    | recent n =>
      obtain ⟨_, rfl⟩ := Prod.mk.inj hr
      exact .same rfl
  | protocolObjects x => cases x <;> exact .same (congrArg (·.audit.events) hstate.symm)
  | mandates x => cases x <;> exact .same (congrArg (·.audit.events) hstate.symm)
  | webhookReceipts x => cases x <;> exact .same (congrArg (·.audit.events) hstate.symm)
  | evidence x => cases x <;> exact .same (congrArg (·.audit.events) hstate.symm)
  | evidenceNodes x => cases x <;> exact .same (congrArg (·.audit.events) hstate.symm)
  | requests x => cases x <;> exact .same (congrArg (·.audit.events) hstate.symm)
  | decisions x => cases x <;> exact .same (congrArg (·.audit.events) hstate.symm)
  | attempts x => cases x <;> exact .same (congrArg (·.audit.events) hstate.symm)
  | receipts x => cases x <;> exact .same (congrArg (·.audit.events) hstate.symm)

/-! ## Answers -/

/-- A store call that its method refuses leaves all the stores alone. -/
theorem run_leaves (rt : Runtime) (order : HashOrder) (s : Stores) (sc : StoreCall) :
    LeavesOnError s (sc.run rt order s) := by
  intro e he
  cases sc with
  | protocolObjects x =>
    cases x with
    | get i => rfl
    | put r =>
      exact congrArg (fun p => { s with protocolObjects := p })
        (s.protocolObjects.put_leaves r e he)
  | mandates x =>
    cases x with
    | get m => rfl
    | insert m st =>
      exact congrArg (fun p => { s with mandates := p })
        (s.mandates.insert_leaves m st e he)
    | compareAndSwap m v st =>
      exact congrArg (fun p => { s with mandates := p })
        (s.mandates.swap_leaves m v st e he)
  | webhookReceipts x =>
    cases x with
    | get i => rfl
    | record r =>
      exact congrArg (fun p => { s with webhookReceipts := p })
        (s.webhookReceipts.record_leaves r e he)
  | evidence x =>
    cases x with
    | get d => rfl
    | put b =>
      exact congrArg (fun p => { s with evidence := p })
        (s.evidence.put_leaves rt b e he)
    | putDescriptor d => cases he
  | evidenceNodes x =>
    cases x with
    | get i => rfl
    | byMandate m => rfl
    | insert n =>
      exact congrArg (fun p => { s with evidenceNodes := p })
        (s.evidenceNodes.insert_leaves n e he)
  | audit x =>
    cases x with
    | append ev => cases he
    | recent n => rfl
  | requests x =>
    cases x with
    | get i => rfl
    | list => rfl
    | insert q =>
      exact congrArg (fun p => { s with requests := p })
        (s.requests.insert_leaves q e he)
    | compareAndSwap r v st =>
      exact congrArg (fun p => { s with requests := p })
        (s.requests.swap_leaves r v st e he)
  | decisions x =>
    cases x with
    | get i => rfl
    | byRequest r => rfl
    | insert d =>
      exact congrArg (fun p => { s with decisions := ⟨p⟩ })
        (insertIndexed_leaves _ _ s.decisions.decisions d e he)
  | attempts x =>
    cases x with
    | get i => rfl
    | byMandate m => rfl
    | byDeploymentId d => rfl
    | insert a =>
      exact congrArg (fun p => { s with attempts := ⟨p⟩ })
        (insertIndexed_leaves _ _ s.attempts.attempts a e he)
    | updateState i st =>
      exact congrArg (fun p => { s with attempts := p })
        (s.attempts.updateState_leaves i st e he)
    | updateDeploymentId i d =>
      exact congrArg (fun p => { s with attempts := p })
        (s.attempts.updateDeploymentId_leaves i d e he)
  | receipts x =>
    cases x with
    | get i => rfl
    | byMandate m => rfl
    | insert r =>
      exact congrArg (fun p => { s with receipts := ⟨p⟩ })
        (insertIndexed_leaves _ _ s.receipts.receipts r e he)

/-- A store call that fails, of its own or by a fault, changes nothing. -/
theorem unchanged_of_error {sc : StoreCall} {e : StorageError}
    (hx : Exec rt faults s (.store sc) (.error e) s') : s' = s := by
  rcases hx with ⟨order, hr⟩ | ⟨_, _, h⟩
  · have h := run_leaves rt order s sc e (congrArg Prod.fst hr)
    rwa [hr] at h
  · exact h

theorem exec_ok {sc : StoreCall} {x : sc.Ok} (hx : Exec rt faults s (.store sc) (.ok x) s') :
    ∃ order, sc.run rt order s = (.ok x, s') := by
  rcases hx with h | ⟨_, ⟨e, he⟩, _⟩
  · exact h
  · cases he

theorem request_read {r : String} {x : Option ActionRequest}
    (hx : Exec rt faults s (.store (.requests (.get r))) (.ok x) s') : x = s.request r := by
  obtain ⟨order, hr⟩ := exec_ok hx
  obtain ⟨he, _⟩ := Prod.mk.inj hr
  exact (Except.ok.inj he).symm

/-- The rows that `by_mandate` lists are stored rows of the mandate. -/
theorem mem_attempts_listed {m : String} {rows : List ExecutionAttempt}
    (hx : Exec rt faults s (.store (.attempts (.byMandate m))) (.ok rows) s')
    {x : ExecutionAttempt} :
    x ∈ rows ↔ s.attempt x.attemptIdHex = some x ∧ x.mandateIdHex = m := by
  obtain ⟨order, hr⟩ := exec_ok hx
  obtain ⟨he, _⟩ := Prod.mk.inj hr
  obtain rfl := Except.ok.inj he
  exact Table.Indexed.mem_byGroup _ _ _

theorem attempts_listed {m : String} {rows : List ExecutionAttempt}
    (hx : Exec rt faults s (.store (.attempts (.byMandate m))) (.ok rows) s')
    {x : ExecutionAttempt} (hm : x ∈ rows) :
    s.attempt x.attemptIdHex = some x ∧ x.mandateIdHex = m :=
  (mem_attempts_listed hx).mp hm

theorem mandate_inserted {m st : String}
    (hx : Exec rt faults s (.store (.mandates (.insert m st))) (.ok ()) s') :
    s.mandate m = none ∧ s'.mandate m = some ⟨m, 1, st⟩ := by
  obtain ⟨order, hr⟩ := exec_ok hx
  obtain ⟨he, rfl⟩ := Prod.mk.inj hr
  rcases s.mandates.insert_cases m st with ⟨e, h⟩ | ⟨t, h, hnone, hget⟩
  · rw [h] at he
    cases he
  · refine ⟨hnone, ?_⟩
    simp only [Stores.mandate, h, hget, if_true]

theorem mandate_applied {m st : String} {v w : Int64}
    (hx : Exec rt faults s (.store (.mandates (.compareAndSwap m v st))) (.ok (.applied w)) s') :
    ∃ p, s.mandate m = some p ∧ p.version = v ∧ w = v + 1 ∧
      s'.mandate m = some (p.swapped st) := by
  obtain ⟨order, hr⟩ := exec_ok hx
  obtain ⟨he, rfl⟩ := Prod.mk.inj hr
  rcases s.mandates.swap_cases m v st with ⟨_, h⟩ | ⟨p, _, _, h⟩ | ⟨p, t, hp, rfl, h, hget⟩
  · rw [h] at he
    cases he
  · rw [h] at he
    cases he
  · rw [h] at he
    cases he
    refine ⟨p, hp, rfl, rfl, ?_⟩
    simp only [Stores.mandate, h, hget, if_true, MandateProjection.swapped]

theorem mandate_conflict {m st : String} {v w : Int64}
    (hx : Exec rt faults s (.store (.mandates (.compareAndSwap m v st))) (.ok (.conflict w)) s') :
    s' = s ∧ ∃ p, s.mandate m = some p ∧ p.version ≠ v ∧ w = p.version := by
  obtain ⟨order, hr⟩ := exec_ok hx
  obtain ⟨he, rfl⟩ := Prod.mk.inj hr
  rcases s.mandates.swap_cases m v st with ⟨_, h⟩ | ⟨p, hp, hv, h⟩ | ⟨p, t, hp, rfl, h, hget⟩
  · rw [h] at he
    cases he
  · rw [h] at he
    cases he
    exact ⟨by rw [h], p, hp, hv, rfl⟩
  · rw [h] at he
    cases he

theorem mandate_missing {m st : String} {v : Int64}
    (hx : Exec rt faults s (.store (.mandates (.compareAndSwap m v st))) (.ok .missing) s') :
    s' = s ∧ s.mandate m = none := by
  obtain ⟨order, hr⟩ := exec_ok hx
  obtain ⟨he, rfl⟩ := Prod.mk.inj hr
  rcases s.mandates.swap_cases m v st with ⟨hn, h⟩ | ⟨p, hp, hv, h⟩ | ⟨p, t, hp, rfl, h, hget⟩
  · exact ⟨by rw [h], hn⟩
  · rw [h] at he
    cases he
  · rw [h] at he
    cases he

theorem request_applied {r : String} {st : ActionRequestStatus} {v w : Int64}
    (hx : Exec rt faults s (.store (.requests (.compareAndSwap r v st))) (.ok (.applied w)) s') :
    ∃ q, s.request r = some q ∧ s.requestVersion r = v ∧ w = v + 1 ∧
      s'.request r = some { q with status := st } ∧ s'.requestVersion r = v + 1 := by
  obtain ⟨order, hr⟩ := exec_ok hx
  obtain ⟨he, rfl⟩ := Prod.mk.inj hr
  rcases s.requests.swap_cases r v st with
    ⟨_, h⟩ | ⟨q, _, _, h⟩ | ⟨q, t, hq, rfl, h, hget, hver⟩
  · rw [h] at he
    cases he
  · rw [h] at he
    cases he
  · rw [h] at he
    cases he
    refine ⟨q, hq, rfl, rfl, ?_, ?_⟩
    · simp only [Stores.request, h, hget, if_true]
    · simp only [Stores.requestVersion, h, hver, if_true]

theorem request_inserted {q : ActionRequest}
    (hx : Exec rt faults s (.store (.requests (.insert q))) (.ok ()) s') :
    s.request q.requestId = none ∧ s'.request q.requestId = some q ∧
      s'.requestVersion q.requestId = s.requestVersion q.requestId := by
  obtain ⟨order, hr⟩ := exec_ok hx
  obtain ⟨he, rfl⟩ := Prod.mk.inj hr
  rcases s.requests.insert_cases q with ⟨e, h⟩ | ⟨t, h, hnone, hget, hver⟩
  · rw [h] at he
    cases he
  · refine ⟨hnone, ?_, ?_⟩
    · simp only [Stores.request, h, hget, if_true]
    · simp only [Stores.requestVersion, h, hver]

theorem request_conflict {r : String} {st : ActionRequestStatus} {v w : Int64}
    (hx : Exec rt faults s (.store (.requests (.compareAndSwap r v st))) (.ok (.conflict w)) s') :
    s' = s ∧ ∃ q, s.request r = some q ∧ s.requestVersion r ≠ v ∧ w = s.requestVersion r := by
  obtain ⟨order, hr⟩ := exec_ok hx
  obtain ⟨he, rfl⟩ := Prod.mk.inj hr
  rcases s.requests.swap_cases r v st with
    ⟨_, h⟩ | ⟨q, hq, hv, h⟩ | ⟨q, t, hq, rfl, h, hget, hver⟩
  · rw [h] at he
    cases he
  · rw [h] at he
    cases he
    exact ⟨by rw [h], q, hq, hv, rfl⟩
  · rw [h] at he
    cases he

theorem request_missing {r : String} {st : ActionRequestStatus} {v : Int64}
    (hx : Exec rt faults s (.store (.requests (.compareAndSwap r v st))) (.ok .missing) s') :
    s' = s ∧ s.request r = none := by
  obtain ⟨order, hr⟩ := exec_ok hx
  obtain ⟨he, rfl⟩ := Prod.mk.inj hr
  rcases s.requests.swap_cases r v st with
    ⟨hn, h⟩ | ⟨q, hq, hv, h⟩ | ⟨q, t, hq, rfl, h, hget, hver⟩
  · exact ⟨by rw [h], hn⟩
  · rw [h] at he
    cases he
  · rw [h] at he
    cases he

theorem attempt_inserted {x : ExecutionAttempt}
    (hx : Exec rt faults s (.store (.attempts (.insert x))) (.ok ()) s') :
    s.attempt x.attemptIdHex = none ∧ s'.attempt x.attemptIdHex = some x := by
  obtain ⟨order, hr⟩ := exec_ok hx
  obtain ⟨he, rfl⟩ := Prod.mk.inj hr
  rcases insertIndexed_cases "attempt_id_hex" "execution attempt" s.attempts.attempts x with
    ⟨e, h⟩ | ⟨t, h, hnone, hget⟩
  · rw [InMemoryExecutionAttemptStore.insert, h] at he
    cases he
  · refine ⟨hnone, ?_⟩
    simp only [Stores.attempt, InMemoryExecutionAttemptStore.insert, h, hget, if_true]

theorem decision_inserted {d : ApprovalDecision}
    (hx : Exec rt faults s (.store (.decisions (.insert d))) (.ok ()) s') :
    s.decision d.decisionId = none ∧ s'.decision d.decisionId = some d := by
  obtain ⟨order, hr⟩ := exec_ok hx
  obtain ⟨he, rfl⟩ := Prod.mk.inj hr
  rcases insertIndexed_cases "decision_id" "approval decision" s.decisions.decisions d with
    ⟨e, h⟩ | ⟨t, h, hnone, hget⟩
  · rw [InMemoryApprovalDecisionStore.insert, h] at he
    cases he
  · refine ⟨hnone, ?_⟩
    simp only [Stores.decision, InMemoryApprovalDecisionStore.insert, h, hget, if_true]

theorem audit_appended {event : AuditEvent}
    (hx : Exec rt faults s (.store (.audit (.append event))) (.ok ()) s') :
    s'.audit.events = s.audit.events ++ [event] := by
  obtain ⟨order, hr⟩ := exec_ok hx
  obtain ⟨_, rfl⟩ := Prod.mk.inj hr
  rfl

/-! ## Frames and fault-free answers -/

/-- A call of another store leaves the decisions alone. -/
theorem decision_frame {op : PortCall} {a : Answer op} (hx : Exec rt faults s op a s')
    (hop : ∀ c, op ≠ .store (.decisions c)) (i : String) : s'.decision i = s.decision i := by
  cases decision_step (c := ⟨op, a⟩) hx i with
  | same h => exact h
  | insert d hi hc hb ha =>
    cases hc
    exact absurd rfl (hop _)

/-- Every mandate projection and every attempt is as before. -/
def Untouched (s s' : Stores) : Prop :=
  (∀ m, s'.mandate m = s.mandate m) ∧ ∀ k, s'.attempt k = s.attempt k

theorem Untouched.refl (s : Stores) : Untouched s s := ⟨fun _ => rfl, fun _ => rfl⟩

theorem Untouched.trans {s₁ s₂ s₃ : Stores} (h : Untouched s₁ s₂) (h' : Untouched s₂ s₃) :
    Untouched s₁ s₃ :=
  ⟨fun m => (h'.1 m).trans (h.1 m), fun k => (h'.2 k).trans (h.2 k)⟩

theorem mandate_frame {op : PortCall} {a : Answer op} (hx : Exec rt faults s op a s')
    (hop : ∀ c, op ≠ .store (.mandates c)) (m : String) : s'.mandate m = s.mandate m := by
  cases mandate_step (c := ⟨op, a⟩) hx m with
  | same h => exact h
  | insert st hc hb ha =>
    cases hc
    exact absurd rfl (hop _)
  | swap p st hc hb ha =>
    cases hc
    exact absurd rfl (hop _)

theorem attempt_frame {op : PortCall} {a : Answer op} (hx : Exec rt faults s op a s')
    (hop : ∀ c, op ≠ .store (.attempts c)) (k : String) : s'.attempt k = s.attempt k := by
  cases attempt_step (c := ⟨op, a⟩) hx k with
  | same h => exact h
  | insert x hi hc hb ha =>
    cases hc
    exact absurd rfl (hop _)
  | state x st hc hb ha =>
    cases hc
    exact absurd rfl (hop _)
  | deployment x d hc hb ha =>
    cases hc
    exact absurd rfl (hop _)

/-- A call of another store leaves mandates and attempts alone. -/
theorem untouched_of_ne {op : PortCall} {a : Answer op} (hx : Exec rt faults s op a s')
    (hm : ∀ c, op ≠ .store (.mandates c)) (ha : ∀ c, op ≠ .store (.attempts c)) :
    Untouched s s' :=
  ⟨mandate_frame hx hm, attempt_frame hx ha⟩

/-- A store call that fails changes no mandate and no attempt. -/
theorem untouched_of_error {sc : StoreCall} {e : StorageError}
    (hx : Exec rt faults s (.store sc) (.error e) s') : Untouched s s' := by
  rw [unchanged_of_error hx]
  exact .refl s

theorem request_get_noFaults {r : String} {x : StorageResult (Option ActionRequest)}
    (hx : Exec rt noFaults s (.store (.requests (.get r))) x s') :
    x = .ok (s.request r) ∧ s' = s := by
  obtain ⟨order, hr⟩ := exec_noFaults hx
  obtain ⟨rfl, rfl⟩ := Prod.mk.inj hr
  exact ⟨rfl, rfl⟩

theorem mandate_get_noFaults {m : String} {x : StorageResult (Option MandateProjection)}
    (hx : Exec rt noFaults s (.store (.mandates (.get m))) x s') :
    x = .ok (s.mandate m) ∧ s' = s := by
  obtain ⟨order, hr⟩ := exec_noFaults hx
  obtain ⟨rfl, rfl⟩ := Prod.mk.inj hr
  exact ⟨rfl, rfl⟩

theorem attempts_by_mandate_noFaults {m : String} {x : StorageResult (List ExecutionAttempt)}
    (hx : Exec rt noFaults s (.store (.attempts (.byMandate m))) x s') :
    (∃ rows, x = .ok rows) ∧ s' = s := by
  obtain ⟨order, hr⟩ := exec_noFaults hx
  obtain ⟨rfl, rfl⟩ := Prod.mk.inj hr
  exact ⟨⟨_, rfl⟩, rfl⟩

theorem mandate_swap_noFaults {m st : String} {v : Int64} {x : StorageResult CasOutcome}
    (hx : Exec rt noFaults s (.store (.mandates (.compareAndSwap m v st))) x s') :
    ∃ o, x = .ok o := by
  obtain ⟨order, hr⟩ := exec_noFaults hx
  obtain ⟨rfl, _⟩ := Prod.mk.inj hr
  rcases s.mandates.swap_cases m v st with ⟨_, h⟩ | ⟨p, _, _, h⟩ | ⟨p, t, _, _, h, _⟩
  · exact ⟨_, by rw [h]⟩
  · exact ⟨_, by rw [h]⟩
  · exact ⟨_, by rw [h]⟩

theorem request_swap_ok {r : String} {v : Int64} {st : ActionRequestStatus}
    {x : StorageResult CasOutcome}
    (hx : Exec rt noFaults s (.store (.requests (.compareAndSwap r v st))) x s') :
    ∃ o, x = .ok o := by
  obtain ⟨order, hr⟩ := exec_noFaults hx
  obtain ⟨rfl, _⟩ := Prod.mk.inj hr
  rcases s.requests.swap_cases r v st with ⟨_, h⟩ | ⟨q, _, _, h⟩ | ⟨q, t, _, _, h, _⟩
  · exact ⟨_, by rw [h]⟩
  · exact ⟨_, by rw [h]⟩
  · exact ⟨_, by rw [h]⟩

/-- Without faults a stored request is swapped when its version is presented. -/
theorem request_swap_noFaults {r : String} {st : ActionRequestStatus} {v : Int64}
    {x : StorageResult CasOutcome} {q : ActionRequest}
    (hx : Exec rt noFaults s (.store (.requests (.compareAndSwap r v st))) x s')
    (hq : s.request r = some q) (hv : v = s.requestVersion r) : ∃ w, x = .ok (.applied w) := by
  obtain ⟨order, hr⟩ := exec_noFaults hx
  obtain ⟨rfl, _⟩ := Prod.mk.inj hr
  rcases s.requests.swap_cases r v st with
    ⟨hn, _⟩ | ⟨q', _, hne, _⟩ | ⟨q', t, _, _, h, _, _⟩
  · rw [Stores.request, hn] at hq
    cases hq
  · exact absurd hv.symm hne
  · exact ⟨_, by rw [h]⟩

theorem audit_noFaults {ev : AuditEvent} {x : StorageResult Unit}
    (hx : Exec rt noFaults s (.store (.audit (.append ev))) x s') : x = .ok () := by
  obtain ⟨order, hr⟩ := exec_noFaults hx
  exact (Prod.mk.inj hr).1.symm

/-- Exactly the row `k` is now `x`. -/
def AttemptSet (s s' : Stores) (k : String) (x : ExecutionAttempt) : Prop :=
  ∀ k', s'.attempt k' = if k' = k then some x else s.attempt k'

theorem AttemptSet.self {k : String} {x : ExecutionAttempt} (h : AttemptSet s s' k x) :
    s'.attempt k = some x := (h k).trans (if_pos rfl)

theorem AttemptSet.of_frame {s₁ s₂ : Stores} {k : String} {x : ExecutionAttempt}
    (h : AttemptSet s s₁ k x) (hf : ∀ k, s₂.attempt k = s₁.attempt k) : AttemptSet s s₂ k x :=
  fun k' => (hf k').trans (h k')

theorem AttemptSet.after_frame {s₁ s₂ : Stores} {k : String} {x : ExecutionAttempt}
    (h : AttemptSet s₁ s₂ k x) (hf : ∀ k, s₁.attempt k = s.attempt k) : AttemptSet s s₂ k x := by
  intro k'
  rw [h k', hf k']

theorem AttemptSet.again {s₁ s₂ : Stores} {k : String} {x y : ExecutionAttempt}
    (h : AttemptSet s s₁ k x) (h' : AttemptSet s₁ s₂ k y) : AttemptSet s s₂ k y := by
  intro k'
  rw [h' k']
  split
  · rfl
  · next hk => rw [h k', if_neg hk]

/-- Without faults an insertion under a taken key fails, one under a free key succeeds. -/
theorem attempt_insert_noFaults {x : ExecutionAttempt} {r : StorageResult Unit}
    (hx : Exec rt noFaults s (.store (.attempts (.insert x))) r s') (hne : x.attemptIdHex ≠ "") :
    (s.attempt x.attemptIdHex = none ∧ r = .ok () ∧ AttemptSet s s' x.attemptIdHex x) ∨
      ∃ y e, s.attempt x.attemptIdHex = some y ∧ r = .error e := by
  obtain ⟨order, hr⟩ := exec_noFaults hx
  obtain ⟨rfl, rfl⟩ := Prod.mk.inj hr
  rcases insertIndexed_cases "attempt_id_hex" "execution attempt" s.attempts.attempts x with
    ⟨e, h⟩ | ⟨t, h, hnone, hget⟩
  · cases hget : s.attempt x.attemptIdHex with
    | none =>
      obtain ⟨t, ht⟩ := insertIndexed_fresh "attempt_id_hex" "execution attempt" hne hget
      rw [h] at ht
      cases ht
    | some y => exact Or.inr ⟨y, e, rfl, by rw [InMemoryExecutionAttemptStore.insert, h]⟩
  · refine Or.inl ⟨hnone, by rw [InMemoryExecutionAttemptStore.insert, h], fun k => ?_⟩
    simp only [Stores.attempt, InMemoryExecutionAttemptStore.insert, h, hget]

theorem attempt_state_noFaults {i : String} {st : ExecutionAttemptState} {r : StorageResult Unit}
    (hx : Exec rt noFaults s (.store (.attempts (.updateState i st))) r s') :
    (s.attempt i = none ∧ s' = s ∧ ∃ e, r = .error e) ∨
      ∃ a, s.attempt i = some a ∧ r = .ok () ∧ AttemptSet s s' i { a with state := st } := by
  obtain ⟨order, hr⟩ := exec_noFaults hx
  obtain ⟨rfl, rfl⟩ := Prod.mk.inj hr
  rcases s.attempts.updateState_cases i st with ⟨hn, h⟩ | ⟨a, t, ha, h, hget⟩
  · exact Or.inl ⟨hn, by rw [h], _, by rw [h]⟩
  · exact Or.inr ⟨a, ha, by rw [h], fun k => by simp only [Stores.attempt, h, hget]⟩

theorem attempt_deployment_noFaults {i : String} {d : UInt64} {r : StorageResult Unit}
    (hx : Exec rt noFaults s (.store (.attempts (.updateDeploymentId i d))) r s') :
    (s.attempt i = none ∧ s' = s ∧ ∃ e, r = .error e) ∨
      ∃ a, s.attempt i = some a ∧ r = .ok () ∧
        AttemptSet s s' i { a with githubDeploymentId := some d } := by
  obtain ⟨order, hr⟩ := exec_noFaults hx
  obtain ⟨rfl, rfl⟩ := Prod.mk.inj hr
  rcases s.attempts.updateDeploymentId_cases i d with ⟨hn, h⟩ | ⟨a, t, ha, h, hget⟩
  · exact Or.inl ⟨hn, by rw [h], _, by rw [h]⟩
  · exact Or.inr ⟨a, ha, by rw [h], fun k => by simp only [Stores.attempt, h, hget]⟩

end Piteka.Storage
