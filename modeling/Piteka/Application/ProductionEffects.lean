import Piteka.Application.TerminalDeliveries

/-!
# What a production leaves behind

Once it has found the attempt, a production inserts its nodes one after the other and
then the receipt. The insertions go through exactly when all ids are new; a refusal on
the way leaves what stands before it.
-/
namespace Piteka.Application

set_option autoImplicit false

open Piteka.Interleaving Piteka.Interleaving.Program Piteka.Storage

variable {rt : Runtime} {cd : Codec} {event : DeploymentStatusEvent} {s s' : Stores}

/-! ## Nodes one after the other -/

/-- The nodes are inserted one after the other, up to the first refusal. -/
def insertNodes {ε : Type} [FromStorageError ε] : List EvidenceNodeRecord → UseCase ε Unit
  | [] => return ()
  | n :: ns => do
    await (.evidenceNodes (.insert n))
    insertNodes ns

theorem insertNodes_nil {ε : Type} [FromStorageError ε] :
    (insertNodes [] : UseCase ε Unit) = return () := rfl

theorem insertNodes_cons {ε : Type} [FromStorageError ε] (n : EvidenceNodeRecord)
    (ns : List EvidenceNodeRecord) :
    (insertNodes (n :: ns) : UseCase ε Unit) =
      await (.evidenceNodes (.insert n)) >>= fun _ => insertNodes ns := rfl

attribute [irreducible] insertNodes

/-- The ids are unused and differ from one another. -/
def Unused (s : Stores) (ids : List String) : Prop :=
  ids.Nodup ∧ ∀ k ∈ ids, s.evidenceNode k = none

/-- Alone, the insertion of a node is refused without effect, or adds exactly its row. -/
theorem insertNode_alone {ε : Type} [FromStorageError ε] {n : EvidenceNodeRecord}
    {r : Except ε Unit} (hne : n.nodeIdHex ≠ "")
    (he : (await (.evidenceNodes (.insert n))).run.Eval (Exec rt noFaults) s r s') :
    ((∃ m, s.evidenceNode n.nodeIdHex = some m) ∧ (∃ e, r = .error e) ∧ s' = s) ∨
      (s.evidenceNode n.nodeIdHex = none ∧ r = .ok () ∧ s'.receipts = s.receipts ∧
        ∀ k, s'.evidenceNode k = if k = n.nodeIdHex then some n else s.evidenceNode k) := by
  rcases eval_await.mp he with ⟨e, hx, rfl⟩ | ⟨_, hx, rfl⟩
  · rcases node_insert_noFaults hx hne with ⟨m, _, hm, _, hsame⟩ | ⟨_, h⟩
    · exact Or.inl ⟨⟨m, hm⟩, ⟨_, rfl⟩, hsame⟩
    · cases h
  rcases node_insert_noFaults hx hne with ⟨_, _, _, h, _⟩ | ⟨hnone, _⟩
  · cases h
  refine Or.inr ⟨hnone, rfl, ?_, fun k => ?_⟩
  · obtain ⟨order, hr⟩ := exec_noFaults hx
    obtain ⟨_, rfl⟩ := Prod.mk.inj hr
    rfl
  · by_cases hk : k = n.nodeIdHex
    · rw [if_pos hk, hk]
      exact node_inserted hx
    · rw [if_neg hk]
      cases evidence_node_step (c := nodeInserted n) hx k with
      | same h => exact h
      | add m hm hc _ _ =>
        cases hc
        exact absurd hm.symm hk

theorem unused_cons {k : String} {ids : List String} {n : EvidenceNodeRecord}
    (hn : n.nodeIdHex = k) (hfree : s.evidenceNode k = none)
    (hrows : ∀ j, s'.evidenceNode j = if j = k then some n else s.evidenceNode j) :
    Unused s (k :: ids) ↔ Unused s' ids := by
  constructor
  · rintro ⟨hnodup, hall⟩
    obtain ⟨hk, hnodup⟩ := List.nodup_cons.mp hnodup
    refine ⟨hnodup, fun j hj => ?_⟩
    have hne : j ≠ k := fun h => hk (h ▸ hj)
    rw [hrows j, if_neg hne]
    exact hall j (List.mem_cons_of_mem k hj)
  · rintro ⟨hnodup, hall⟩
    have hother : ∀ j ∈ ids, j ≠ k := by
      intro j hj hjk
      have hrow := hall j hj
      rw [hrows j, if_pos hjk] at hrow
      cases hrow
    refine ⟨List.nodup_cons.mpr ⟨fun hk => hother k hk rfl, hnodup⟩, fun j hj => ?_⟩
    rcases List.mem_cons.mp hj with rfl | hj
    · exact hfree
    · have hrow := hall j hj
      rw [hrows j, if_neg (hother j hj)] at hrow
      exact hrow

/-- Alone, the insertions succeed exactly when all ids are unused and distinct. -/
theorem insertNodes_ok_iff {ε : Type} [FromStorageError ε] {ns : List EvidenceNodeRecord}
    {r : Except ε Unit} (hne : ∀ n ∈ ns, n.nodeIdHex ≠ "")
    (he : (insertNodes ns).run.Eval (Exec rt noFaults) s r s') :
    (r = .ok () ↔ Unused s (ns.map (·.nodeIdHex))) ∧ s'.receipts = s.receipts := by
  induction ns generalizing s with
  | nil =>
    rw [insertNodes_nil] at he
    obtain ⟨rfl, rfl⟩ := eval_pure.mp he
    exact ⟨iff_of_true rfl ⟨List.nodup_nil, by simp⟩, rfl⟩
  | cons n ns ih =>
    rw [insertNodes_cons] at he
    rcases eval_seq.mp he with ⟨e, h1, rfl⟩ | ⟨_, s₁, h1, h2⟩
    · rcases insertNode_alone (hne n List.mem_cons_self) h1 with ⟨⟨m, hm⟩, _, rfl⟩ | ⟨_, h, _⟩
      · refine ⟨iff_of_false (by simp) fun h => ?_, rfl⟩
        have hnone := h.2 n.nodeIdHex List.mem_cons_self
        rw [hm] at hnone
        cases hnone
      · cases h
    · rcases insertNode_alone (hne n List.mem_cons_self) h1 with
        ⟨_, ⟨e, h⟩, _⟩ | ⟨hfree, _, hreceipts, hrows⟩
      · cases h
      obtain ⟨hok, hrest⟩ := ih (fun m hm => hne m (List.mem_cons_of_mem n hm)) h2
      exact ⟨hok.trans (unused_cons rfl hfree hrows).symm, hrest.trans hreceipts⟩

section
variable {ε α : Type} {faults : StoreCall → Prop} {p : UseCase ε α} {r : Except ε α} {k : String}

/-- Whatever runs, a row of a store that only adds rows stays. -/
theorem eval_row_kept {V : Type} {written : V → Answered} {fits : V → Prop}
    {get : Stores → Option V}
    (step : ∀ {t t' : Stores} {c : Answered}, Exec rt faults t c.1 c.2 t' →
      AddStep written (get t) (get t') c fits)
    (he : p.run.Eval (Exec rt faults) s r s') {v : V} (hv : get s = some v) : get s' = some v := by
  refine eval_keeps (Q := fun t => get t = some v) (fun _ op _ t a t' hx ht => ?_) he hv
  exact (step (c := ⟨op, a⟩) hx).kept ht

theorem node_kept {n : EvidenceNodeRecord} (he : p.run.Eval (Exec rt faults) s r s')
    (hn : s.evidenceNode k = some n) : s'.evidenceNode k = some n :=
  eval_row_kept (evidence_node_step · k) he hn

theorem receipt_kept {q : ReceiptProjection} (he : p.run.Eval (Exec rt faults) s r s')
    (hq : s.receipt k = some q) : s'.receipt k = some q :=
  eval_row_kept (receipt_add_step · k) he hq

end

/-! ## The production after its lookup -/

namespace DeploymentStatusEvent

variable (cd : Codec) (event : DeploymentStatusEvent) (x : ExecutionAttempt) (now : Int64)

/-- The node that a production inserts first. -/
def firstNode : EvidenceNodeRecord :=
  if event.outcome = .unknown then gapNode cd x now else event.observationNode cd x now

def laterNodes : List EvidenceNodeRecord :=
  if event.outcome = .unknown then [event.observationNode cd x now, event.claimNode cd x now]
  else [event.claimNode cd x now]

/-- The ids of all nodes, which do not depend on the time. -/
def nodeIds : List String :=
  ((event.firstNode cd x 0) :: event.laterNodes cd x 0).map (·.nodeIdHex)

theorem nodeIds_eq :
    ((event.firstNode cd x now) :: event.laterNodes cd x now).map (·.nodeIdHex) =
      event.nodeIds cd x := by
  unfold nodeIds firstNode laterNodes
  split
  · rfl
  · rfl

theorem firstNode_id :
    (event.firstNode cd x now).nodeIdHex = (event.firstNode cd x 0).nodeIdHex := by
  unfold firstNode
  split
  · rfl
  · rfl

end DeploymentStatusEvent

theorem nodes_ne_empty {x : ExecutionAttempt} {now : Int64} :
    ∀ n ∈ event.firstNode cd x now :: event.laterNodes cd x now, n.nodeIdHex ≠ "" := by
  intro n hn
  unfold DeploymentStatusEvent.firstNode DeploymentStatusEvent.laterNodes at hn
  split at hn <;> simp only [List.mem_cons, List.not_mem_nil, or_false] at hn
  · rcases hn with rfl | rfl | rfl <;> exact nodeIdOf_ne_empty cd.toRuntime _
  · rcases hn with rfl | rfl <;> exact nodeIdOf_ne_empty cd.toRuntime _

/-- The production once it has found the attempt. -/
def recordOutcome (cd : Codec) (event : DeploymentStatusEvent) (x : ExecutionAttempt)
    (now : Int64) : UseCase ReceiptProductionError ReceiptProductionResult := do
  insertNodes (event.firstNode cd x now :: event.laterNodes cd x now)
  await (.receipts (.insert (event.receipt cd x now)))
  await (.audit (.append (event.producedEvent x now)))
  return event.result cd x now

theorem recordOutcome_eq (cd : Codec) (event : DeploymentStatusEvent) (x : ExecutionAttempt)
    (now : Int64) :
    recordOutcome cd event x now = (do
      storeGap cd event x now
      await (.evidenceNodes (.insert (event.observationNode cd x now)))
      await (.evidenceNodes (.insert (event.claimNode cd x now)))
      await (.receipts (.insert (event.receipt cd x now)))
      await (.audit (.append (event.producedEvent x now)))
      return event.result cd x now) := by
  unfold recordOutcome storeGap DeploymentStatusEvent.firstNode DeploymentStatusEvent.laterNodes
  split <;> simp only [insertNodes_cons, insertNodes_nil, bind_assoc, pure_bind]

theorem produceReceiptFromWebhook_eq (cd : Codec) (event : DeploymentStatusEvent) :
    produceReceiptFromWebhook cd event = (do
      let now ← nowSeconds
      match ← await (.attempts (.byDeploymentId event.deploymentId)) with
      | none => throw (.attemptNotFound
          ("no attempt found for deployment_id=" ++ toString event.deploymentId.toNat))
      | some x => recordOutcome cd event x now) := by
  refine bind_congr fun now => bind_congr fun found => ?_
  cases found with
  | none => rfl
  | some x => exact (recordOutcome_eq cd event x now).symm

/-- Alone, a production that has found its attempt succeeds exactly when all its ids are unused. -/
theorem recordOutcome_ok_iff {x : ExecutionAttempt} {now : Int64}
    {r : Except ReceiptProductionError ReceiptProductionResult}
    (he : (recordOutcome cd event x now).run.Eval (Exec rt noFaults) s r s') :
    (∃ y, r = .ok y) ↔
      Unused s (event.nodeIds cd x) ∧ s.receipt ("rcpt-" ++ x.attemptIdHex) = none := by
  rw [← event.nodeIds_eq cd x now]
  rcases eval_seq.mp he with ⟨e, h1, rfl⟩ | ⟨_, s₁, h1, h2⟩
  · have hused := (insertNodes_ok_iff nodes_ne_empty h1).1
    refine iff_of_false (by simp) fun h => ?_
    cases hused.mpr h.1
  obtain ⟨hok, hreceipts⟩ := insertNodes_ok_iff nodes_ne_empty h1
  have hunused := hok.mp rfl
  have hsame : s₁.receipt ("rcpt-" ++ x.attemptIdHex) = s.receipt ("rcpt-" ++ x.attemptIdHex) := by
    rw [Stores.receipt, hreceipts, Stores.receipt]
  rcases eval_seq.mp h2 with ⟨e, h3, rfl⟩ | ⟨_, s₂, h3, h4⟩
  · rcases eval_await.mp h3 with ⟨e', hx, _⟩ | ⟨_, _, h⟩
    · rcases receipt_insert_noFaults hx (receiptId_ne_empty _) with ⟨q, _, hq, _⟩ | ⟨_, h⟩
      · refine iff_of_false (by simp) fun h => ?_
        have hsome : s₁.receipt ("rcpt-" ++ x.attemptIdHex) = some q := hq
        rw [hsame, h.2] at hsome
        cases hsome
      · cases h
    · cases h
  rcases eval_await.mp h3 with ⟨e', _, h⟩ | ⟨_, hx, _⟩
  · cases h
  have hnew : s.receipt ("rcpt-" ++ x.attemptIdHex) = none := by
    rcases receipt_insert_noFaults hx (receiptId_ne_empty _) with ⟨_, _, _, h, _⟩ | ⟨hnone, _⟩
    · cases h
    · exact hsame.symm.trans hnone
  refine iff_of_true ?_ ⟨hunused, hnew⟩
  rcases eval_seq.mp h4 with ⟨e, h5, rfl⟩ | ⟨_, s₃, h5, h6⟩
  · rcases eval_await.mp h5 with ⟨e', hau, _⟩ | ⟨_, _, h⟩
    · cases audit_noFaults hau
    · cases h
  · exact ⟨_, (eval_pure.mp h6).1⟩

/-- A production that succeeds has stored its receipt. -/
theorem recordOutcome_receipt {x : ExecutionAttempt} {now : Int64} {y : ReceiptProductionResult}
    (he : (recordOutcome cd event x now).run.Eval (Exec rt noFaults) s (.ok y) s') :
    s'.receipt ("rcpt-" ++ x.attemptIdHex) = some (event.receipt cd x now) := by
  rcases eval_seq.mp he with ⟨_, _, h⟩ | ⟨_, s₁, _, h2⟩
  · cases h
  rcases eval_seq.mp h2 with ⟨_, _, h⟩ | ⟨_, s₂, h3, h4⟩
  · cases h
  rcases eval_await.mp h3 with ⟨_, _, h⟩ | ⟨_, hx, _⟩
  · cases h
  · exact receipt_kept h4 (receipt_inserted hx)

/-- Alone, it stops at its first node, or has stored it. -/
theorem recordOutcome_first {x : ExecutionAttempt} {now : Int64}
    {r : Except ReceiptProductionError ReceiptProductionResult}
    (he : (recordOutcome cd event x now).run.Eval (Exec rt noFaults) s r s') :
    ((∃ m, s.evidenceNode (event.firstNode cd x 0).nodeIdHex = some m) ∧ (∃ e, r = .error e) ∧
        s' = s) ∨
      (s.evidenceNode (event.firstNode cd x 0).nodeIdHex = none ∧
        s'.evidenceNode (event.firstNode cd x 0).nodeIdHex = some (event.firstNode cd x now)) := by
  rw [← event.firstNode_id cd x now]
  have hne : (event.firstNode cd x now).nodeIdHex ≠ "" := nodes_ne_empty _ List.mem_cons_self
  unfold recordOutcome at he
  rw [insertNodes_cons, bind_assoc] at he
  rcases eval_seq.mp he with ⟨e, h1, rfl⟩ | ⟨_, s₁, h1, h2⟩
  · rcases insertNode_alone hne h1 with ⟨hm, _, rfl⟩ | ⟨_, h, _⟩
    · exact Or.inl ⟨hm, ⟨e, rfl⟩, rfl⟩
    · cases h
  · rcases insertNode_alone hne h1 with ⟨_, ⟨e, h⟩, _⟩ | ⟨hfree, _, _, hrows⟩
    · cases h
    · refine Or.inr ⟨hfree, node_kept h2 ?_⟩
      rw [hrows, if_pos rfl]

/-! ## The lookup -/

/-- The attempt is stored and records the deployment of the event. -/
def Records (s : Stores) (event : DeploymentStatusEvent) (x : ExecutionAttempt) : Prop :=
  s.attempt x.attemptIdHex = some x ∧ x.githubDeploymentId = some event.deploymentId

/-- The order in which `x` comes first. -/
def orderFinding (x : ExecutionAttempt) : HashOrder where
  __ := HashOrder.asListed
  attempts l := l.filter (fun y => decide (y = x)) ++ l.filter fun y => !decide (y = x)
  attempts_perm l := List.filter_append_perm _ l

/-- Whichever attempt records the deployment, the lookup may find it. -/
theorem may_find {x : ExecutionAttempt} (hx : Records s event x) :
    Exec rt noFaults s (.store (.attempts (.byDeploymentId event.deploymentId))) (.ok (some x)) s := by
  refine Or.inl ⟨orderFinding x, ?_⟩
  have hmem : x ∈ s.attempts.attempts.values := (Table.Keyed.mem_values _ _).mpr hx.1
  have hfound : (s.attempts.attempts.values.filter fun y => decide (y = x)).find?
      (fun a => a.githubDeploymentId == some event.deploymentId) = some x := by
    cases hfind : (s.attempts.attempts.values.filter fun y => decide (y = x)).find?
        (fun a => a.githubDeploymentId == some event.deploymentId) with
    | none =>
      have hfirst : x ∈ s.attempts.attempts.values.filter fun y => decide (y = x) :=
        List.mem_filter.mpr ⟨hmem, decide_eq_true rfl⟩
      have hmiss := List.find?_eq_none.mp hfind x hfirst
      rw [hx.2] at hmiss
      exact absurd (beq_self_eq_true _) hmiss
    | some y =>
      have hy := (List.mem_filter.mp (List.mem_of_find?_eq_some hfind)).2
      rw [of_decide_eq_true hy]
  simp only [StoreCall.run, InMemoryExecutionAttemptStore.byDeploymentId, orderFinding,
    List.find?_append, hfound, Option.some_or]

/-- A production alone: the lookup found nothing and nothing changed, or it found an attempt that
records the deployment and went on from the same stores. -/
theorem production_alone {r : Except ReceiptProductionError ReceiptProductionResult}
    (he : (produceReceiptFromWebhook cd event).run.Eval (Exec rt noFaults) s r s') :
    ((∀ x, ¬ Records s event x) ∧ (∃ e, r = .error e) ∧ s' = s) ∨
      ∃ x now, Records s event x ∧
        (recordOutcome cd event x now).run.Eval (Exec rt noFaults) s r s' := by
  rw [produceReceiptFromWebhook_eq] at he
  obtain ⟨t, s₁, hclock, he⟩ := he
  obtain rfl : s₁ = s := hclock
  rcases eval_seq.mp he with ⟨e, h1, rfl⟩ | ⟨o, s₂, h1, h2⟩
  · rcases eval_await.mp h1 with ⟨e', hx, _⟩ | ⟨_, _, h⟩
    · obtain ⟨_, _, h, _⟩ := by_deployment_noFaults hx
      cases h
    · cases h
  rcases eval_await.mp h1 with ⟨_, _, h⟩ | ⟨o', hx, ho⟩
  · cases h
  obtain rfl := Except.ok.inj ho
  obtain ⟨rfl, o', ho', hfound, hnone⟩ := by_deployment_noFaults hx
  obtain rfl := Except.ok.inj ho'
  cases o with
  | none =>
    obtain ⟨rfl, hs⟩ := eval_throw.mp h2
    exact Or.inl ⟨fun x hx => hnone rfl _ x hx.1 hx.2, ⟨_, rfl⟩, hs⟩
  | some x => exact Or.inr ⟨x, t.toInt64, hfound x rfl, h2⟩

/-- What may follow the lookup of an attempt may follow the whole production. -/
theorem production_of_found {x : ExecutionAttempt} (hx : Records s event x)
    {r : Except ReceiptProductionError ReceiptProductionResult}
    (he : (recordOutcome cd event x 0).run.Eval (Exec rt noFaults) s r s') :
    (produceReceiptFromWebhook cd event).run.Eval (Exec rt noFaults) s r s' := by
  rw [produceReceiptFromWebhook_eq]
  refine ⟨(0 : UInt64), s, rfl, eval_seq.mpr (Or.inr ⟨some x, s, ?_, he⟩)⟩
  exact eval_await.mpr (Or.inr ⟨some x, may_find hx, rfl⟩)

end Piteka.Application
