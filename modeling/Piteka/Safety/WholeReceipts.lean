import Piteka.Application.ProductionEffects
import Piteka.Application.StoreFaults
import Piteka.Application.WebhookScenario

/-!
# Receipts that are produced whole or not at all

A production inserts up to three nodes, the receipt and an audit event, each under `?`
and each under an id that depends on the attempt and the status alone. A failure behind
the first insertion leaves that node behind, and the next production for the same event
is refused by it: the redelivery that should produce the receipt cannot.
-/
namespace Piteka.Safety

set_option autoImplicit false

open Piteka.Interleaving Piteka.Interleaving.Program Piteka.Storage Piteka.Application

variable {rt : Runtime} {cd : Codec} {event : DeploymentStatusEvent} {s s' : Stores}

/-- A production that returns an error leaves the evidence nodes and the receipts as they were. -/
def AllOrNothing (s : Stores) (r : Except ReceiptProductionError ReceiptProductionResult)
    (s' : Stores) : Prop :=
  (∃ e, r = .error e) → s'.evidenceNodes = s.evidenceNodes ∧ s'.receipts = s.receipts

/-- Where a production from `s` succeeds so does one from `s'`, and it stores the same receipt. -/
structure RetriesAsUndisturbed (cd : Codec) (event : DeploymentStatusEvent) (s s' : Stores) :
    Prop where
  succeeds : (∀ r t, (produceReceiptFromWebhook cd event).run.Eval (Exec cd.toRuntime noFaults)
      s r t → ∃ y, r = .ok y) →
    ∀ r t, (produceReceiptFromWebhook cd event).run.Eval (Exec cd.toRuntime noFaults) s' r t →
      ∃ y, r = .ok y
  sameReceipt : ∀ y t, (produceReceiptFromWebhook cd event).run.Eval
      (Exec cd.toRuntime noFaults) s' (.ok y) t →
    ∃ t', (produceReceiptFromWebhook cd event).run.Eval (Exec cd.toRuntime noFaults) s (.ok y) t' ∧
      t'.receipts = t.receipts

/-- The first node id of the attempt's outcome is taken, or all node ids are unused and distinct
and so is the receipt id. -/
def FitsWhole (cd : Codec) (event : DeploymentStatusEvent) (s : Stores) (x : ExecutionAttempt) :
    Prop :=
  (∃ m, s.evidenceNode (event.firstNode cd x 0).nodeIdHex = some m) ∨
    Unused s (event.nodeIds cd x) ∧ s.receipt ("rcpt-" ++ x.attemptIdHex) = none

/-- The lookup of the attempt or the first insertion of a node. -/
def EarlyCall (cd : Codec) (event : DeploymentStatusEvent) (sc : StoreCall) : Prop :=
  sc = .attempts (.byDeploymentId event.deploymentId) ∨
    ∃ x now, sc = .evidenceNodes (.insert (event.firstNode cd x now))

/-! ## Without a failing call -/

/-- A stored node that was not there before is a change. -/
theorem not_whole_of_added {r : Except ReceiptProductionError ReceiptProductionResult}
    {k : String} {n : EvidenceNodeRecord} (hfree : s.evidenceNode k = none)
    (hstored : s'.evidenceNode k = some n) (hw : AllOrNothing s r s') : ∃ y, r = .ok y := by
  cases r with
  | ok y => exact ⟨y, rfl⟩
  | error e =>
    have hsame := (hw ⟨e, rfl⟩).1
    rw [Stores.evidenceNode, hsame] at hstored
    rw [Stores.evidenceNode, hstored] at hfree
    cases hfree

theorem recordOutcome_whole_iff {x : ExecutionAttempt} {now : Int64}
    {r : Except ReceiptProductionError ReceiptProductionResult}
    (he : (recordOutcome cd event x now).run.Eval (Exec rt noFaults) s r s') :
    AllOrNothing s r s' ↔ FitsWhole cd event s x := by
  rcases recordOutcome_first he with ⟨hm, _, rfl⟩ | ⟨hfree, hstored⟩
  · exact iff_of_true (fun _ => ⟨rfl, rfl⟩) (Or.inl hm)
  constructor
  · intro hw
    exact Or.inr ((recordOutcome_ok_iff he).mp (not_whole_of_added hfree hstored hw))
  · rintro (⟨m, hm⟩ | hunused)
    · rw [hfree] at hm
      cases hm
    · obtain ⟨y, rfl⟩ := (recordOutcome_ok_iff he).mpr hunused
      rintro ⟨e, h⟩
      cases h

/-- Without a failing call every production is whole or nothing exactly when the outcome of every
attempt that it may find fits. -/
theorem undisturbed_whole_iff :
    (∀ r s', (produceReceiptFromWebhook cd event).run.Eval (Exec rt noFaults) s r s' →
        AllOrNothing s r s') ↔ ∀ x, Records s event x → FitsWhole cd event s x := by
  constructor
  · intro hall x hx
    have he : (recordOutcome cd event x 0).run.Eval (Exec rt noFaults) s _ _ :=
      alone_eval (react_sound rt noFaults (.answering none)) _ s
    exact (recordOutcome_whole_iff he).mp (hall _ _ (production_of_found hx he))
  · intro hfit r s' he
    rcases production_alone he with ⟨_, _, rfl⟩ | ⟨x, now, hx, he⟩
    · exact fun _ => ⟨rfl, rfl⟩
    · exact (recordOutcome_whole_iff he).mpr (hfit x hx)

/-! ## With a failing call -/

theorem produceReceiptFromWebhook_failsFast (cd : Codec) (event : DeploymentStatusEvent) :
    FailsFast (produceReceiptFromWebhook cd event) := by
  refine failsFast_nowSeconds.seq fun now => failsFast_await.seq fun found => ?_
  cases found with
  | none => exact failsFast_throw
  | some x =>
    have hgap : FailsFast (storeGap cd event x now) := by
      unfold storeGap
      split
      · exact failsFast_await
      · exact failsFast_pure
    exact hgap.seq fun _ => failsFast_await.seq fun _ => failsFast_await.seq fun _ =>
      failsFast_await.seq fun _ => failsFast_await.seq fun _ => failsFast_pure

theorem produce_writes_no_attempt {h : Path} {op : PortCall}
    (hn : Next (produceReceiptFromWebhook cd event).run h op) : ¬ WritesAttempt op := by
  cases produceReceiptFromWebhook_next hn <;> exact id

/-- Before any call but the early ones the first node has been inserted. -/
theorem late_point {before : Path} {sc : StoreCall}
    (hp : ProducePoint cd event before (.store sc)) (hlate : ¬ EarlyCall cd event sc) :
    ∃ t x more, before = event.looked t (some x) ++
      nodeInserted (event.firstNode cd x t.toInt64) :: more := by
  have hfirst : ∀ t x more, before = event.looked t (some x) ++ (event.gapPath cd t x ++
      nodeInserted (event.observationNode cd x t.toInt64) :: more) →
      ∃ t x more, before = event.looked t (some x) ++
        nodeInserted (event.firstNode cd x t.toInt64) :: more := by
    intro t x more hb
    refine ⟨t, x, ?_⟩
    rw [hb]
    unfold DeploymentStatusEvent.gapPath DeploymentStatusEvent.firstNode
    split
    · exact ⟨_, rfl⟩
    · exact ⟨_, rfl⟩
  generalize hc : PortCall.store sc = op at hp
  cases hp with
  | clock => cases hc
  | lookup t =>
    cases hc
    exact absurd (Or.inl rfl) hlate
  | gap t x hu =>
    cases hc
    refine absurd (Or.inr ⟨x, t.toInt64, ?_⟩) hlate
    rw [DeploymentStatusEvent.firstNode, if_pos hu]
  | observation t x =>
    cases hc
    by_cases hu : event.outcome = .unknown
    · refine ⟨t, x, [], ?_⟩
      unfold DeploymentStatusEvent.gapStored DeploymentStatusEvent.gapPath
        DeploymentStatusEvent.firstNode
      rw [if_pos hu, if_pos hu]
    · refine absurd (Or.inr ⟨x, t.toInt64, ?_⟩) hlate
      rw [DeploymentStatusEvent.firstNode, if_neg hu]
  | claim t x => exact hfirst t x _ rfl
  | receipt t x => exact hfirst t x _ rfl
  | audit t x => exact hfirst t x _ rfl

/-- What the calls before a late one have done. -/
theorem late_steps {before : Path} {sc : StoreCall}
    (hp : ProducePoint cd event before (.store sc)) (hlate : ¬ EarlyCall cd event sc)
    (hs : Steps (Exec rt noFaults) s before s') :
    ∃ x now, Records s event x ∧
      s.evidenceNode (event.firstNode cd x 0).nodeIdHex = none ∧
      s'.evidenceNode (event.firstNode cd x 0).nodeIdHex = some (event.firstNode cd x now) := by
  obtain ⟨t, x, more, rfl⟩ := late_point hp hlate
  obtain ⟨s₁, hclock, s₂, hlook, s₃, hins, hmore⟩ := hs
  obtain rfl : s₁ = s := hclock
  obtain ⟨rfl, o, ho, hfound, _⟩ := by_deployment_noFaults hlook
  obtain rfl := Except.ok.inj ho
  have hne : (event.firstNode cd x t.toInt64).nodeIdHex ≠ "" :=
    nodes_ne_empty _ List.mem_cons_self
  refine ⟨x, t.toInt64, hfound x rfl, ?_⟩
  rw [← event.firstNode_id cd x t.toInt64]
  constructor
  · rcases node_insert_noFaults hins hne with ⟨_, _, _, h, _⟩ | ⟨hfree, _⟩
    · cases h
    · exact hfree
  · refine steps_keep (Q := fun u => u.evidenceNode (event.firstNode cd x t.toInt64).nodeIdHex =
      some (event.firstNode cd x t.toInt64)) (fun c _ u u' hx hu => ?_) hmore (node_inserted hins)
    exact (evidence_node_step hx _).kept hu

/-- No attempt changes on the way to a failing call. -/
theorem attempts_before {before rest : Path} {c : Answered}
    {r : Except ReceiptProductionError ReceiptProductionResult}
    (hr : Returns (produceReceiptFromWebhook cd event).run (before ++ c :: rest) r)
    (hs : Steps (Exec rt noFaults) s before s') (k : String) : s'.attempt k = s.attempt k := by
  refine steps_keep (Q := fun u => u.attempt k = s.attempt k) (fun d hd u u' hx hu => ?_) hs rfl
  rw [← hu]
  refine attempt_stands hx ?_ k
  obtain ⟨l₁, l₂, rfl⟩ := List.append_of_mem hd
  rw [List.append_assoc] at hr
  exact produce_writes_no_attempt (next_of_returns hr)

/-- A production whose first node is taken is refused and changes nothing. -/
theorem refused_again {x : ExecutionAttempt} (hx : Records s event x) {m : EvidenceNodeRecord}
    (hm : s.evidenceNode (event.firstNode cd x 0).nodeIdHex = some m) :
    ∃ e, (produceReceiptFromWebhook cd event).run.Eval (Exec rt noFaults) s (.error e) s := by
  have he : (recordOutcome cd event x 0).run.Eval (Exec rt noFaults) s _ _ :=
    alone_eval (react_sound rt noFaults (.answering none)) _ s
  rcases recordOutcome_first he with ⟨_, ⟨e, hr⟩, hsame⟩ | ⟨hfree, _⟩
  · rw [hr, hsame] at he
    exact ⟨e, production_of_found hx he⟩
  · rw [hm] at hfree
    cases hfree

theorem retries_from_same : RetriesAsUndisturbed cd event s s where
  succeeds h := h
  sameReceipt _ t he := ⟨t, he, rfl⟩

theorem claim_not_early {x : ExecutionAttempt} {now : Int64} :
    ¬ EarlyCall cd event (.evidenceNodes (.insert (event.claimNode cd x now))) := by
  rintro (h | ⟨y, later, h⟩)
  · cases h
  have hnode : event.claimNode cd x now = event.firstNode cd y later := by
    injection h with h
    injection h
  have hreg := congrArg EvidenceNodeRecord.registryId hnode
  unfold DeploymentStatusEvent.firstNode at hreg
  split at hreg
  · exact absurd (show "org.diewan.evidence.claim.v1" = "org.diewan.evidence.gap.v1" from hreg)
      (by decide)
  · exact absurd
      (show "org.diewan.evidence.claim.v1" = "org.diewan.evidence.observation.v1" from hreg)
      (by decide)

theorem observation_early {x : ExecutionAttempt} {now : Int64}
    (h : EarlyCall cd event (.evidenceNodes (.insert (event.observationNode cd x now)))) :
    event.outcome ≠ .unknown := by
  intro hu
  rcases h with h | ⟨y, later, h⟩
  · cases h
  have hnode : event.observationNode cd x now = event.firstNode cd y later := by
    injection h with h
    injection h
  have hreg := congrArg EvidenceNodeRecord.registryId hnode
  rw [DeploymentStatusEvent.firstNode, if_pos hu] at hreg
  exact absurd
    (show "org.diewan.evidence.observation.v1" = "org.diewan.evidence.gap.v1" from hreg) (by decide)

theorem looked_steps {t : UInt64} {o : Option ExecutionAttempt}
    (hs : Steps (Exec rt noFaults) s (event.looked t o) s') : s' = s := by
  obtain ⟨s₁, hclock, s₂, hlook, hend⟩ := hs
  rw [show s' = s₂ from hend, (by_deployment_noFaults hlook).1, show s₁ = s from hclock]

/-- An early call fails before anything has changed. -/
theorem early_point {before : Path} {sc : StoreCall}
    (hp : ProducePoint cd event before (.store sc)) (hearly : EarlyCall cd event sc)
    (hs : Steps (Exec rt noFaults) s before s') : s' = s := by
  generalize hc : PortCall.store sc = op at hp
  cases hp with
  | clock => cases hc
  | lookup t =>
    obtain ⟨s₁, hclock, hend⟩ := hs
    rw [show s' = s₁ from hend, show s₁ = s from hclock]
  | gap t x hu => exact looked_steps hs
  | observation t x =>
    cases hc
    unfold DeploymentStatusEvent.gapStored DeploymentStatusEvent.gapPath at hs
    rw [if_neg (observation_early hearly), List.append_nil] at hs
    exact looked_steps hs
  | claim t x =>
    cases hc
    exact absurd hearly claim_not_early
  | receipt t x =>
    cases hc
    rcases hearly with h | ⟨_, _, h⟩ <;> cases h
  | audit t x =>
    cases hc
    rcases hearly with h | ⟨_, _, h⟩ <;> cases h

/-- Receipts are produced whole or not at all in exactly these cases: without a failing call when
the outcome of every attempt that may be found fits, and with one when the failing call is the
lookup or the first insertion. A retry after any other failing call may be refused. -/
theorem production_whole_iff (cd : Codec) (event : DeploymentStatusEvent) (s : Stores) :
    ((∀ r s', (produceReceiptFromWebhook cd event).run.Eval (Exec cd.toRuntime noFaults) s r s' →
        AllOrNothing s r s') ↔ ∀ x, Records s event x → FitsWhole cd event s x) ∧
      ∀ before sc e r s', EvalWithFault (Exec cd.toRuntime noFaults)
          (produceReceiptFromWebhook cd event).run s before ⟨.store sc, .error e⟩ r s' →
        r = .error (.storage e) ∧
          (AllOrNothing s r s' ∧ RetriesAsUndisturbed cd event s s' ↔ EarlyCall cd event sc) ∧
          (¬ EarlyCall cd event sc → ∃ e', (produceReceiptFromWebhook cd event).run.Eval
            (Exec cd.toRuntime noFaults) s' (.error e') s') := by
  refine ⟨undisturbed_whole_iff, ?_⟩
  rintro before sc e r s' ⟨rest, t, hr, hbefore, hafter⟩
  obtain ⟨rfl, hres⟩ := produceReceiptFromWebhook_failsFast cd event _ _ _ _ _ hr
  obtain rfl : s' = t := hafter
  have hp := produceReceiptFromWebhook_next (next_of_returns hr)
  refine ⟨hres, ?_⟩
  by_cases hearly : EarlyCall cd event sc
  · rw [early_point hp hearly hbefore]
    exact ⟨iff_of_true ⟨fun _ => ⟨rfl, rfl⟩, retries_from_same⟩ hearly, fun h => absurd hearly h⟩
  · obtain ⟨x, now, hx, hfree, hstored⟩ := late_steps hp hearly hbefore
    refine ⟨iff_of_false (fun h => ?_) hearly, fun _ => ?_⟩
    · obtain ⟨y, hy⟩ := not_whole_of_added hfree hstored h.1
      rw [hres] at hy
      cases hy
    · refine refused_again ⟨?_, hx.2⟩ hstored
      rw [attempts_before hr hbefore, hx.1]

/-! ## A receipt store that is down once -/

def insertsReceipt : StoreCall → Bool
  | .receipts (.insert _) => true
  | _ => false

def interrupted : Option (Faulted (Except ReceiptProductionError ReceiptProductionResult)) :=
  faulted sampleCodec.toRuntime (.answering none) insertsReceipt (.backend "down")
    (produceReceiptFromWebhook sampleCodec (sampleEvent "success" 200)).run
    (recording sampleAttempt)

/-- Undisturbed, the production succeeds from the stores with the one attempt. -/
theorem recording_succeeds {r : Except ReceiptProductionError ReceiptProductionResult} {t : Stores}
    (he : (produceReceiptFromWebhook sampleCodec (sampleEvent "success" 200)).run.Eval
      (Exec sampleCodec.toRuntime noFaults) (recording sampleAttempt) r t) : ∃ y, r = .ok y := by
  rcases production_alone he with ⟨hnone, _⟩ | ⟨x, now, hx, he⟩
  · exact absurd ⟨by decide +kernel, rfl⟩ (hnone sampleAttempt)
  · obtain rfl := of_recording (by decide) hx.1
    refine (recordOutcome_ok_iff he).mpr ⟨⟨by decide +kernel, fun k _ => rfl⟩, rfl⟩

/-- The insertion of the receipt fails once: both nodes stay, and a production for the same event
is refused by them although the first would have succeeded. -/
theorem interrupted_receipt_blocks_retry :
    ∃ before sc s', EvalWithFault (Exec sampleCodec.toRuntime noFaults)
        (produceReceiptFromWebhook sampleCodec (sampleEvent "success" 200)).run
        (recording sampleAttempt) before ⟨.store sc, .error (.backend "down")⟩
        (.error (.storage (.backend "down"))) s' ∧
      ¬ AllOrNothing (recording sampleAttempt) (.error (.storage (.backend "down"))) s' ∧
      ¬ RetriesAsUndisturbed sampleCodec (sampleEvent "success" 200)
        (recording sampleAttempt) s' := by
  have hplay : interrupted.any fun y => y.result = .error (.storage (.backend "down")) &&
      (y.state.attempt "att-m-1" = some sampleAttempt) &&
      (y.state.evidenceNode
        ((sampleEvent "success" 200).firstNode sampleCodec sampleAttempt 0).nodeIdHex).isSome := by
    decide +kernel
  obtain ⟨y, hy, hcheck⟩ := (Option.any_eq_true _ _).mp hplay
  simp only [Bool.and_eq_true, decide_eq_true_eq] at hcheck
  obtain ⟨⟨hresult, hattempt⟩, hnode⟩ := hcheck
  obtain ⟨m, hm⟩ := Option.isSome_iff_exists.mp hnode
  refine ⟨y.before, y.call, y.state, hresult ▸ faulted_sound hy, fun hw => ?_, fun hretry => ?_⟩
  · obtain ⟨_, h⟩ := not_whole_of_added rfl hm hw
    cases h
  · obtain ⟨e, he⟩ : ∃ e, (produceReceiptFromWebhook sampleCodec (sampleEvent "success" 200)).run.Eval
        (Exec sampleCodec.toRuntime noFaults) y.state (.error e) y.state :=
      refused_again ⟨hattempt, rfl⟩ hm
    obtain ⟨_, h⟩ := hretry.succeeds (fun _ _ => recording_succeeds) _ _ he
    cases h

end Piteka.Safety
