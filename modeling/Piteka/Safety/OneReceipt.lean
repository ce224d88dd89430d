import Piteka.Application.WebhookScenario

/-!
# One receipt for an attempt

Any number of terminal deliveries of one deployment are processed at the same
time. A processor that is refused an insertion has found the row of another one,
and that one went further: so some processor comes through to the receipt, and it
did so behind its own two nodes. The hash needs no collision among the five texts
that these deliveries hash for node ids.
-/
namespace Piteka.Safety

set_option autoImplicit false

open Piteka.Interleaving Piteka.Interleaving.Program Piteka.Storage Piteka.Application

/-- The processors of some deliveries, each at its start. -/
def processors {ι : Type} (cd : Codec) (deliveries : ι → Delivery) (i : ι) :
    Program PortCall Answer (Except WebhookError Unit) :=
  ((deliveries i).process cd).run

/-- The attempt `x` is the only one that records the deployment `d`. -/
structure OnlyRecord (s : Stores) (x : ExecutionAttempt) (d : UInt64) : Prop where
  stored : s.attempt x.attemptIdHex = some x
  records : x.githubDeploymentId = some d
  only : ∀ k y, s.attempt k = some y → y.githubDeploymentId = some d → y = x

theorem OnlyRecord.of_same {s t : Stores} {x : ExecutionAttempt} {d : UInt64}
    (only : OnlyRecord s x d) (hsame : ∀ k, t.attempt k = s.attempt k) : OnlyRecord t x d where
  stored := (hsame _).trans only.stored
  records := only.records
  only k y hy hd := only.only k y ((hsame k).symm.trans hy) hd

/-- The lookup by deployment finds the only attempt that records it. -/
theorem OnlyRecord.found {rt : Runtime} {s s' : Stores} {x : ExecutionAttempt} {d : UInt64}
    {a : StorageResult (Option ExecutionAttempt)} (only : OnlyRecord s x d)
    (hx : Exec rt noFaults s (.store (.attempts (.byDeploymentId d))) a s') :
    a = .ok (some x) := by
  obtain ⟨_, o, rfl, hsome, hnone⟩ := by_deployment_noFaults hx
  cases o with
  | none => exact absurd only.records (hnone rfl _ x only.stored)
  | some y =>
    obtain ⟨hy, hd⟩ := hsome y rfl
    rw [only.only _ y hy hd]

/-- Neither a receipt nor an evidence node of a terminal status is stored for `x`. -/
structure NoEvidence (rt : Runtime) (s : Stores) (x : ExecutionAttempt) : Prop where
  noReceipt : ∀ k q, s.receipt k = some q → q.attemptIdHex ≠ x.attemptIdHex
  noRow : s.receipt ("rcpt-" ++ x.attemptIdHex) = none
  noNode : ∀ text ∈ terminalTexts x, s.evidenceNode (nodeIdOf rt text) = none

section
variable {ι : Type} [DecidableEq ι] {cd : Codec} {deliveries : ι → Delivery}
  {faults : StoreCall → Prop} {s₀ s : Stores} {log : List (Event ι)}
  {p : ι → Program PortCall Answer (Except WebhookError Unit)}

theorem processors_keep_attempts
    (run : Run (Exec cd.toRuntime faults) s₀ (processors cd deliveries) log s p) {e : Event ι}
    (he : e ∈ log) (k : String) : e.before.attempt k = s₀.attempt k := by
  obtain ⟨l₁, l₂, rfl⟩ := List.append_of_mem he
  obtain ⟨⟨p', run'⟩, _⟩ := run.at_entry
  refine attempts_stand run'.trace (fun f hf => ?_) k
  obtain ⟨l₃, l₄, rfl⟩ := List.append_of_mem hf
  exact process_writes_no_attempt run'.at_entry.2

/-- What the processors of the terminal deliveries for the deployment `d` start from. -/
structure Terminal (cd : Codec) (deliveries : ι → Delivery) (events : ι → DeploymentStatusEvent)
    (d : UInt64) : Prop where
  reports : ∀ i, (deliveries i).Reports cd (events i)
  deployment : ∀ i, (events i).deploymentId = d
  state : ∀ i, isTerminalStatus (events i).state

variable {events : ι → DeploymentStatusEvent} {d : UInt64} {x : ExecutionAttempt}

/-- Every executed lookup finds the attempt. -/
theorem lookup_finds (only : OnlyRecord s₀ x d)
    (run : Run (Exec cd.toRuntime noFaults) s₀ (processors cd deliveries) log s p) {i : ι}
    {a : StorageResult (Option ExecutionAttempt)}
    (hc : (⟨.store (.attempts (.byDeploymentId d)), a⟩ : Answered) ∈ history i log) :
    a = .ok (some x) := by
  obtain ⟨e, he, _, _, hx⟩ := run.executed hc
  exact (only.of_same (processors_keep_attempts run he)).found hx

/-- The calls of a processor that has returned. -/
theorem processed_path (term : Terminal cd deliveries events d) (only : OnlyRecord s₀ x d)
    (run : Run (Exec cd.toRuntime noFaults) s₀ (processors cd deliveries) log s p) {i : ι}
    (hdone : ∃ r, p i = .ret r) :
    ∃ t h, TerminalPath cd (events i) x t h ∧ (∀ c ∈ h, c ∈ history i log) ∧
      ∀ c ∈ history i log, c ∈ h ∨ (∀ n, c ≠ nodeInserted n) ∧ ∀ q, c ≠ receiptInserted q := by
  obtain ⟨r, hp⟩ := hdone
  obtain ⟨_, h, produced, t', a, hres, hh⟩ :=
    process_returns (term.reports i) (term.state i) (run.returns hp)
  have hsub : ∀ c ∈ h, c ∈ history i log := by
    intro c hc
    rw [hh]
    exact List.mem_append_left _ hc
  have hfinds : Finds (events i) x h := by
    intro b hb
    rw [term.deployment i] at hb
    exact lookup_finds only run (hsub _ hb)
  obtain ⟨t, hpath⟩ := terminal_path (term.state i) hres hfinds
  refine ⟨t, h, hpath, hsub, fun c hc => ?_⟩
  rw [hh, List.mem_append] at hc
  rcases hc with hc | hc
  · exact Or.inl hc
  · simp only [List.mem_cons, List.not_mem_nil, or_false] at hc
    rcases hc with rfl | rfl
    · exact Or.inr ⟨fun n => by simp, fun q => by simp⟩
    · exact Or.inr ⟨fun n => by simp, fun q => by simp⟩

/-- A node that was not there at the start and is there at the end was inserted by a
processor, which had inserted its observation and tried its claim. -/
theorem node_inserter (term : Terminal cd deliveries events d) (only : OnlyRecord s₀ x d)
    (run : Run (Exec cd.toRuntime noFaults) s₀ (processors cd deliveries) log s p)
    (hdone : ∀ i, ∃ r, p i = .ret r) {k : String} {n : EvidenceNodeRecord}
    (h₀ : s₀.evidenceNode k = none) (hn : s.evidenceNode k = some n) :
    ∃ i t h, TerminalPath cd (events i) x t h ∧ (∀ c ∈ h, c ∈ history i log) ∧
      nodeInserted n ∈ h ∧ n.nodeIdHex = k := by
  obtain ⟨l₁, e, l₂, hlog, hc, hk, _⟩ := row_written (evidence_node_step · k) run.trace h₀ hn
  have hmem : nodeInserted n ∈ history e.caller log :=
    mem_history.mpr ⟨e, hlog ▸ List.mem_append_right _ List.mem_cons_self, rfl, hc⟩
  obtain ⟨t, h, hpath, hsub, hall⟩ := processed_path term only run (hdone e.caller)
  rcases hall _ hmem with hin | ⟨hne, _⟩
  · exact ⟨e.caller, t, h, hpath, hsub, hin, hk⟩
  · exact absurd rfl (hne n)

omit [DecidableEq ι] in
/-- No two of the ids of an observation and a claim of terminal deliveries are equal. -/
theorem claim_id_ne_observation_id {i j : ι} (term : Terminal cd deliveries events d)
    (free : CollisionFree cd.toRuntime ((terminalTexts x).map asBytes)) (t t' : Int64) :
    ((events i).claimNode cd x t).nodeIdHex ≠ ((events j).observationNode cd x t').nodeIdHex := by
  intro h
  have htext : claimPreimage x (events i).outcome = observationPreimage x (events j).state :=
    nodeIdOf_injOn free (claim_mem (term.state i)) (observation_mem (term.state j)) h
  exact observation_ne_claim x _ _ htext.symm

/-- Some processor inserts its observation: the first one to try is not refused. -/
theorem some_observation (term : Terminal cd deliveries events d) (only : OnlyRecord s₀ x d)
    (fresh : NoEvidence cd.toRuntime s₀ x)
    (run : Run (Exec cd.toRuntime noFaults) s₀ (processors cd deliveries) log s p)
    (hdone : ∀ i, ∃ r, p i = .ret r) (i : ι) :
    ∃ j t h, TerminalPath cd (events j) x t h ∧ (∀ c ∈ h, c ∈ history j log) ∧
      nodeInserted ((events j).observationNode cd x t.toInt64) ∈ h := by
  obtain ⟨t, h, hpath, hsub, _⟩ := processed_path term only run (hdone i)
  obtain ⟨a, hc⟩ := hpath.tries_observation
  obtain ⟨e, he, _, hec⟩ := mem_history.mp (hsub _ hc)
  have hne : ((events i).observationNode cd x t.toInt64).nodeIdHex ≠ "" := nodeIdOf_ne_empty _ _
  obtain ⟨m, hm⟩ := node_present run.trace he hne hec
  have h₀ := fresh.noNode _ (observation_mem (term.state i))
  obtain ⟨j, t', h', hpath', hsub', hin, _⟩ := node_inserter term only run hdone h₀ hm
  exact ⟨j, t', h', hpath', hsub', (hpath'.of_node hin).2.1⟩

/-- Then some processor inserts its claim: an id of a claim is taken only by a claim. -/
theorem some_claim (term : Terminal cd deliveries events d) (only : OnlyRecord s₀ x d)
    (fresh : NoEvidence cd.toRuntime s₀ x)
    (free : CollisionFree cd.toRuntime ((terminalTexts x).map asBytes))
    (run : Run (Exec cd.toRuntime noFaults) s₀ (processors cd deliveries) log s p)
    (hdone : ∀ i, ∃ r, p i = .ret r) (i : ι) :
    ∃ j t h, TerminalPath cd (events j) x t h ∧ (∀ c ∈ h, c ∈ history j log) ∧
      nodeInserted ((events j).claimNode cd x t.toInt64) ∈ h := by
  obtain ⟨j, t, h, hpath, hsub, hobs⟩ := some_observation term only fresh run hdone i
  obtain ⟨_, _, a, hc⟩ := hpath.of_node hobs
  obtain ⟨e, he, _, hec⟩ := mem_history.mp (hsub _ hc)
  have hne : ((events j).claimNode cd x t.toInt64).nodeIdHex ≠ "" := nodeIdOf_ne_empty _ _
  obtain ⟨m, hm⟩ := node_present run.trace he hne hec
  have h₀ := fresh.noNode _ (claim_mem (term.state j))
  obtain ⟨k, t', h', hpath', hsub', hin, hid⟩ := node_inserter term only run hdone h₀ hm
  rcases (hpath'.of_node hin).1 with rfl | rfl
  · exact absurd hid.symm (claim_id_ne_observation_id term free t.toInt64 t'.toInt64)
  · exact ⟨k, t', h', hpath', hsub', hin⟩

/-- A stored receipt of the attempt was inserted by a processor, after its two nodes. -/
theorem receipt_inserter (term : Terminal cd deliveries events d) (only : OnlyRecord s₀ x d)
    (run : Run (Exec cd.toRuntime noFaults) s₀ (processors cd deliveries) log s p)
    (hdone : ∀ i, ∃ r, p i = .ret r) {k : String} {q : ReceiptProjection}
    (h₀ : s₀.receipt k = none) (hq : s.receipt k = some q) :
    ∃ i t h, TerminalPath cd (events i) x t h ∧ (∀ c ∈ h, c ∈ history i log) ∧
      q = (events i).receipt cd x t.toInt64 ∧ q.receiptIdHex = k ∧
      nodeInserted ((events i).observationNode cd x t.toInt64) ∈ h ∧
      nodeInserted ((events i).claimNode cd x t.toInt64) ∈ h := by
  obtain ⟨l₁, e, l₂, hlog, hc, hk, _⟩ := row_written (receipt_add_step · k) run.trace h₀ hq
  have hmem : receiptInserted q ∈ history e.caller log :=
    mem_history.mpr ⟨e, hlog ▸ List.mem_append_right _ List.mem_cons_self, rfl, hc⟩
  obtain ⟨t, h, hpath, hsub, hall⟩ := processed_path term only run (hdone e.caller)
  rcases hall _ hmem with hin | ⟨_, hne⟩
  · obtain ⟨hreceipt, hobs, hclaim⟩ := hpath.of_receipt hin
    exact ⟨e.caller, t, h, hpath, hsub, hreceipt, hk, hobs, hclaim⟩
  · exact absurd rfl (hne q)

end

/-- A process call, whatever fails in it, changes no stored receipt. -/
theorem receipts_kept {ι : Type} [DecidableEq ι] {cd : Codec} {deliveries : ι → Delivery}
    {faults : StoreCall → Prop} {s₀ s : Stores} {log : List (Event ι)}
    {p : ι → Program PortCall Answer (Except WebhookError Unit)}
    (run : Run (Exec cd.toRuntime faults) s₀ (processors cd deliveries) log s p) {k : String}
    {q : ReceiptProjection} (hq : s₀.receipt k = some q) : s.receipt k = some q :=
  row_kept (receipt_add_step · k) run.trace hq

/-- However the processors of `n ≥ 1` terminal deliveries interleave, one of them has written
the one receipt of the attempt, with references to its own two nodes, and it stays. -/
theorem exactly_one_receipt {ι : Type} [DecidableEq ι] [Nonempty ι] {cd : Codec}
    {deliveries : ι → Delivery} {events : ι → DeploymentStatusEvent} {d : UInt64}
    {x : ExecutionAttempt} {s₀ s : Stores} {log : List (Event ι)}
    {p : ι → Program PortCall Answer (Except WebhookError Unit)}
    (term : Terminal cd deliveries events d) (only : OnlyRecord s₀ x d)
    (fresh : NoEvidence cd.toRuntime s₀ x)
    (free : CollisionFree cd.toRuntime ((terminalTexts x).map asBytes))
    (run : Run (Exec cd.toRuntime noFaults) s₀ (processors cd deliveries) log s p)
    (hdone : ∀ i, ∃ r, p i = .ret r) :
    ∃ i q claim observation,
      (∀ k q', (s.receipt k = some q' ∧ q'.attemptIdHex = x.attemptIdHex) ↔
        k = "rcpt-" ++ x.attemptIdHex ∧ q' = q) ∧
      q.receiptIdHex = "rcpt-" ++ x.attemptIdHex ∧
      q.outcome = mapGithubStateToOutcome (events i).state ∧
      q.dispatchEvidenceRefs = [claim.nodeIdHex] ∧
      q.targetEvidenceRefs = [observation.nodeIdHex] ∧
      s.evidenceNode claim.nodeIdHex = some claim ∧
      s.evidenceNode observation.nodeIdHex = some observation ∧
      nodeInserted claim ∈ history i log ∧ nodeInserted observation ∈ history i log ∧
      ∀ (κ : Type) [DecidableEq κ] (later : κ → Delivery) (faults : StoreCall → Prop)
        (log' : List (Event κ)) (s' : Stores)
        (p' : κ → Program PortCall Answer (Except WebhookError Unit)),
        Run (Exec cd.toRuntime faults) s (processors cd later) log' s' p' →
          s'.receipt ("rcpt-" ++ x.attemptIdHex) = some q := by
  obtain ⟨i₀⟩ := ‹Nonempty ι›
  obtain ⟨j, t, h, hpath, hsub, hclaim⟩ := some_claim term only fresh free run hdone i₀
  -- The claim's inserter goes on to the receipt, so the receipt's id is taken in the end.
  obtain ⟨a, hc⟩ := hpath.tries_receipt hclaim
  obtain ⟨e, he, _, hec⟩ := mem_history.mp (hsub _ hc)
  obtain ⟨q, hq⟩ := receipt_present run.trace he (receiptId_ne_empty _) hec
  obtain ⟨i, t', h', _, hsub', hrec, hid, hobs', hclaim'⟩ :=
    receipt_inserter term only run hdone fresh.noRow hq
  obtain ⟨eo, heo, _, hco⟩ := mem_history.mp (hsub' _ hobs')
  obtain ⟨ec, hec', _, hcc⟩ := mem_history.mp (hsub' _ hclaim')
  refine ⟨i, q, (events i).claimNode cd x t'.toInt64, (events i).observationNode cd x t'.toInt64,
    fun k q' => ⟨?_, ?_⟩, hid, by rw [hrec]; rfl, by rw [hrec]; rfl, by rw [hrec]; rfl,
    node_stored run.trace hec' hcc, node_stored run.trace heo hco, hsub' _ hclaim',
    hsub' _ hobs', fun κ _ later faults log' s' p' run' => receipts_kept run' hq⟩
  · rintro ⟨hk, hatt⟩
    have h₀ : s₀.receipt k = none := by
      cases hget : s₀.receipt k with
      | none => rfl
      | some q₀ =>
        have hsame := row_kept (receipt_add_step · k) run.trace hget
        obtain rfl := Option.some.inj (hk.symm.trans hsame)
        exact absurd hatt (fresh.noReceipt k q' hget)
    obtain ⟨_, _, _, _, _, hrec', hid', _, _⟩ := receipt_inserter term only run hdone h₀ hk
    have hkey : k = "rcpt-" ++ x.attemptIdHex := by
      rw [← hid', hrec']
      rfl
    subst hkey
    exact ⟨rfl, Option.some.inj (hk.symm.trans hq)⟩
  · rintro ⟨rfl, rfl⟩
    refine ⟨hq, ?_⟩
    rw [hrec]
    rfl

/-! ## Two deliveries that share a claim -/

theorem recording_only : OnlyRecord (recording sampleAttempt) sampleAttempt 42 where
  stored := rfl
  records := rfl
  only k y hy _ := of_recording (by decide) hy

theorem recording_noEvidence (rt : Runtime) :
    NoEvidence rt (recording sampleAttempt) sampleAttempt where
  noReceipt k q hq := by cases hq
  noRow := rfl
  noNode text _ := rfl

def racingDeliveries : Pair → Delivery
  | .first => sampleDelivery "d-1" "failure" 100
  | .second => sampleDelivery "d-2" "error" 100

def racingEvents : Pair → DeploymentStatusEvent
  | .first => sampleEvent "failure" 100
  | .second => sampleEvent "error" 100

theorem racing_terminal : Terminal sampleCodec racingDeliveries racingEvents 42 where
  reports i := by cases i <;> exact ⟨rfl, by decide +kernel⟩
  deployment i := by cases i <;> rfl
  state i := by cases i <;> rfl

def racingRun : Snapshot Pair Answer Stores fun _ => Except WebhookError Unit :=
  Snapshot.play (react sampleCodec.toRuntime)
    ⟨[], recording sampleAttempt, processors sampleCodec racingDeliveries⟩
    (steps .first 3 (.answering none) ++ steps .second 8 (.answering none) ++
      steps .first 3 (.answering none))

theorem racing_processors_leave_one_receipt :
    ∃ q, ∀ k q', (racingRun.state.receipt k = some q' ∧ q'.attemptIdHex = "att-m-1") ↔
      k = "rcpt-att-m-1" ∧ q' = q := by
  have hrun : Run (Exec sampleCodec.toRuntime noFaults) (recording sampleAttempt)
      (processors sampleCodec racingDeliveries) racingRun.log racingRun.state racingRun.pool :=
    play_run (c := ⟨[], _, _⟩) (react_sound _ noFaults) .start _
  have hdone : ∀ i, ∃ r, racingRun.pool i = .ret r := by
    intro i
    have hresult : (racingRun.pool i).result? = some (.ok ()) := by
      cases i <;> decide +kernel
    exact ⟨_, eq_ret_of_result? hresult⟩
  have : Nonempty Pair := ⟨.first⟩
  obtain ⟨_, q, _, _, honly, _⟩ := exactly_one_receipt racing_terminal recording_only
    (recording_noEvidence _) (by decide +kernel) hrun hdone
  exact ⟨q, honly⟩

end Piteka.Safety
