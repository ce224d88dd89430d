import Piteka.Application.System
import Piteka.Application.TerminalDeliveries
import Piteka.Application.IngestionEffects

/-!
# Productions that no other one contests

When all nodes and receipts of a trace are inserted by one production, nothing
refuses its insertions: it comes through to its receipt, which is the one row that
the trace adds. Which trace is that of a single production is decided by the
handlers, of which a duplicate inserts nothing.
-/
namespace Piteka.Application

set_option autoImplicit false

open Piteka.Interleaving Piteka.Interleaving.Program Piteka.Storage WebhookIngestion

variable {ι : Type} {cd : Codec} {event : DeploymentStatusEvent} {x : ExecutionAttempt}
  {s s' : Stores} {log : List (Event ι)} {h : Path}

/-- The calls `h` are made in the log, and all insertions of nodes and receipts in it are
among them. -/
structure Uncontested (log : List (Event ι)) (h : Path) : Prop where
  made : ∀ c ∈ h, ∃ e ∈ log, e.call = c
  nodes : ∀ e ∈ log, ∀ n, e.call = nodeInserted n → nodeInserted n ∈ h
  receipts : ∀ e ∈ log, ∀ q, e.call = receiptInserted q → receiptInserted q ∈ h

/-- The id of a node that is refused was taken by a node inserted before. -/
theorem refused_node (ht : Trace (Exec cd.toRuntime noFaults) s log s') (hu : Uncontested log h)
    {n : EvidenceNodeRecord} {e : StorageError} (hne : n.nodeIdHex ≠ "")
    (h₀ : s.evidenceNode n.nodeIdHex = none)
    (hc : (⟨.store (.evidenceNodes (.insert n)), .error e⟩ : Answered) ∈ h) :
    ∃ m, nodeInserted m ∈ h ∧ m.nodeIdHex = n.nodeIdHex := by
  obtain ⟨f, hf, hcall⟩ := hu.made _ hc
  obtain ⟨l₁, l₂, rfl⟩ := List.append_of_mem hf
  have hx := ht.executed f hf
  rw [hcall] at hx
  rcases node_insert_noFaults hx hne with ⟨m, _, hm, _, _⟩ | ⟨_, ha⟩
  · obtain ⟨l₃, g, l₄, rfl, hg, hid, _⟩ :=
      row_written (evidence_node_step · n.nodeIdHex) ht.around.1 h₀ hm
    exact ⟨m, hu.nodes g (by simp) m hg, hid⟩
  · cases ha

theorem refused_receipt (ht : Trace (Exec cd.toRuntime noFaults) s log s')
    (hu : Uncontested log h) {q : ReceiptProjection} {e : StorageError} (hne : q.receiptIdHex ≠ "")
    (h₀ : s.receipt q.receiptIdHex = none)
    (hc : (⟨.store (.receipts (.insert q)), .error e⟩ : Answered) ∈ h) :
    ∃ q', receiptInserted q' ∈ h := by
  obtain ⟨f, hf, hcall⟩ := hu.made _ hc
  obtain ⟨l₁, l₂, rfl⟩ := List.append_of_mem hf
  have hx := ht.executed f hf
  rw [hcall] at hx
  rcases receipt_insert_noFaults hx hne with ⟨q', _, hq', _, _⟩ | ⟨_, ha⟩
  · obtain ⟨l₃, g, l₄, rfl, hg, _, _⟩ :=
      row_written (receipt_add_step · q.receiptIdHex) ht.around.1 h₀ hq'
    exact ⟨q', hu.receipts g (by simp) q' hg⟩
  · cases ha

/-- A receipt that the trace adds is one that the production inserted. -/
theorem added_receipt (ht : Trace (Exec cd.toRuntime noFaults) s log s') (hu : Uncontested log h)
    {k : String} {q : ReceiptProjection} (h₀ : s.receipt k = none) (hq : s'.receipt k = some q) :
    receiptInserted q ∈ h ∧ q.receiptIdHex = k := by
  obtain ⟨l₁, e, l₂, rfl, hc, hid, _⟩ := row_written (receipt_add_step · k) ht h₀ hq
  exact ⟨hu.receipts e (by simp) q hc, hid⟩

theorem receipts_unchanged (ht : Trace (Exec cd.toRuntime noFaults) s log s')
    (hu : Uncontested log h) (hno : ∀ q, receiptInserted q ∉ h) (k : String) :
    s'.receipt k = s.receipt k := by
  cases h₀ : s.receipt k with
  | some q => exact row_kept (receipt_add_step · k) ht h₀
  | none =>
    cases hq : s'.receipt k with
    | none => rfl
    | some q => exact absurd (added_receipt ht hu h₀ hq).1 (hno q)

/-- A production with a terminal status that finds its attempt and is not contested inserts its
receipt. -/
theorem uncontested_receipt (ht : Trace (Exec cd.toRuntime noFaults) s log s')
    (hu : Uncontested log h) (hterm : isTerminalStatus event.state)
    (free : CollisionFree cd.toRuntime ((terminalTexts x).map asBytes))
    (noNode : ∀ text ∈ terminalTexts x, s.evidenceNode (nodeIdOf cd.toRuntime text) = none)
    (noRow : s.receipt ("rcpt-" ++ x.attemptIdHex) = none) {t : UInt64}
    (hp : TerminalPath cd event x t h) : receiptInserted (event.receipt cd x t.toInt64) ∈ h := by
  have hobs := noNode _ (observation_mem hterm)
  have hclaim := noNode _ (claim_mem hterm)
  cases hp with
  | audited a => simp
  | noObservation e =>
    obtain ⟨m, hm, _⟩ := refused_node (n := event.observationNode cd x t.toInt64) (e := e) ht hu
      (nodeIdOf_ne_empty _ _) hobs (by simp)
    simp at hm
  | noClaim e =>
    obtain ⟨m, hm, hid⟩ := refused_node (n := event.claimNode cd x t.toInt64) (e := e) ht hu
      (nodeIdOf_ne_empty _ _) hclaim (by simp)
    obtain rfl : m = event.observationNode cd x t.toInt64 := by simpa using hm
    have htext : observationPreimage x event.state = claimPreimage x event.outcome :=
      nodeIdOf_injOn free (observation_mem hterm) (claim_mem hterm) hid
    exact absurd htext (observation_ne_claim x _ _)
  | noReceipt e =>
    obtain ⟨q, hq⟩ := refused_receipt (q := event.receipt cd x t.toInt64) (e := e) ht hu
      (receiptId_ne_empty _) noRow (by simp)
    simp at hq

/-- The receipts after an uncontested production: its own, and those from before. -/
theorem uncontested_production (ht : Trace (Exec cd.toRuntime noFaults) s log s')
    (hu : Uncontested log h) (hterm : isTerminalStatus event.state)
    (free : CollisionFree cd.toRuntime ((terminalTexts x).map asBytes))
    (noNode : ∀ text ∈ terminalTexts x, s.evidenceNode (nodeIdOf cd.toRuntime text) = none)
    (noRow : s.receipt ("rcpt-" ++ x.attemptIdHex) = none)
    {r : Except ReceiptProductionError ReceiptProductionResult} (hr : ProduceResult cd event h r)
    (hf : Finds event x h) :
    ∃ now, ∀ k, s'.receipt k =
      if k = "rcpt-" ++ x.attemptIdHex then some (event.receipt cd x now) else s.receipt k := by
  obtain ⟨t, hp⟩ := terminal_path hterm hr hf
  have hin := uncontested_receipt ht hu hterm free noNode noRow hp
  refine ⟨t.toInt64, fun k => ?_⟩
  split
  · next hk =>
    obtain ⟨e, he, hc⟩ := hu.made _ hin
    rw [hk]
    exact receipt_stored ht he hc
  · next hk =>
    cases h₀ : s.receipt k with
    | some q => exact row_kept (receipt_add_step · k) ht h₀
    | none =>
      cases hq : s'.receipt k with
      | none => rfl
      | some q =>
        obtain ⟨hmem, hid⟩ := added_receipt ht hu h₀ hq
        rw [(hp.of_receipt hmem).1] at hid
        exact absurd hid.symm hk

/-! ## The lookup of a production -/

/-- A production that has returned has made one lookup. -/
theorem one_lookup (hterm : isTerminalStatus event.state)
    {r : Except ReceiptProductionError ReceiptProductionResult} (hr : ProduceResult cd event h r) :
    ∃ a, ∀ b, (⟨.store (.attempts (.byDeploymentId event.deploymentId)), b⟩ : Answered) ∈ h ↔
      b = a := by
  rcases terminal_cases hterm hr with ⟨t, e, rfl⟩ | ⟨t, rfl⟩ | ⟨t, y, hp⟩
  · exact ⟨.error e, by simp⟩
  · exact ⟨.ok none, by simp [DeploymentStatusEvent.looked]⟩
  · exact ⟨.ok (some y), hp.looked⟩

/-- A production whose lookup found nothing inserts no receipt. -/
theorem unfound_inserts_nothing (hterm : isTerminalStatus event.state)
    {r : Except ReceiptProductionError ReceiptProductionResult} (hr : ProduceResult cd event h r)
    (hl : (⟨.store (.attempts (.byDeploymentId event.deploymentId)), .ok none⟩ : Answered) ∈ h)
    (q : ReceiptProjection) : receiptInserted q ∉ h := by
  rcases terminal_cases hterm hr with ⟨t, e, rfl⟩ | ⟨t, rfl⟩ | ⟨t, y, hp⟩
  · simp
  · simp [DeploymentStatusEvent.looked]
  · cases (hp.looked _).mp hl

/-! ## Handlers -/

/-- The call is neither the insertion of a node or a receipt nor a lookup by deployment. -/
def Quiet (c : Answered) : Prop :=
  (∀ n, c ≠ nodeInserted n) ∧ (∀ q, c ≠ receiptInserted q) ∧
    ∀ d a, c ≠ ⟨.store (.attempts (.byDeploymentId d)), a⟩

/-- What a handler of the receipt-producing processor has done with the delivery `x`. -/
inductive Handled (cd : Codec) (x : GitHubWebhookPayload) (event : DeploymentStatusEvent)
    (h : ServicePath) : Prop
  | duplicate
      (hseen : (∃ q, onLeft (did (.webhookReceipts (.get x.deliveryId)) (some q)) ∈ h) ∨
        ∃ now, onLeft
          (did (.webhookReceipts (.record (x.receipt cd.toRuntime now))) .duplicate) ∈ h)
      (quiet : ∀ c, onLeft c ∈ h → Quiet c ∧ ∀ r, c ≠ recorded r)
  | dispatched (now : Int64) (hrec : onLeft (recorded (x.receipt cd.toRuntime now)) ∈ h)
      {h' : Path} {r : Except ReceiptProductionError ReceiptProductionResult}
      (hr : ProduceResult cd event h' r) (sub : ∀ c ∈ h', onLeft c ∈ h)
      (rest : ∀ c, onLeft c ∈ h → c ∈ h' ∨ Quiet c)

theorem handled {x : GitHubWebhookPayload} {h : ServicePath} {r : Except ApiError WebhookResponse}
    (hx : accepted cd x = .ok event) (hterm : isTerminalStatus event.state)
    (hr : Returns (handleWebhook cd (process cd) x) h r)
    (hexec : ∀ c, onLeft c ∈ h → ∃ t t', Exec cd.toRuntime noFaults t c.1 c.2 t') :
    Handled cd x event h := by
  cases handleWebhook_returns hr with
  | undispatched hi hd =>
    cases hi with
    | refused hx' =>
      rw [hx] at hx'
      cases hx'
    | seen hx' q =>
      refine .duplicate (Or.inl ⟨q, by simp⟩) fun c hc => ?_
      obtain rfl := List.mem_singleton.mp (onLeft_mem_map.mp hc)
      simp [Quiet]
    | raced hx' t =>
      refine .duplicate (Or.inr ⟨t.toInt64, by simp⟩) fun c hc => ?_
      have hmem := onLeft_mem_map.mp hc
      simp only [List.mem_cons, List.not_mem_nil, or_false] at hmem
      rcases hmem with rfl | rfl | rfl <;> simp [Quiet]
    | processed hx' t b t' => exact absurd rfl (hd _ _)
    | failed h sc e hp =>
      obtain ⟨t, t', hf⟩ := hexec ⟨.store sc, .error e⟩
        (List.mem_append_right _ List.mem_cons_self)
      cases hp with
      | get => cases (webhook_get_noFaults hf).1
      | record _ t =>
        rcases record_noFaults hf (deliveryId_ne_empty hx) with ⟨_, _, ha, _⟩ | ⟨_, ha⟩
        · cases ha
        · cases ha
      | audit => cases audit_noFaults hf
  | @dispatched event' hx' t b t' h' _ hd =>
    obtain rfl := Except.ok.inj (hx.symm.trans hx')
    obtain ⟨h₁, processed, t₁, a₁, hp, rfl⟩ := dispatch_returns hd
    have hreports := accepted_reports hx
    obtain ⟨_, h₂, produced, t₂, a₂, hres, rfl⟩ :=
      process_returns (x := ⟨x.eventType, x.body, x.deliveryId, b⟩) hreports hterm hp
    refine .dispatched t.toInt64
      (List.mem_append_left _ GitHubWebhookPayload.recorded_mem_processedPath) hres
      (fun c hc => ?_) fun c hc => ?_
    · refine List.mem_append_right _ (onLeft_mem_map.mpr ?_)
      simp [hc]
    · rcases List.mem_append.mp hc with hc | hc
      · right
        simp only [GitHubWebhookPayload.processedPath, GitHubWebhookPayload.trackedPath,
          GitHubWebhookPayload.recordedPath, List.mem_append, onLeft_mem_map, List.mem_cons,
          List.not_mem_nil, or_false] at hc
        rcases hc with ((rfl | rfl | rfl) | hc) | rfl | rfl
        · simp [Quiet]
        · simp [Quiet]
        · simp [Quiet]
        · cases congrArg Sigma.fst hc
        · simp [Quiet]
        · simp [Quiet]
      · have hmem := onLeft_mem_map.mp hc
        simp only [List.mem_append, List.mem_cons, List.not_mem_nil, or_false] at hmem
        rcases hmem with (hmem | rfl | rfl) | rfl | rfl
        · exact Or.inl hmem
        · exact Or.inr (by simp [Quiet])
        · exact Or.inr (by simp [Quiet])
        · exact Or.inr (by simp [Quiet])
        · exact Or.inr (by simp [Quiet])

/-- A handler of the receipt-producing processor writes no attempt. -/
theorem handleWebhook_writes_no_attempt {x : GitHubWebhookPayload} {h : ServicePath} {op : PortCall}
    (hn : Next (handleWebhook cd (process cd) x) h (.inl op)) : ¬ WritesAttempt op := by
  generalize hop : (Sum.inl op : ServiceCall) = op' at hn
  cases handleWebhook_next hn with
  | ingest hp =>
    cases hp with
    | track => cases hop
    | _ =>
      cases hop
      exact id
  | @dispatch _ _ _ b _ _ _ hd =>
    cases hop
    rcases dispatch_next hd with hp | rfl | ⟨ev, rfl⟩
    · exact process_writes_no_attempt (x := ⟨x.eventType, x.body, x.deliveryId, b⟩) hp
    · exact id
    · exact id

section
variable [DecidableEq ι] {y : GitHubWebhookPayload} {i : ι}

/-- A delivery that was seen as a duplicate is on file. -/
theorem seen_row (ht : Trace (Exec cd.toRuntime noFaults) s log s') (hne : y.deliveryId ≠ "")
    (hseen : (∃ q, did (.webhookReceipts (.get y.deliveryId)) (some q) ∈ history i log) ∨
      ∃ now, did (.webhookReceipts (.record (y.receipt cd.toRuntime now))) .duplicate ∈
        history i log) : ∃ q, s'.webhookReceipt y.deliveryId = some q := by
  rcases hseen with ⟨q, hc⟩ | ⟨now, hc⟩
  · obtain ⟨e, he, _, hcall⟩ := mem_history.mp hc
    obtain ⟨l₁, l₂, rfl⟩ := List.append_of_mem he
    have hx := ht.executed e he
    rw [hcall] at hx
    obtain ⟨hq, hsame⟩ := webhook_get_noFaults hx
    refine ⟨q, row_kept (webhook_receipt_step · y.deliveryId) ht.around.2 ?_⟩
    rw [hsame]
    exact (Except.ok.inj hq).symm
  · obtain ⟨e, he, _, hcall⟩ := mem_history.mp hc
    obtain ⟨l₁, l₂, rfl⟩ := List.append_of_mem he
    have hx := ht.executed e he
    rw [hcall] at hx
    rcases record_noFaults hx hne with ⟨q, hq, _, hsame⟩ | ⟨_, ha⟩
    · refine ⟨q, row_kept (webhook_receipt_step · y.deliveryId) ht.around.2 ?_⟩
      rw [hsame]
      exact hq
    · cases ha

/-- A delivery that was not on file at the start has been recorded by one of the callers. -/
theorem row_recorder (ht : Trace (Exec cd.toRuntime noFaults) s log s') {k : String}
    {q : WebhookReceipt} (h₀ : s.webhookReceipt k = none) (hq : s'.webhookReceipt k = some q) :
    ∃ j, recorded q ∈ history j log ∧ q.deliveryId = k := by
  obtain ⟨l₁, e, l₂, rfl, hc, hk, _⟩ := row_written (webhook_receipt_step · k) ht h₀ hq
  exact ⟨e.caller, mem_history.mpr ⟨e, by simp, rfl, hc⟩, hk⟩

/-- The calls of a caller's production are uncontested if only that caller inserts nodes and
receipts, and no others than these. -/
theorem uncontested_of_caller {h' : Path} (sub : ∀ c ∈ h', c ∈ history i log)
    (own : ∀ c ∈ history i log, c ∈ h' ∨ Quiet c)
    (others : ∀ e ∈ log, e.caller ≠ i → Quiet e.call) : Uncontested log h' where
  made c hc := by
    obtain ⟨e, he, _, hcall⟩ := mem_history.mp (sub c hc)
    exact ⟨e, he, hcall⟩
  nodes e he n hc := by
    by_cases hi : e.caller = i
    · rcases own _ (mem_history.mpr ⟨e, he, hi, hc⟩) with h | hq
      · exact h
      · exact absurd rfl (hq.1 n)
    · exact absurd hc ((others e he hi).1 n)
  receipts e he q hc := by
    by_cases hi : e.caller = i
    · rcases own _ (mem_history.mpr ⟨e, he, hi, hc⟩) with h | hq
      · exact h
      · exact absurd rfl (hq.2.1 q)
    · exact absurd hc ((others e he hi).2.1 q)

end

end Piteka.Application
