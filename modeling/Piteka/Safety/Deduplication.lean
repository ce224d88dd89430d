import Piteka.Application.IngestionScenario
import Piteka.Storage.Unreliable

/-!
# Deduplication of deliveries

Any number of handlers, with any processor, over stores that may fail at every
call and may lose the answer of a call that took effect. The replay check of an
ingestion proves nothing here: what lets one handler through is the answer of the
record, which is given once for a delivery id because a stored receipt stays.
-/
namespace Piteka.Safety

set_option autoImplicit false

open Piteka.Interleaving Piteka.Interleaving.Program Piteka.Storage Piteka.Application
open WebhookIngestion

variable {ι : Type} {cd : Codec} {processor : EventProcessor}
  {payloads : ι → GitHubWebhookPayload}

/-- The handlers of some payloads, each at its start. -/
def handlers (cd : Codec) (processor : EventProcessor) (payloads : ι → GitHubWebhookPayload)
    (i : ι) : Program ServiceCall ServiceAnswer (Except ApiError WebhookResponse) :=
  handleWebhook cd processor (payloads i)

/-- Among the calls `h` the ingestion of `x` has come to its end and returned `Processed`. -/
def Processed (cd : Codec) (x : GitHubWebhookPayload) (h : ServicePath) : Prop :=
  ∃ h₁ h₂ b d, h = h₁ ++ h₂ ∧ Returns (ingest cd x).run h₁ (.ok (.processed b d))

/-- A processed delivery has been recorded by its own handler. -/
theorem Processed.recorded {x : GitHubWebhookPayload} {h : ServicePath}
    (hp : Processed cd x h) : ∃ now, onLeft (recorded (x.receipt cd.toRuntime now)) ∈ h := by
  obtain ⟨h₁, h₂, b, d, rfl, hr⟩ := hp
  cases ingest_returns hr with
  | processed hx t _ t' =>
    exact ⟨t.toInt64,
      List.mem_append_left _ GitHubWebhookPayload.recorded_mem_processedPath⟩

/-- A handler calls nothing after `ingest` unless that returned `Processed`. -/
theorem handleWebhook_after_ingest {x : GitHubWebhookPayload} {h : ServicePath} {op : ServiceCall}
    (hn : Next (handleWebhook cd processor x) h op) :
    Next (ingest cd x).run h op ∨ Processed cd x h := by
  rcases next_bind hn with h1 | ⟨h₁, h₂, r, rfl, h1, h2⟩
  · exact Or.inl h1
  cases r with
  | error err => cases err <;> exact absurd h2 next_ret
  | ok o =>
    cases o with
    | duplicate => exact absurd h2 next_ret
    | processed b d => exact Or.inr ⟨h₁, h₂, b, d, rfl, h1⟩

/-- What holds of the receipts and the handlers at the end of a run. -/
structure Deduplicated [DecidableEq ι] (cd : Codec) (payloads : ι → GitHubWebhookPayload)
    (s₀ : Service) (log : List (Entry ι ServiceAnswer Service)) (s : Service) : Prop where
  /-- At most one handler of a delivery id comes through its ingestion. -/
  once : ∀ i j, Processed cd (payloads i) (history i log) →
    Processed cd (payloads j) (history j log) →
    (payloads i).deliveryId = (payloads j).deliveryId → i = j
  /-- Each call is one of an ingestion, or is made after the caller's own came through. -/
  afterIngest : ∀ l₁ e l₂, log = l₁ ++ e :: l₂ →
    Next (ingest cd (payloads e.caller)).run (history e.caller l₁) e.call.1 ∨
      Processed cd (payloads e.caller) (history e.caller l₁)
  /-- An ingestion that brings in a receipt brings in its own, with the digest of its body. -/
  firstBody : ∀ l₁ e l₂ k r, log = l₁ ++ e :: l₂ →
    Next (ingest cd (payloads e.caller)).run (history e.caller l₁) e.call.1 →
    e.before.1.webhookReceipt k = none → e.after.1.webhookReceipt k = some r →
    (payloads e.caller).deliveryId = k ∧
      r.rawDigest = (payloads e.caller).rawDigest cd.toRuntime
  kept : ∀ k r, s₀.1.webhookReceipt k = some r → s.1.webhookReceipt k = some r
  /-- What is stored after any call of the run is stored unchanged at its end. -/
  keptFrom : ∀ e ∈ log, ∀ k r, e.after.1.webhookReceipt k = some r → s.1.webhookReceipt k = some r
  ownDigest : ∀ i, Processed cd (payloads i) (history i log) →
    ∃ r, s.1.webhookReceipt (payloads i).deliveryId = some r ∧
      r.rawDigest = (payloads i).rawDigest cd.toRuntime

section
variable {s₀ s : Service} {log : List (Entry ι ServiceAnswer Service)}

theorem service_receipts_kept {rt : Runtime} (ht : Trace (Both (Unreliable rt) TrackerExec) s₀ log s)
    {k : String} {r : WebhookReceipt} (hr : s₀.1.webhookReceipt k = some r) :
    s.1.webhookReceipt k = some r :=
  ht.left.keeps (Q := fun t => t.webhookReceipt k = some r)
    (fun hx hr => unreliable_receipt_kept hx hr) hr

theorem unreliable_of_service {rt : Runtime} {faults : StoreCall → Prop} {op : ServiceCall}
    {a : ServiceAnswer op} (hx : ServiceExec rt faults s₀ op a s) :
    Both (Unreliable rt) TrackerExec s₀ op a s := by
  cases op with
  | inl op => exact ⟨unreliable_of_exec hx.1, hx.2⟩
  | inr op => exact hx

/-- The answer that a receipt has been recorded is given once for a delivery id. -/
theorem recorded_once {rt : Runtime} (ht : Trace (Both (Unreliable rt) TrackerExec) s₀ log s)
    (k : String) :
    (lefts log).Pairwise fun e f =>
      (∃ r, r.deliveryId = k ∧ e.call = recorded r) → ¬ ∃ r, r.deliveryId = k ∧ f.call = recorded r := by
  refine ht.left.linked.once (Q := fun t => ∃ r, t.webhookReceipt k = some r) ?_ ?_
  · rintro e he ⟨r, rfl, hc⟩
    have hx := ht.left.executed e he
    rw [hc] at hx
    obtain ⟨hnone, hsome⟩ := recorded_effect hx
    refine ⟨?_, r, hsome⟩
    rintro ⟨q, hq⟩
    rw [hnone] at hq
    cases hq
  · rintro e he ⟨r, hr⟩
    exact ⟨r, unreliable_receipt_kept (ht.left.executed e he) hr⟩

variable [DecidableEq ι]
  {p : ι → Program ServiceCall ServiceAnswer (Except ApiError WebhookResponse)}

theorem processed_once {rt : Runtime} (ht : Trace (Both (Unreliable rt) TrackerExec) s₀ log s)
    {i j : ι} (hi : Processed cd (payloads i) (history i log))
    (hj : Processed cd (payloads j) (history j log))
    (hid : (payloads i).deliveryId = (payloads j).deliveryId) : i = j := by
  obtain ⟨now, hin⟩ := hi.recorded
  obtain ⟨now', hjn⟩ := hj.recorded
  refine caller_unique (recorded_once ht (payloads j).deliveryId)
    (mem_history_lefts.mpr hin) (mem_history_lefts.mpr hjn) ?_ ?_
  · intro e he
    exact ⟨_, hid, he⟩
  · intro f hf
    exact ⟨_, rfl, hf⟩

/-- An ingestion tries to record no receipt but its own. -/
theorem ingest_record_next {x : GitHubWebhookPayload} {h : ServicePath} {r : WebhookReceipt}
    (hn : Next (ingest cd x).run h (.inl (.store (.webhookReceipts (.record r))))) :
    ∃ now, r = x.receipt cd.toRuntime now := by
  cases ingest_next hn with
  | record hx t => exact ⟨t.toInt64, rfl⟩

/-- However the handlers of any deliveries interleave and whatever store calls fail, at most one
of each delivery id comes to its processor, and a stored receipt keeps its digest. -/
theorem deliveries_deduplicated
    (run : Run (Both (Unreliable cd.toRuntime) TrackerExec) s₀ (handlers cd processor payloads)
      log s p) : Deduplicated cd payloads s₀ log s where
  once i j hi hj hid := processed_once run.trace hi hj hid
  afterIngest l₁ e l₂ hlog := by
    subst hlog
    exact handleWebhook_after_ingest run.at_entry.2
  firstBody l₁ e l₂ k r hlog hn hb ha := by
    subst hlog
    have hx := run.exec_of_mem (List.mem_append_right l₁ List.mem_cons_self)
    obtain ⟨i, ⟨op, a⟩, t, t'⟩ := e
    cases op with
    | inr op =>
      have hsame : t'.1 = t.1 := hx.2
      rw [hsame, hb] at ha
      cases ha
    | inl op =>
      rcases unreliable_receipt_step hx.1 k with h | ⟨q, rfl, hk, _, hq⟩
      · rw [h, hb] at ha
        cases ha
      · obtain rfl := Option.some.inj (hq.symm.trans ha)
        obtain ⟨now, hreceipt⟩ := ingest_record_next hn
        rw [hreceipt] at hk ⊢
        exact ⟨hk, rfl⟩
  kept k r hr := service_receipts_kept run.trace hr
  keptFrom e he k r hr := by
    obtain ⟨l₁, l₂, rfl⟩ := List.append_of_mem he
    exact service_receipts_kept run.trace.around.2 hr
  ownDigest i hi := by
    obtain ⟨now, hin⟩ := hi.recorded
    obtain ⟨e, he, _, hc⟩ := mem_history.mp hin
    obtain ⟨l₁, l₂, rfl⟩ := List.append_of_mem he
    have hx := run.exec_of_mem he
    rw [hc] at hx
    exact ⟨_, service_receipts_kept run.trace.around.2 (recorded_effect hx.1).2, rfl⟩

end

/-! ## Two posts of one delivery -/

def repostedPayloads : Pair → GitHubWebhookPayload
  | .first => samplePost "d-1" "failure" 100
  | .second => samplePost "d-1" "success" 200

/-- Both handlers pass the replay check before either records the delivery. -/
def repostedRun : Snapshot Pair ServiceAnswer Service fun _ => Except ApiError WebhookResponse :=
  Snapshot.play (serviceReact sampleCodec.toRuntime)
    ⟨[], started (recording sampleAttempt), handlers sampleCodec (process sampleCodec) repostedPayloads⟩
    (steps .first 1 (.answering none) ++ steps .second 2 (.answering none) ++
      steps .first 6 (.answering none) ++ steps .second 1 (.answering none))

theorem repostedRun_run :
    Run (Both (Unreliable sampleCodec.toRuntime) TrackerExec) (started (recording sampleAttempt))
      (handlers sampleCodec (process sampleCodec) repostedPayloads) repostedRun.log
      repostedRun.state repostedRun.pool := by
  refine play_run (c := ⟨[], _, _⟩) (fun w s op => ?_) .start _
  exact unreliable_of_service (serviceReact_sound sampleCodec.toRuntime noFaults w s op)

theorem reposted_delivery_processed_once :
    ¬ (Processed sampleCodec (repostedPayloads .first) (history .first repostedRun.log) ∧
      Processed sampleCodec (repostedPayloads .second) (history .second repostedRun.log)) := by
  rintro ⟨h1, h2⟩
  have hsame := (deliveries_deduplicated repostedRun_run).once .first .second h1 h2 rfl
  cases hsame

end Piteka.Safety
