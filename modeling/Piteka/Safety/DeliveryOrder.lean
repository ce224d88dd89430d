import Piteka.Application.UncontestedProduction
import Piteka.Safety.Deduplication
import Piteka.Safety.OneReceipt

/-!
# The order of deliveries

Deliveries of one deployment are handled one after the other. The first one to be
handled writes the receipt of the attempt, and a receipt is never written again:
the outcome is that of the first delivery, whatever the provider's timestamps say.
-/
namespace Piteka.Safety

set_option autoImplicit false

open Piteka.Interleaving Piteka.Interleaving.Program Piteka.Storage Piteka.Application
open WebhookIngestion

variable {cd : Codec} {d : UInt64} {x : GitHubWebhookPayload} {event : DeploymentStatusEvent}
  {attempt : ExecutionAttempt} {s₀ s s' : Service}

/-- The delivery reports a terminal status of the deployment `d`. -/
structure TerminalFor (cd : Codec) (d : UInt64) (x : GitHubWebhookPayload)
    (event : DeploymentStatusEvent) : Prop where
  reports : accepted cd x = .ok event
  deployment : event.deploymentId = d
  state : isTerminalStatus event.state

/-- Deliveries handled one after the other, without faults. -/
abbrev Handling (cd : Codec) (s₀ : Service) (log : List (Turn GitHubWebhookPayload Service))
    (s : Service) : Prop :=
  Session (ServiceExec cd.toRuntime noFaults) (fun x => handleWebhook cd (process cd) x) s₀ log s

/-- A handler that runs alone, as a run with one caller. -/
theorem handled_alone {r : Except ApiError WebhookResponse}
    (he : (handleWebhook cd (process cd) x).Eval (ServiceExec cd.toRuntime noFaults) s r s') :
    ∃ log p, Run (ServiceExec cd.toRuntime noFaults) s
      (handlers cd (process cd) fun _ : Unit => x) log s' p ∧ p () = .ret r :=
  Run.finish (i := ()) .start he

theorem handler_keeps_attempts {faults : StoreCall → Prop}
    {log : List (Entry Unit ServiceAnswer Service)}
    {p : Unit → Program ServiceCall ServiceAnswer (Except ApiError WebhookResponse)}
    (run : Run (ServiceExec cd.toRuntime faults) s (handlers cd (process cd) fun _ : Unit => x)
      log s' p) {e : Event Unit} (he : e ∈ lefts log) (k : String) :
    e.before.attempt k = s.1.attempt k := by
  obtain ⟨l₁, l₂, hlog⟩ := List.append_of_mem he
  have ht := run.trace.left
  rw [hlog] at ht
  refine attempts_stand ht.around.1 (fun f hf => ?_) k
  have hmem : f ∈ lefts log := by
    rw [hlog]
    exact List.mem_append_left _ hf
  obtain ⟨h, hnext⟩ := run.next_of_left hmem
  exact handleWebhook_writes_no_attempt hnext

/-- The first delivery to be handled writes its receipt. -/
theorem first_handled (only : OnlyRecord s.1 attempt d) (fresh : NoEvidence cd.toRuntime s.1 attempt)
    (free : CollisionFree cd.toRuntime ((terminalTexts attempt).map asBytes))
    (hx : TerminalFor cd d x event) (unseen : s.1.webhookReceipt x.deliveryId = none)
    {r : Except ApiError WebhookResponse}
    (he : (handleWebhook cd (process cd) x).Eval (ServiceExec cd.toRuntime noFaults) s r s') :
    ∃ now, s'.1.receipt ("rcpt-" ++ attempt.attemptIdHex) = some (event.receipt cd attempt now) := by
  obtain ⟨log, p, run, hp⟩ := handled_alone he
  have ht := run.trace.left
  have hexec : ∀ c, onLeft c ∈ history () log → ∃ t t', Exec cd.toRuntime noFaults t c.1 c.2 t' := by
    intro c hc
    obtain ⟨e, he, _, hcall⟩ := mem_history.mp (mem_history_lefts.mpr hc)
    have hx := ht.executed e he
    rw [hcall] at hx
    exact ⟨_, _, hx⟩
  cases handled hx.reports hx.state (run.returns hp) hexec with
  | duplicate hseen quiet =>
    simp only [← mem_history_lefts] at hseen
    obtain ⟨q, hq⟩ := seen_row ht (deliveryId_ne_empty hx.reports) hseen
    obtain ⟨_, hrec, _⟩ := row_recorder ht unseen hq
    exact absurd rfl ((quiet _ (mem_history_lefts.mp hrec)).2 q)
  | @dispatched now hrec h' r' hr sub rest =>
    have hu : Uncontested (lefts log) h' :=
      uncontested_of_caller (i := ()) (fun c hc => mem_history_lefts.mpr (sub c hc))
        (fun c hc => rest c (mem_history_lefts.mp hc)) fun e _ hne => absurd rfl hne
    have hfinds : Finds event attempt h' := by
      intro a ha
      rw [hx.deployment] at ha
      obtain ⟨e, he, _, hcall⟩ := mem_history.mp (mem_history_lefts.mpr (sub _ ha))
      have hlook := ht.executed e he
      rw [hcall] at hlook
      exact (only.of_same (handler_keeps_attempts run he)).found hlook
    obtain ⟨now', hrows⟩ :=
      uncontested_production ht hu hx.state free fresh.noNode fresh.noRow hr hfinds
    exact ⟨now', (hrows _).trans (if_pos rfl)⟩

theorem receipt_stays {k : String} {q : ReceiptProjection} {r : Except ApiError WebhookResponse}
    (hq : s.1.receipt k = some q)
    (he : (handleWebhook cd (process cd) x).Eval (ServiceExec cd.toRuntime noFaults) s r s') :
    s'.1.receipt k = some q := by
  obtain ⟨log, p, run, _⟩ := handled_alone he
  exact row_kept (receipt_add_step · k) run.trace.left hq

/-- Whatever the order and the timestamps of terminal deliveries for one deployment, the receipt
of its attempt has the outcome of the delivery that was handled first. -/
theorem first_delivery_decides {log : List (Turn GitHubWebhookPayload Service)}
    (only : OnlyRecord s₀.1 attempt d) (fresh : NoEvidence cd.toRuntime s₀.1 attempt)
    (free : CollisionFree cd.toRuntime ((terminalTexts attempt).map asBytes))
    (session : Handling cd s₀ log s)
    (terminal : ∀ t ∈ log, ∃ event, TerminalFor cd d t.call event)
    (unseen : ∀ t ∈ log, s₀.1.webhookReceipt t.call.deliveryId = none)
    {first : Turn GitHubWebhookPayload Service} {rest : List (Turn GitHubWebhookPayload Service)}
    (hlog : log = first :: rest) (hfirst : accepted cd first.call = .ok event) :
    (s.1.receipt ("rcpt-" ++ attempt.attemptIdHex)).map (·.outcome) = some event.outcome := by
  have main : (log = [] → s = s₀) ∧ ∀ t rest event, log = t :: rest →
      accepted cd t.call = .ok event →
      ∃ now, s.1.receipt ("rcpt-" ++ attempt.attemptIdHex) =
        some (event.receipt cd attempt now) := by
    clear hlog hfirst
    induction session with
    | start => exact ⟨fun _ => rfl, fun t rest event h => absurd h (by simp)⟩
    | @call log s s' x r session he ih =>
      refine ⟨fun h => absurd h (by simp), fun t rest event ht hacc => ?_⟩
      obtain ⟨hnil, hcons⟩ := ih (fun t ht => terminal t (List.mem_append_left _ ht))
        fun t ht => unseen t (List.mem_append_left _ ht)
      cases log with
      | nil =>
        obtain ⟨rfl, _⟩ := List.cons.inj ht
        obtain rfl := hnil rfl
        obtain ⟨event', hx⟩ := terminal _ List.mem_cons_self
        obtain rfl := Except.ok.inj (hacc.symm.trans hx.reports)
        exact first_handled only fresh free hx (unseen _ List.mem_cons_self) he
      | cons t' log =>
        obtain ⟨rfl, _⟩ := List.cons.inj ht
        obtain ⟨now, hq⟩ := hcons _ _ event rfl hacc
        exact ⟨now, receipt_stays hq he⟩
  obtain ⟨now, hq⟩ := main.2 first rest event hlog hfirst
  rw [hq]
  rfl

/-! ## A failure and a later success -/

/-- Two deliveries for deployment 42: a failure, and a success with a later timestamp. -/
def earlyFailure : GitHubWebhookPayload := samplePost "d-1" "failure" 100

def lateSuccess : GitHubWebhookPayload := samplePost "d-2" "success" 200

def handledInOrder (posts : List GitHubWebhookPayload) :
    List (Turn GitHubWebhookPayload Service) × Service :=
  playSession (serviceReact sampleCodec.toRuntime)
    (fun x => handleWebhook sampleCodec (process sampleCodec) x)
    ([], started (recording sampleAttempt)) (posts.map fun x => (x, World.answering none))

theorem handledInOrder_handling (posts : List GitHubWebhookPayload) :
    Handling sampleCodec (started (recording sampleAttempt)) (handledInOrder posts).1
      (handledInOrder posts).2 :=
  playSession_session (serviceReact_sound sampleCodec.toRuntime noFaults) .start _

theorem earlyFailure_terminal :
    TerminalFor sampleCodec 42 earlyFailure (sampleEvent "failure" 100) :=
  ⟨by decide +kernel, rfl, rfl⟩

theorem lateSuccess_terminal :
    TerminalFor sampleCodec 42 lateSuccess (sampleEvent "success" 200) :=
  ⟨by decide +kernel, rfl, rfl⟩

/-- Handled in the order of their timestamps, the deliveries leave the outcome of the earlier. -/
theorem later_outcome_is_not_taken :
    OnlyRecord (recording sampleAttempt) sampleAttempt 42 ∧
      Handling sampleCodec (started (recording sampleAttempt))
        (handledInOrder [earlyFailure, lateSuccess]).1
        (handledInOrder [earlyFailure, lateSuccess]).2 ∧
      (handledInOrder [earlyFailure, lateSuccess]).1.map (·.call) = [earlyFailure, lateSuccess] ∧
      TerminalFor sampleCodec 42 earlyFailure (sampleEvent "failure" 100) ∧
      TerminalFor sampleCodec 42 lateSuccess (sampleEvent "success" 200) ∧
      ((handledInOrder [earlyFailure, lateSuccess]).2.1.receipt "rcpt-att-m-1").map (·.outcome) =
        some .failed ∧
      ((handledInOrder [lateSuccess, earlyFailure]).2.1.receipt "rcpt-att-m-1").map (·.outcome) =
        some .succeeded := by
  refine ⟨recording_only, handledInOrder_handling _, rfl, earlyFailure_terminal,
    lateSuccess_terminal, ?_, ?_⟩
  · decide +kernel
  · decide +kernel

theorem sample_failure_decides :
    ((handledInOrder [earlyFailure, lateSuccess]).2.1.receipt
      ("rcpt-" ++ sampleAttempt.attemptIdHex)).map (·.outcome) = some .failed := by
  show _ = some (sampleEvent "failure" 100).outcome
  refine first_delivery_decides recording_only (recording_noEvidence _) (by decide +kernel)
    (handledInOrder_handling _) ?_ ?_ rfl earlyFailure_terminal.reports
  · intro t ht
    have hcall : t.call ∈ [earlyFailure, lateSuccess] := List.mem_map_of_mem (f := (·.call)) ht
    rcases List.mem_cons.mp hcall with h | h
    · exact ⟨_, h ▸ earlyFailure_terminal⟩
    · exact ⟨_, List.mem_singleton.mp h ▸ lateSuccess_terminal⟩
  · intro t _
    rfl

end Piteka.Safety
