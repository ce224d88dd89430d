import Piteka.Application.WebhookIngestion
import Piteka.Storage.EvidenceSteps

/-!
# Paths of the webhook ingestion

Where `ingest` and the handler stand before each of their calls, and how they
return. The processor is a parameter, so a handler that has come to it stands at
some call of `dispatch`.
-/
namespace Piteka.Application

set_option autoImplicit false

open Piteka.Interleaving Piteka.Interleaving.Program Piteka.Storage WebhookIngestion

abbrev ServicePath := List ((op : ServiceCall) × ServiceAnswer op)

/-- A path through the stores, the clock and the provider, as a path of the service. -/
abbrev atPorts (h : Path) : ServicePath := h.map onLeft

theorem next_track {ε α : Type} {event : DeploymentStatusEvent} {f : Bool → ServiceCase ε α}
    {h : ServicePath} {op : ServiceCall} :
    Next (track event >>= f).run h op ↔
      (h = [] ∧ op = .inr (.record event.deploymentId event.updatedAt)) ∨
        ∃ b t, h = ⟨.inr (.record event.deploymentId event.updatedAt), b⟩ :: t ∧
          Next (f b).run t op :=
  next_call

theorem returns_track {ε α : Type} {event : DeploymentStatusEvent} {f : Bool → ServiceCase ε α}
    {h : ServicePath} {r : Except ε α} :
    Returns (track event >>= f).run h r ↔
      ∃ b t, h = ⟨.inr (.record event.deploymentId event.updatedAt), b⟩ :: t ∧
        Returns (f b).run t r :=
  returns_call

namespace GitHubWebhookPayload

/-- The replay check found no receipt of the delivery. -/
abbrev unseen (x : GitHubWebhookPayload) : Answered :=
  did (.webhookReceipts (.get x.deliveryId)) none

/-- The path to the new receipt of the delivery. -/
def recordedPath (rt : Runtime) (x : GitHubWebhookPayload) (t : UInt64) : Path :=
  [x.unseen, ticked t, recorded (x.receipt rt t.toInt64)]

/-- The path through the tracker, with its answer. -/
def trackedPath (rt : Runtime) (x : GitHubWebhookPayload) (event : DeploymentStatusEvent)
    (t : UInt64) (b : Bool) : ServicePath :=
  atPorts (x.recordedPath rt t) ++ [⟨.inr (.record event.deploymentId event.updatedAt), b⟩]

/-- The complete path of an ingestion that records the delivery. -/
def processedPath (rt : Runtime) (x : GitHubWebhookPayload) (event : DeploymentStatusEvent)
    (t : UInt64) (b : Bool) (t' : UInt64) : ServicePath :=
  x.trackedPath rt event t b ++
    atPorts [ticked t', did (.audit (.append (x.ingestedEvent b t'.toInt64))) ()]

theorem recorded_mem_processedPath {rt : Runtime} {x : GitHubWebhookPayload}
    {event : DeploymentStatusEvent} {t : UInt64} {b : Bool} {t' : UInt64} :
    onLeft (recorded (x.receipt rt t.toInt64)) ∈ x.processedPath rt event t b t' := by
  simp [processedPath, trackedPath, recordedPath]

end GitHubWebhookPayload

inductive IngestPoint (cd : Codec) (x : GitHubWebhookPayload) : ServicePath → ServiceCall → Prop
  | get {event : DeploymentStatusEvent} (hx : accepted cd x = .ok event) :
      IngestPoint cd x [] (.inl (.store (.webhookReceipts (.get x.deliveryId))))
  | clock {event : DeploymentStatusEvent} (hx : accepted cd x = .ok event) :
      IngestPoint cd x (atPorts [x.unseen]) (.inl .clock)
  | record {event : DeploymentStatusEvent} (hx : accepted cd x = .ok event) (t : UInt64) :
      IngestPoint cd x (atPorts [x.unseen, ticked t])
        (.inl (.store (.webhookReceipts (.record (x.receipt cd.toRuntime t.toInt64)))))
  | track {event : DeploymentStatusEvent} (hx : accepted cd x = .ok event) (t : UInt64) :
      IngestPoint cd x (atPorts (x.recordedPath cd.toRuntime t))
        (.inr (.record event.deploymentId event.updatedAt))
  | auditClock {event : DeploymentStatusEvent} (hx : accepted cd x = .ok event) (t : UInt64)
      (b : Bool) : IngestPoint cd x (x.trackedPath cd.toRuntime event t b) (.inl .clock)
  | audit {event : DeploymentStatusEvent} (hx : accepted cd x = .ok event) (t : UInt64) (b : Bool)
      (t' : UInt64) :
      IngestPoint cd x (x.trackedPath cd.toRuntime event t b ++ atPorts [ticked t'])
        (.inl (.store (.audit (.append (x.ingestedEvent b t'.toInt64)))))

/-- How `ingest` returns. A store call that fails ends it at the point it had reached. -/
inductive IngestResult (cd : Codec) (x : GitHubWebhookPayload) :
    ServicePath → Except WebhookError IngestionOutcome → Prop
  | refused {err : WebhookError} (hx : accepted cd x = .error err) :
      IngestResult cd x [] (.error err)
  | failed (h : ServicePath) (sc : StoreCall) (e : StorageError)
      (hp : IngestPoint cd x h (.inl (.store sc))) :
      IngestResult cd x (h ++ [onLeft ⟨.store sc, .error e⟩]) (.error (.storage e))
  | seen {event : DeploymentStatusEvent} (hx : accepted cd x = .ok event) (r : WebhookReceipt) :
      IngestResult cd x (atPorts [did (.webhookReceipts (.get x.deliveryId)) (some r)])
        (.ok .duplicate)
  | raced {event : DeploymentStatusEvent} (hx : accepted cd x = .ok event) (t : UInt64) :
      IngestResult cd x
        (atPorts [x.unseen, ticked t,
          did (.webhookReceipts (.record (x.receipt cd.toRuntime t.toInt64))) .duplicate])
        (.ok .duplicate)
  | processed {event : DeploymentStatusEvent} (hx : accepted cd x = .ok event) (t : UInt64)
      (b : Bool) (t' : UInt64) :
      IngestResult cd x (x.processedPath cd.toRuntime event t b t')
        (.ok (.processed b (x.rawDigest cd.toRuntime)))

variable {cd : Codec} {x : GitHubWebhookPayload} {h : ServicePath}

/-! ## The parts of `ingest` -/

/-- The calls of `recordDelivery`, before each of them. -/
inductive RecordPoint (rt : Runtime) (x : GitHubWebhookPayload) : Path → PortCall → Prop
  | get : RecordPoint rt x [] (.store (.webhookReceipts (.get x.deliveryId)))
  | clock : RecordPoint rt x [x.unseen] .clock
  | record (t : UInt64) : RecordPoint rt x [x.unseen, ticked t]
      (.store (.webhookReceipts (.record (x.receipt rt t.toInt64))))

theorem recordDelivery_next {rt : Runtime} {h : Path} {op : PortCall}
    (hn : Next (recordDelivery rt x).run h op) : RecordPoint rt x h op := by
  rcases next_await.mp hn with ⟨rfl, rfl⟩ | ⟨o, h, rfl, h1⟩
  · exact .get
  cases o with
  | some r => exact absurd h1 next_pure
  | none =>
    rcases next_nowSeconds.mp h1 with ⟨rfl, rfl⟩ | ⟨t, h, rfl, h2⟩
    · exact .clock
    obtain ⟨rfl, rfl⟩ := next_await_last.mp h2
    exact .record t

theorem recordDelivery_returns {rt : Runtime} {h : Path}
    {r : Except WebhookError WebhookRecordOutcome} (hr : Returns (recordDelivery rt x).run h r) :
    (∃ h' sc e, h = h' ++ [⟨.store sc, .error e⟩] ∧ RecordPoint rt x h' (.store sc) ∧
      r = .error (.storage e)) ∨
    (∃ q, h = [did (.webhookReceipts (.get x.deliveryId)) (some q)] ∧ r = .ok .duplicate) ∨
    ∃ t o, h = [x.unseen, ticked t, did (.webhookReceipts (.record (x.receipt rt t.toInt64))) o] ∧
      r = .ok o := by
  rcases returns_await.mp hr with ⟨e, rfl, rfl⟩ | ⟨o, h, rfl, h1⟩
  · exact Or.inl ⟨[], _, e, rfl, .get, rfl⟩
  cases o with
  | some q =>
    obtain ⟨rfl, rfl⟩ := returns_pure.mp h1
    exact Or.inr (Or.inl ⟨q, rfl, rfl⟩)
  | none =>
    obtain ⟨t, h, rfl, h2⟩ := returns_nowSeconds.mp h1
    rcases returns_await_last.mp h2 with ⟨e, rfl, rfl⟩ | ⟨o, rfl, rfl⟩
    · exact Or.inl ⟨[x.unseen, ticked t], _, e, rfl, .record t, rfl⟩
    · exact Or.inr (Or.inr ⟨t, o, rfl, rfl⟩)

theorem RecordPoint.ingest {event : DeploymentStatusEvent} (hx : accepted cd x = .ok event)
    {h : Path} {op : PortCall} (hp : RecordPoint cd.toRuntime x h op) :
    IngestPoint cd x (atPorts h) (.inl op) := by
  cases hp with
  | get => exact .get hx
  | clock => exact .clock hx
  | record t => exact .record hx t

theorem ingest_next {op : ServiceCall} (hn : Next (ingest cd x).run h op) :
    IngestPoint cd x h op := by
  unfold ingest at hn
  cases hx : accepted cd x with
  | error err =>
    simp only [hx] at hn
    exact absurd hn next_throw
  | ok event =>
    simp only [hx] at hn
    rcases next_liftT hn with ⟨h', op', rfl, rfl, h1⟩ | ⟨h₁, h₂, o, rfl, h1, h2⟩
    · exact (recordDelivery_next h1).ingest hx
    rcases recordDelivery_returns h1 with
      ⟨_, _, e, _, _, he⟩ | ⟨q, rfl, ho⟩ | ⟨t, o', rfl, ho⟩
    · cases he
    · obtain rfl := Except.ok.inj ho
      exact absurd h2 next_pure
    obtain rfl := Except.ok.inj ho
    cases o with
    | duplicate => exact absurd h2 next_pure
    | recorded =>
      rcases next_track.mp h2 with ⟨rfl, rfl⟩ | ⟨b, h, rfl, h3⟩
      · rw [List.append_nil]
        exact .track hx t
      rcases next_liftT h3 with ⟨h', op', rfl, rfl, h4⟩ | ⟨_, _, _, _, _, h4⟩
      · rcases next_nowSeconds.mp h4 with ⟨rfl, rfl⟩ | ⟨t', h, rfl, h5⟩
        · exact .auditClock hx t b
        obtain ⟨rfl, rfl⟩ := next_await_last.mp h5
        exact .audit hx t b t'
      · exact absurd h4 next_pure

theorem ingest_returns {r : Except WebhookError IngestionOutcome}
    (hr : Returns (ingest cd x).run h r) : IngestResult cd x h r := by
  unfold ingest at hr
  cases hx : accepted cd x with
  | error err =>
    simp only [hx] at hr
    obtain ⟨rfl, rfl⟩ := returns_throw.mp hr
    exact .refused hx
  | ok event =>
    simp only [hx] at hr
    rcases returns_liftT hr with ⟨h₁, e, rfl, h1, rfl⟩ | ⟨h₁, h₂, o, rfl, h1, h2⟩
    · rcases recordDelivery_returns h1 with
        ⟨h', sc, e', rfl, hp, he⟩ | ⟨q, _, ho⟩ | ⟨t, o', _, ho⟩
      · obtain rfl := Except.error.inj he
        rw [List.map_append]
        exact .failed _ sc e' (hp.ingest hx)
      · cases ho
      · cases ho
    rcases recordDelivery_returns h1 with
      ⟨_, _, e, _, _, he⟩ | ⟨q, rfl, ho⟩ | ⟨t, o', rfl, ho⟩
    · cases he
    · obtain rfl := Except.ok.inj ho
      obtain ⟨rfl, rfl⟩ := returns_pure.mp h2
      exact .seen hx q
    obtain rfl := Except.ok.inj ho
    cases o with
    | duplicate =>
      obtain ⟨rfl, rfl⟩ := returns_pure.mp h2
      exact .raced hx t
    | recorded =>
      obtain ⟨b, h, rfl, h3⟩ := returns_track.mp h2
      rcases returns_liftT h3 with ⟨h₁, e, rfl, h4, rfl⟩ | ⟨h₁, h₂, _, rfl, h4, h5⟩
      · obtain ⟨t', h, rfl, h6⟩ := returns_nowSeconds.mp h4
        rcases returns_await_last.mp h6 with ⟨e', rfl, he⟩ | ⟨_, _, he⟩
        · obtain rfl := Except.error.inj he
          have hf := IngestResult.failed _ _ e' (.audit hx t b t')
          rw [GitHubWebhookPayload.trackedPath, List.append_assoc, List.append_assoc] at hf
          exact hf
        · cases he
      · obtain ⟨t', h, rfl, h6⟩ := returns_nowSeconds.mp h4
        rcases returns_await_last.mp h6 with ⟨e', _, he⟩ | ⟨_, rfl, _⟩
        · cases he
        obtain ⟨rfl, rfl⟩ := returns_pure.mp h5
        have hp := IngestResult.processed hx t b t'
        rw [GitHubWebhookPayload.processedPath, GitHubWebhookPayload.trackedPath,
          List.append_assoc] at hp
        exact hp

/-! ## The handler -/

/-- A handler stands in `ingest`, or in the dispatch of a delivery that `ingest` has recorded. -/
inductive HandlePoint (cd : Codec) (processor : EventProcessor) (x : GitHubWebhookPayload) :
    ServicePath → ServiceCall → Prop
  | ingest {h : ServicePath} {op : ServiceCall} (hp : IngestPoint cd x h op) :
      HandlePoint cd processor x h op
  | dispatch {event : DeploymentStatusEvent} (hx : accepted cd x = .ok event) (t : UInt64)
      (b : Bool) (t' : UInt64) {h : Path} {op : PortCall}
      (hn : Next (dispatch processor x b).run h op) :
      HandlePoint cd processor x (x.processedPath cd.toRuntime event t b t' ++ atPorts h) (.inl op)

theorem handleWebhook_next {processor : EventProcessor} {op : ServiceCall}
    (hn : Next (handleWebhook cd processor x) h op) : HandlePoint cd processor x h op := by
  rcases next_bind hn with h1 | ⟨h₁, h₂, r, rfl, h1, h2⟩
  · exact .ingest (ingest_next h1)
  cases ingest_returns h1 with
  | refused hx => cases ‹WebhookError› <;> exact absurd h2 next_ret
  | failed h sc e hp => exact absurd h2 next_ret
  | seen hx q => exact absurd h2 next_ret
  | raced hx t => exact absurd h2 next_ret
  | processed hx t b t' =>
    rcases next_bind h2 with h3 | ⟨_, _, _, _, _, h3⟩
    · obtain ⟨h', op', rfl, rfl, h4⟩ := next_lift.mp h3
      exact .dispatch hx t b t' h4
    · exact absurd h3 next_ret

/-- What the handler answers when `ingest` has not recorded a new delivery. -/
def undispatched (x : GitHubWebhookPayload) :
    Except WebhookError IngestionOutcome → Except ApiError WebhookResponse
  | .error (.malformed message) => .error (.badRequest "MALFORMED_WEBHOOK" message)
  | .error (.unsupportedEventType _) =>
    .error (.badRequest "UNSUPPORTED_EVENT_TYPE" "The GitHub event type is not supported")
  | .error _ => .error (.internal "Webhook ingestion failed")
  | .ok _ => .ok (.duplicate x.deliveryId)

inductive HandleResult (cd : Codec) (processor : EventProcessor) (x : GitHubWebhookPayload) :
    ServicePath → Except ApiError WebhookResponse → Prop
  | undispatched {h : ServicePath} {r : Except WebhookError IngestionOutcome}
      (hr : IngestResult cd x h r) (hd : ∀ b d, r ≠ .ok (.processed b d)) :
      HandleResult cd processor x h (undispatched x r)
  | dispatched {event : DeploymentStatusEvent} (hx : accepted cd x = .ok event) (t : UInt64)
      (b : Bool) (t' : UInt64) {h : Path} {r : Except Empty Unit}
      (hr : Returns (dispatch processor x b).run h r) :
      HandleResult cd processor x (x.processedPath cd.toRuntime event t b t' ++ atPorts h)
        (.ok (.processed x.deliveryId b (x.rawDigest cd.toRuntime).toHex))

theorem handleWebhook_returns {processor : EventProcessor}
    {r : Except ApiError WebhookResponse} (hr : Returns (handleWebhook cd processor x) h r) :
    HandleResult cd processor x h r := by
  obtain ⟨h₁, h₂, ri, rfl, h1, h2⟩ := returns_bind hr
  have hi := ingest_returns h1
  cases ri with
  | error err =>
    have hend : h₂ = [] ∧ r = undispatched x (.error err) := by
      cases err <;> exact returns_ret.mp h2
    obtain ⟨rfl, rfl⟩ := hend
    rw [List.append_nil]
    exact .undispatched hi (by simp)
  | ok o =>
    cases o with
    | duplicate =>
      obtain ⟨rfl, rfl⟩ := returns_ret.mp h2
      rw [List.append_nil]
      exact .undispatched hi (by simp)
    | processed b d =>
      cases hi with
      | processed hx t _ t' =>
        obtain ⟨h₃, h₄, rd, rfl, h3, h4⟩ := returns_bind h2
        obtain ⟨rfl, rfl⟩ := returns_ret.mp h4
        obtain ⟨h', rfl, h5⟩ := returns_lift.mp h3
        rw [List.append_nil]
        exact .dispatched hx t b t' h5

/-- The dispatch runs the processor to its end and then notes how it ended. -/
theorem dispatch_returns {processor : EventProcessor} {b : Bool} {h : Path}
    {r : Except Empty Unit} (hr : Returns (dispatch processor x b).run h r) :
    ∃ h₁ processed t a, Returns (processor x.eventType x.body x.deliveryId b).run h₁ processed ∧
      h = h₁ ++ [ticked t,
        ⟨.store (.audit (.append (processedNote x t.toInt64 processed))), a⟩] := by
  obtain ⟨h₁, h₂, processed, rfl, h1, h2⟩ := returns_caught hr
  obtain ⟨t, h, rfl, h3⟩ := returns_nowSeconds.mp h2
  obtain ⟨a, h, rfl, h4⟩ := returns_ask.mp h3
  obtain ⟨rfl, rfl⟩ := returns_pure.mp h4
  exact ⟨h₁, processed, t, a, h1, rfl⟩

theorem dispatch_next {processor : EventProcessor} {b : Bool} {h : Path} {op : PortCall}
    (hn : Next (dispatch processor x b).run h op) :
    Next (processor x.eventType x.body x.deliveryId b).run h op ∨ op = .clock ∨
      ∃ event, op = .store (.audit (.append event)) := by
  rcases next_caught hn with h1 | ⟨h₁, h₂, processed, rfl, h1, h2⟩
  · exact Or.inl h1
  rcases next_nowSeconds.mp h2 with ⟨rfl, rfl⟩ | ⟨t, h, rfl, h3⟩
  · exact Or.inr (Or.inl rfl)
  rcases next_ask.mp h3 with ⟨rfl, rfl⟩ | ⟨a, h, rfl, h4⟩
  · exact Or.inr (Or.inr ⟨_, rfl⟩)
  · exact absurd h4 next_pure

end Piteka.Application
