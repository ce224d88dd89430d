import Piteka.Application.ReceiptProduction
import Piteka.Storage.EvidenceSteps

/-!
# Paths of the receipt production

Where the production and the processor stand before each of their calls, and how
they return. A failed call ends the production, and the processor goes on with its
note.
-/
namespace Piteka.Application

set_option autoImplicit false

open Piteka.Interleaving Piteka.Interleaving.Program Piteka.Storage

namespace DeploymentStatusEvent

variable (cd : Codec) (event : DeploymentStatusEvent)

/-- The clock and the lookup of the attempt. -/
def looked (t : UInt64) (o : Option ExecutionAttempt) : Path :=
  [ticked t, did (.attempts (.byDeploymentId event.deploymentId)) o]

/-- The insertion of the gap node, where there is one. -/
@[irreducible] def gapPath (t : UInt64) (x : ExecutionAttempt) : Path :=
  if event.outcome = .unknown then [nodeInserted (gapNode cd x t.toInt64)] else []

def gapStored (t : UInt64) (x : ExecutionAttempt) : Path :=
  event.looked t (some x) ++ event.gapPath cd t x

def observed (t : UInt64) (x : ExecutionAttempt) : Path :=
  event.looked t (some x) ++ (event.gapPath cd t x ++
    [nodeInserted (event.observationNode cd x t.toInt64)])

def claimed (t : UInt64) (x : ExecutionAttempt) : Path :=
  event.looked t (some x) ++ (event.gapPath cd t x ++
    [nodeInserted (event.observationNode cd x t.toInt64),
      nodeInserted (event.claimNode cd x t.toInt64)])

def receipted (t : UInt64) (x : ExecutionAttempt) : Path :=
  event.looked t (some x) ++ (event.gapPath cd t x ++
    [nodeInserted (event.observationNode cd x t.toInt64),
      nodeInserted (event.claimNode cd x t.toInt64),
      did (.receipts (.insert (event.receipt cd x t.toInt64))) ()])

def produced (t : UInt64) (x : ExecutionAttempt) : Path :=
  event.looked t (some x) ++ (event.gapPath cd t x ++
    [nodeInserted (event.observationNode cd x t.toInt64),
      nodeInserted (event.claimNode cd x t.toInt64),
      did (.receipts (.insert (event.receipt cd x t.toInt64))) (),
      did (.audit (.append (event.producedEvent x t.toInt64))) ()])

end DeploymentStatusEvent

inductive ProducePoint (cd : Codec) (event : DeploymentStatusEvent) : Path → PortCall → Prop
  | clock : ProducePoint cd event [] .clock
  | lookup (t : UInt64) :
      ProducePoint cd event [ticked t] (.store (.attempts (.byDeploymentId event.deploymentId)))
  | gap (t : UInt64) (x : ExecutionAttempt) (hu : event.outcome = .unknown) :
      ProducePoint cd event (event.looked t (some x))
        (.store (.evidenceNodes (.insert (DeploymentStatusEvent.gapNode cd x t.toInt64))))
  | observation (t : UInt64) (x : ExecutionAttempt) :
      ProducePoint cd event (event.gapStored cd t x)
        (.store (.evidenceNodes (.insert (event.observationNode cd x t.toInt64))))
  | claim (t : UInt64) (x : ExecutionAttempt) :
      ProducePoint cd event (event.observed cd t x)
        (.store (.evidenceNodes (.insert (event.claimNode cd x t.toInt64))))
  | receipt (t : UInt64) (x : ExecutionAttempt) :
      ProducePoint cd event (event.claimed cd t x)
        (.store (.receipts (.insert (event.receipt cd x t.toInt64))))
  | audit (t : UInt64) (x : ExecutionAttempt) :
      ProducePoint cd event (event.receipted cd t x)
        (.store (.audit (.append (event.producedEvent x t.toInt64))))

inductive ProduceResult (cd : Codec) (event : DeploymentStatusEvent) :
    Path → Except ReceiptProductionError ReceiptProductionResult → Prop
  | failed (h : Path) (sc : StoreCall) (e : StorageError)
      (hp : ProducePoint cd event h (.store sc)) :
      ProduceResult cd event (h ++ [⟨.store sc, .error e⟩]) (.error (.storage e))
  | notFound (t : UInt64) :
      ProduceResult cd event (event.looked t none) (.error (.attemptNotFound
        ("no attempt found for deployment_id=" ++ toString event.deploymentId.toNat)))
  | produced (t : UInt64) (x : ExecutionAttempt) :
      ProduceResult cd event (event.produced cd t x) (.ok (event.result cd x t.toInt64))

theorem storeGap_next {cd : Codec} {event : DeploymentStatusEvent} {x : ExecutionAttempt}
    {t : UInt64} {h : Path} {op : PortCall} (hn : Next (storeGap cd event x t.toInt64).run h op) :
    event.outcome = .unknown ∧ h = [] ∧
      op = .store (.evidenceNodes (.insert (DeploymentStatusEvent.gapNode cd x t.toInt64))) := by
  unfold storeGap at hn
  split at hn
  · next hu => exact ⟨hu, next_await_last.mp hn⟩
  · exact absurd hn next_pure

/-- A gap is stored exactly when the outcome is open. -/
theorem storeGap_returns {cd : Codec} {event : DeploymentStatusEvent} {x : ExecutionAttempt}
    {t : UInt64} {h : Path} {r : Except ReceiptProductionError Unit}
    (hr : Returns (storeGap cd event x t.toInt64).run h r) :
    (event.outcome = .unknown ∧
      Failed (.evidenceNodes (.insert (DeploymentStatusEvent.gapNode cd x t.toInt64))) h r) ∨
    (r = .ok () ∧ h = event.gapPath cd t x) := by
  unfold DeploymentStatusEvent.gapPath
  unfold storeGap at hr
  split at hr
  · next hu =>
    rcases returns_await_last.mp hr with hf | ⟨_, rfl, rfl⟩
    · exact Or.inl ⟨hu, hf⟩
    · exact Or.inr ⟨rfl, (if_pos hu).symm⟩
  · next hu =>
    obtain ⟨rfl, rfl⟩ := returns_pure.mp hr
    exact Or.inr ⟨rfl, (if_neg hu).symm⟩

theorem produceReceiptFromWebhook_next {cd : Codec} {event : DeploymentStatusEvent} {h : Path}
    {op : PortCall} (hn : Next (produceReceiptFromWebhook cd event).run h op) :
    ProducePoint cd event h op := by
  rcases next_nowSeconds.mp hn with ⟨rfl, rfl⟩ | ⟨t, h, rfl, h1⟩
  · exact .clock
  rcases next_await.mp h1 with ⟨rfl, rfl⟩ | ⟨o, h, rfl, h2⟩
  · exact .lookup t
  cases o with
  | none => exact absurd h2 next_throw
  | some x =>
    rcases next_seq h2 with h3 | ⟨h₁, h₂, _, rfl, h3, h4⟩
    · obtain ⟨hu, rfl, rfl⟩ := storeGap_next h3
      exact .gap t x hu
    rcases storeGap_returns h3 with ⟨_, e, _, he⟩ | ⟨_, rfl⟩
    · cases he
    rcases next_await.mp h4 with ⟨rfl, rfl⟩ | ⟨_, h, rfl, h5⟩
    · rw [List.append_nil]
      exact .observation t x
    rcases next_await.mp h5 with ⟨rfl, rfl⟩ | ⟨_, h, rfl, h6⟩
    · exact .claim t x
    rcases next_await.mp h6 with ⟨rfl, rfl⟩ | ⟨_, h, rfl, h7⟩
    · exact .receipt t x
    rcases next_await.mp h7 with ⟨rfl, rfl⟩ | ⟨_, h, rfl, h8⟩
    · exact .audit t x
    · exact absurd h8 next_pure

theorem produceReceiptFromWebhook_returns {cd : Codec} {event : DeploymentStatusEvent} {h : Path}
    {r : Except ReceiptProductionError ReceiptProductionResult}
    (hr : Returns (produceReceiptFromWebhook cd event).run h r) : ProduceResult cd event h r := by
  obtain ⟨t, h, rfl, h1⟩ := returns_nowSeconds.mp hr
  rcases returns_await.mp h1 with ⟨e, rfl, rfl⟩ | ⟨o, h, rfl, h2⟩
  · exact .failed [ticked t] _ e (.lookup t)
  cases o with
  | none =>
    obtain ⟨rfl, rfl⟩ := returns_throw.mp h2
    exact .notFound t
  | some x =>
    rcases returns_seq h2 with ⟨e, h3, rfl⟩ | ⟨h₁, h₂, _, rfl, h3, h4⟩
    · rcases storeGap_returns h3 with ⟨hu, e', rfl, he⟩ | ⟨he, _⟩
      · obtain rfl := Except.error.inj he
        exact .failed (event.looked t (some x)) _ e' (.gap t x hu)
      · cases he
    rcases storeGap_returns h3 with ⟨_, e, _, he⟩ | ⟨_, rfl⟩
    · cases he
    rcases returns_await.mp h4 with ⟨e, rfl, rfl⟩ | ⟨_, h, rfl, h5⟩
    · exact .failed (event.gapStored cd t x) _ e (.observation t x)
    rcases returns_await.mp h5 with ⟨e, rfl, rfl⟩ | ⟨_, h, rfl, h6⟩
    · have hf := ProduceResult.failed (event.observed cd t x) _ e (.claim t x)
      rw [DeploymentStatusEvent.observed, List.append_assoc, List.append_assoc] at hf
      exact hf
    rcases returns_await.mp h6 with ⟨e, rfl, rfl⟩ | ⟨_, h, rfl, h7⟩
    · have hf := ProduceResult.failed (event.claimed cd t x) _ e (.receipt t x)
      rw [DeploymentStatusEvent.claimed, List.append_assoc, List.append_assoc] at hf
      exact hf
    rcases returns_await.mp h7 with ⟨e, rfl, rfl⟩ | ⟨_, h, rfl, h8⟩
    · have hf := ProduceResult.failed (event.receipted cd t x) _ e (.audit t x)
      rw [DeploymentStatusEvent.receipted, List.append_assoc, List.append_assoc] at hf
      exact hf
    obtain ⟨rfl, rfl⟩ := returns_pure.mp h8
    exact .produced t x

/-! ## The processor -/

/-- The arguments of `process`. -/
structure Delivery where
  eventType : String
  payload : Array UInt8
  deliveryId : String
  outOfOrder : Bool
  deriving DecidableEq

namespace Delivery

def process (cd : Codec) (x : Delivery) : UseCase WebhookError Unit :=
  Application.process cd x.eventType x.payload x.deliveryId x.outOfOrder

/-- The delivery is a `deployment_status` whose payload parses to `event`. -/
def Reports (cd : Codec) (x : Delivery) (event : DeploymentStatusEvent) : Prop :=
  x.eventType = "deployment_status" ∧ parseDeploymentStatus cd x.payload = some event

end Delivery

inductive ProcessPoint (cd : Codec) (x : Delivery) : Path → PortCall → Prop
  | produce {event : DeploymentStatusEvent} (hx : x.Reports cd event)
      (ht : isTerminalStatus event.state) {h : Path} {op : PortCall}
      (hp : ProducePoint cd event h op) : ProcessPoint cd x h op
  | clock {event : DeploymentStatusEvent} (hx : x.Reports cd event)
      (ht : isTerminalStatus event.state) {h : Path}
      {r : Except ReceiptProductionError ReceiptProductionResult}
      (hr : ProduceResult cd event h r) : ProcessPoint cd x h .clock
  | note {event : DeploymentStatusEvent} (hx : x.Reports cd event)
      (ht : isTerminalStatus event.state) {h : Path}
      {r : Except ReceiptProductionError ReceiptProductionResult}
      (hr : ProduceResult cd event h r) (t : UInt64) :
      ProcessPoint cd x (h ++ [ticked t])
        (.store (.audit (.append (productionNote x.deliveryId event t.toInt64 r))))
  | deferClock {event : DeploymentStatusEvent} (hx : x.Reports cd event)
      (ht : isTerminalStatus event.state = false) : ProcessPoint cd x [] .clock
  | deferNote {event : DeploymentStatusEvent} (hx : x.Reports cd event)
      (ht : isTerminalStatus event.state = false) (t : UInt64) :
      ProcessPoint cd x [ticked t]
        (.store (.audit (.append (deferredNote x.deliveryId event t.toInt64))))

theorem process_next {cd : Codec} {x : Delivery} {h : Path} {op : PortCall}
    (hn : Next (x.process cd).run h op) : ProcessPoint cd x h op := by
  unfold Delivery.process Application.process at hn
  split at hn
  · exact absurd hn next_throw
  next htype =>
  split at hn
  · exact absurd hn next_throw
  next event hparse =>
  have hx : x.Reports cd event := ⟨not_not.mp htype, hparse⟩
  split at hn
  · next ht =>
    rcases next_caught hn with h1 | ⟨h₁, h₂, r, rfl, h1, h2⟩
    · exact .produce hx ht (produceReceiptFromWebhook_next h1)
    have hr := produceReceiptFromWebhook_returns h1
    rcases next_nowSeconds.mp h2 with ⟨rfl, rfl⟩ | ⟨t, h, rfl, h3⟩
    · rw [List.append_nil]
      exact .clock hx ht hr
    rcases next_ask.mp h3 with ⟨rfl, rfl⟩ | ⟨a, h, rfl, h4⟩
    · exact .note hx ht hr t
    · exact absurd h4 next_pure
  · next ht =>
    have ht' : isTerminalStatus event.state = false := Bool.eq_false_iff.mpr ht
    rcases next_nowSeconds.mp hn with ⟨rfl, rfl⟩ | ⟨t, h, rfl, h1⟩
    · exact .deferClock hx ht'
    obtain ⟨rfl, rfl⟩ := next_await_last.mp h1
    exact .deferNote hx ht' t

/-- A processor writes no attempt. -/
theorem process_writes_no_attempt {cd : Codec} {x : Delivery} {h : Path} {op : PortCall}
    (hn : Next (x.process cd).run h op) : ¬ WritesAttempt op := by
  cases process_next hn with
  | produce hx ht hp => cases hp <;> exact id
  | clock hx ht hr => exact id
  | note hx ht hr t => exact id
  | deferClock hx ht => exact id
  | deferNote hx ht t => exact id

/-- A processor that handles a terminal status has run the production to its end and has
noted the result, whatever became of the note. -/
theorem process_returns {cd : Codec} {x : Delivery} {event : DeploymentStatusEvent} {h : Path}
    {r : Except WebhookError Unit} (hx : x.Reports cd event) (ht : isTerminalStatus event.state)
    (hr : Returns (x.process cd).run h r) :
    r = .ok () ∧ ∃ h₁ produced t a, ProduceResult cd event h₁ produced ∧
      h = h₁ ++ [ticked t,
        ⟨.store (.audit (.append (productionNote x.deliveryId event t.toInt64 produced))), a⟩] := by
  unfold Delivery.process Application.process at hr
  rw [if_neg (not_not.mpr hx.1), hx.2] at hr
  simp only [ht, if_true] at hr
  obtain ⟨h₁, h₂, produced, rfl, h1, h2⟩ := returns_caught hr
  obtain ⟨t, h, rfl, h3⟩ := returns_nowSeconds.mp h2
  obtain ⟨a, h, rfl, h4⟩ := returns_ask.mp h3
  obtain ⟨rfl, rfl⟩ := returns_pure.mp h4
  exact ⟨rfl, h₁, produced, t, a, produceReceiptFromWebhook_returns h1, rfl⟩

end Piteka.Application
