import Piteka.Application.ProductionEffects
import Piteka.Application.WebhookScenario

/-!
# Terminal states and outcomes

The processor tells terminal states by their literal text and the production maps the
text in lower case. A terminal state in another spelling has an outcome, and its
receipt is deferred.
-/
namespace Piteka.Safety

set_option autoImplicit false

open Piteka.Interleaving Piteka.Interleaving.Program Piteka.Storage Piteka.Application

variable {cd : Codec} {event : DeploymentStatusEvent} {s s' : Stores}

/-- A receipt is stored that was not there before. -/
def StoresReceipt (s s' : Stores) : Prop := ∃ k q, s.receipt k = none ∧ s'.receipt k = some q

/-- The attempt has no receipt, and the ids of the nodes that a production for the event inserts
are free and differ from one another. -/
def NothingStored (cd : Codec) (event : DeploymentStatusEvent) (s : Stores)
    (x : ExecutionAttempt) : Prop :=
  Unused s (event.nodeIds cd x) ∧ s.receipt ("rcpt-" ++ x.attemptIdHex) = none

/-! ## The two classifications -/

theorem lowercase_of_terminal {state : String} (ht : isTerminalStatus state = true) :
    toLowercase state = state := by
  have hmem := mem_terminalStates.mpr ht
  simp only [terminalStates, List.mem_cons, List.not_mem_nil, or_false] at hmem
  rcases hmem with rfl | rfl | rfl <;> decide

/-- The mapping knows an outcome exactly of the states that are terminal in lower case. -/
theorem outcome_known_iff {state : String} :
    mapGithubStateToOutcome state ≠ .unknown ↔ isTerminalStatus (toLowercase state) = true := by
  unfold mapGithubStateToOutcome isTerminalStatus
  split
  · next h => simp [h]
  · next h => simp [h]
  · next h => simp [h]
  · next h => simp [h]
  · next h => simp [h]
  · next h => simp [h]
  · next hs hf he _ _ _ => simpa using ⟨⟨hs, hf⟩, he⟩

/-- The two tell the states apart alike exactly at a state that is no other spelling of a
terminal one. -/
theorem classifications_agree_iff {state : String} :
    (isTerminalStatus state = true ↔ mapGithubStateToOutcome state ≠ .unknown) ↔
      (isTerminalStatus (toLowercase state) = true → toLowercase state = state) := by
  rw [outcome_known_iff]
  constructor
  · exact fun h hlower => lowercase_of_terminal (h.mpr hlower)
  · intro h
    constructor
    · intro ht
      rw [lowercase_of_terminal ht]
      exact ht
    · intro hlower
      rw [← h hlower]
      exact hlower

/-! ## What the processor stores -/

theorem clocked {ε α : Type} {rt : Runtime} {faults : StoreCall → Prop} {f : Int64 → UseCase ε α}
    {r : Except ε α} (he : (nowSeconds >>= f).run.Eval (Exec rt faults) s r s') :
    ∃ now, (f now).run.Eval (Exec rt faults) s r s' := by
  obtain ⟨t, s₁, hclock, he⟩ := he
  obtain rfl : s₁ = s := hclock
  exact ⟨t.toInt64, he⟩

section
variable {payload : Array UInt8} {deliveryId : String} {outOfOrder : Bool}
  {r : Except WebhookError Unit}

theorem process_terminal (hparse : parseDeploymentStatus cd payload = some event)
    (ht : isTerminalStatus event.state = true)
    (he : (process cd "deployment_status" payload deliveryId outOfOrder).run.Eval
      (Exec cd.toRuntime noFaults) s r s') :
    ∃ x t, (produceReceiptFromWebhook cd event).run.Eval (Exec cd.toRuntime noFaults) s x t ∧
      ∀ k q, t.receipt k = some q → s'.receipt k = some q := by
  unfold process at he
  rw [if_neg (fun h => h rfl), hparse] at he
  simp only [ht, if_true] at he
  obtain ⟨x, t, hproduced, hrest⟩ := eval_caught.mp he
  exact ⟨x, t, hproduced, fun k q hq => receipt_kept hrest hq⟩

/-- Progress is noted and nothing else is written. -/
theorem process_progress (hparse : parseDeploymentStatus cd payload = some event)
    (ht : isTerminalStatus event.state = false)
    (he : (process cd "deployment_status" payload deliveryId outOfOrder).run.Eval
      (Exec cd.toRuntime noFaults) s r s') : s'.receipts = s.receipts := by
  unfold process at he
  rw [if_neg (fun h => h rfl), hparse] at he
  simp only [ht, Bool.false_eq_true, if_false] at he
  obtain ⟨now, he⟩ := clocked he
  rcases eval_await.mp he with ⟨e, hx, _⟩ | ⟨_, hx, _⟩
  · cases audit_noFaults hx
  · obtain ⟨order, hr⟩ := exec_noFaults hx
    obtain ⟨_, rfl⟩ := Prod.mk.inj hr
    rfl

theorem stores_iff_terminal (hparse : parseDeploymentStatus cd payload = some event)
    (hrecorded : ∃ x, Records s event x)
    (hfresh : ∀ x, Records s event x → NothingStored cd event s x)
    (he : (process cd "deployment_status" payload deliveryId outOfOrder).run.Eval
      (Exec cd.toRuntime noFaults) s r s') :
    StoresReceipt s s' ↔ isTerminalStatus event.state = true := by
  cases ht : isTerminalStatus event.state with
  | false =>
    refine iff_of_false ?_ Bool.false_ne_true
    rintro ⟨k, q, hnone, hsome⟩
    rw [Stores.receipt, process_progress hparse ht he] at hsome
    rw [Stores.receipt, hsome] at hnone
    cases hnone
  | true =>
    refine iff_of_true ?_ rfl
    obtain ⟨y, t, hproduced, hkept⟩ := process_terminal hparse ht he
    rcases production_alone hproduced with ⟨hnone, _⟩ | ⟨x, now, hx, hrecord⟩
    · obtain ⟨x, hx⟩ := hrecorded
      exact absurd hx (hnone x)
    · obtain ⟨y, rfl⟩ := (recordOutcome_ok_iff hrecord).mpr (hfresh x hx)
      exact ⟨_, _, (hfresh x hx).2, hkept _ _ (recordOutcome_receipt hrecord)⟩

theorem processed_receipt_iff (hparse : parseDeploymentStatus cd payload = some event)
    (hrecorded : ∃ x, Records s event x)
    (hfresh : ∀ x, Records s event x → NothingStored cd event s x)
    (he : (process cd "deployment_status" payload deliveryId outOfOrder).run.Eval
      (Exec cd.toRuntime noFaults) s r s') :
    (StoresReceipt s s' ↔ mapGithubStateToOutcome event.state ≠ .unknown) ↔
      (isTerminalStatus (toLowercase event.state) = true →
        toLowercase event.state = event.state) := by
  rw [stores_iff_terminal hparse hrecorded hfresh he]
  exact classifications_agree_iff

end

/-! ## One delivery -/

/-- The codec that reads the delivery's payload and knows the hashed texts of its nodes. -/
def stateCodec (state : String) : Codec :=
  { codecReading [samplePayload state 200] with
    sha256 := fun bytes =>
      if bytes.toList = (asBytes (observationPreimage sampleAttempt "SUCCESS")).toList then
        digestBytes 0x8daef46e031d916f6858f39c3d7eeb1979ecf44779df19da374fb70adb7486ef
      else sampleCodec.sha256 bytes }

/-- What the processor makes of a delivery with this state, alone. -/
def processedAlone (state : String) : Except WebhookError Unit × Stores :=
  (process (stateCodec state) "deployment_status" (sampleBody state 200) "d-1" false).run.alone
    (react (stateCodec state).toRuntime (.answering none)) (recording sampleAttempt)

theorem processedAlone_eval (state : String) :
    (process (stateCodec state) "deployment_status" (sampleBody state 200) "d-1" false).run.Eval
      (Exec (stateCodec state).toRuntime noFaults) (recording sampleAttempt)
      (processedAlone state).1 (processedAlone state).2 :=
  alone_eval (react_sound _ noFaults _) _ _

theorem stateCodec_parses (state : String) :
    parseDeploymentStatus (stateCodec state) (sampleBody state 200) =
      some (sampleEvent state 200) := by
  have hread : (stateCodec state).fromSlice (sampleBody state 200) =
      some (samplePayload state 200) := codecReading_first _ _
  unfold parseDeploymentStatus
  rw [hread]
  rfl

theorem sample_recorded (state : String) :
    Records (recording sampleAttempt) (sampleEvent state 200) sampleAttempt :=
  ⟨by decide +kernel, rfl⟩

theorem processed_receipt_iff_success :
    (StoresReceipt (recording sampleAttempt) (processedAlone "success").2 ↔
        mapGithubStateToOutcome "success" ≠ .unknown) ↔
      (isTerminalStatus (toLowercase "success") = true → toLowercase "success" = "success") :=
  processed_receipt_iff (stateCodec_parses "success") ⟨_, sample_recorded "success"⟩
    (fun x hx => by
      obtain rfl := of_recording (by decide) hx.1
      exact ⟨⟨by decide +kernel, fun _ _ => rfl⟩, rfl⟩)
    (processedAlone_eval "success")

/-- A success in capitals is deferred although it has an outcome. -/
theorem capital_success_deferred :
    parseDeploymentStatus (stateCodec "SUCCESS") (sampleBody "SUCCESS" 200) =
        some (sampleEvent "SUCCESS" 200) ∧
      Records (recording sampleAttempt) (sampleEvent "SUCCESS" 200) sampleAttempt ∧
      NothingStored (stateCodec "SUCCESS") (sampleEvent "SUCCESS" 200) (recording sampleAttempt)
        sampleAttempt ∧
      ¬ (StoresReceipt (recording sampleAttempt) (processedAlone "SUCCESS").2 ↔
        mapGithubStateToOutcome "SUCCESS" ≠ .unknown) := by
  have hfresh : NothingStored (stateCodec "SUCCESS") (sampleEvent "SUCCESS" 200)
      (recording sampleAttempt) sampleAttempt :=
    ⟨⟨by decide +kernel, fun _ _ => rfl⟩, rfl⟩
  have honly : ∀ x, Records (recording sampleAttempt) (sampleEvent "SUCCESS" 200) x →
      NothingStored (stateCodec "SUCCESS") (sampleEvent "SUCCESS" 200) (recording sampleAttempt)
        x := by
    intro x hx
    obtain rfl := of_recording (by decide) hx.1
    exact hfresh
  have hstores := stores_iff_terminal (stateCodec_parses "SUCCESS")
    ⟨_, sample_recorded "SUCCESS"⟩ honly (processedAlone_eval "SUCCESS")
  refine ⟨stateCodec_parses "SUCCESS", sample_recorded "SUCCESS", hfresh, fun h => ?_⟩
  have hterminal := hstores.mp (h.mpr (by decide))
  exact absurd hterminal (by decide)

end Piteka.Safety
