import Piteka.Storage.EvidenceSteps

/-!
# Stores that lose answers

A failed call of `Exec` leaves the stores as they are. A store behind a connection
can also fail after the fact: the call has taken effect and its caller sees an
error. Here every store call may fail in either way.
-/
namespace Piteka.Storage

set_option autoImplicit false

variable {rt : Runtime} {faults : StoreCall → Prop} {s s' : Stores}

/-- The answered call is a store call that failed. -/
def Failure : Answered → Prop
  | ⟨.store _, .error _⟩ => True
  | _ => False

/-- One atomic step of a port call; a store call that fails may have taken effect. -/
def Unreliable (rt : Runtime) (s : Stores) : (op : PortCall) → Answer op → Stores → Prop
  | .store c, a, s' =>
    ∃ order, c.run rt order s = (a, s') ∨
      ((∃ e, a = .error e) ∧ (s' = s ∨ s' = (c.run rt order s).2))
  | .clock, _, s' => s' = s
  | .dispatchFn _ _, _, s' => s' = s
  | .findCorrelatedDeployment _, _, s' => s' = s

theorem unreliable_of_exec {op : PortCall} {a : Answer op} (hx : Exec rt faults s op a s') :
    Unreliable rt s op a s' := by
  cases op with
  | store c =>
    rcases hx with ⟨order, h⟩ | ⟨_, he, hs⟩
    · exact ⟨order, Or.inl h⟩
    · exact ⟨.asListed, Or.inr ⟨he, Or.inl hs⟩⟩
  | clock => exact hx
  | dispatchFn => exact hx
  | findCorrelatedDeployment => exact hx

/-- Whatever is answered, the stores changed as in a call without faults, or not at all. -/
theorem unreliable_effect {op : PortCall} {a : Answer op} (hx : Unreliable rt s op a s') :
    s' = s ∨ ∃ b, Exec rt noFaults s op b s' := by
  cases op with
  | store c =>
    obtain ⟨order, h | ⟨_, h | h⟩⟩ := hx
    · exact Or.inr ⟨a, Or.inl ⟨order, h⟩⟩
    · exact Or.inl h
    · exact Or.inr ⟨(c.run rt order s).1, Or.inl ⟨order, by rw [h]⟩⟩
  | clock => exact Or.inl hx
  | dispatchFn => exact Or.inl hx
  | findCorrelatedDeployment => exact Or.inl hx

/-- A call that succeeds was executed as without faults. -/
theorem exec_of_unreliable {c : StoreCall} {x : c.Ok}
    (hx : Unreliable rt s (.store c) (.ok x) s') : Exec rt noFaults s (.store c) (.ok x) s' := by
  obtain ⟨order, h | ⟨⟨e, he⟩, _⟩⟩ := hx
  · exact Or.inl ⟨order, h⟩
  · cases he

/-- A webhook receipt stays, or it was absent and the call tried to record it. -/
theorem unreliable_receipt_step {op : PortCall} {a : Answer op} (hx : Unreliable rt s op a s')
    (k : String) :
    s'.webhookReceipt k = s.webhookReceipt k ∨
      ∃ r, op = .store (.webhookReceipts (.record r)) ∧ r.deliveryId = k ∧
        s.webhookReceipt k = none ∧ s'.webhookReceipt k = some r := by
  rcases unreliable_effect hx with rfl | ⟨b, hb⟩
  · exact Or.inl rfl
  cases webhook_receipt_step (c := ⟨op, b⟩) hb k with
  | same h => exact Or.inl h
  | add r hk hc hbefore hafter => exact Or.inr ⟨r, congrArg Sigma.fst hc, hk, hbefore, hafter⟩

theorem unreliable_receipt_kept {op : PortCall} {a : Answer op} (hx : Unreliable rt s op a s')
    {k : String} {r : WebhookReceipt} (hr : s.webhookReceipt k = some r) :
    s'.webhookReceipt k = some r := by
  rcases unreliable_receipt_step hx k with h | ⟨_, _, _, hnone, _⟩
  · rw [h, hr]
  · rw [hnone] at hr
    cases hr

/-- A receipt that is reported as recorded was absent and is there afterwards. -/
theorem recorded_effect {r : WebhookReceipt}
    (hx : Unreliable rt s (.store (.webhookReceipts (.record r))) (.ok .recorded) s') :
    s.webhookReceipt r.deliveryId = none ∧ s'.webhookReceipt r.deliveryId = some r := by
  obtain ⟨order, hr⟩ := exec_noFaults (exec_of_unreliable hx)
  obtain ⟨ha, rfl⟩ := Prod.mk.inj hr
  rcases s.webhookReceipts.record_cases r with ⟨_, h⟩ | ⟨q, _, h⟩ | ⟨t, hnone, h, hget⟩
  · rw [h] at ha
    cases ha
  · rw [h] at ha
    cases ha
  · refine ⟨hnone, ?_⟩
    simp only [Stores.webhookReceipt, h, hget, if_true]

end Piteka.Storage
