import Piteka.Application.ReconciliationPaths
import Piteka.Storage.Steps

/-!
# What a reconciliation call does when it runs alone

The effect of `reconcile` and of `abandonUnresolved` on mandates and attempts,
without faults and with nothing in between: none, or the mandate leaves
`quarantined` and the ambiguous attempt gets the state that goes with it.
-/
namespace Piteka.Application

set_option autoImplicit false

open Piteka.Interleaving Piteka.Interleaving.Program Piteka.Storage

variable {rt : Runtime} {s s' : Stores}

/-- The quarantined mandate `m` is now in the state `target`, its attempt `x` is now `y`. -/
structure Closed (m : String) (v : Int64) (target : String) (x y : ExecutionAttempt)
    (s s' : Stores) : Prop where
  mandate : ∃ p, s.mandate m = some p ∧ p.state = "quarantined" ∧ p.version = v ∧
    s'.mandate m = some (p.swapped target)
  found : s.attempt x.attemptIdHex = some x
  owner : x.mandateIdHex = m
  ambiguous : x.state = .outcomeAmbiguous
  set : AttemptSet s s' x.attemptIdHex y

/-- Up to the choice of the attempt, both operations only read. -/
theorem chosen_steps {m : String} {t : UInt64} {p : MandateProjection}
    {rows : List ExecutionAttempt} {h : Path}
    (hs : Steps (Exec rt noFaults) s (chosenPath m t p rows ++ h) s') :
    s.mandate m = some p ∧
      (∀ x ∈ rows, s.attempt x.attemptIdHex = some x ∧ x.mandateIdHex = m) ∧
      Steps (Exec rt noFaults) s h s' := by
  obtain ⟨s₁, hc, s₂, hg, s₃, hl, h1⟩ := hs
  obtain rfl : s₁ = s := hc
  obtain ⟨hp, rfl⟩ := mandate_get_noFaults hg
  obtain ⟨_, rfl⟩ := attempts_by_mandate_noFaults hl
  exact ⟨(Except.ok.inj hp).symm, fun x hx => attempts_listed hl hx, h1⟩

/-- A refused choice has only read. -/
theorem refused_steps {refusal : String → ReconciliationError} {m : String} {t : UInt64}
    {h : Path} {e : ReconciliationError} (hr : ChoiceResult refusal m h (.error e))
    (hs : Steps (Exec rt noFaults) s (ticked t :: h) s') : Untouched s s' := by
  obtain ⟨s₁, hc, h1⟩ := hs
  obtain rfl : s₁ = s := hc
  generalize hres : (Except.error e : Except ReconciliationError ExecutionAttempt) = r at hr
  cases hr with
  | readFailed e =>
    obtain ⟨s₂, hx, rfl⟩ := h1
    exact untouched_of_error hx
  | missing =>
    obtain ⟨s₂, hx, rfl⟩ := h1
    obtain ⟨_, rfl⟩ := mandate_get_noFaults hx
    exact .refl _
  | refused p hp =>
    obtain ⟨s₂, hx, rfl⟩ := h1
    obtain ⟨_, rfl⟩ := mandate_get_noFaults hx
    exact .refl _
  | listFailed p hp e =>
    obtain ⟨s₂, hx, s₃, hy, rfl⟩ := h1
    obtain ⟨_, rfl⟩ := mandate_get_noFaults hx
    exact untouched_of_error hy
  | noAttempt p hp rows hf =>
    obtain ⟨s₂, hx, s₃, hy, rfl⟩ := h1
    obtain ⟨_, rfl⟩ := mandate_get_noFaults hx
    obtain ⟨_, rfl⟩ := attempts_by_mandate_noFaults hy
    exact .refl _
  | chosen p rows x hc => cases hres

/-- An applied swap closes the mandate and leaves the attempt as it is. -/
theorem closed_of_applied {m target : String} {v w : Int64} {p : MandateProjection}
    {rows : List ExecutionAttempt} {x : ExecutionAttempt} (hp : s.mandate m = some p)
    (hrows : ∀ x ∈ rows, s.attempt x.attemptIdHex = some x ∧ x.mandateIdHex = m)
    (hc : Chosen p rows x)
    (hx : Exec rt noFaults s (.store (.mandates (.compareAndSwap m v target))) (.ok (.applied w)) s') :
    Closed m v target x x s s' := by
  obtain ⟨p', hp', hv, _, ha⟩ := mandate_applied hx
  obtain rfl := Option.some.inj (hp.symm.trans hp')
  obtain ⟨hfound, howner⟩ := hrows x hc.mem
  refine ⟨⟨p, hp, hc.state, hv, ha⟩, hfound, howner, hc.ambiguous, fun k => ?_⟩
  rw [attempt_frame hx (by simp) k]
  split
  · next hk => rw [hk, hfound]
  · rfl

theorem Closed.again {m target : String} {v : Int64} {x y z : ExecutionAttempt} {s₁ s₂ : Stores}
    (hc : Closed m v target x y s s₁) (hset : AttemptSet s₁ s₂ x.attemptIdHex z)
    (hmand : s₂.mandate m = s₁.mandate m) : Closed m v target x z s s₂ where
  mandate := by
    obtain ⟨p, hp, hst, hv, ha⟩ := hc.mandate
    exact ⟨p, hp, hst, hv, hmand.trans ha⟩
  found := hc.found
  owner := hc.owner
  ambiguous := hc.ambiguous
  set := hc.set.again hset

theorem Closed.of_untouched {m target : String} {v : Int64} {x y : ExecutionAttempt}
    {s₁ s₂ : Stores} (hc : Closed m v target x y s s₁) (hk : Untouched s₁ s₂) :
    Closed m v target x y s s₂ where
  mandate := by
    obtain ⟨p, hp, hst, hv, ha⟩ := hc.mandate
    exact ⟨p, hp, hst, hv, (hk.1 m).trans ha⟩
  found := hc.found
  owner := hc.owner
  ambiguous := hc.ambiguous
  set := hc.set.of_frame hk.2

/-- A write to the state of an attempt that is there succeeds. -/
theorem Closed.marked {m target : String} {v : Int64} {x y : ExecutionAttempt} {s₁ s₂ : Stores}
    (hc : Closed m v target x y s s₁) {st : ExecutionAttemptState} {r : StorageResult Unit}
    (hx : Exec rt noFaults s₁ (.store (.attempts (.updateState x.attemptIdHex st))) r s₂) :
    r = .ok () ∧ Closed m v target x { y with state := st } s s₂ := by
  rcases attempt_state_noFaults hx with ⟨hnone, _⟩ | ⟨z, hz, hr, hset⟩
  · rw [hc.set.self] at hnone
    cases hnone
  · obtain rfl := Option.some.inj (hc.set.self.symm.trans hz)
    exact ⟨hr, hc.again hset (mandate_frame hx (by simp) _)⟩

theorem Closed.persisted {m target : String} {v : Int64} {x y : ExecutionAttempt} {s₁ s₂ : Stores}
    (hc : Closed m v target x y s s₁) {d : UInt64} {r : StorageResult Unit}
    (hx : Exec rt noFaults s₁ (.store (.attempts (.updateDeploymentId x.attemptIdHex d))) r s₂) :
    r = .ok () ∧ Closed m v target x { y with githubDeploymentId := some d } s s₂ := by
  rcases attempt_deployment_noFaults hx with ⟨hnone, _⟩ | ⟨z, hz, hr, hset⟩
  · rw [hc.set.self] at hnone
    cases hnone
  · obtain rfl := Option.some.inj (hc.set.self.symm.trans hz)
    exact ⟨hr, hc.again hset (mandate_frame hx (by simp) _)⟩

/-! ## Abandon -/

/-- The applied swap to `abandoned`. -/
theorem abandon_swapped {a : AbandonArgs} {t : UInt64} {p : MandateProjection}
    {rows : List ExecutionAttempt} {x : ExecutionAttempt} (hc : Chosen p rows x) {v : Int64}
    {h : Path} (hs : Steps (Exec rt noFaults) s (a.swapped t p rows (.applied v) ++ h) s') :
    ∃ s₁, Closed a.mandateIdHex a.expectedMandateVersion "abandoned" x x s s₁ ∧
      Steps (Exec rt noFaults) s₁ h s' := by
  rw [AbandonArgs.swapped, List.append_assoc] at hs
  obtain ⟨hp, hrows, s₁, hx, h1⟩ := chosen_steps hs
  exact ⟨s₁, closed_of_applied hp hrows hc hx, h1⟩

/-- Without faults, an abandonment can still fail to insert its receipt, behind everything else. -/
theorem abandonUnresolved_failed {a : AbandonArgs} {h : Path} {sc : StoreCall} {e : StorageError}
    (hp : AbandonPoint a h (.store sc))
    (hs : Steps (Exec rt noFaults) s (h ++ [⟨.store sc, .error e⟩]) s') :
    Untouched s s' ∨ ∃ x, Closed a.mandateIdHex a.expectedMandateVersion "abandoned" x
      { x with state := .abandonedAmbiguous } s s' := by
  generalize hc : PortCall.store sc = op at hp
  cases hp with
  | clock => cases hc
  | readMandate t =>
    cases hc
    exact Or.inl (refused_steps (.readFailed e : ChoiceResult .notQuarantined _ _ _) hs)
  | readAttempts t p hp =>
    cases hc
    exact Or.inl (refused_steps (.listFailed p hp e : ChoiceResult .notQuarantined _ _ _) hs)
  | swap t p rows x hx =>
    cases hc
    obtain ⟨_, _, s₁, hy, _⟩ := chosen_steps hs
    obtain ⟨o, ho⟩ := mandate_swap_noFaults hy
    cases ho
  | abandon t p rows x hx v =>
    cases hc
    obtain ⟨s₁, hcl, s₂, hy, _⟩ := abandon_swapped hx hs
    cases (hcl.marked hy).1
  | receipt t p rows x hx v =>
    cases hc
    rw [List.append_assoc] at hs
    obtain ⟨s₁, hcl, s₂, hy, s₃, hi, rfl⟩ := abandon_swapped hx hs
    exact Or.inr ⟨x, (hcl.marked hy).2.of_untouched (untouched_of_error hi)⟩
  | audit t p rows x hx v =>
    cases hc
    rw [List.append_assoc] at hs
    obtain ⟨s₁, _, s₂, _, s₃, _, s₄, hau, _⟩ := abandon_swapped hx hs
    cases audit_noFaults hau

theorem abandonUnresolved_effect {a : AbandonArgs}
    {r : Except ReconciliationError ReconciliationOutcome}
    (he : (abandonUnresolved a).run.Eval (Exec rt noFaults) s r s') :
    Untouched s s' ∨ ∃ x, Closed a.mandateIdHex a.expectedMandateVersion "abandoned" x
      { x with state := .abandonedAmbiguous } s s' := by
  obtain ⟨h, hreturns, hs⟩ := eval_iff_returns.mp he
  cases abandonUnresolved_returns hreturns with
  | unauthorized ha =>
    obtain rfl : s' = s := hs
    exact Or.inl (.refl _)
  | noReason ha =>
    obtain rfl : s' = s := hs
    exact Or.inl (.refl _)
  | refused t hr => exact Or.inl (refused_steps hr hs)
  | failed _ _ _ hp => exact abandonUnresolved_failed hp hs
  | conflict t p rows x hc v =>
    obtain ⟨hp, hrows, s₁, hx, rfl⟩ := chosen_steps hs
    obtain ⟨rfl, _⟩ := mandate_conflict hx
    exact Or.inl (.refl _)
  | missing t p rows x hc =>
    obtain ⟨hp, hrows, s₁, hx, rfl⟩ := chosen_steps hs
    obtain ⟨rfl, _⟩ := mandate_missing hx
    exact Or.inl (.refl _)
  | abandoned t p rows x hc v =>
    obtain ⟨s₁, hcl, s₂, hy, s₃, hi, s₄, hau, rfl⟩ := abandon_swapped hc hs
    have hk : Untouched s₂ s₃ := untouched_of_ne hi (by simp) (by simp)
    have hk' : Untouched s₃ s' := untouched_of_ne hau (by simp) (by simp)
    exact Or.inr ⟨x, (hcl.marked hy).2.of_untouched (hk.trans hk')⟩

/-! ## Reconcile -/

/-- The applied swap to `consumed`. -/
theorem reconcile_swapped {a : ReconcileArgs} {t : UInt64} {p : MandateProjection}
    {rows : List ExecutionAttempt} {x : ExecutionAttempt} (hc : Chosen p rows x) {d : UInt64}
    {v : Int64} {h : Path}
    (hs : Steps (Exec rt noFaults) s (a.swapped t p rows x d (.applied v) ++ h) s') :
    ∃ s₁, Closed a.mandateIdHex a.expectedMandateVersion "consumed" x x s s₁ ∧
      Steps (Exec rt noFaults) s₁ h s' := by
  rw [ReconcileArgs.swapped, ReconcileArgs.found, List.append_assoc, List.append_assoc] at hs
  obtain ⟨hp, hrows, s₁, hq, s₂, hx, h1⟩ := chosen_steps hs
  obtain rfl : s₁ = s := hq
  exact ⟨s₂, closed_of_applied hp hrows hc hx, h1⟩

/-- The optional write of the deployment id. -/
theorem persisted_steps {m target : String} {v : Int64} {x : ExecutionAttempt} {s₁ : Stores}
    (hc : Closed m v target x x s s₁) {d : UInt64} {h : Path}
    (hs : Steps (Exec rt noFaults) s₁ (Application.persisted x d ++ h) s') :
    ∃ s₂, Closed m v target x { x with githubDeploymentId := some d } s s₂ ∧
      Steps (Exec rt noFaults) s₂ h s' := by
  unfold Application.persisted at hs
  split at hs
  · obtain ⟨s₂, hx, h1⟩ := hs
    exact ⟨s₂, (hc.persisted hx).2, h1⟩
  · next hd =>
    have hsame : { x with githubDeploymentId := some d } = x := by
      rw [← not_not.mp hd]
    exact ⟨s₁, hsame.symm ▸ hc, hs⟩

/-- Without faults, a reconciliation fails in a store only before it has written. -/
theorem reconcile_failed {a : ReconcileArgs} {h : Path} {sc : StoreCall} {e : StorageError}
    (hp : ReconcilePoint a h (.store sc))
    (hs : Steps (Exec rt noFaults) s (h ++ [⟨.store sc, .error e⟩]) s') : Untouched s s' := by
  generalize hc : PortCall.store sc = op at hp
  cases hp with
  | clock => cases hc
  | readMandate t =>
    cases hc
    exact refused_steps (.readFailed e : ChoiceResult reconcileRefusal _ _ _) hs
  | readAttempts t p hp =>
    cases hc
    exact refused_steps (.listFailed p hp e : ChoiceResult reconcileRefusal _ _ _) hs
  | query t p rows x hx => cases hc
  | swap t p rows x hx d =>
    cases hc
    rw [ReconcileArgs.found, List.append_assoc] at hs
    obtain ⟨_, _, s₁, _, s₂, hy, _⟩ := chosen_steps hs
    obtain ⟨o, ho⟩ := mandate_swap_noFaults hy
    cases ho
  | persist t p rows x hx d v =>
    cases hc
    obtain ⟨s₁, hcl, s₂, hy, _⟩ := reconcile_swapped hx hs
    cases (hcl.persisted hy).1
  | accept t p rows x hx d v =>
    cases hc
    rw [List.append_assoc] at hs
    obtain ⟨s₁, hcl, h1⟩ := reconcile_swapped hx hs
    obtain ⟨s₂, hcl₂, s₃, hy, _⟩ := persisted_steps hcl h1
    cases (hcl₂.marked hy).1
  | audit t p rows x hx d v =>
    cases hc
    rw [List.append_assoc, List.append_assoc] at hs
    obtain ⟨s₁, hcl, h1⟩ := reconcile_swapped hx hs
    obtain ⟨s₂, _, s₃, _, s₄, hau, _⟩ := persisted_steps hcl h1
    cases audit_noFaults hau

theorem reconcile_effect {a : ReconcileArgs}
    {r : Except ReconciliationError ReconciliationOutcome}
    (he : (reconcile a).run.Eval (Exec rt noFaults) s r s') :
    Untouched s s' ∨ ∃ x d, Closed a.mandateIdHex a.expectedMandateVersion "consumed" x
      { x with state := .reconciledAccepted, githubDeploymentId := some d } s s' := by
  obtain ⟨h, hreturns, hs⟩ := eval_iff_returns.mp he
  cases reconcile_returns hreturns with
  | unauthorized ha =>
    obtain rfl : s' = s := hs
    exact Or.inl (.refl _)
  | refused t hr => exact Or.inl (refused_steps hr hs)
  | unavailable t p rows x hc e =>
    obtain ⟨_, _, s₁, hq, rfl⟩ := chosen_steps hs
    obtain rfl : s' = s := hq
    exact Or.inl (.refl _)
  | unestablished t p rows x hc =>
    obtain ⟨_, _, s₁, hq, rfl⟩ := chosen_steps hs
    obtain rfl : s' = s := hq
    exact Or.inl (.refl _)
  | failed _ _ _ hp => exact Or.inl (reconcile_failed hp hs)
  | conflict t p rows x hc d v =>
    rw [ReconcileArgs.swapped, ReconcileArgs.found, List.append_assoc] at hs
    obtain ⟨hp, hrows, s₁, hq, s₂, hx, rfl⟩ := chosen_steps hs
    obtain rfl : s₁ = s := hq
    obtain ⟨rfl, _⟩ := mandate_conflict hx
    exact Or.inl (.refl _)
  | missing t p rows x hc d =>
    rw [ReconcileArgs.swapped, ReconcileArgs.found, List.append_assoc] at hs
    obtain ⟨hp, hrows, s₁, hq, s₂, hx, rfl⟩ := chosen_steps hs
    obtain rfl : s₁ = s := hq
    obtain ⟨rfl, _⟩ := mandate_missing hx
    exact Or.inl (.refl _)
  | accepted t p rows x hc d v =>
    rw [List.append_assoc] at hs
    obtain ⟨s₁, hcl, h1⟩ := reconcile_swapped hc hs
    obtain ⟨s₂, hcl₂, s₃, hy, s₄, hau, rfl⟩ := persisted_steps hcl h1
    have hk : Untouched s₃ s' := untouched_of_ne hau (by simp) (by simp)
    exact Or.inr ⟨x, d, (hcl₂.marked hy).2.of_untouched hk⟩

end Piteka.Application
