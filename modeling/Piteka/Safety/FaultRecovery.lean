import Piteka.Application.StoreFaults
import Piteka.Safety.MandateAttempt

/-!
# One failed store call

A dispatch or a recovery of a mandate runs alone and one of its store calls fails.
The pair of mandate and attempt is left fit for recovery exactly if the call that
fails is not one of the writes between the first and the last of the pair.
-/
namespace Piteka.Safety

set_option autoImplicit false

open Piteka.Interleaving Piteka.Interleaving.Program Piteka.Storage Piteka.Application

variable {rt : Runtime} {s s' : Stores} {m : String}

/-- The mandate and its attempt agree, and the attempt is that of the mandate. -/
structure Coherent (m : String) (s : Stores) : Prop extends InStep m s where
  owned : ∀ x, s.attempt (attemptIdOf m) = some x → x.mandateIdHex = m

/-- A dispatch or a recovery of the mandate `m` that presents its current version. -/
def Current (m : String) : Call → Stores → Prop
  | .reserveAndDispatch a, s => a.mandateIdHex = m ∧
    ∃ p, s.mandate m = some p ∧ p.version = a.expectedMandateVersion
  | .reconcile a, s => a.mandateIdHex = m ∧
    ∃ p, s.mandate m = some p ∧ p.version = a.expectedMandateVersion
  | .abandonUnresolved a, s => a.mandateIdHex = m ∧
    ∃ p, s.mandate m = some p ∧ p.version = a.expectedMandateVersion
  | _, _ => False

/-- The provider closure is among the calls. -/
def ProviderInvoked (h : Path) : Prop := ∃ key digest a, ⟨.dispatchFn key digest, a⟩ ∈ h

/-- The mandate is closed. -/
def ClosedIn (m : String) (s : Stores) : Prop := InState m "consumed" s ∨ InState m "abandoned" s

/-- A recovery of the mandate `m`. -/
inductive Recovers (m : String) : Call → Prop
  | reconcile (a : ReconcileArgs) (ha : a.mandateIdHex = m) : Recovers m (.reconcile a)
  | abandonUnresolved (a : AbandonArgs) (ha : a.mandateIdHex = m) :
      Recovers m (.abandonUnresolved a)

/-- The mandate is closed, or a recovery without faults can close it. -/
def Closable (rt : Runtime) (m : String) (s : Stores) : Prop :=
  ClosedIn m s ∨ ∃ c r s', Recovers m c ∧ (c.program rt).Eval (Exec rt noFaults) s r s' ∧
    ClosedIn m s'

/-- What is asked of the state `s` in which a call ends after it has made the calls `h`. -/
structure Unstranded (rt : Runtime) (m : String) (h : Path) (s : Stores) : Prop where
  coherent : Coherent m s
  released : ProviderInvoked h → ¬ InState m "reserved" s
  closable : ProviderInvoked h → Closable rt m s

/-- The store calls whose failure strands the mandate. -/
def Strands (m : String) : Call → Stores → StoreCall → Prop
  | .reserveAndDispatch _, s, .attempts (.insert _) => ¬ InState m "reserved" s
  | .reserveAndDispatch _, _, .mandates (.compareAndSwap _ _ target) => target ≠ "reserved"
  | _, _, .attempts (.updateState _ _) => True
  | _, _, .attempts (.updateDeploymentId _ _) => True
  | _, _, _ => False

theorem unstranded_iff {h : Path} (hno : ¬ ProviderInvoked h) :
    Unstranded rt m h s ↔ Coherent m s :=
  ⟨fun hu => hu.coherent, fun hc => ⟨hc, fun hi => absurd hi hno, fun hi => absurd hi hno⟩⟩

/-- A call that ends in `reserved` behind the provider call has stranded the mandate. -/
theorem stranded_of_reserved {h : Path} (hi : ProviderInvoked h) (hr : InState m "reserved" s) :
    ¬ Unstranded rt m h s := fun hu => hu.released hi hr

theorem Coherent.of_untouched (h : Coherent m s) (hk : Untouched s s') : Coherent m s' where
  toInStep := h.toInStep.of_untouched hk
  owned x hx := h.owned x ((hk.2 _).symm.trans hx)

theorem Coherent.of_set (h : Coherent m s) {p : MandateProjection} {x : ExecutionAttempt}
    (hp : s'.mandate m = some p) (hset : AttemptSet s s' (attemptIdOf m) x)
    (howner : x.mandateIdHex = m) (hpair : Paired p.state (some x.state)) : Coherent m s' where
  toInStep := h.toInStep.of_set hp hset hpair
  owned y hy := by
    obtain rfl := Option.some.inj (hset.self.symm.trans hy)
    exact howner

/-- The states of a coherent pair, read off the two rows. -/
theorem Coherent.states {p : MandateProjection} {o : Option ExecutionAttempt} (h : Coherent m s)
    (hp : s.mandate m = some p) (hx : s.attempt (attemptIdOf m) = o) :
    Paired p.state (o.map (·.state)) := by
  obtain ⟨p', hp', hpair⟩ := h.paired
  obtain rfl := Option.some.inj (hp.symm.trans hp')
  rwa [hx] at hpair

/-- A coherent pair whose mandate is quarantined or closed can be closed. -/
theorem Coherent.closable (h : Coherent m s) {p : MandateProjection} (hp : s.mandate m = some p)
    (hissued : p.state ≠ "issued") (hreserved : p.state ≠ "reserved") : Closable rt m s := by
  obtain ⟨p', hp', hpair⟩ := h.paired
  obtain rfl := Option.some.inj (hp.symm.trans hp')
  generalize hstate : p.state = state at hpair hissued hreserved
  generalize ho : (s.attempt (attemptIdOf m)).map (·.state) = o at hpair
  cases hpair with
  | issued => exact absurd rfl hissued
  | reserved => exact absurd rfl hreserved
  | consumed => exact Or.inl (Or.inl ⟨p, hp, hstate⟩)
  | reconciled => exact Or.inl (Or.inl ⟨p, hp, hstate⟩)
  | abandoned => exact Or.inl (Or.inr ⟨p, hp, hstate⟩)
  | quarantined =>
    obtain ⟨x, hx, hamb⟩ := Option.map_eq_some_iff.mp ho
    have hkey : x.attemptIdHex = attemptIdOf m := s.attempts.attempts.keyed hx
    obtain ⟨a, r, s', ha, he, hm⟩ := quarantined_abandonable rt hp hstate
      (hkey.symm ▸ hx) (h.owned x hx) hamb
    exact Or.inr ⟨.abandonUnresolved a, r, s', .abandonUnresolved a ha, he,
      Or.inr ⟨_, hm, rfl⟩⟩

/-! ## The reservation -/

theorem reservePoint_not_invoked {a : ReserveArgs} {h : Path} {op : PortCall}
    (hp : ReservePoint a h op) : ¬ ProviderInvoked h := by
  cases hp <;> simp [ProviderInvoked, ReserveArgs.swapped]

/-- With the current version the reservation is not refused, so its writes come one after the
other; a failure between them leaves the mandate reserved and no attempt under way. -/
theorem reserve_fault {a : ReserveArgs} {p : MandateProjection}
    (start : Coherent a.mandateIdHex s) (hp : s.mandate a.mandateIdHex = some p)
    (hv : p.version = a.expectedMandateVersion) {h : Path} {sc : StoreCall}
    (hpt : ReservePoint a h (.store sc)) (hs : Steps (Exec rt noFaults) s h s') :
    Coherent a.mandateIdHex s' ↔ ¬ Strands a.mandateIdHex (.reserveAndDispatch a) s sc := by
  have hcurrent : ∀ {t q v h}, ¬ Steps (Exec rt noFaults) s (a.swapped t q (.conflict v) ++ h) s' := by
    intro t q v h hs
    obtain ⟨_, s₁, hx, _⟩ := swapped_steps hs
    obtain ⟨_, p', hp', hne, _⟩ := mandate_conflict hx
    obtain rfl := Option.some.inj (hp.symm.trans hp')
    exact hne hv
  cases hpt with
  | readRequest t =>
    obtain ⟨s₁, hc, hend⟩ := hs
    obtain rfl : s' = s := Eq.trans hend hc
    exact iff_of_true start id
  | swap t q hq =>
    obtain ⟨s₁, hc, s₂, hr, hend⟩ := hs
    obtain rfl : s' = s := Eq.trans hend ((request_get_noFaults hr).2.trans hc)
    exact iff_of_true start fun h => h rfl
  | insert t q hq v =>
    rw [← List.append_nil (a.swapped t q (.applied v))] at hs
    obtain ⟨_, s₁, hx, hend⟩ := swapped_steps hs
    obtain rfl : s' = s₁ := hend
    obtain ⟨p', hp', _, _, hm⟩ := mandate_applied hx
    obtain rfl := Option.some.inj (hp.symm.trans hp')
    have hkeep : ∀ k, s'.attempt k = s.attempt k := attempt_frame hx (by simp)
    have hbefore := start.states hp rfl
    rw [Strands, not_not, inState_iff hp]
    constructor
    · intro hc
      have hunder := (hc.states hm (hkeep _)).agree.1.mp rfl
      exact hbefore.agree.1.mpr hunder
    · intro hst
      have hunder := hbefore.agree.1.mp hst
      refine ⟨⟨fun k x hx => start.keyed k x ((hkeep k).symm.trans hx), _, hm, ?_⟩,
        fun x hx => start.owned x ((hkeep _).symm.trans hx)⟩
      rw [hkeep, hunder]
      exact .reserved
  | dispatching t q hq v =>
    obtain ⟨p', s₁, _, _, _, hm, hend, hi⟩ := inserted_steps hs
    obtain rfl : s' = s₁ := hend
    rcases hi with ⟨_, _, hset⟩ | ⟨x, e, _, h, _⟩
    · refine iff_of_false (fun hc => ?_) fun h => h trivial
      have hpair := hc.states hm hset.self
      rcases hpair.of_some with ⟨_, h⟩ | ⟨h, _⟩
      · cases h
      · cases h
    · cases h
  | audit t q hq v =>
    rw [← List.append_nil [_, _]] at hs
    obtain ⟨p', s₁, _, _, _, _, hm, hset, hend⟩ := dispatching_steps hs
    obtain rfl : s' = s₁ := hend
    exact iff_of_true (start.of_set hm hset rfl .reserved) id
  | readMandate t q hq v =>
    rw [← List.append_nil (a.swapped t q (.conflict v))] at hs
    exact absurd hs hcurrent
  | replay t q hq v p' hp' => exact absurd hs hcurrent

/-! ## The completion of a dispatch -/

/-- The calls change no mandate. -/
theorem mandates_kept {h : Path} (hs : Steps (Exec rt noFaults) s h s')
    (hne : ∀ c ∈ h, ∀ mc, c.1 ≠ .store (.mandates mc)) (k : String) :
    s'.mandate k = s.mandate k :=
  steps_keep (Q := fun u => u.mandate k = s.mandate k)
    (fun c hc _ _ hx hu => (mandate_frame hx (hne c hc) k).trans hu) hs rfl

theorem target_ne (c : CompleteArgs) : c.target ≠ "issued" ∧ c.target ≠ "reserved" := by
  unfold CompleteArgs.target
  split <;> decide

theorem marked_mandate (c : CompleteArgs) (x : ExecutionAttempt) :
    (c.marked x).mandateIdHex = x.mandateIdHex := by
  unfold CompleteArgs.marked
  cases c.acceptedDeployment <;> rfl

/-- Behind the swap of a completion the pair agrees again and is released. -/
theorem unstranded_of_completed {c : CompleteArgs} {x : ExecutionAttempt} {s₁ s₂ : Stores} {v : Int64}
    {h : Path} (start : Coherent c.mandateIdHex s)
    (hset : AttemptSet s s₁ (attemptIdOf c.mandateIdHex) x)
    (hid : c.attemptIdHex = attemptIdOf c.mandateIdHex) (howner : x.mandateIdHex = c.mandateIdHex)
    (hm : Marked c s₁ s₂ x)
    (hx : Exec rt noFaults s₂
      (.store (.mandates (.compareAndSwap c.mandateIdHex c.expectedMandateVersion c.target)))
      (.ok (.applied v)) s') : Unstranded rt c.mandateIdHex h s' := by
  obtain ⟨p, _, _, hafter, hset'⟩ := hm.swapped hx
  obtain ⟨hissued, hreserved⟩ := target_ne c
  rw [hid] at hset'
  have hpair : Paired (p.swapped c.target).state (some (c.marked x).state) :=
    (marked_state c x).symm ▸ paired_target c
  have hc : Coherent c.mandateIdHex s' :=
    start.of_set hafter (hset.again hset') ((marked_mandate c x).trans howner) hpair
  refine ⟨hc, fun _ hin => ?_, fun _ => hc.closable hafter hissued hreserved⟩
  exact hreserved ((inState_iff hafter _).mp hin)

/-- A completion that comes after a granted reservation: a failure before its last call leaves
the mandate reserved, a failed audit event leaves it as it was asked for. -/
theorem complete_fault {a : ReserveArgs} {p : MandateProjection} {d : Option UInt64} {t₀ : UInt64}
    {s₁ : Stores} (start : Coherent a.mandateIdHex s)
    (hreserved : s₁.mandate a.mandateIdHex = some (p.swapped "reserved"))
    (hset : AttemptSet s s₁ (attemptIdOf a.mandateIdHex)
      { a.attempt t₀.toInt64 with state := .dispatching })
    {h h₀ : Path} (hinvoked : ProviderInvoked h₀) {sc : StoreCall}
    (hpt : CompletePoint (a.completion d) h (.store sc)) (hs : Steps (Exec rt noFaults) s₁ h s') :
    Unstranded rt a.mandateIdHex h₀ s' ↔ ¬ Strands a.mandateIdHex (.reserveAndDispatch a) s sc := by
  have hstuck : (∀ c ∈ h, ∀ mc, c.1 ≠ .store (.mandates mc)) →
      ¬ Unstranded rt a.mandateIdHex h₀ s' := fun hne =>
    stranded_of_reserved hinvoked ⟨_, (mandates_kept hs hne _).trans hreserved, rfl⟩
  cases hpt with
  | accepted t d hd => exact iff_of_false (hstuck (by simp)) fun h => h trivial
  | deployment t d hd => exact iff_of_false (hstuck (by simp)) fun h => h trivial
  | consume t d hd =>
    exact iff_of_false (hstuck (by simp)) fun h => h (show "consumed" ≠ "reserved" by decide)
  | ambiguous t hd => exact iff_of_false (hstuck (by simp)) fun h => h trivial
  | quarantine t hd =>
    exact iff_of_false (hstuck (by simp)) fun h => h (show "quarantined" ≠ "reserved" by decide)
  | consumeAudit t d' hd v =>
    obtain ⟨x, s₂, hm, s₃, hx, hend⟩ := accepted_steps hd hs
    obtain rfl : s' = s₃ := hend
    obtain rfl := Option.some.inj (hset.self.symm.trans hm.found)
    have htarget : (a.completion d).target = "consumed" := by
      rw [CompleteArgs.target, hd]
      rfl
    rw [← htarget] at hx
    exact iff_of_true (unstranded_of_completed (c := a.completion d) start hset rfl rfl hm hx) id
  | quarantineAudit t hd v =>
    obtain ⟨x, s₂, hm, s₃, hx, hend⟩ := ambiguous_steps hd hs
    obtain rfl : s' = s₃ := hend
    obtain rfl := Option.some.inj (hset.self.symm.trans hm.found)
    have htarget : (a.completion d).target = "quarantined" := by
      rw [CompleteArgs.target, hd]
      rfl
    rw [← htarget] at hx
    exact iff_of_true (unstranded_of_completed (c := a.completion d) start hset rfl rfl hm hx) id

/-! ## Recoveries -/

theorem reconcilePoint_not_invoked {a : ReconcileArgs} {h : Path} {op : PortCall}
    (hp : ReconcilePoint a h op) : ¬ ProviderInvoked h := by
  cases hp <;>
    simp [ProviderInvoked, ReconcileArgs.swapped, ReconcileArgs.found, chosenPath, persisted]

theorem abandonPoint_not_invoked {a : AbandonArgs} {h : Path} {op : PortCall}
    (hp : AbandonPoint a h op) : ¬ ProviderInvoked h := by
  cases hp <;> simp [ProviderInvoked, AbandonArgs.swapped, chosenPath]

/-- Closing the mandate has written the state of the mandate and not yet, or also, that of the
attempt. -/
theorem closed_coherent_iff {v : Int64} {target : String} {x y : ExecutionAttempt}
    (start : Coherent m s) (hc : Closed m v target x y s s') (howner : y.mandateIdHex = m) :
    Coherent m s' ↔ Paired target (some y.state) := by
  obtain ⟨p, _, _, _, hm⟩ := hc.mandate
  have hset := hc.set
  rw [start.keyed _ _ hc.found hc.owner] at hset
  constructor
  · intro h
    exact h.states hm hset.self
  · intro hpair
    exact start.of_set hm hset howner hpair

/-- An ambiguous attempt goes with a quarantined mandate and with no other. -/
theorem not_ambiguous {st : String} (hst : st ≠ "quarantined") :
    ¬ Paired st (some .outcomeAmbiguous) := fun h => hst (h.agree.2.2.1.mpr rfl)

theorem reconcile_fault {a : ReconcileArgs} (start : Coherent a.mandateIdHex s) {h : Path}
    {sc : StoreCall} (hpt : ReconcilePoint a h (.store sc)) (hs : Steps (Exec rt noFaults) s h s') :
    Coherent a.mandateIdHex s' ↔ ¬ Strands a.mandateIdHex (.reconcile a) s sc := by
  have hambiguous : ¬ Paired "consumed" (some .outcomeAmbiguous) := not_ambiguous (by decide)
  cases hpt with
  | readMandate t =>
    obtain ⟨s₁, hc, hend⟩ := hs
    obtain rfl : s' = s := Eq.trans hend hc
    exact iff_of_true start id
  | readAttempts t p hp =>
    obtain ⟨s₁, hc, s₂, hr, hend⟩ := hs
    obtain rfl : s' = s := Eq.trans hend ((mandate_get_noFaults hr).2.trans hc)
    exact iff_of_true start id
  | swap t p rows x hx d =>
    obtain ⟨_, _, s₁, hq, hend⟩ := chosen_steps hs
    obtain rfl : s' = s := Eq.trans hend hq
    exact iff_of_true start id
  | persist t p rows x hx d v =>
    rw [← List.append_nil (a.swapped t p rows x d (.applied v))] at hs
    obtain ⟨s₁, hcl, hend⟩ := reconcile_swapped hx hs
    obtain rfl : s' = s₁ := hend
    rw [closed_coherent_iff start hcl hcl.owner, hx.ambiguous]
    exact iff_of_false hambiguous fun h => h trivial
  | accept t p rows x hx d v =>
    obtain ⟨s₁, hcl, h1⟩ := reconcile_swapped hx hs
    rw [← List.append_nil (persisted x d)] at h1
    obtain ⟨s₂, hcl₂, hend⟩ := persisted_steps hcl h1
    obtain rfl : s' = s₂ := hend
    rw [closed_coherent_iff start hcl₂ hcl.owner, hx.ambiguous]
    exact iff_of_false hambiguous fun h => h trivial
  | audit t p rows x hx d v =>
    rw [List.append_assoc] at hs
    obtain ⟨s₁, hcl, h1⟩ := reconcile_swapped hx hs
    obtain ⟨s₂, hcl₂, s₃, hy, hend⟩ := persisted_steps hcl h1
    obtain rfl : s' = s₃ := hend
    rw [closed_coherent_iff start (hcl₂.marked hy).2 hcl.owner]
    exact iff_of_true .reconciled id

theorem abandon_fault {a : AbandonArgs} (start : Coherent a.mandateIdHex s) {h : Path}
    {sc : StoreCall} (hpt : AbandonPoint a h (.store sc)) (hs : Steps (Exec rt noFaults) s h s') :
    Coherent a.mandateIdHex s' ↔ ¬ Strands a.mandateIdHex (.abandonUnresolved a) s sc := by
  cases hpt with
  | readMandate t =>
    obtain ⟨s₁, hc, hend⟩ := hs
    obtain rfl : s' = s := Eq.trans hend hc
    exact iff_of_true start id
  | readAttempts t p hp =>
    obtain ⟨s₁, hc, s₂, hr, hend⟩ := hs
    obtain rfl : s' = s := Eq.trans hend ((mandate_get_noFaults hr).2.trans hc)
    exact iff_of_true start id
  | swap t p rows x hx =>
    rw [← List.append_nil (chosenPath a.mandateIdHex t p rows)] at hs
    obtain ⟨_, _, hend⟩ := chosen_steps hs
    obtain rfl : s' = s := hend
    exact iff_of_true start id
  | abandon t p rows x hx v =>
    rw [← List.append_nil (a.swapped t p rows (.applied v))] at hs
    obtain ⟨s₁, hcl, hend⟩ := abandon_swapped hx hs
    obtain rfl : s' = s₁ := hend
    rw [closed_coherent_iff start hcl hcl.owner, hx.ambiguous]
    exact iff_of_false (not_ambiguous (by decide)) fun h => h trivial
  | receipt t p rows x hx v =>
    obtain ⟨s₁, hcl, s₂, hy, hend⟩ := abandon_swapped hx hs
    obtain rfl : s' = s₂ := hend
    rw [closed_coherent_iff start (hcl.marked hy).2 hcl.owner]
    exact iff_of_true .abandoned id
  | audit t p rows x hx v =>
    obtain ⟨s₁, hcl, s₂, hy, s₃, hi, hend⟩ := abandon_swapped hx hs
    obtain rfl : s' = s₃ := hend
    have hk : Untouched s₂ s' := untouched_of_ne hi (by simp) (by simp)
    rw [closed_coherent_iff start ((hcl.marked hy).2.of_untouched hk) hcl.owner]
    exact iff_of_true .abandoned id

/-! ## Any of the three calls -/

/-- A dispatch or a recovery in which one store call fails returns the failure, and it strands
the mandate exactly if the call that failed is one of those that do. -/
theorem fault_unstranded_iff {c : Call} {before : Path} {sc : StoreCall} {e : StorageError}
    {r : c.Res} (start : Coherent m s) (hc : Current m c s)
    (hf : EvalWithFault (Exec rt noFaults) (c.program rt) s before ⟨.store sc, .error e⟩ r s') :
    (∃ e', r = .error e') ∧ (Unstranded rt m before s' ↔ ¬ Strands m c s sc) := by
  obtain ⟨rest, t, hr, hbefore, hafter⟩ := hf
  have hnext := next_of_returns hr
  cases c with
  | reserveAndDispatch a =>
    obtain ⟨rfl, p, hp, hv⟩ := hc
    obtain ⟨rfl, rfl⟩ := reserveAndDispatch_failsFast rt a _ _ _ _ _ hr
    obtain rfl : s' = t := hafter
    refine ⟨⟨_, rfl⟩, ?_⟩
    cases reserveAndDispatch_next hnext with
    | reserve hpt =>
      rw [unstranded_iff (reservePoint_not_invoked hpt)]
      exact reserve_fault start hp hv hpt hbefore
    | complete t q hq v d hpt =>
      rw [ReserveArgs.invoked, List.append_assoc] at hbefore
      obtain ⟨p', s₁, _, hp', _, _, hm, hset, s₂, hd, h1⟩ := granted_steps hbefore
      obtain rfl : s₂ = s₁ := hd
      refine complete_fault start hm hset ?_ hpt h1
      exact ⟨_, _, d, List.mem_append_left _ (List.mem_append_right _ List.mem_cons_self)⟩
  | reconcile a =>
    obtain ⟨rfl, _⟩ := hc
    obtain ⟨rfl, rfl⟩ := reconcile_failsFast a _ _ _ _ _ hr
    obtain rfl : s' = t := hafter
    have hpt := reconcile_next hnext
    rw [unstranded_iff (reconcilePoint_not_invoked hpt)]
    exact ⟨⟨_, rfl⟩, reconcile_fault start hpt hbefore⟩
  | abandonUnresolved a =>
    obtain ⟨rfl, _⟩ := hc
    obtain ⟨rfl, rfl⟩ := abandonUnresolved_failsFast a _ _ _ _ _ hr
    obtain rfl : s' = t := hafter
    have hpt := abandonUnresolved_next hnext
    rw [unstranded_iff (abandonPoint_not_invoked hpt)]
    exact ⟨⟨_, rfl⟩, abandon_fault start hpt hbefore⟩
  | _ => exact hc.elim

/-! ## A failure behind the provider call -/

/-- The provider accepts the dispatch of `m-1` as deployment 42, and the stores fail at the first
call that `fails`. -/
def faultedDispatch (fails : StoreCall → Bool) :
    Option (Faulted (Except DispatchError DispatchOutcome)) :=
  faulted sampleRuntime (.answering (some 42)) fails (.backend "down")
    (reserveAndDispatch sampleRuntime (sampleReserve "r-1" "m-1" 1)).run sessionStart

def marksAccepted : StoreCall → Bool
  | .attempts (.updateState _ .accepted) => true
  | _ => false

def appendsAudit : StoreCall → Bool
  | .audit (.append _) => true
  | _ => false

def invokesProvider (h : Path) : Bool :=
  h.any fun
    | ⟨.dispatchFn _ _, _⟩ => true
    | _ => false

theorem providerInvoked_of {h : Path} (hi : invokesProvider h) : ProviderInvoked h := by
  obtain ⟨⟨op, a⟩, hc, hop⟩ := List.any_eq_true.mp hi
  split at hop
  · next key digest b heq => exact ⟨key, digest, b, heq ▸ hc⟩
  · cases hop

theorem sessionStart_coherent : Coherent "m-1" sessionStart where
  toInStep := sessionStart_freshlyIssued.inStep
  owned x hx := by
    rw [sessionStart_freshlyIssued.no_attempt] at hx
    cases hx

theorem sampleReserve_current :
    Current "m-1" (.reserveAndDispatch (sampleReserve "r-1" "m-1" 1)) sessionStart := by
  refine ⟨rfl, ⟨"m-1", 1, "issued"⟩, ?_, rfl⟩
  decide +kernel

/-- The write of the acceptance fails: the deployment runs, the call returns an error and the
mandate stays reserved. -/
theorem failed_acceptance_strands :
    Coherent "m-1" sessionStart ∧
      Current "m-1" (.reserveAndDispatch (sampleReserve "r-1" "m-1" 1)) sessionStart ∧
      ∃ before sc s',
        EvalWithFault (Exec sampleRuntime noFaults)
          (reserveAndDispatch sampleRuntime (sampleReserve "r-1" "m-1" 1)).run sessionStart before
          ⟨.store sc, .error (.backend "down")⟩ (.error (.storage (.backend "down"))) s' ∧
        ProviderInvoked before ∧ InState "m-1" "reserved" s' := by
  have hplay : (faultedDispatch marksAccepted).any fun y =>
      y.result = .error (.storage (.backend "down")) && invokesProvider y.before &&
        InState "m-1" "reserved" y.state := by
    decide +kernel
  refine ⟨sessionStart_coherent, sampleReserve_current, ?_⟩
  obtain ⟨y, hy, hcheck⟩ := (Option.any_eq_true _ _).mp hplay
  simp only [Bool.and_eq_true, decide_eq_true_eq] at hcheck
  obtain ⟨⟨hresult, hinvoked⟩, hreserved⟩ := hcheck
  exact ⟨y.before, y.call, y.state, hresult ▸ faulted_sound hy, providerInvoked_of hinvoked,
    hreserved⟩

/-- The audit event of the reservation fails: nothing has been sent, and the pair agrees. -/
theorem failed_audit_strands_nothing :
    ∃ y, faultedDispatch appendsAudit = some y ∧ Unstranded sampleRuntime "m-1" y.before y.state := by
  have hplay : (faultedDispatch appendsAudit).any fun y => appendsAudit y.call := by
    decide +kernel
  obtain ⟨y, hy, hcheck⟩ := (Option.any_eq_true _ _).mp hplay
  refine ⟨y, hy, (fault_unstranded_iff (c := .reserveAndDispatch (sampleReserve "r-1" "m-1" 1))
    sessionStart_coherent sampleReserve_current (faulted_sound hy)).2.mpr ?_⟩
  intro hs
  generalize y.call = sc at hs hcheck
  cases sc with
  | audit c =>
    cases c with
    | append ev => exact hs
    | recent limit => cases hcheck
  | _ => cases hcheck

end Piteka.Safety
