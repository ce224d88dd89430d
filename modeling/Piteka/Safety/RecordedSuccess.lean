import Piteka.Safety.SingleDispatch
import Piteka.Safety.Swaps

/-!
# Recorded successes

A mandate is consumed, an attempt accepted and a deployment id written only by a
caller that holds an answer of the provider for that mandate. The invariant
traces each such record back to the entry of the log with that answer. Storage
faults are arbitrary: a fault may lose a write but invents none.
-/
namespace Piteka.Safety

set_option autoImplicit false

open Piteka.Interleaving Piteka.Storage Piteka.Application

variable {ι : Type}

/-- The provider named the deployment `d` for the mandate `m`: as the answer to the closure of a
dispatcher of `m`, or as the deployment correlated with the attempt of `m`. -/
def ProviderNamed (calls : ι → Call) (m : String) (d : UInt64) (log : List (Event ι)) : Prop :=
  ∃ e ∈ log,
    (∃ a k g, calls e.caller = .reserveAndDispatch a ∧ a.mandateIdHex = m ∧
      e.call = ⟨.dispatchFn k g, some d⟩) ∨
    ∃ x : ExecutionAttempt, x.mandateIdHex = m ∧ x.attemptIdHex = attemptIdOf m ∧
      e.call = ⟨.findCorrelatedDeployment x, .ok (some ⟨d⟩)⟩

/-- Completions are made by dispatchers only, after their own provider call. -/
def NoBareCompletion (calls : ι → Call) : Prop := ∀ i c, calls i ≠ .completeDispatch c

/-- Mandates as issued, no attempts and no receipts. -/
structure OnlyIssued (s : Stores) : Prop where
  mandates : ∀ m p, s.mandate m = some p → p.state = "issued"
  attempts : ∀ k, s.attempt k = none
  receipts : ∀ k, s.receipt k = none

/-- The attempt is recorded as accepted, by the dispatch or by a reconciliation. -/
def RecordsAcceptance (x : ExecutionAttempt) : Prop :=
  x.state = .accepted ∨ x.state = .reconciledAccepted

/-- Every recorded success goes back to an answer of the provider. -/
structure NoInventedSuccess (calls : ι → Call) (log : List (Event ι)) (s : Stores) : Prop where
  consumed : ∀ m, InState m "consumed" s → ∃ d, ProviderNamed calls m d log
  accepted : ∀ k x, s.attempt k = some x → RecordsAcceptance x →
    ∃ d, ProviderNamed calls x.mandateIdHex d log
  deployment : ∀ k x, s.attempt k = some x → ∀ d, x.githubDeploymentId = some d →
    ProviderNamed calls x.mandateIdHex d log
  receipts : ∀ k x, s.receipt k = some x → x.outcome = .unknown

variable {rt : Runtime} {faults : StoreCall → Prop} {calls : ι → Call} {s₀ s s' : Stores}
  {log : List (Event ι)} {p : (i : ι) → Program PortCall Answer (calls i).Res}

theorem ProviderNamed.snoc {m : String} {d : UInt64} (h : ProviderNamed calls m d log)
    (e : Event ι) : ProviderNamed calls m d (log ++ [e]) := by
  obtain ⟨f, hf, hd⟩ := h
  exact ⟨f, List.mem_append_left _ hf, hd⟩

theorem attemptIdOf_injective {m m' : String} (h : attemptIdOf m = attemptIdOf m') : m = m' := by
  simpa [attemptIdOf] using h

section
variable [DecidableEq ι]

/-- A dispatcher that completes with an accepted deployment holds the closure's answer. -/
theorem named_of_dispatched {i : ι} {a : ReserveArgs} (hc : calls i = .reserveAndDispatch a)
    {t : UInt64} {q : ActionRequest} {v : Int64} {d : UInt64} {h : Path}
    (hh : history i log = a.invoked rt t q v (some d) ++ h) :
    ProviderNamed calls a.mandateIdHex d log := by
  have hmem : (⟨a.dispatchCall rt, some d⟩ : Answered) ∈ history i log := by
    rw [hh]
    simp [ReserveArgs.invoked]
  obtain ⟨e, he, rfl, hcall⟩ := mem_history.mp hmem
  exact ⟨e, he, Or.inl ⟨a, _, _, hc, rfl, hcall⟩⟩

theorem OnlyIssued.keyed (h₀ : OnlyIssued s₀) (m : String) : AttemptKeyed m s₀ := by
  intro k x hk
  rw [h₀.attempts k] at hk
  cases hk

/-- The attempt that a reconciler has chosen is the one of its mandate. -/
theorem chosen_attempt (run : SystemRun rt faults calls s₀ log s p) (h₀ : OnlyIssued s₀) {i : ι}
    {m : String} {q : MandateProjection} {rows : List ExecutionAttempt} {x : ExecutionAttempt}
    (hx : Chosen q rows x) (hmem : did (.attempts (.byMandate m)) rows ∈ history i log) :
    x.mandateIdHex = m ∧ x.attemptIdHex = attemptIdOf m := by
  obtain ⟨e, he, _, _, hexec⟩ := run.executed hmem
  obtain ⟨hstored, hm⟩ := attempts_listed hexec hx.mem
  obtain ⟨l₁, l₂, rfl⟩ := List.append_of_mem he
  obtain ⟨⟨p', hrun⟩, _⟩ := run.at_entry
  exact ⟨hm, attemptKeyed_kept hrun (h₀.keyed m) _ _ hstored hm⟩

/-- A reconciler past its query holds the answer of the provider. -/
theorem named_of_found (run : SystemRun rt faults calls s₀ log s p) (h₀ : OnlyIssued s₀) {i : ι}
    {a : ReconcileArgs} {t : UInt64} {q : MandateProjection} {rows : List ExecutionAttempt}
    {x : ExecutionAttempt} (hx : Chosen q rows x) {d : UInt64} {h : Path}
    (hh : history i log = a.found t q rows x d ++ h) :
    ProviderNamed calls a.mandateIdHex d log ∧ x.attemptIdHex = attemptIdOf a.mandateIdHex := by
  have hlist : did (.attempts (.byMandate a.mandateIdHex)) rows ∈ history i log := by
    rw [hh]
    simp [ReconcileArgs.found, chosenPath]
  have hmem : (⟨.findCorrelatedDeployment x, .ok (some ⟨d⟩)⟩ : Answered) ∈ history i log := by
    rw [hh]
    simp [ReconcileArgs.found]
  obtain ⟨hm, hid⟩ := chosen_attempt run h₀ hx hlist
  obtain ⟨e, he, rfl, hcall⟩ := mem_history.mp hmem
  exact ⟨⟨e, he, Or.inr ⟨x, hm, hid, hcall⟩⟩, hid⟩

/-- The completion of a dispatcher, with the provider's answer that it records. -/
theorem named_of_completes (hbare : NoBareCompletion calls) {i : ι} {c : CompleteArgs} {h₁ h₂ : Path}
    (hc : (calls i).Completes rt h₁ c) (hh : history i log = h₁ ++ h₂) {d : UInt64}
    (hd : c.acceptedDeployment = some d) :
    ProviderNamed calls c.mandateIdHex d log ∧ c.attemptIdHex = attemptIdOf c.mandateIdHex := by
  generalize hcall : calls i = call at hc
  cases hc with
  | alone x => exact absurd hcall (hbare i c)
  | dispatched a t q hq v d' =>
    obtain rfl : d' = some d := by simpa using hd
    exact ⟨named_of_dispatched hcall hh, rfl⟩

/-- A stored attempt belongs to the mandate that its key names. -/
theorem owner_of_stored (run : SystemRun rt faults calls s₀ log s p) (h₀ : OnlyIssued s₀)
    {m : String} {x : ExecutionAttempt} (hx : s.attempt (attemptIdOf m) = some x) :
    x.mandateIdHex = m := by
  have hkey : attemptIdOf m = attemptIdOf x.mandateIdHex :=
    attemptKeyed_kept run (h₀.keyed x.mandateIdHex) _ x hx rfl
  exact (attemptIdOf_injective hkey).symm

/-- A swap to `consumed` is made by a caller that holds the provider's answer. -/
theorem named_of_consume (run : SystemRun rt faults calls s₀ log s p) (h₀ : OnlyIssued s₀)
    (hbare : NoBareCompletion calls) {i : ι} {m : String} {v : Int64}
    (hs : MandateSwap rt (calls i) (history i log) m v "consumed") :
    ∃ d, ProviderNamed calls m d log := by
  generalize hc : calls i = c at hs
  generalize hh : history i log = h at hs
  generalize hst : "consumed" = st at hs
  cases hs with
  | reserve => exact absurd hst (by decide)
  | consume hcomp t d hd => exact ⟨d, (named_of_completes hbare (hc ▸ hcomp) hh hd).1⟩
  | quarantine => exact absurd hst (by decide)
  | reconcile a t q rows x hx d =>
    exact ⟨d, (named_of_found run h₀ hx (hh.trans (List.append_nil _).symm)).1⟩
  | abandon => exact absurd hst (by decide)

/-- A write of an accepting state is made by a caller that holds the provider's answer. -/
theorem named_of_accept (run : SystemRun rt faults calls s₀ log s p) (h₀ : OnlyIssued s₀)
    (hbare : NoBareCompletion calls) {i : ι} {k : String} {st : ExecutionAttemptState}
    (hst : st = .accepted ∨ st = .reconciledAccepted)
    (hmark : AttemptMark rt (calls i) (history i log) k st) :
    ∃ m d, k = attemptIdOf m ∧ ProviderNamed calls m d log := by
  generalize hc : calls i = c at hmark
  generalize hh : history i log = h at hmark
  cases hmark with
  | dispatching => rcases hst with h | h <;> cases h
  | accepted hcomp t d hd =>
    obtain ⟨hnamed, hid⟩ := named_of_completes hbare (hc ▸ hcomp) hh hd
    exact ⟨_, d, hid, hnamed⟩
  | ambiguous => rcases hst with h | h <;> cases h
  | reconciled a t q rows x hx d v =>
    rw [ReconcileArgs.swapped, List.append_assoc] at hh
    obtain ⟨hnamed, hid⟩ := named_of_found run h₀ hx hh
    exact ⟨_, d, hid, hnamed⟩
  | abandoned => rcases hst with h | h <;> cases h

/-- A deployment id is written by a caller to which the provider named exactly this id. -/
theorem named_of_deployment (run : SystemRun rt faults calls s₀ log s p) (h₀ : OnlyIssued s₀)
    (hbare : NoBareCompletion calls) {i : ι} {k : String} {d : UInt64}
    (hmark : DeploymentMark rt (calls i) (history i log) k d) :
    ∃ m, k = attemptIdOf m ∧ ProviderNamed calls m d log := by
  generalize hc : calls i = c at hmark
  generalize hh : history i log = h at hmark
  cases hmark with
  | accepted hcomp t _ hd =>
    obtain ⟨hnamed, hid⟩ := named_of_completes hbare (hc ▸ hcomp) hh hd
    exact ⟨_, hid, hnamed⟩
  | reconciled a t q rows x hx _ v =>
    rw [ReconcileArgs.swapped] at hh
    obtain ⟨hnamed, hid⟩ := named_of_found run h₀ hx hh
    exact ⟨_, hid, hnamed⟩

section
variable {i : ι} {op : PortCall} {a : Answer op}

theorem consumed_snoc (run : SystemRun rt faults calls s₀ log s p) (h₀ : OnlyIssued s₀)
    (hbare : NoBareCompletion calls) (hn : (pool rt calls i).Next (history i log) op)
    (hx : Exec rt faults s op a s') (ih : NoInventedSuccess calls log s) {m : String}
    (hm : InState m "consumed" s') : ∃ d, ProviderNamed calls m d (log ++ [⟨i, ⟨op, a⟩, s, s'⟩]) := by
  have hd : ∃ d, ProviderNamed calls m d log := by
    obtain ⟨q, hq, hst⟩ := hm
    cases mandate_step (c := ⟨op, a⟩) hx m with
    | same h => exact ih.consumed m ⟨q, h.symm.trans hq, hst⟩
    | insert st hc hb ha =>
      cases hc
      exact absurd hn no_mandate_insert
    | swap q' st hc hb ha =>
      cases hc
      obtain rfl := Option.some.inj (ha.symm.trans hq)
      obtain rfl : st = "consumed" := hst
      exact named_of_consume run h₀ hbare (mandate_swap_next hn)
  exact hd.imp fun d h => h.snoc _

theorem accepted_snoc (run : SystemRun rt faults calls s₀ log s p) (h₀ : OnlyIssued s₀)
    (hbare : NoBareCompletion calls) (hn : (pool rt calls i).Next (history i log) op)
    (hx : Exec rt faults s op a s') (ih : NoInventedSuccess calls log s) {k : String}
    {x : ExecutionAttempt} (hk : s'.attempt k = some x) (hst : RecordsAcceptance x) :
    ∃ d, ProviderNamed calls x.mandateIdHex d (log ++ [⟨i, ⟨op, a⟩, s, s'⟩]) := by
  have hd : ∃ d, ProviderNamed calls x.mandateIdHex d log := by
    cases attempt_step (c := ⟨op, a⟩) hx k with
    | same h => exact ih.accepted k x (h.symm.trans hk) hst
    | insert y hi hc hb ha =>
      cases hc
      obtain ⟨r, t, q, v, _, _, _, rfl⟩ := attempt_insert_next hn
      obtain rfl := Option.some.inj (ha.symm.trans hk)
      rcases hst with h | h <;> cases h
    | state y st hc hb ha =>
      cases hc
      obtain rfl := Option.some.inj (ha.symm.trans hk)
      obtain ⟨m, d, rfl, hnamed⟩ := named_of_accept run h₀ hbare hst (attempt_mark_next hn)
      obtain rfl : y.mandateIdHex = m := owner_of_stored run h₀ hb
      exact ⟨d, hnamed⟩
    | deployment y d hc hb ha =>
      obtain rfl := Option.some.inj (ha.symm.trans hk)
      exact ih.accepted k y hb hst
  exact hd.imp fun d h => h.snoc _

theorem deployment_snoc (run : SystemRun rt faults calls s₀ log s p) (h₀ : OnlyIssued s₀)
    (hbare : NoBareCompletion calls) (hn : (pool rt calls i).Next (history i log) op)
    (hx : Exec rt faults s op a s') (ih : NoInventedSuccess calls log s) {k : String}
    {x : ExecutionAttempt} (hk : s'.attempt k = some x) {d : UInt64}
    (hd : x.githubDeploymentId = some d) :
    ProviderNamed calls x.mandateIdHex d (log ++ [⟨i, ⟨op, a⟩, s, s'⟩]) := by
  refine ProviderNamed.snoc ?_ _
  cases attempt_step (c := ⟨op, a⟩) hx k with
  | same h => exact ih.deployment k x (h.symm.trans hk) d hd
  | insert y hi hc hb ha =>
    cases hc
    obtain ⟨r, t, q, v, _, _, _, rfl⟩ := attempt_insert_next hn
    obtain rfl := Option.some.inj (ha.symm.trans hk)
    cases hd
  | state y st hc hb ha =>
    obtain rfl := Option.some.inj (ha.symm.trans hk)
    exact ih.deployment k y hb d hd
  | deployment y d' hc hb ha =>
    cases hc
    obtain rfl := Option.some.inj (ha.symm.trans hk)
    obtain rfl : d' = d := Option.some.inj hd
    obtain ⟨m, rfl, hnamed⟩ := named_of_deployment run h₀ hbare (deployment_mark_next hn)
    obtain rfl : y.mandateIdHex = m := owner_of_stored run h₀ hb
    exact hnamed

theorem receipts_snoc (hn : (pool rt calls i).Next (history i log) op)
    (hx : Exec rt faults s op a s') (ih : NoInventedSuccess calls log s) {k : String}
    {x : ReceiptProjection} (hk : s'.receipt k = some x) : x.outcome = .unknown := by
  cases receipt_step (c := ⟨op, a⟩) hx k with
  | same h => exact ih.receipts k x (h.symm.trans hk)
  | insert y hi hc hb ha =>
    cases hc
    obtain ⟨b, t, q, rows, z, v, _, _, rfl, _⟩ := receipt_insert_next hn
    obtain rfl := Option.some.inj (ha.symm.trans hk)
    rfl

end

/-- In every run of dispatchers, reconcilers and abandoners over freshly issued mandates, every
recorded success goes back to an answer of the provider. -/
theorem no_invented_success (hbare : NoBareCompletion calls) (h₀ : OnlyIssued s₀)
    (run : SystemRun rt faults calls s₀ log s p) : NoInventedSuccess calls log s := by
  refine run.invariant (I := NoInventedSuccess calls) ?_ ?_
  · refine ⟨fun m hm => ?_, fun k x hk => ?_, fun k x hk => ?_, fun k x hk => ?_⟩
    · obtain ⟨q, hq, hst⟩ := hm
      rw [h₀.mandates m q hq] at hst
      exact absurd hst (by decide)
    · rw [h₀.attempts k] at hk
      cases hk
    · rw [h₀.attempts k] at hk
      cases hk
    · rw [h₀.receipts k] at hk
      cases hk
  · intro log s p i op a s' run ih hn hx
    exact ⟨fun m => consumed_snoc run h₀ hbare hn hx ih,
      fun k x => accepted_snoc run h₀ hbare hn hx ih,
      fun k x hk d => deployment_snoc run h₀ hbare hn hx ih hk,
      fun k x => receipts_snoc hn hx ih⟩

/-! ## A reconciled dispatch -/

/-- A dispatch that times out and a reconciliation. -/
def recoveryCalls : Pair → Call
  | .first => .reserveAndDispatch (sampleReserve "r-1" "m-1" 1)
  | .second => .reconcile ⟨"m-1", "operator", 3⟩

def recoveryRun : Snapshot Pair Answer Stores fun i => (recoveryCalls i).Res :=
  played sampleRuntime recoveryCalls (afterApproval (Stores.empty.issued "m-1"))
    (steps .first 12 (.answering none) ++ steps .second 9 (.answering (some 7)))

theorem recoveryStart_onlyIssued : OnlyIssued (afterApproval (Stores.empty.issued "m-1")) where
  mandates := by
    intro m p hp
    have hget : (afterApproval (Stores.empty.issued "m-1")).mandate m =
        (Stores.empty.issued "m-1").mandate m := rfl
    rw [hget, Stores.mandate, Stores.issued, Table.Keyed.get_insert] at hp
    split at hp
    · cases hp
      rfl
    · cases hp
  attempts := fun k => rfl
  receipts := fun k => rfl

theorem no_invented_success_recovery :
    NoInventedSuccess recoveryCalls recoveryRun.log recoveryRun.state :=
  no_invented_success (fun | .first => fun _ h => by cases h | .second => fun _ h => by cases h)
    recoveryStart_onlyIssued (played_run sampleRuntime noFaults _ _ _)

end

end Piteka.Safety
