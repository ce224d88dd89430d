import Piteka.Application.DispatchEffects
import Piteka.Application.ReconciliationEffects
import Piteka.Application.Scenario
import Piteka.Storage.FailFast

/-!
# Use cases in which a store call fails

The dispatch and the two recoveries treat every store call with `?`, so a failure
ends them where it happens. A quarantined mandate whose attempt is ambiguous can be
abandoned from any stores.
-/
namespace Piteka.Application

set_option autoImplicit false

open Piteka.Interleaving Piteka.Interleaving.Program Piteka.Storage

/-! ## The first failure is the end -/

theorem reserve_failsFast (a : ReserveArgs) : FailsFast (reserve a) := by
  refine failsFast_nowSeconds.seq fun now => failsFast_await.seq fun found => ?_
  cases found with
  | none => exact failsFast_throw
  | some request =>
    dsimp only
    split
    · exact failsFast_throw
    refine failsFast_await.seq fun outcome => ?_
    cases outcome with
    | applied v =>
      exact failsFast_await.seq fun _ => failsFast_await.seq fun _ => failsFast_await.seq fun _ =>
        failsFast_pure
    | conflict v =>
      refine failsFast_await.seq fun row => ?_
      cases row with
      | none => exact failsFast_pure
      | some p =>
        dsimp only
        split
        · exact failsFast_await.seq fun _ => failsFast_pure
        · exact failsFast_pure
    | missing => exact failsFast_throw

theorem completeDispatch_failsFast (c : CompleteArgs) : FailsFast (completeDispatch c) := by
  have hreport : FailsFast (reportMissing c) := by
    unfold reportMissing
    split
    · exact failsFast_throw
    · exact failsFast_pure
  refine failsFast_nowSeconds.seq fun now => ?_
  cases c.acceptedDeployment with
  | some d =>
    refine FailsFast.seq (failsFast_await.seq fun _ => failsFast_await.seq fun _ =>
      failsFast_await.seq fun outcome => ?_) fun _ => hreport
    cases outcome with
    | applied v => exact failsFast_await
    | conflict v => exact failsFast_throw
    | missing => exact failsFast_throw
  | none =>
    refine FailsFast.seq (failsFast_await.seq fun _ => failsFast_await.seq fun outcome => ?_)
      fun _ => hreport
    cases outcome with
    | applied v => exact failsFast_await
    | conflict v => exact failsFast_pure
    | missing => exact failsFast_throw

theorem reserveAndDispatch_failsFast (rt : Runtime) (a : ReserveArgs) :
    FailsFast (reserveAndDispatch rt a) := by
  refine (reserve_failsFast a).seq fun outcome => ?_
  cases outcome with
  | dispatched x =>
    refine (failsFast_ask (by simp)).seq fun answer => ?_
    cases answer with
    | some d => exact (completeDispatch_failsFast _).seq fun _ => failsFast_pure
    | none => exact (completeDispatch_failsFast _).seq fun _ => failsFast_pure
  | _ => exact failsFast_pure

theorem quarantinedAttempt_failsFast (refusal : String → ReconciliationError) (m : String) :
    FailsFast (quarantinedAttempt refusal m) := by
  refine failsFast_await.seq fun found => ?_
  cases found with
  | none => exact failsFast_throw
  | some p =>
    dsimp only
    split
    · exact failsFast_throw
    refine failsFast_await.seq fun rows => ?_
    split
    · exact failsFast_throw
    · exact failsFast_pure

theorem reconcile_failsFast (a : ReconcileArgs) : FailsFast (reconcile a) := by
  have hpersist : ∀ x d, FailsFast (persistDeploymentId x d) := by
    intro x d
    unfold persistDeploymentId
    split
    · exact failsFast_await
    · exact failsFast_pure
  unfold reconcile
  split
  · exact failsFast_throw
  refine failsFast_nowSeconds.seq fun now => (quarantinedAttempt_failsFast _ _).seq fun x =>
    (failsFast_ask (by simp)).seq fun found => ?_
  rcases found with e | _ | correlated
  · exact failsFast_pure
  · exact failsFast_pure
  refine failsFast_await.seq fun outcome => ?_
  cases outcome with
  | applied v =>
    exact (hpersist _ _).seq fun _ => failsFast_await.seq fun _ => failsFast_await.seq fun _ =>
      failsFast_pure
  | conflict v => exact failsFast_throw
  | missing => exact failsFast_throw

theorem abandonUnresolved_failsFast (a : AbandonArgs) : FailsFast (abandonUnresolved a) := by
  unfold abandonUnresolved
  split
  · exact failsFast_throw
  split
  · exact failsFast_throw
  refine failsFast_nowSeconds.seq fun now => (quarantinedAttempt_failsFast _ _).seq fun x =>
    failsFast_await.seq fun outcome => ?_
  cases outcome with
  | applied v =>
    exact failsFast_await.seq fun _ => failsFast_await.seq fun _ => failsFast_await.seq fun _ =>
      failsFast_pure
  | conflict v => exact failsFast_throw
  | missing => exact failsFast_throw

/-! ## A quarantined mandate can be closed -/

section
variable {rt : Runtime} {s s' : Stores}

theorem await_mandate_frame {ε : Type} [FromStorageError ε] {c : StoreCall} {r : Except ε c.Ok}
    (he : (await c).run.Eval (Exec rt noFaults) s r s') (hc : ∀ mc, c ≠ .mandates mc) (k : String) :
    s'.mandate k = s.mandate k := by
  rcases eval_await.mp he with ⟨e, hx, _⟩ | ⟨x, hx, _⟩
  · exact mandate_frame hx (by simpa using hc) k
  · exact mandate_frame hx (by simpa using hc) k

/-- What follows the swap of an abandonment leaves the mandate as it is. -/
theorem recordAbandoned_frame {a : AbandonArgs} {now : Int64} {x : ExecutionAttempt} {v : Int64}
    {r : Except ReconciliationError ReconciliationOutcome}
    (he : (recordAbandoned a now x v).run.Eval (Exec rt noFaults) s r s') (k : String) :
    s'.mandate k = s.mandate k := by
  rcases eval_seq.mp he with ⟨_, h1, _⟩ | ⟨_, s₁, h1, he⟩
  · exact await_mandate_frame h1 (by simp) k
  refine Eq.trans ?_ (await_mandate_frame h1 (by simp) k)
  rcases eval_seq.mp he with ⟨_, h2, _⟩ | ⟨_, s₂, h2, he⟩
  · exact await_mandate_frame h2 (by simp) k
  refine Eq.trans ?_ (await_mandate_frame h2 (by simp) k)
  rcases eval_seq.mp he with ⟨_, h3, _⟩ | ⟨_, s₃, h3, he⟩
  · exact await_mandate_frame h3 (by simp) k
  obtain ⟨_, rfl⟩ := eval_pure.mp he
  exact await_mandate_frame h3 (by simp) k

variable (rt) in
/-- The reads of a recovery find an ambiguous attempt that is there. -/
theorem quarantinedAttempt_finds (refusal : String → ReconciliationError) {m : String}
    {p : MandateProjection} {x : ExecutionAttempt} (hp : s.mandate m = some p)
    (hst : p.state = "quarantined") (hx : s.attempt x.attemptIdHex = some x)
    (howner : x.mandateIdHex = m) (hamb : x.state = .outcomeAmbiguous) :
    ∃ y, (quarantinedAttempt refusal m).run.Eval (Exec rt noFaults) s (.ok y) s := by
  have hget : Exec rt noFaults s (.store (.mandates (.get m))) (.ok (s.mandate m)) s :=
    Or.inl ⟨.asListed, rfl⟩
  have hlist : Exec rt noFaults s (.store (.attempts (.byMandate m))) (s.attempts.byMandate m) s :=
    Or.inl ⟨.asListed, rfl⟩
  obtain ⟨⟨rows, hrows⟩, _⟩ := attempts_by_mandate_noFaults hlist
  rw [hp] at hget
  rw [hrows] at hlist
  have hfind : (rows.find? fun a => a.state = .outcomeAmbiguous).isSome :=
    List.find?_isSome.mpr ⟨x, (mem_attempts_listed hlist).mpr ⟨hx, howner⟩, by simpa using hamb⟩
  obtain ⟨y, hy⟩ := Option.isSome_iff_exists.mp hfind
  refine ⟨y, eval_seq.mpr (Or.inr ⟨some p, s, eval_await.mpr (Or.inr ⟨_, hget, rfl⟩), ?_⟩)⟩
  simp only [hst, ne_eq, not_true_eq_false, if_false]
  refine eval_seq.mpr (Or.inr ⟨rows, s, eval_await.mpr (Or.inr ⟨_, hlist, rfl⟩), ?_⟩)
  simp only [hy]
  exact eval_pure.mpr ⟨rfl, rfl⟩

variable (rt) in
theorem quarantined_abandonable {m : String} {p : MandateProjection} {x : ExecutionAttempt}
    (hp : s.mandate m = some p) (hst : p.state = "quarantined")
    (hx : s.attempt x.attemptIdHex = some x) (howner : x.mandateIdHex = m)
    (hamb : x.state = .outcomeAmbiguous) :
    ∃ a r s', a.mandateIdHex = m ∧ (abandonUnresolved a).run.Eval (Exec rt noFaults) s r s' ∧
      s'.mandate m = some (p.swapped "abandoned") := by
  obtain ⟨y, hchoice⟩ := quarantinedAttempt_finds rt .notQuarantined hp hst hx howner hamb
  let a : AbandonArgs := ⟨m, "operator", p.version, "no answer"⟩
  let swap : StoreCall := .mandates (.compareAndSwap m p.version "abandoned")
  have hswap : Exec rt noFaults s (.store swap) (swap.run rt .asListed s).1
      (swap.run rt .asListed s).2 := Or.inl ⟨.asListed, rfl⟩
  obtain ⟨o, ho⟩ := mandate_swap_noFaults hswap
  rw [ho] at hswap
  cases o with
  | conflict v =>
    obtain ⟨_, p', hp', hv, _⟩ := mandate_conflict hswap
    obtain rfl := Option.some.inj (hp.symm.trans hp')
    exact absurd rfl hv
  | missing =>
    have hnone := (mandate_missing hswap).2
    rw [hp] at hnone
    cases hnone
  | applied v =>
    obtain ⟨p', hp', _, _, hafter⟩ := mandate_applied hswap
    obtain rfl := Option.some.inj (hp.symm.trans hp')
    obtain ⟨r, s', hrest⟩ : ∃ r s', (recordAbandoned a (0 : UInt64).toInt64 y v).run.Eval
        (Exec rt noFaults) (swap.run rt .asListed s).2 r s' :=
      ⟨_, _, alone_eval (react_sound rt noFaults (.answering none)) _ _⟩
    refine ⟨a, r, s', rfl, ?_, (recordAbandoned_frame hrest m).trans hafter⟩
    have hoperator : ¬ Domain.trimIsEmpty "operator" := by decide
    have hreason : ¬ Domain.trimIsEmpty "no answer" := by decide
    unfold abandonUnresolved
    rw [if_neg hoperator, if_neg hreason]
    refine ⟨0, s, rfl, ?_⟩
    refine eval_seq.mpr (Or.inr ⟨y, s, hchoice, ?_⟩)
    exact eval_seq.mpr (Or.inr ⟨_, _, eval_await.mpr (Or.inr ⟨_, hswap, rfl⟩), hrest⟩)

end

/-! ## A use case played up to its fault -/

/-- What came before the store call that failed, the call, and how the use case ended. -/
structure Faulted (α : Type) where
  before : Path
  call : StoreCall
  result : α
  state : Stores

/-- The program runs alone in the world `w` until a call that `fails`, which answers `e`. -/
def faulted {α : Type} (rt : Runtime) (w : World) (fails : StoreCall → Bool) (e : StorageError) :
    Program PortCall Answer α → Stores → Option (Faulted α)
  | .ret _, _ => none
  | .call (.store sc) k, s =>
    if fails sc then
      match k (.error e) with
      | .ret r => some ⟨[], sc, r, s⟩
      | .call _ _ => none
    else
      let x := react rt w s (.store sc)
      (faulted rt w fails e (k x.1) x.2).map fun y => { y with before := ⟨.store sc, x.1⟩ :: y.before }
  | .call op k, s =>
    let x := react rt w s op
    (faulted rt w fails e (k x.1) x.2).map fun y => { y with before := ⟨op, x.1⟩ :: y.before }

theorem faulted_sound {α : Type} {rt : Runtime} {w : World} {fails : StoreCall → Bool}
    {e : StorageError} {p : Program PortCall Answer α} {s : Stores} {y : Faulted α}
    (hy : faulted rt w fails e p s = some y) :
    EvalWithFault (Exec rt noFaults) p s y.before ⟨.store y.call, .error e⟩ y.result y.state := by
  induction p generalizing s y with
  | ret a => cases hy
  | call op k ih =>
    have step : ∀ z, faulted rt w fails e (k (react rt w s op).1) (react rt w s op).2 = some z →
        EvalWithFault (Exec rt noFaults) (.call op k) s (⟨op, (react rt w s op).1⟩ :: z.before)
          ⟨.store z.call, .error e⟩ z.result z.state := by
      intro z hz
      obtain ⟨rest, t, hr, hbefore, hafter⟩ := ih _ hz
      exact ⟨rest, t, .call hr, ⟨_, react_sound rt noFaults w s op, hbefore⟩, hafter⟩
    unfold faulted at hy
    split at hy
    · next h => cases h
    · next sc k' heq =>
      cases heq
      split at hy
      · split at hy
        · next r hk =>
          obtain rfl := Option.some.inj hy
          exact ⟨[], _, .call (hk ▸ .here _), rfl, rfl⟩
        · cases hy
      · obtain ⟨z, hz, rfl⟩ := Option.map_eq_some_iff.mp hy
        exact step z hz
    · next op' k' _ heq =>
      cases heq
      obtain ⟨z, hz, rfl⟩ := Option.map_eq_some_iff.mp hy
      exact step z hz

end Piteka.Application
