import Piteka.Application.Reconciliation
import Piteka.Storage.Paths

/-!
# Where a reconciliation caller stands

Each point of `reconcile` and `abandonUnresolved`: the answered calls so far and
the call that comes next. Both swap only after they have read the mandate as
quarantined and found its ambiguous attempt.
-/
namespace Piteka.Application

set_option autoImplicit false

open Piteka.Interleaving Piteka.Interleaving.Program Piteka.Storage Piteka.Domain

/-- Both operations have read the mandate as quarantined and chosen the attempt. -/
def chosenPath (m : String) (t : UInt64) (p : MandateProjection) (rows : List ExecutionAttempt) :
    Path :=
  [ticked t, did (.mandates (.get m)) (some p), did (.attempts (.byMandate m)) rows]

/-- The reads let the caller go on with the attempt `x`. -/
structure Chosen (p : MandateProjection) (rows : List ExecutionAttempt) (x : ExecutionAttempt) :
    Prop where
  state : p.state = "quarantined"
  found : rows.find? (fun a => a.state = .outcomeAmbiguous) = some x

theorem Chosen.mem {p : MandateProjection} {rows : List ExecutionAttempt} {x : ExecutionAttempt}
    (hc : Chosen p rows x) : x ∈ rows := List.mem_of_find?_eq_some hc.found

theorem Chosen.ambiguous {p : MandateProjection} {rows : List ExecutionAttempt}
    {x : ExecutionAttempt} (hc : Chosen p rows x) : x.state = .outcomeAmbiguous := by
  have hx := List.find?_some hc.found
  simpa using hx

theorem quarantinedAttempt_next {refusal : String → ReconciliationError} {m : String} {h : Path}
    {op : PortCall} (hn : Next (quarantinedAttempt refusal m).run h op) :
    (h = [] ∧ op = .store (.mandates (.get m))) ∨
      ∃ p, p.state = "quarantined" ∧ h = [did (.mandates (.get m)) (some p)] ∧
        op = .store (.attempts (.byMandate m)) := by
  rcases next_await.mp hn with h1 | ⟨x, h, rfl, h1⟩
  · exact Or.inl h1
  cases x with
  | none => exact absurd h1 next_throw
  | some p =>
    by_cases hp : p.state = "quarantined"
    · simp only [hp, ne_eq, not_true_eq_false, if_false] at h1
      rcases next_await.mp h1 with ⟨rfl, rfl⟩ | ⟨rows, h, rfl, h2⟩
      · exact Or.inr ⟨p, hp, rfl, rfl⟩
      · cases hf : rows.find? (fun a => a.state = .outcomeAmbiguous) with
        | none =>
          simp only [hf] at h2
          exact absurd h2 next_throw
        | some x =>
          simp only [hf] at h2
          exact absurd h2 next_pure
    · simp only [hp, ne_eq, not_false_eq_true, if_true] at h1
      exact absurd h1 next_throw

inductive ChoiceResult (refusal : String → ReconciliationError) (m : String) :
    Path → Except ReconciliationError ExecutionAttempt → Prop
  | readFailed (e : StorageError) :
      ChoiceResult refusal m [⟨.store (.mandates (.get m)), .error e⟩] (.error (.storage e))
  | missing :
      ChoiceResult refusal m [did (.mandates (.get m)) none] (.error (.mandateNotFound m))
  | refused (p : MandateProjection) (hp : p.state ≠ "quarantined") :
      ChoiceResult refusal m [did (.mandates (.get m)) (some p)] (.error (refusal p.state))
  | listFailed (p : MandateProjection) (hp : p.state = "quarantined") (e : StorageError) :
      ChoiceResult refusal m [did (.mandates (.get m)) (some p),
        ⟨.store (.attempts (.byMandate m)), .error e⟩] (.error (.storage e))
  | noAttempt (p : MandateProjection) (hp : p.state = "quarantined")
      (rows : List ExecutionAttempt)
      (hf : rows.find? (fun a => a.state = .outcomeAmbiguous) = none) :
      ChoiceResult refusal m [did (.mandates (.get m)) (some p),
        did (.attempts (.byMandate m)) rows]
        (.error (.notQuarantined "no ambiguous attempt found"))
  | chosen (p : MandateProjection) (rows : List ExecutionAttempt) (x : ExecutionAttempt)
      (hc : Chosen p rows x) :
      ChoiceResult refusal m [did (.mandates (.get m)) (some p),
        did (.attempts (.byMandate m)) rows] (.ok x)

theorem quarantinedAttempt_returns {refusal : String → ReconciliationError} {m : String}
    {h : Path} {r : Except ReconciliationError ExecutionAttempt}
    (hr : Returns (quarantinedAttempt refusal m).run h r) : ChoiceResult refusal m h r := by
  rcases returns_await.mp hr with ⟨e, rfl, rfl⟩ | ⟨x, h, rfl, h1⟩
  · exact .readFailed e
  cases x with
  | none =>
    obtain ⟨rfl, rfl⟩ := returns_throw.mp h1
    exact .missing
  | some p =>
    by_cases hp : p.state = "quarantined"
    · simp only [hp, ne_eq, not_true_eq_false, if_false] at h1
      rcases returns_await.mp h1 with ⟨e, rfl, rfl⟩ | ⟨rows, h, rfl, h2⟩
      · exact .listFailed p hp e
      · cases hf : rows.find? (fun a => a.state = .outcomeAmbiguous) with
        | none =>
          simp only [hf] at h2
          obtain ⟨rfl, rfl⟩ := returns_throw.mp h2
          exact .noAttempt p hp rows hf
        | some x =>
          simp only [hf] at h2
          obtain ⟨rfl, rfl⟩ := returns_pure.mp h2
          exact .chosen p rows x ⟨hp, hf⟩
    · simp only [hp, ne_eq, not_false_eq_true, if_true] at h1
      obtain ⟨rfl, rfl⟩ := returns_throw.mp h1
      exact .refused p hp

/-! ## Reconcile -/

namespace ReconcileArgs

/-- The path through a provider query that found the deployment `d`. -/
def found (a : ReconcileArgs) (t : UInt64) (p : MandateProjection) (rows : List ExecutionAttempt)
    (x : ExecutionAttempt) (d : UInt64) : Path :=
  chosenPath a.mandateIdHex t p rows ++ [⟨.findCorrelatedDeployment x, .ok (some ⟨d⟩)⟩]

/-- The path through the swap to `consumed`, with its outcome. -/
def swapped (a : ReconcileArgs) (t : UInt64) (p : MandateProjection)
    (rows : List ExecutionAttempt) (x : ExecutionAttempt) (d : UInt64) (o : CasOutcome) : Path :=
  a.found t p rows x d ++
    [did (.mandates (.compareAndSwap a.mandateIdHex a.expectedMandateVersion "consumed")) o]

end ReconcileArgs

/-- The optional write of the recovered deployment id. -/
def persisted (x : ExecutionAttempt) (d : UInt64) : Path :=
  if x.githubDeploymentId ≠ some d then
    [did (.attempts (.updateDeploymentId x.attemptIdHex d)) ()]
  else []

inductive ReconcilePoint (a : ReconcileArgs) : Path → PortCall → Prop
  | clock : ReconcilePoint a [] .clock
  | readMandate (t : UInt64) : ReconcilePoint a [ticked t] (.store (.mandates (.get a.mandateIdHex)))
  | readAttempts (t : UInt64) (p : MandateProjection) (hp : p.state = "quarantined") :
      ReconcilePoint a [ticked t, did (.mandates (.get a.mandateIdHex)) (some p)]
        (.store (.attempts (.byMandate a.mandateIdHex)))
  | query (t : UInt64) (p : MandateProjection) (rows : List ExecutionAttempt)
      (x : ExecutionAttempt) (hc : Chosen p rows x) :
      ReconcilePoint a (chosenPath a.mandateIdHex t p rows) (.findCorrelatedDeployment x)
  | swap (t : UInt64) (p : MandateProjection) (rows : List ExecutionAttempt)
      (x : ExecutionAttempt) (hc : Chosen p rows x) (d : UInt64) :
      ReconcilePoint a (a.found t p rows x d)
        (.store (.mandates (.compareAndSwap a.mandateIdHex a.expectedMandateVersion "consumed")))
  | persist (t : UInt64) (p : MandateProjection) (rows : List ExecutionAttempt)
      (x : ExecutionAttempt) (hc : Chosen p rows x) (d : UInt64) (v : Int64) :
      ReconcilePoint a (a.swapped t p rows x d (.applied v))
        (.store (.attempts (.updateDeploymentId x.attemptIdHex d)))
  | accept (t : UInt64) (p : MandateProjection) (rows : List ExecutionAttempt)
      (x : ExecutionAttempt) (hc : Chosen p rows x) (d : UInt64) (v : Int64) :
      ReconcilePoint a (a.swapped t p rows x d (.applied v) ++ persisted x d)
        (.store (.attempts (.updateState x.attemptIdHex .reconciledAccepted)))
  | audit (t : UInt64) (p : MandateProjection) (rows : List ExecutionAttempt)
      (x : ExecutionAttempt) (hc : Chosen p rows x) (d : UInt64) (v : Int64) :
      ReconcilePoint a (a.swapped t p rows x d (.applied v) ++ persisted x d ++
          [did (.attempts (.updateState x.attemptIdHex .reconciledAccepted)) ()])
        (.store (.audit (.append (a.acceptedEvent t.toInt64 x.attemptIdHex d))))

inductive ReconcileResult (a : ReconcileArgs) :
    Path → Except ReconciliationError ReconciliationOutcome → Prop
  | unauthorized (ha : trimIsEmpty a.executorIdentity) :
      ReconcileResult a [] (.error (.unauthorizedExecutor a.executorIdentity))
  | refused (t : UInt64) {h : Path} {e : ReconciliationError}
      (hr : ChoiceResult reconcileRefusal a.mandateIdHex h (.error e)) :
      ReconcileResult a (ticked t :: h) (.error e)
  | unavailable (t : UInt64) (p : MandateProjection) (rows : List ExecutionAttempt)
      (x : ExecutionAttempt) (hc : Chosen p rows x) (e : StorageError) :
      ReconcileResult a
        (chosenPath a.mandateIdHex t p rows ++ [⟨.findCorrelatedDeployment x, .error e⟩])
        (.ok (a.unavailable e))
  | unestablished (t : UInt64) (p : MandateProjection) (rows : List ExecutionAttempt)
      (x : ExecutionAttempt) (hc : Chosen p rows x) :
      ReconcileResult a
        (chosenPath a.mandateIdHex t p rows ++ [⟨.findCorrelatedDeployment x, .ok none⟩])
        (.ok a.unestablished)
  | failed (h : Path) (sc : StoreCall) (e : StorageError) (hp : ReconcilePoint a h (.store sc)) :
      ReconcileResult a (h ++ [⟨.store sc, .error e⟩]) (.error (.storage e))
  | conflict (t : UInt64) (p : MandateProjection) (rows : List ExecutionAttempt)
      (x : ExecutionAttempt) (hc : Chosen p rows x) (d : UInt64) (v : Int64) :
      ReconcileResult a (a.swapped t p rows x d (.conflict v)) (.error (.casConflict v))
  | missing (t : UInt64) (p : MandateProjection) (rows : List ExecutionAttempt)
      (x : ExecutionAttempt) (hc : Chosen p rows x) (d : UInt64) :
      ReconcileResult a (a.swapped t p rows x d .missing)
        (.error (.mandateNotFound a.mandateIdHex))
  | accepted (t : UInt64) (p : MandateProjection) (rows : List ExecutionAttempt)
      (x : ExecutionAttempt) (hc : Chosen p rows x) (d : UInt64) (v : Int64) :
      ReconcileResult a (a.swapped t p rows x d (.applied v) ++ persisted x d ++
          [did (.attempts (.updateState x.attemptIdHex .reconciledAccepted)) (),
            did (.audit (.append (a.acceptedEvent t.toInt64 x.attemptIdHex d))) ()])
        (.ok (.reconciledAccepted a.mandateIdHex x.attemptIdHex v))

theorem persistDeploymentId_next {x : ExecutionAttempt} {d : UInt64} {h : Path} {op : PortCall}
    (hn : Next (persistDeploymentId x d).run h op) :
    h = [] ∧ op = .store (.attempts (.updateDeploymentId x.attemptIdHex d)) := by
  unfold persistDeploymentId at hn
  split at hn
  · exact next_await_last.mp hn
  · exact absurd hn next_pure

theorem persistDeploymentId_returns {x : ExecutionAttempt} {d : UInt64} {h : Path}
    {r : Except ReconciliationError Unit} (hr : Returns (persistDeploymentId x d).run h r) :
    Failed (.attempts (.updateDeploymentId x.attemptIdHex d)) h r ∨
      (h = persisted x d ∧ r = .ok ()) := by
  unfold persistDeploymentId at hr
  unfold persisted
  split at hr
  · next hd =>
    rcases returns_await_last.mp hr with hf | ⟨_, rfl, rfl⟩
    · exact Or.inl hf
    · exact Or.inr ⟨(if_pos hd).symm, rfl⟩
  · next hd =>
    obtain ⟨rfl, rfl⟩ := returns_pure.mp hr
    exact Or.inr ⟨(if_neg hd).symm, rfl⟩

theorem recordReconciled_next {a : ReconcileArgs} {t : UInt64} {p : MandateProjection}
    {rows : List ExecutionAttempt} {x : ExecutionAttempt} {d : UInt64} {v : Int64} {h : Path}
    {op : PortCall} (hc : Chosen p rows x)
    (hn : Next (recordReconciled a t.toInt64 x d v).run h op) :
    ReconcilePoint a (a.swapped t p rows x d (.applied v) ++ h) op := by
  rcases next_seq hn with h1 | ⟨h₁, h₂, _, rfl, h1, h2⟩
  · obtain ⟨rfl, rfl⟩ := persistDeploymentId_next h1
    rw [List.append_nil]
    exact .persist t p rows x hc d v
  rcases persistDeploymentId_returns h1 with ⟨e, _, hr⟩ | ⟨rfl, _⟩
  · cases hr
  rw [← List.append_assoc]
  rcases next_await.mp h2 with ⟨rfl, rfl⟩ | ⟨_, h, rfl, h3⟩
  · rw [List.append_nil]
    exact .accept t p rows x hc d v
  rcases next_await.mp h3 with ⟨rfl, rfl⟩ | ⟨_, h, rfl, h4⟩
  · exact .audit t p rows x hc d v
  · exact absurd h4 next_pure

theorem reconcile_next {a : ReconcileArgs} {h : Path} {op : PortCall}
    (hn : Next (reconcile a).run h op) : ReconcilePoint a h op := by
  unfold reconcile at hn
  by_cases ha : trimIsEmpty a.executorIdentity
  · rw [if_pos ha] at hn
    exact absurd hn next_throw
  rw [if_neg ha] at hn
  rcases next_nowSeconds.mp hn with ⟨rfl, rfl⟩ | ⟨t, h, rfl, h1⟩
  · exact .clock
  rcases next_seq h1 with h2 | ⟨h₁, h₂, x, rfl, h2, h3⟩
  · rcases quarantinedAttempt_next h2 with ⟨rfl, rfl⟩ | ⟨p, hp, rfl, rfl⟩
    · exact .readMandate t
    · exact .readAttempts t p hp
  generalize hx : (Except.ok x : Except ReconciliationError ExecutionAttempt) = r at h2
  cases quarantinedAttempt_returns h2 with
  | chosen p rows y hc =>
    cases hx
    rcases next_ask.mp h3 with ⟨rfl, rfl⟩ | ⟨f, h, rfl, h4⟩
    · exact .query t p rows x hc
    rcases f with e | _ | ⟨⟨d⟩⟩
    · exact absurd h4 next_pure
    · exact absurd h4 next_pure
    rcases next_await.mp h4 with ⟨rfl, rfl⟩ | ⟨o, h, rfl, h5⟩
    · exact .swap t p rows x hc d
    cases o with
    | applied v => exact recordReconciled_next hc h5
    | conflict v => exact absurd h5 next_throw
    | missing => exact absurd h5 next_throw
  | _ => cases hx

theorem recordReconciled_returns {a : ReconcileArgs} {t : UInt64} {p : MandateProjection}
    {rows : List ExecutionAttempt} {x : ExecutionAttempt} {d : UInt64} {v : Int64} {h : Path}
    {r : Except ReconciliationError ReconciliationOutcome} (hc : Chosen p rows x)
    (hr : Returns (recordReconciled a t.toInt64 x d v).run h r) :
    ReconcileResult a (a.swapped t p rows x d (.applied v) ++ h) r := by
  rcases returns_seq hr with ⟨e, h1, rfl⟩ | ⟨h₁, h₂, _, rfl, h1, h2⟩
  · rcases persistDeploymentId_returns h1 with ⟨e', rfl, he⟩ | ⟨_, he⟩
    · cases he
      exact .failed _ _ e' (.persist t p rows x hc d v)
    · cases he
  rcases persistDeploymentId_returns h1 with ⟨e, _, he⟩ | ⟨rfl, _⟩
  · cases he
  rw [← List.append_assoc]
  rcases returns_await.mp h2 with ⟨e, rfl, rfl⟩ | ⟨_, h, rfl, h3⟩
  · exact .failed _ _ e (.accept t p rows x hc d v)
  rcases returns_await.mp h3 with ⟨e, rfl, rfl⟩ | ⟨_, h, rfl, h4⟩
  · rw [← List.singleton_append, ← List.append_assoc]
    exact .failed _ _ e (.audit t p rows x hc d v)
  obtain ⟨rfl, rfl⟩ := returns_pure.mp h4
  exact .accepted t p rows x hc d v

theorem reconcile_returns {a : ReconcileArgs} {h : Path}
    {r : Except ReconciliationError ReconciliationOutcome}
    (hr : Returns (reconcile a).run h r) : ReconcileResult a h r := by
  unfold reconcile at hr
  by_cases ha : trimIsEmpty a.executorIdentity
  · rw [if_pos ha] at hr
    obtain ⟨rfl, rfl⟩ := returns_throw.mp hr
    exact .unauthorized ha
  rw [if_neg ha] at hr
  obtain ⟨t, h, rfl, h1⟩ := returns_nowSeconds.mp hr
  rcases returns_seq h1 with ⟨e, h2, rfl⟩ | ⟨h₁, h₂, x, rfl, h2, h3⟩
  · exact .refused t (quarantinedAttempt_returns h2)
  generalize hx : (Except.ok x : Except ReconciliationError ExecutionAttempt) = y at h2
  cases quarantinedAttempt_returns h2 with
  | chosen p rows z hc =>
    cases hx
    obtain ⟨f, h, rfl, h4⟩ := returns_ask.mp h3
    rcases f with e | _ | ⟨⟨d⟩⟩
    · obtain ⟨rfl, rfl⟩ := returns_pure.mp h4
      exact .unavailable t p rows x hc e
    · obtain ⟨rfl, rfl⟩ := returns_pure.mp h4
      exact .unestablished t p rows x hc
    rcases returns_await.mp h4 with ⟨e, rfl, rfl⟩ | ⟨o, h, rfl, h5⟩
    · exact .failed (a.found t p rows x d) _ e (.swap t p rows x hc d)
    cases o with
    | applied v => exact recordReconciled_returns hc h5
    | conflict v =>
      obtain ⟨rfl, rfl⟩ := returns_throw.mp h5
      exact .conflict t p rows x hc d v
    | missing =>
      obtain ⟨rfl, rfl⟩ := returns_throw.mp h5
      exact .missing t p rows x hc d
  | _ => cases hx

/-! ## Abandon -/

/-- The path through the swap to `abandoned`, with its outcome. -/
def AbandonArgs.swapped (a : AbandonArgs) (t : UInt64) (p : MandateProjection)
    (rows : List ExecutionAttempt) (o : CasOutcome) : Path :=
  chosenPath a.mandateIdHex t p rows ++
    [did (.mandates (.compareAndSwap a.mandateIdHex a.expectedMandateVersion "abandoned")) o]

inductive AbandonPoint (a : AbandonArgs) : Path → PortCall → Prop
  | clock : AbandonPoint a [] .clock
  | readMandate (t : UInt64) : AbandonPoint a [ticked t] (.store (.mandates (.get a.mandateIdHex)))
  | readAttempts (t : UInt64) (p : MandateProjection) (hp : p.state = "quarantined") :
      AbandonPoint a [ticked t, did (.mandates (.get a.mandateIdHex)) (some p)]
        (.store (.attempts (.byMandate a.mandateIdHex)))
  | swap (t : UInt64) (p : MandateProjection) (rows : List ExecutionAttempt)
      (x : ExecutionAttempt) (hc : Chosen p rows x) :
      AbandonPoint a (chosenPath a.mandateIdHex t p rows)
        (.store (.mandates (.compareAndSwap a.mandateIdHex a.expectedMandateVersion "abandoned")))
  | abandon (t : UInt64) (p : MandateProjection) (rows : List ExecutionAttempt)
      (x : ExecutionAttempt) (hc : Chosen p rows x) (v : Int64) :
      AbandonPoint a (a.swapped t p rows (.applied v))
        (.store (.attempts (.updateState x.attemptIdHex .abandonedAmbiguous)))
  | receipt (t : UInt64) (p : MandateProjection) (rows : List ExecutionAttempt)
      (x : ExecutionAttempt) (hc : Chosen p rows x) (v : Int64) :
      AbandonPoint a (a.swapped t p rows (.applied v) ++
          [did (.attempts (.updateState x.attemptIdHex .abandonedAmbiguous)) ()])
        (.store (.receipts (.insert (a.receipt t.toInt64 x))))
  | audit (t : UInt64) (p : MandateProjection) (rows : List ExecutionAttempt)
      (x : ExecutionAttempt) (hc : Chosen p rows x) (v : Int64) :
      AbandonPoint a (a.swapped t p rows (.applied v) ++
          [did (.attempts (.updateState x.attemptIdHex .abandonedAmbiguous)) (),
            did (.receipts (.insert (a.receipt t.toInt64 x))) ()])
        (.store (.audit (.append (a.abandonedEvent t.toInt64 x.attemptIdHex))))

inductive AbandonResult (a : AbandonArgs) :
    Path → Except ReconciliationError ReconciliationOutcome → Prop
  | unauthorized (ha : trimIsEmpty a.executorIdentity) :
      AbandonResult a [] (.error (.unauthorizedExecutor a.executorIdentity))
  | noReason (ha : trimIsEmpty a.reason) :
      AbandonResult a []
        (.error (.providerUnavailable "an explicit abandonment reason is required"))
  | refused (t : UInt64) {h : Path} {e : ReconciliationError}
      (hr : ChoiceResult .notQuarantined a.mandateIdHex h (.error e)) :
      AbandonResult a (ticked t :: h) (.error e)
  | failed (h : Path) (sc : StoreCall) (e : StorageError) (hp : AbandonPoint a h (.store sc)) :
      AbandonResult a (h ++ [⟨.store sc, .error e⟩]) (.error (.storage e))
  | conflict (t : UInt64) (p : MandateProjection) (rows : List ExecutionAttempt)
      (x : ExecutionAttempt) (hc : Chosen p rows x) (v : Int64) :
      AbandonResult a (a.swapped t p rows (.conflict v)) (.error (.casConflict v))
  | missing (t : UInt64) (p : MandateProjection) (rows : List ExecutionAttempt)
      (x : ExecutionAttempt) (hc : Chosen p rows x) :
      AbandonResult a (a.swapped t p rows .missing) (.error (.mandateNotFound a.mandateIdHex))
  | abandoned (t : UInt64) (p : MandateProjection) (rows : List ExecutionAttempt)
      (x : ExecutionAttempt) (hc : Chosen p rows x) (v : Int64) :
      AbandonResult a (a.swapped t p rows (.applied v) ++
          [did (.attempts (.updateState x.attemptIdHex .abandonedAmbiguous)) (),
            did (.receipts (.insert (a.receipt t.toInt64 x))) (),
            did (.audit (.append (a.abandonedEvent t.toInt64 x.attemptIdHex))) ()])
        (.ok (.abandonedAmbiguous a.mandateIdHex x.attemptIdHex v))

theorem abandonUnresolved_next {a : AbandonArgs} {h : Path} {op : PortCall}
    (hn : Next (abandonUnresolved a).run h op) : AbandonPoint a h op := by
  unfold abandonUnresolved at hn
  by_cases ha : trimIsEmpty a.executorIdentity
  · rw [if_pos ha] at hn
    exact absurd hn next_throw
  rw [if_neg ha] at hn
  by_cases hb : trimIsEmpty a.reason
  · rw [if_pos hb] at hn
    exact absurd hn next_throw
  rw [if_neg hb] at hn
  rcases next_nowSeconds.mp hn with ⟨rfl, rfl⟩ | ⟨t, h, rfl, h1⟩
  · exact .clock
  rcases next_seq h1 with h2 | ⟨h₁, h₂, x, rfl, h2, h3⟩
  · rcases quarantinedAttempt_next h2 with ⟨rfl, rfl⟩ | ⟨p, hp, rfl, rfl⟩
    · exact .readMandate t
    · exact .readAttempts t p hp
  generalize hx : (Except.ok x : Except ReconciliationError ExecutionAttempt) = r at h2
  cases quarantinedAttempt_returns h2 with
  | chosen p rows y hc =>
    cases hx
    rcases next_await.mp h3 with ⟨rfl, rfl⟩ | ⟨o, h, rfl, h4⟩
    · exact .swap t p rows x hc
    cases o with
    | applied v =>
      rcases next_await.mp h4 with ⟨rfl, rfl⟩ | ⟨_, h, rfl, h5⟩
      · exact .abandon t p rows x hc v
      rcases next_await.mp h5 with ⟨rfl, rfl⟩ | ⟨_, h, rfl, h6⟩
      · exact .receipt t p rows x hc v
      rcases next_await.mp h6 with ⟨rfl, rfl⟩ | ⟨_, h, rfl, h7⟩
      · exact .audit t p rows x hc v
      · exact absurd h7 next_pure
    | conflict v => exact absurd h4 next_throw
    | missing => exact absurd h4 next_throw
  | _ => cases hx

theorem abandonUnresolved_returns {a : AbandonArgs} {h : Path}
    {r : Except ReconciliationError ReconciliationOutcome}
    (hr : Returns (abandonUnresolved a).run h r) : AbandonResult a h r := by
  unfold abandonUnresolved at hr
  by_cases ha : trimIsEmpty a.executorIdentity
  · rw [if_pos ha] at hr
    obtain ⟨rfl, rfl⟩ := returns_throw.mp hr
    exact .unauthorized ha
  rw [if_neg ha] at hr
  by_cases hb : trimIsEmpty a.reason
  · rw [if_pos hb] at hr
    obtain ⟨rfl, rfl⟩ := returns_throw.mp hr
    exact .noReason hb
  rw [if_neg hb] at hr
  obtain ⟨t, h, rfl, h1⟩ := returns_nowSeconds.mp hr
  rcases returns_seq h1 with ⟨e, h2, rfl⟩ | ⟨h₁, h₂, x, rfl, h2, h3⟩
  · exact .refused t (quarantinedAttempt_returns h2)
  generalize hx : (Except.ok x : Except ReconciliationError ExecutionAttempt) = y at h2
  cases quarantinedAttempt_returns h2 with
  | chosen p rows z hc =>
    cases hx
    rcases returns_await.mp h3 with ⟨e, rfl, rfl⟩ | ⟨o, h, rfl, h4⟩
    · exact .failed (chosenPath a.mandateIdHex t p rows) _ e (.swap t p rows x hc)
    cases o with
    | applied v =>
      rcases returns_await.mp h4 with ⟨e, rfl, rfl⟩ | ⟨_, h, rfl, h5⟩
      · exact .failed (a.swapped t p rows _) _ e (.abandon t p rows x hc v)
      rcases returns_await.mp h5 with ⟨e, rfl, rfl⟩ | ⟨_, h, rfl, h6⟩
      · exact .failed (a.swapped t p rows _ ++ [_]) _ e (.receipt t p rows x hc v)
      rcases returns_await.mp h6 with ⟨e, rfl, rfl⟩ | ⟨_, h, rfl, h7⟩
      · exact .failed (a.swapped t p rows _ ++ [_, _]) _ e (.audit t p rows x hc v)
      obtain ⟨rfl, rfl⟩ := returns_pure.mp h7
      exact .abandoned t p rows x hc v
    | conflict v =>
      obtain ⟨rfl, rfl⟩ := returns_throw.mp h4
      exact .conflict t p rows x hc v
    | missing =>
      obtain ⟨rfl, rfl⟩ := returns_throw.mp h4
      exact .missing t p rows x hc
  | _ => cases hx

end Piteka.Application
