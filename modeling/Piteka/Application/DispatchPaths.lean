import Piteka.Application.Dispatch
import Piteka.Storage.Paths

/-!
# Where a dispatch caller stands

Each point of `reserve`, `completeDispatch` and `reserveAndDispatch`: the answered
calls so far and the call that comes next. A caller reaches its later calls only
through the success of the earlier ones, and the points say which.
-/
namespace Piteka.Application

set_option autoImplicit false

open Piteka.Interleaving Piteka.Interleaving.Program Piteka.Storage

namespace ReserveArgs

/-- The path through the reservation swap, with its outcome. -/
def swapped (a : ReserveArgs) (t : UInt64) (q : ActionRequest) (o : CasOutcome) : Path :=
  [ticked t, did (.requests (.get a.requestId)) (some q),
    did (.mandates (.compareAndSwap a.mandateIdHex a.expectedMandateVersion "reserved")) o]

/-- The complete path of a reservation that is granted. -/
def granted (a : ReserveArgs) (t : UInt64) (q : ActionRequest) (v : Int64) : Path :=
  a.swapped t q (.applied v) ++
    [did (.attempts (.insert (a.attempt t.toInt64))) (),
      did (.attempts (.updateState (attemptIdOf a.mandateIdHex) .dispatching)) (),
      did (.audit (.append (a.grantedEvent t.toInt64))) ()]

section
variable {a : ReserveArgs} {t : UInt64} {q : ActionRequest} {v : Int64}

theorem read_mem_granted : did (.requests (.get a.requestId)) (some q) ∈ a.granted t q v := by
  simp [granted, swapped]

theorem reserved_mem_granted :
    did (.mandates (.compareAndSwap a.mandateIdHex a.expectedMandateVersion "reserved"))
      (.applied v) ∈ a.granted t q v := by
  simp [granted, swapped]

theorem inserted_mem_granted :
    did (.attempts (.insert (a.attempt t.toInt64))) () ∈ a.granted t q v := by
  simp [granted, swapped]

end

end ReserveArgs

inductive ReservePoint (a : ReserveArgs) : Path → PortCall → Prop
  | clock : ReservePoint a [] .clock
  | readRequest (t : UInt64) :
      ReservePoint a [ticked t] (.store (.requests (.get a.requestId)))
  | swap (t : UInt64) (q : ActionRequest) (hq : q.status = .approved) :
      ReservePoint a [ticked t, did (.requests (.get a.requestId)) (some q)]
        (.store (.mandates (.compareAndSwap a.mandateIdHex a.expectedMandateVersion "reserved")))
  | insert (t : UInt64) (q : ActionRequest) (hq : q.status = .approved) (v : Int64) :
      ReservePoint a (a.swapped t q (.applied v))
        (.store (.attempts (.insert (a.attempt t.toInt64))))
  | dispatching (t : UInt64) (q : ActionRequest) (hq : q.status = .approved) (v : Int64) :
      ReservePoint a
        (a.swapped t q (.applied v) ++ [did (.attempts (.insert (a.attempt t.toInt64))) ()])
        (.store (.attempts (.updateState (attemptIdOf a.mandateIdHex) .dispatching)))
  | audit (t : UInt64) (q : ActionRequest) (hq : q.status = .approved) (v : Int64) :
      ReservePoint a
        (a.swapped t q (.applied v) ++ [did (.attempts (.insert (a.attempt t.toInt64))) (),
          did (.attempts (.updateState (attemptIdOf a.mandateIdHex) .dispatching)) ()])
        (.store (.audit (.append (a.grantedEvent t.toInt64))))
  | readMandate (t : UInt64) (q : ActionRequest) (hq : q.status = .approved) (v : Int64) :
      ReservePoint a (a.swapped t q (.conflict v)) (.store (.mandates (.get a.mandateIdHex)))
  | replay (t : UInt64) (q : ActionRequest) (hq : q.status = .approved) (v : Int64)
      (p : MandateProjection) (hp : isSpentState p.state) :
      ReservePoint a
        (a.swapped t q (.conflict v) ++ [did (.mandates (.get a.mandateIdHex)) (some p)])
        (.store (.audit (.append (a.replayEvent t.toInt64 p.state))))

theorem reserve_next {a : ReserveArgs} {h : Path} {op : PortCall}
    (hn : Next (reserve a).run h op) : ReservePoint a h op := by
  rcases next_nowSeconds.mp hn with ⟨rfl, rfl⟩ | ⟨t, h, rfl, h1⟩
  · exact .clock
  rcases next_await.mp h1 with ⟨rfl, rfl⟩ | ⟨x, h, rfl, h2⟩
  · exact .readRequest t
  cases x with
  | none => exact absurd h2 next_throw
  | some q =>
    by_cases hq : q.status = .approved
    · simp only [hq, ne_eq, not_true_eq_false, if_false] at h2
      rcases next_await.mp h2 with ⟨rfl, rfl⟩ | ⟨o, h, rfl, h3⟩
      · exact .swap t q hq
      cases o with
      | missing => exact absurd h3 next_throw
      | applied v =>
        rcases next_await.mp h3 with ⟨rfl, rfl⟩ | ⟨_, h, rfl, h4⟩
        · exact .insert t q hq v
        rcases next_await.mp h4 with ⟨rfl, rfl⟩ | ⟨_, h, rfl, h5⟩
        · exact .dispatching t q hq v
        rcases next_await.mp h5 with ⟨rfl, rfl⟩ | ⟨_, h, rfl, h6⟩
        · exact .audit t q hq v
        · exact absurd h6 next_pure
      | conflict v =>
        rcases next_await.mp h3 with ⟨rfl, rfl⟩ | ⟨y, h, rfl, h4⟩
        · exact .readMandate t q hq v
        cases y with
        | none => exact absurd h4 next_pure
        | some p =>
          by_cases hp : isSpentState p.state
          · simp only [hp, if_true] at h4
            rcases next_await.mp h4 with ⟨rfl, rfl⟩ | ⟨_, h, rfl, h5⟩
            · exact .replay t q hq v p hp
            · exact absurd h5 next_pure
          · simp only [hp] at h4
            exact absurd h4 next_pure
    · simp only [hq, ne_eq, not_false_eq_true, if_true] at h2
      exact absurd h2 next_throw

/-- How `reserve` returns. A store call that fails ends it at the point it had reached. -/
inductive ReserveResult (a : ReserveArgs) : Path → Except DispatchError DispatchOutcome → Prop
  | failed (h : Path) (c : StoreCall) (e : StorageError) (hp : ReservePoint a h (.store c)) :
      ReserveResult a (h ++ [⟨.store c, .error e⟩]) (.error (.storage e))
  | notFound (t : UInt64) :
      ReserveResult a [ticked t, did (.requests (.get a.requestId)) none]
        (.error (.notFound a.requestId))
  | invalidTransition (t : UInt64) (q : ActionRequest) (hq : q.status ≠ .approved) :
      ReserveResult a [ticked t, did (.requests (.get a.requestId)) (some q)]
        (.error (.invalidTransition q.status))
  | mandateNotFound (t : UInt64) (q : ActionRequest) (hq : q.status = .approved) :
      ReserveResult a (a.swapped t q .missing) (.error (.mandateNotFound a.mandateIdHex))
  | dispatched (t : UInt64) (q : ActionRequest) (hq : q.status = .approved) (v : Int64) :
      ReserveResult a (a.granted t q v) (.ok (.dispatched a.reserved))
  | replayRejected (t : UInt64) (q : ActionRequest) (hq : q.status = .approved) (v : Int64)
      (p : MandateProjection) (hp : isSpentState p.state) :
      ReserveResult a
        (a.swapped t q (.conflict v) ++ [did (.mandates (.get a.mandateIdHex)) (some p),
          did (.audit (.append (a.replayEvent t.toInt64 p.state))) ()])
        (.ok (.replayRejected (a.replayRejection p.state)))
  | reservationFailed (t : UInt64) (q : ActionRequest) (hq : q.status = .approved) (v : Int64)
      (found : Option MandateProjection) (hf : ∀ p ∈ found, ¬ isSpentState p.state) :
      ReserveResult a
        (a.swapped t q (.conflict v) ++ [did (.mandates (.get a.mandateIdHex)) found])
        (.ok (.reservationFailed ⟨a.mandateIdHex, v⟩))

theorem reserve_returns {a : ReserveArgs} {h : Path} {r : Except DispatchError DispatchOutcome}
    (hr : Returns (reserve a).run h r) : ReserveResult a h r := by
  obtain ⟨t, h, rfl, h1⟩ := returns_nowSeconds.mp hr
  rcases returns_await.mp h1 with ⟨e, rfl, rfl⟩ | ⟨x, h, rfl, h2⟩
  · exact .failed [ticked t] _ e (.readRequest t)
  cases x with
  | none =>
    obtain ⟨rfl, rfl⟩ := returns_throw.mp h2
    exact .notFound t
  | some q =>
    by_cases hq : q.status = .approved
    · simp only [hq, ne_eq, not_true_eq_false, if_false] at h2
      rcases returns_await.mp h2 with ⟨e, rfl, rfl⟩ | ⟨o, h, rfl, h3⟩
      · exact .failed [ticked t, _] _ e (.swap t q hq)
      cases o with
      | missing =>
        obtain ⟨rfl, rfl⟩ := returns_throw.mp h3
        exact .mandateNotFound t q hq
      | applied v =>
        rcases returns_await.mp h3 with ⟨e, rfl, rfl⟩ | ⟨_, h, rfl, h4⟩
        · exact .failed (a.swapped t q _) _ e (.insert t q hq v)
        rcases returns_await.mp h4 with ⟨e, rfl, rfl⟩ | ⟨_, h, rfl, h5⟩
        · exact .failed (a.swapped t q _ ++ [_]) _ e (.dispatching t q hq v)
        rcases returns_await.mp h5 with ⟨e, rfl, rfl⟩ | ⟨_, h, rfl, h6⟩
        · exact .failed (a.swapped t q _ ++ [_, _]) _ e (.audit t q hq v)
        obtain ⟨rfl, rfl⟩ := returns_pure.mp h6
        exact .dispatched t q hq v
      | conflict v =>
        rcases returns_await.mp h3 with ⟨e, rfl, rfl⟩ | ⟨y, h, rfl, h4⟩
        · exact .failed (a.swapped t q _) _ e (.readMandate t q hq v)
        cases y with
        | none =>
          obtain ⟨rfl, rfl⟩ := returns_pure.mp h4
          exact .reservationFailed t q hq v none (by simp)
        | some p =>
          by_cases hp : isSpentState p.state
          · simp only [hp, if_true] at h4
            rcases returns_await.mp h4 with ⟨e, rfl, rfl⟩ | ⟨_, h, rfl, h5⟩
            · exact .failed (a.swapped t q _ ++ [_]) _ e (.replay t q hq v p hp)
            obtain ⟨rfl, rfl⟩ := returns_pure.mp h5
            exact .replayRejected t q hq v p hp
          · simp only [hp] at h4
            obtain ⟨rfl, rfl⟩ := returns_pure.mp h4
            exact .reservationFailed t q hq v (some p) (by simpa using hp)
    · simp only [hq, ne_eq, not_false_eq_true, if_true] at h2
      obtain ⟨rfl, rfl⟩ := returns_throw.mp h2
      exact .invalidTransition t q hq

/-! ## Completion -/

namespace CompleteArgs

/-- The path through the swap to `consumed`, with its outcome. -/
def acceptedPath (c : CompleteArgs) (t : UInt64) (d : UInt64) (o : CasOutcome) : Path :=
  [ticked t, did (.attempts (.updateState c.attemptIdHex .accepted)) (),
    did (.attempts (.updateDeploymentId c.attemptIdHex d)) (),
    did (.mandates (.compareAndSwap c.mandateIdHex c.expectedMandateVersion "consumed")) o]

/-- The path through the swap to `quarantined`, with its outcome. -/
def ambiguousPath (c : CompleteArgs) (t : UInt64) (o : CasOutcome) : Path :=
  [ticked t, did (.attempts (.updateState c.attemptIdHex .outcomeAmbiguous)) (),
    did (.mandates (.compareAndSwap c.mandateIdHex c.expectedMandateVersion "quarantined")) o]

/-- What a completion returns once the ambiguity is on record. -/
def ambiguityReported (c : CompleteArgs) : Except DispatchError Unit :=
  if c.missingDeploymentId then
    .error (.invalidProviderResponse
      "accepted GitHub deployment response did not include a deployment ID")
  else .ok ()

theorem not_missing_of_accepted {c : CompleteArgs} {d : UInt64}
    (hd : c.acceptedDeployment = some d) : c.missingDeploymentId = false := by
  unfold acceptedDeployment at hd
  by_contra hm
  simp [hm] at hd

end CompleteArgs

inductive CompletePoint (c : CompleteArgs) : Path → PortCall → Prop
  | clock : CompletePoint c [] .clock
  | accepted (t d : UInt64) (hd : c.acceptedDeployment = some d) :
      CompletePoint c [ticked t] (.store (.attempts (.updateState c.attemptIdHex .accepted)))
  | deployment (t d : UInt64) (hd : c.acceptedDeployment = some d) :
      CompletePoint c [ticked t, did (.attempts (.updateState c.attemptIdHex .accepted)) ()]
        (.store (.attempts (.updateDeploymentId c.attemptIdHex d)))
  | consume (t d : UInt64) (hd : c.acceptedDeployment = some d) :
      CompletePoint c [ticked t, did (.attempts (.updateState c.attemptIdHex .accepted)) (),
          did (.attempts (.updateDeploymentId c.attemptIdHex d)) ()]
        (.store (.mandates (.compareAndSwap c.mandateIdHex c.expectedMandateVersion "consumed")))
  | consumeAudit (t d : UInt64) (hd : c.acceptedDeployment = some d) (v : Int64) :
      CompletePoint c (c.acceptedPath t d (.applied v))
        (.store (.audit (.append (c.consumeEvent t.toInt64))))
  | ambiguous (t : UInt64) (hd : c.acceptedDeployment = none) :
      CompletePoint c [ticked t]
        (.store (.attempts (.updateState c.attemptIdHex .outcomeAmbiguous)))
  | quarantine (t : UInt64) (hd : c.acceptedDeployment = none) :
      CompletePoint c
        [ticked t, did (.attempts (.updateState c.attemptIdHex .outcomeAmbiguous)) ()]
        (.store
          (.mandates (.compareAndSwap c.mandateIdHex c.expectedMandateVersion "quarantined")))
  | quarantineAudit (t : UInt64) (hd : c.acceptedDeployment = none) (v : Int64) :
      CompletePoint c (c.ambiguousPath t (.applied v))
        (.store (.audit (.append (c.quarantineEvent t.toInt64))))

inductive CompleteResult (c : CompleteArgs) : Path → Except DispatchError Unit → Prop
  | failed (h : Path) (sc : StoreCall) (e : StorageError) (hp : CompletePoint c h (.store sc)) :
      CompleteResult c (h ++ [⟨.store sc, .error e⟩]) (.error (.storage e))
  | consumed (t d : UInt64) (hd : c.acceptedDeployment = some d) (v : Int64) :
      CompleteResult c
        (c.acceptedPath t d (.applied v) ++
          [did (.audit (.append (c.consumeEvent t.toInt64))) ()]) (.ok ())
  | alreadyConsumed (t d : UInt64) (hd : c.acceptedDeployment = some d) (v : Int64) :
      CompleteResult c (c.acceptedPath t d (.conflict v)) (.error (.alreadyConsumed c.mandateIdHex))
  | consumedMissing (t d : UInt64) (hd : c.acceptedDeployment = some d) :
      CompleteResult c (c.acceptedPath t d .missing) (.error (.mandateNotFound c.mandateIdHex))
  | quarantined (t : UInt64) (hd : c.acceptedDeployment = none) (v : Int64) :
      CompleteResult c
        (c.ambiguousPath t (.applied v) ++
          [did (.audit (.append (c.quarantineEvent t.toInt64))) ()]) c.ambiguityReported
  | swallowed (t : UInt64) (hd : c.acceptedDeployment = none) (v : Int64) :
      CompleteResult c (c.ambiguousPath t (.conflict v)) c.ambiguityReported
  | quarantineMissing (t : UInt64) (hd : c.acceptedDeployment = none) :
      CompleteResult c (c.ambiguousPath t .missing) (.error (.mandateNotFound c.mandateIdHex))

theorem recordAcceptance_next {c : CompleteArgs} {t d : UInt64} {h : Path} {op : PortCall}
    (hd : c.acceptedDeployment = some d)
    (hn : Next (recordAcceptance c t.toInt64 d).run h op) : CompletePoint c (ticked t :: h) op := by
  rcases next_await.mp hn with ⟨rfl, rfl⟩ | ⟨_, h, rfl, h1⟩
  · exact .accepted t d hd
  rcases next_await.mp h1 with ⟨rfl, rfl⟩ | ⟨_, h, rfl, h2⟩
  · exact .deployment t d hd
  rcases next_await.mp h2 with ⟨rfl, rfl⟩ | ⟨o, h, rfl, h3⟩
  · exact .consume t d hd
  cases o with
  | applied v =>
    obtain ⟨rfl, rfl⟩ := next_await_last.mp h3
    exact .consumeAudit t d hd v
  | conflict v => exact absurd h3 next_throw
  | missing => exact absurd h3 next_throw

theorem recordAmbiguity_next {c : CompleteArgs} {t : UInt64} {h : Path} {op : PortCall}
    (hd : c.acceptedDeployment = none)
    (hn : Next (recordAmbiguity c t.toInt64).run h op) : CompletePoint c (ticked t :: h) op := by
  rcases next_await.mp hn with ⟨rfl, rfl⟩ | ⟨_, h, rfl, h1⟩
  · exact .ambiguous t hd
  rcases next_await.mp h1 with ⟨rfl, rfl⟩ | ⟨o, h, rfl, h2⟩
  · exact .quarantine t hd
  cases o with
  | applied v =>
    obtain ⟨rfl, rfl⟩ := next_await_last.mp h2
    exact .quarantineAudit t hd v
  | conflict v => exact absurd h2 next_pure
  | missing => exact absurd h2 next_throw

theorem recordAcceptance_returns {c : CompleteArgs} {t d : UInt64} {h : Path}
    {r : Except DispatchError Unit} (hd : c.acceptedDeployment = some d)
    (hr : Returns (recordAcceptance c t.toInt64 d).run h r) :
    CompleteResult c (ticked t :: h) r := by
  have hm : c.ambiguityReported = .ok () := by
    rw [CompleteArgs.ambiguityReported, CompleteArgs.not_missing_of_accepted hd]
    rfl
  rcases returns_await.mp hr with ⟨e, rfl, rfl⟩ | ⟨_, h, rfl, h1⟩
  · exact .failed [ticked t] _ e (.accepted t d hd)
  rcases returns_await.mp h1 with ⟨e, rfl, rfl⟩ | ⟨_, h, rfl, h2⟩
  · exact .failed [ticked t, _] _ e (.deployment t d hd)
  rcases returns_await.mp h2 with ⟨e, rfl, rfl⟩ | ⟨o, h, rfl, h3⟩
  · exact .failed [ticked t, _, _] _ e (.consume t d hd)
  cases o with
  | applied v =>
    rcases returns_await_last.mp h3 with ⟨e, rfl, rfl⟩ | ⟨_, rfl, rfl⟩
    · exact .failed (c.acceptedPath t d _) _ e (.consumeAudit t d hd v)
    · exact .consumed t d hd v
  | conflict v =>
    obtain ⟨rfl, rfl⟩ := returns_throw.mp h3
    exact .alreadyConsumed t d hd v
  | missing =>
    obtain ⟨rfl, rfl⟩ := returns_throw.mp h3
    exact .consumedMissing t d hd

theorem reportMissing_next {c : CompleteArgs} {h : Path} {op : PortCall} :
    ¬ Next (reportMissing c).run h op := by
  unfold reportMissing
  split
  · exact next_throw
  · exact next_pure

theorem reportMissing_returns {c : CompleteArgs} {h : Path} {r : Except DispatchError Unit} :
    Returns (reportMissing c).run h r ↔ h = [] ∧ r = c.ambiguityReported := by
  unfold reportMissing CompleteArgs.ambiguityReported
  split
  · exact returns_throw
  · exact returns_pure

theorem completeDispatch_next {c : CompleteArgs} {h : Path} {op : PortCall}
    (hn : Next (completeDispatch c).run h op) : CompletePoint c h op := by
  rcases next_nowSeconds.mp hn with ⟨rfl, rfl⟩ | ⟨t, h, rfl, h1⟩
  · exact .clock
  cases hd : c.acceptedDeployment with
  | some d =>
    simp only [hd] at h1
    rcases next_seq h1 with h2 | ⟨_, _, _, rfl, _, h2⟩
    · exact recordAcceptance_next hd h2
    · exact absurd h2 reportMissing_next
  | none =>
    simp only [hd] at h1
    rcases next_seq h1 with h2 | ⟨_, _, _, rfl, _, h2⟩
    · exact recordAmbiguity_next hd h2
    · exact absurd h2 reportMissing_next

/-- A path through the ambiguous branch, with what `reportMissing` makes of it. -/
theorem recordAmbiguity_returns {c : CompleteArgs} {t : UInt64} {h : Path}
    {r : Except DispatchError Unit} (hd : c.acceptedDeployment = none)
    (hr : Returns (recordAmbiguity c t.toInt64).run h r) :
    CompleteResult c (ticked t :: h) (r.bind fun _ => c.ambiguityReported) := by
  rcases returns_await.mp hr with ⟨e, rfl, rfl⟩ | ⟨_, h, rfl, h1⟩
  · exact .failed [ticked t] _ e (.ambiguous t hd)
  rcases returns_await.mp h1 with ⟨e, rfl, rfl⟩ | ⟨o, h, rfl, h2⟩
  · exact .failed [ticked t, _] _ e (.quarantine t hd)
  cases o with
  | applied v =>
    rcases returns_await_last.mp h2 with ⟨e, rfl, rfl⟩ | ⟨_, rfl, rfl⟩
    · exact .failed (c.ambiguousPath t _) _ e (.quarantineAudit t hd v)
    · exact .quarantined t hd v
  | conflict v =>
    obtain ⟨rfl, rfl⟩ := returns_pure.mp h2
    exact .swallowed t hd v
  | missing =>
    obtain ⟨rfl, rfl⟩ := returns_throw.mp h2
    exact .quarantineMissing t hd

theorem completeDispatch_returns {c : CompleteArgs} {h : Path} {r : Except DispatchError Unit}
    (hr : Returns (completeDispatch c).run h r) : CompleteResult c h r := by
  obtain ⟨t, h, rfl, h1⟩ := returns_nowSeconds.mp hr
  cases hd : c.acceptedDeployment with
  | some d =>
    simp only [hd] at h1
    rcases returns_seq h1 with ⟨e, h2, rfl⟩ | ⟨h₁, h₂, _, rfl, h2, h3⟩
    · exact recordAcceptance_returns hd h2
    · obtain ⟨rfl, rfl⟩ := reportMissing_returns.mp h3
      rw [List.append_nil, CompleteArgs.ambiguityReported,
        CompleteArgs.not_missing_of_accepted hd]
      exact recordAcceptance_returns hd h2
  | none =>
    simp only [hd] at h1
    rcases returns_seq h1 with ⟨e, h2, rfl⟩ | ⟨h₁, h₂, _, rfl, h2, h3⟩
    · exact recordAmbiguity_returns hd h2
    · obtain ⟨rfl, rfl⟩ := reportMissing_returns.mp h3
      rw [List.append_nil]
      exact recordAmbiguity_returns hd h2

/-! ## Reservation and dispatch -/

/-- The completion accepts exactly the id that the provider named. -/
@[simp] theorem ReserveArgs.completion_accepted (a : ReserveArgs) (d : Option UInt64) :
    (a.completion d).acceptedDeployment = d := by
  cases d <;> rfl

/-- The completion of a dispatch never lacks the id of an acceptance. -/
@[simp] theorem ReserveArgs.completion_reported (a : ReserveArgs) (d : Option UInt64) :
    (a.completion d).ambiguityReported = .ok () := by
  cases d <;> rfl

/-- The provider call that follows a granted reservation. -/
def ReserveArgs.dispatchCall (rt : Runtime) (a : ReserveArgs) : PortCall :=
  .dispatchFn a.correlationKey
    (computeAttemptDigest rt (attemptIdOf a.mandateIdHex) a.mandateIdHex a.intentIdHex)

/-- The path through the provider call, with its answer. -/
def ReserveArgs.invoked (rt : Runtime) (a : ReserveArgs) (t : UInt64) (q : ActionRequest)
    (v : Int64) (d : Option UInt64) : Path :=
  a.granted t q v ++ [⟨a.dispatchCall rt, d⟩]

inductive DispatchPoint (rt : Runtime) (a : ReserveArgs) : Path → PortCall → Prop
  | reserve {h : Path} {op : PortCall} (hp : ReservePoint a h op) : DispatchPoint rt a h op
  | dispatch (t : UInt64) (q : ActionRequest) (hq : q.status = .approved) (v : Int64) :
      DispatchPoint rt a (a.granted t q v) (a.dispatchCall rt)
  | complete (t : UInt64) (q : ActionRequest) (hq : q.status = .approved) (v : Int64)
      (d : Option UInt64) {h : Path} {op : PortCall} (hp : CompletePoint (a.completion d) h op) :
      DispatchPoint rt a (a.invoked rt t q v d ++ h) op

/-- What `reserveAndDispatch` returns after a completion that succeeded. -/
def ReserveArgs.answered (a : ReserveArgs) : Option UInt64 → DispatchOutcome
  | some d => .dispatched { a.reserved with providerAccepted := true, githubDeploymentId := some d }
  | none => .dispatchFailed a.mandateIdHex (attemptIdOf a.mandateIdHex) "provider rejected or timeout"

inductive DispatchResult (rt : Runtime) (a : ReserveArgs) :
    Path → Except DispatchError DispatchOutcome → Prop
  | refused {h : Path} {r : Except DispatchError DispatchOutcome} (hr : ReserveResult a h r)
      (hd : r ≠ .ok (.dispatched a.reserved)) : DispatchResult rt a h r
  | failed (t : UInt64) (q : ActionRequest) (hq : q.status = .approved) (v : Int64)
      (d : Option UInt64) {h : Path} {e : DispatchError}
      (hr : CompleteResult (a.completion d) h (.error e)) :
      DispatchResult rt a (a.invoked rt t q v d ++ h) (.error e)
  | completed (t : UInt64) (q : ActionRequest) (hq : q.status = .approved) (v : Int64)
      (d : Option UInt64) {h : Path} (hr : CompleteResult (a.completion d) h (.ok ())) :
      DispatchResult rt a (a.invoked rt t q v d ++ h) (.ok (a.answered d))

theorem reserve_returns_dispatched {a : ReserveArgs} {h : Path} {x : Dispatched}
    (hr : Returns (reserve a).run h (.ok (.dispatched x))) :
    x = a.reserved ∧ ∃ t q v, q.status = .approved ∧ h = a.granted t q v := by
  generalize hx : (Except.ok (.dispatched x) : Except DispatchError DispatchOutcome) = r at hr
  cases reserve_returns hr with
  | dispatched t q hq v =>
    cases hx
    exact ⟨rfl, t, q, v, hq, rfl⟩
  | _ => cases hx

theorem reserveAndDispatch_next {rt : Runtime} {a : ReserveArgs} {h : Path} {op : PortCall}
    (hn : Next (reserveAndDispatch rt a).run h op) : DispatchPoint rt a h op := by
  rcases next_seq hn with h1 | ⟨h₁, h₂, o, rfl, h1, h2⟩
  · exact .reserve (reserve_next h1)
  cases o with
  | replayRejected r => exact absurd h2 next_pure
  | reservationFailed f => exact absurd h2 next_pure
  | dispatchFailed m t e => exact absurd h2 next_pure
  | dispatched x =>
    obtain ⟨rfl, t, q, v, hq, rfl⟩ := reserve_returns_dispatched h1
    rcases next_ask.mp h2 with ⟨rfl, rfl⟩ | ⟨d, h, rfl, h3⟩
    · rw [List.append_nil]
      exact .dispatch t q hq v
    rw [← List.singleton_append, ← List.append_assoc]
    cases d with
    | some d =>
      rcases next_seq h3 with h4 | ⟨_, _, _, rfl, _, h4⟩
      · exact .complete t q hq v (some d) (completeDispatch_next h4)
      · exact absurd h4 next_pure
    | none =>
      rcases next_seq h3 with h4 | ⟨_, _, _, rfl, _, h4⟩
      · exact .complete t q hq v none (completeDispatch_next h4)
      · exact absurd h4 next_pure

theorem reserveAndDispatch_returns {rt : Runtime} {a : ReserveArgs} {h : Path}
    {r : Except DispatchError DispatchOutcome}
    (hr : Returns (reserveAndDispatch rt a).run h r) : DispatchResult rt a h r := by
  rcases returns_seq hr with ⟨e, h1, rfl⟩ | ⟨h₁, h₂, o, rfl, h1, h2⟩
  · exact .refused (reserve_returns h1) (by simp)
  cases o with
  | replayRejected x =>
    obtain ⟨rfl, rfl⟩ := returns_pure.mp h2
    rw [List.append_nil]
    exact .refused (reserve_returns h1) (by simp)
  | reservationFailed x =>
    obtain ⟨rfl, rfl⟩ := returns_pure.mp h2
    rw [List.append_nil]
    exact .refused (reserve_returns h1) (by simp)
  | dispatchFailed m t e =>
    obtain ⟨rfl, rfl⟩ := returns_pure.mp h2
    rw [List.append_nil]
    exact .refused (reserve_returns h1) (by simp)
  | dispatched x =>
    obtain ⟨rfl, t, q, v, hq, rfl⟩ := reserve_returns_dispatched h1
    obtain ⟨d, h, rfl, h3⟩ := returns_ask.mp h2
    rw [← List.singleton_append, ← List.append_assoc]
    cases d with
    | some d =>
      rcases returns_seq h3 with ⟨e, h4, rfl⟩ | ⟨_, _, _, rfl, h4, h5⟩
      · exact .failed t q hq v (some d) (completeDispatch_returns h4)
      · obtain ⟨rfl, rfl⟩ := returns_pure.mp h5
        rw [List.append_nil]
        exact .completed t q hq v (some d) (completeDispatch_returns h4)
    | none =>
      rcases returns_seq h3 with ⟨e, h4, rfl⟩ | ⟨_, _, _, rfl, h4, h5⟩
      · exact .failed t q hq v none (completeDispatch_returns h4)
      · obtain ⟨rfl, rfl⟩ := returns_pure.mp h5
        rw [List.append_nil]
        exact .completed t q hq v none (completeDispatch_returns h4)

end Piteka.Application
