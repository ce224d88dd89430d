import Piteka.Application.Points
import Piteka.Application.UncontestedProduction
import Piteka.Safety.Deduplication

/-!
# A delivery during its dispatch

The provider can report an outcome before the dispatcher has written the deployment
id to the attempt. The delivery is then on file as seen, its lookup finds no
attempt, and every later post of it is a duplicate: the receipt is lost. It is kept
exactly when the lookup is made in a state in which the deployment is recorded.
-/
namespace Piteka.Safety

set_option autoImplicit false

open Piteka.Interleaving Piteka.Interleaving.Program Piteka.Storage Piteka.Application
open WebhookIngestion

variable {ι : Type}

/-- What the callers return: the dispatcher (`none`) and the posts of one delivery. -/
@[reducible] def Answered? : Option ι → Type
  | none => Except DispatchError DispatchOutcome
  | some _ => Except ApiError WebhookResponse

/-- One dispatch of a mandate, and any number of posts of the delivery `x`. -/
def dispatchAndPosts (cd : Codec) (a : ReserveArgs) (x : GitHubWebhookPayload) :
    (i : Option ι) → Program ServiceCall ServiceAnswer (Answered? i)
  | none => (reserveAndDispatch cd.toRuntime a).run.lift
  | some _ => handleWebhook cd (process cd) x

/-- An attempt records the deployment `d`. -/
def Recorded (d : UInt64) (s : Stores) : Prop :=
  ∃ k y, s.attempt k = some y ∧ y.githubDeploymentId = some d

/-- Nothing is on file of the delivery, its deployment and the attempt to come. -/
structure Undelivered (cd : Codec) (a : ReserveArgs) (x : GitHubWebhookPayload)
    (event : DeploymentStatusEvent) (s : Stores) : Prop where
  noDeployment : ¬ Recorded event.deploymentId s
  noNode : ∀ text ∈ terminalTexts (a.attempt 0), s.evidenceNode (nodeIdOf cd.toRuntime text) = none
  noRow : s.receipt ("rcpt-" ++ attemptIdOf a.mandateIdHex) = none
  unseen : s.webhookReceipt x.deliveryId = none

/-- A receipt without its time stamp. -/
def untimed (q : ReceiptProjection) : ReceiptProjection := { q with createdAtUnixSeconds := 0 }

/-- Up to time stamps, the receipts at the end are those from the start and the one that the
delivery produces for the attempt. -/
def ReceiptKept (cd : Codec) (a : ReserveArgs) (event : DeploymentStatusEvent) (s₀ s : Stores) :
    Prop :=
  ∀ k, (s.receipt k).map untimed =
    if k = "rcpt-" ++ attemptIdOf a.mandateIdHex then some (event.receipt cd (a.attempt 0) 0)
    else (s₀.receipt k).map untimed

variable {cd : Codec} {a : ReserveArgs} {x : GitHubWebhookPayload} {event : DeploymentStatusEvent}

/-! ## The calls of the dispatcher -/

/-- What is used of the calls of a dispatch that the provider accepted as `d`. -/
structure DispatchCalls (a : ReserveArgs) (d : UInt64) (h : Path) : Prop where
  inserts : ∃ now, did (.attempts (.insert (a.attempt now))) () ∈ h
  inserted : ∀ z, did (.attempts (.insert z)) () ∈ h → ∃ now, z = a.attempt now
  deployments : ∀ k d', did (.attempts (.updateDeploymentId k d')) () ∈ h →
    k = attemptIdOf a.mandateIdHex
  quiet : ∀ c ∈ h, Quiet c ∧ ∀ r, c ≠ recorded r

theorem dispatch_calls {rt : Runtime} {h : Path} {y : Dispatched}
    (hr : Returns (reserveAndDispatch rt a).run h (.ok (.dispatched y))) :
    ∃ d, y.githubDeploymentId = some d ∧ DispatchCalls a d h := by
  generalize ho : (Except.ok (.dispatched y) : Except DispatchError DispatchOutcome) = r at hr
  cases reserveAndDispatch_returns hr with
  | refused hres hd =>
    cases hres with
    | dispatched t q hq v => exact absurd rfl hd
    | _ => cases ho
  | failed => cases ho
  | completed t q hq v d hc =>
    cases d with
    | none => cases ho
    | some d =>
      cases ho
      refine ⟨d, rfl, ?_⟩
      cases hc with
      | consumed t' d' hd' v' =>
        rw [ReserveArgs.completion_accepted] at hd'
        obtain rfl := Option.some.inj hd'
        constructor <;>
          simp [ReserveArgs.invoked, ReserveArgs.granted, ReserveArgs.swapped,
            CompleteArgs.acceptedPath, Quiet, ReserveArgs.dispatchCall, ReserveArgs.completion]
      | quarantined t' hd' v' =>
        rw [ReserveArgs.completion_accepted] at hd'
        cases hd'
      | swallowed t' hd' v' =>
        rw [ReserveArgs.completion_accepted] at hd'
        cases hd'

section
variable [DecidableEq ι] {s₀ s : Service} {log : List (Entry (Option ι) ServiceAnswer Service)}
  {p : (i : Option ι) → Program ServiceCall ServiceAnswer (Answered? i)}

/-- A run of one dispatch and the posts of one delivery, without faults. -/
abbrev TimedRun (cd : Codec) (a : ReserveArgs) (x : GitHubWebhookPayload) (s₀ : Service)
    (log : List (Entry (Option ι) ServiceAnswer Service)) (s : Service)
    (p : (i : Option ι) → Program ServiceCall ServiceAnswer (Answered? i)) : Prop :=
  Run (ServiceExec cd.toRuntime noFaults) s₀ (dispatchAndPosts cd a x) log s p

/-- The dispatcher has returned what the provider accepted. -/
theorem dispatcher_calls (run : TimedRun cd a x s₀ log s p) {y : Dispatched}
    (hp : p none = .ret (.ok (.dispatched y))) :
    ∃ d, y.githubDeploymentId = some d ∧ DispatchCalls a d (history none (lefts log)) := by
  obtain ⟨h, hh, hr⟩ := returns_lift.mp (run.returns hp)
  obtain ⟨d, hd, hcalls⟩ := dispatch_calls hr
  have hmem : ∀ c, c ∈ history none (lefts log) ↔ c ∈ h := by
    intro c
    rw [mem_history_lefts, hh, onLeft_mem_map]
  refine ⟨d, hd, ⟨?_, ?_, ?_, ?_⟩⟩
  · simpa only [hmem] using hcalls.inserts
  · simpa only [hmem] using hcalls.inserted
  · simpa only [hmem] using hcalls.deployments
  · simpa only [hmem] using hcalls.quiet

/-- A post writes no attempt, so what is written of attempts is written by the dispatcher. -/
theorem attempt_writer (run : TimedRun cd a x s₀ log s p) {e : Event (Option ι)}
    (he : e ∈ lefts log) (hw : WritesAttempt e.call.1) : e.call ∈ history none (lefts log) := by
  cases hi : e.caller with
  | none => exact mem_history.mpr ⟨e, he, hi, rfl⟩
  | some i =>
    obtain ⟨h, hnext⟩ := run.next_of_left he
    rw [hi] at hnext
    exact absurd hw (handleWebhook_writes_no_attempt hnext)

/-! ## The attempt -/

/-- The attempt of the dispatch has its ids, and no other attempt records `d`. -/
def OwnsDeployment (a : ReserveArgs) (d : UInt64) (s : Stores) : Prop :=
  ∀ k z, s.attempt k = some z →
    (k = attemptIdOf a.mandateIdHex →
      z.mandateIdHex = a.mandateIdHex ∧ z.intentIdHex = a.intentIdHex) ∧
    (z.githubDeploymentId = some d → k = attemptIdOf a.mandateIdHex)

theorem owns_step {d : UInt64} {c : Answered} {s s' : Stores}
    (hx : Exec cd.toRuntime noFaults s c.1 c.2 s')
    (inserted : ∀ z, c = did (.attempts (.insert z)) () → ∃ now, z = a.attempt now)
    (deployments : ∀ k d', c = did (.attempts (.updateDeploymentId k d')) () →
      k = attemptIdOf a.mandateIdHex)
    (hs : OwnsDeployment a d s) : OwnsDeployment a d s' := by
  intro k z hz
  cases attempt_step hx k with
  | same h => exact hs k z (h ▸ hz)
  | insert y hi hc hb ha =>
    obtain rfl := Option.some.inj (ha.symm.trans hz)
    obtain ⟨now, rfl⟩ := inserted y hc
    exact ⟨fun _ => ⟨rfl, rfl⟩, fun h => by cases h⟩
  | state y st hc hb ha =>
    obtain rfl := Option.some.inj (ha.symm.trans hz)
    exact hs k y hb
  | deployment y d' hc hb ha =>
    obtain rfl := Option.some.inj (ha.symm.trans hz)
    exact ⟨(hs k y hb).1, fun _ => deployments k d' hc⟩

/-- The attempt was inserted in the run, so it was not there at its start. -/
theorem attempt_absent {k : String} {z : ExecutionAttempt} {s s' : Stores} {log : List (Event ι)}
    (ht : Trace (Exec cd.toRuntime noFaults) s log s') {i : ι}
    (hc : did (.attempts (.insert z)) () ∈ history i log) (hk : z.attemptIdHex = k) :
    s.attempt k = none := by
  obtain ⟨e, he, _, hcall⟩ := mem_history.mp hc
  obtain ⟨l₁, l₂, rfl⟩ := List.append_of_mem he
  have hx := ht.executed e he
  rw [hcall] at hx
  have hnone := (attempt_inserted hx).1
  cases h₀ : s.attempt k with
  | none => rfl
  | some w =>
    have hstays : ∃ w, e.before.attempt k = some w := by
      refine ht.around.1.keeps (Q := fun t => ∃ w, t.attempt k = some w) ?_ ⟨w, h₀⟩
      rintro t op b t' hb ⟨w, hw⟩
      cases attempt_step (c := ⟨op, b⟩) hb k with
      | same h => exact ⟨w, h.trans hw⟩
      | insert y hi hc hbefore ha => exact ⟨y, ha⟩
      | state y st hc hbefore ha => exact ⟨_, ha⟩
      | deployment y d' hc hbefore ha => exact ⟨_, ha⟩
    obtain ⟨w', hw'⟩ := hstays
    rw [hk, hw'] at hnone
    cases hnone

theorem owns_throughout (run : TimedRun cd a x s₀ log s p) {d : UInt64}
    (hcalls : DispatchCalls a d (history none (lefts log)))
    (noDeployment : ¬ Recorded d s₀.1) {e : Event (Option ι)} (he : e ∈ lefts log) :
    OwnsDeployment a d e.before := by
  have ht := run.trace.left
  obtain ⟨now, hins⟩ := hcalls.inserts
  have habsent := attempt_absent ht hins rfl
  have hstart : OwnsDeployment a d s₀.1 := by
    intro k z hz
    refine ⟨?_, fun hd => absurd ⟨k, z, hz, hd⟩ noDeployment⟩
    rintro rfl
    rw [show s₀.1.attempt (attemptIdOf a.mandateIdHex) = none from habsent] at hz
    cases hz
  refine ht.linked.keeps_mem (fun f hf hb => ?_) hstart he
  refine owns_step (ht.executed f hf) (fun z hc => ?_) (fun k d' hc => ?_) hb
  · have hw : WritesAttempt f.call.1 := by
      rw [hc]
      trivial
    exact hcalls.inserted z (hc ▸ attempt_writer run hf hw)
  · have hw : WritesAttempt f.call.1 := by
      rw [hc]
      trivial
    exact hcalls.deployments k d' (hc ▸ attempt_writer run hf hw)

/-! ## The production -/

/-- A post that has been answered is a duplicate, or it was dispatched to the processor. -/
theorem post_handled (run : TimedRun cd a x s₀ log s p) (hx : accepted cd x = .ok event)
    (hterm : isTerminalStatus event.state) {i : ι} {r : Except ApiError WebhookResponse}
    (hp : p (some i) = .ret r) : Handled cd x event (history (some i) log) := by
  refine handled hx hterm (run.returns hp) fun c hc => ?_
  obtain ⟨e, he, _, hcall⟩ := mem_history.mp (mem_history_lefts.mpr hc)
  have hexec := run.trace.left.executed e he
  rw [hcall] at hexec
  exact ⟨e.before, e.after, hexec⟩

/-- One of the posts is dispatched to the processor: where all are duplicates of a delivery that
was unseen, nobody has recorded it. -/
theorem some_dispatched (run : TimedRun cd a x s₀ log s p) (hx : accepted cd x = .ok event)
    (hterm : isTerminalStatus event.state) (unseen : s₀.1.webhookReceipt x.deliveryId = none)
    (hquiet : ∀ c ∈ history none (lefts log), ∀ r, c ≠ recorded r)
    (hdone : ∀ i, ∃ r, p (some i) = .ret r) (i : ι) :
    ∃ j now h r, onLeft (recorded (x.receipt cd.toRuntime now)) ∈ history (some j) log ∧
      ProduceResult cd event h r ∧ (∀ c ∈ h, onLeft c ∈ history (some j) log) ∧
      ∀ c, onLeft c ∈ history (some j) log → c ∈ h ∨ Quiet c := by
  obtain ⟨r, hp⟩ := hdone i
  cases post_handled run hx hterm hp with
  | @dispatched now hrec h r' hr sub rest => exact ⟨i, now, h, r', hrec, hr, sub, rest⟩
  | duplicate hseen quiet =>
    obtain ⟨q, hq⟩ := seen_row (i := some i) run.trace.left (deliveryId_ne_empty hx)
      (by simpa only [mem_history_lefts] using hseen)
    obtain ⟨j, hrec, _⟩ := row_recorder run.trace.left unseen hq
    cases j with
    | none => exact absurd rfl (hquiet _ hrec q)
    | some j =>
      obtain ⟨r', hp'⟩ := hdone j
      cases post_handled run hx hterm hp' with
      | duplicate _ quiet' => exact absurd rfl ((quiet' _ (mem_history_lefts.mp hrec)).2 q)
      | @dispatched now hrec' h r'' hr sub rest => exact ⟨j, now, h, r'', hrec', hr, sub, rest⟩

/-- The posts make one production, which inserts all nodes and receipts and makes all lookups. -/
theorem sole_production (run : TimedRun cd a x s₀ log s p) (hx : accepted cd x = .ok event)
    (hterm : isTerminalStatus event.state) (unseen : s₀.1.webhookReceipt x.deliveryId = none)
    (hquiet : ∀ c ∈ history none (lefts log), Quiet c ∧ ∀ r, c ≠ recorded r)
    (hdone : ∀ i, ∃ r, p (some i) = .ret r) (i : ι) :
    ∃ h r, ProduceResult cd event h r ∧ Uncontested (lefts log) h ∧
      ∀ e ∈ lefts log, ¬ Quiet e.call → e.call ∈ h := by
  obtain ⟨j, now, h, r, hrec, hr, sub, rest⟩ :=
    some_dispatched run hx hterm unseen (fun c hc => (hquiet c hc).2) hdone i
  have own : ∀ c ∈ history (some j) (lefts log), c ∈ h ∨ Quiet c := fun c hc =>
    rest c (mem_history_lefts.mp hc)
  have others : ∀ e ∈ lefts log, e.caller ≠ some j → Quiet e.call := by
    intro e he hne
    have hmem := mem_history.mpr ⟨e, he, rfl, rfl⟩
    cases hi : e.caller with
    | none =>
      rw [hi] at hmem
      exact (hquiet _ hmem).1
    | some k =>
      rw [hi] at hmem hne
      obtain ⟨r', hp⟩ := hdone k
      cases post_handled run hx hterm hp with
      | duplicate _ quiet => exact (quiet _ (mem_history_lefts.mp hmem)).1
      | @dispatched now' hrec' =>
        have honce := recorded_once (run.trace.mono unreliable_of_service)
          x.deliveryId
        refine absurd (caller_unique honce (mem_history_lefts.mpr hrec')
          (mem_history_lefts.mpr hrec) ?_ ?_) hne
        · exact fun e he => ⟨_, rfl, he⟩
        · exact fun e he => ⟨_, rfl, he⟩
  refine ⟨h, r, hr, uncontested_of_caller (fun c hc => mem_history_lefts.mpr (sub c hc)) own others,
    fun e he hnot => ?_⟩
  by_cases hj : e.caller = some j
  · exact (own _ (mem_history.mpr ⟨e, he, hj, rfl⟩)).resolve_right hnot
  · exact absurd (others e he hj) hnot

theorem terminalTexts_congr {y z : ExecutionAttempt} (hm : y.mandateIdHex = z.mandateIdHex)
    (ha : y.attemptIdHex = z.attemptIdHex) : terminalTexts y = terminalTexts z := by
  have hobs : observationPreimage y = observationPreimage z := by
    funext state
    rw [observationPreimage, observationPreimage, hm, ha]
  have hclaim : claimPreimage y = claimPreimage z := by
    funext outcome
    rw [claimPreimage, claimPreimage, hm, ha]
  rw [terminalTexts, terminalTexts, hobs, hclaim]

/-- Up to its time stamp, a terminal receipt depends only on the ids of the attempt. -/
theorem untimed_receipt {y z : ExecutionAttempt} (hterm : isTerminalStatus event.state)
    (hm : y.mandateIdHex = z.mandateIdHex) (hi : y.intentIdHex = z.intentIdHex)
    (ha : y.attemptIdHex = z.attemptIdHex) (now : Int64) :
    untimed (event.receipt cd y now) = event.receipt cd z 0 := by
  have hgap : ∀ w t, event.evidenceGaps cd w t = [] := fun w t =>
    if_neg (outcome_known hterm)
  simp only [untimed, DeploymentStatusEvent.receipt, DeploymentStatusEvent.claimNode,
    DeploymentStatusEvent.observationNode, hgap, hm, hi, ha]
  rfl

/-- A lookup of a recorded deployment finds an attempt with the ids of the dispatched one. -/
theorem lookup_recorded {rt : Runtime} {d : UInt64} {answer : StorageResult (Option ExecutionAttempt)}
    {t t' : Stores} (hx : Exec rt noFaults t (.store (.attempts (.byDeploymentId d))) answer t')
    (owns : OwnsDeployment a d t) (hrec : Recorded d t) :
    ∃ z, answer = .ok (some z) ∧ z.mandateIdHex = a.mandateIdHex ∧
      z.intentIdHex = a.intentIdHex ∧ z.attemptIdHex = attemptIdOf a.mandateIdHex := by
  obtain ⟨_, o, rfl, hsome, hnone⟩ := by_deployment_noFaults hx
  cases o with
  | none =>
    obtain ⟨k, y, hk, hd⟩ := hrec
    exact absurd hd (hnone rfl k y hk)
  | some z =>
    obtain ⟨hz, hd⟩ := hsome z rfl
    have hkey := (owns _ _ hz).2 hd
    obtain ⟨hm, hi⟩ := (owns _ _ hz).1 hkey
    exact ⟨z, rfl, hm, hi, hkey⟩

theorem lookup_unrecorded {rt : Runtime} {d : UInt64}
    {answer : StorageResult (Option ExecutionAttempt)} {t t' : Stores}
    (hx : Exec rt noFaults t (.store (.attempts (.byDeploymentId d))) answer t')
    (hno : ¬ Recorded d t) : answer = .ok none := by
  obtain ⟨_, o, rfl, hsome, _⟩ := by_deployment_noFaults hx
  cases o with
  | none => rfl
  | some z => exact absurd ⟨_, z, hsome z rfl⟩ hno

/-- The lookup was made in a state in which the deployment is recorded. -/
def LookedUpRecorded (d : UInt64) (log : List (Entry (Option ι) ServiceAnswer Service)) : Prop :=
  ∀ e ∈ log, e.call.1 = .inl (.store (.attempts (.byDeploymentId d))) → Recorded d e.before.1

/-- Once a dispatch and all posts of a terminal delivery for its deployment have come to their
ends, the receipts are those that the delivery produces if and only if its lookup was made when
the deployment had been recorded. -/
theorem delivery_kept_iff (run : TimedRun cd a x s₀ log s p) (hx : accepted cd x = .ok event)
    (hterm : isTerminalStatus event.state) (fresh : Undelivered cd a x event s₀.1)
    (free : CollisionFree cd.toRuntime ((terminalTexts (a.attempt 0)).map asBytes))
    {y : Dispatched} (hdispatched : p none = .ret (.ok (.dispatched y)))
    (hid : y.githubDeploymentId = some event.deploymentId)
    (hdone : ∀ i, ∃ r, p (some i) = .ret r) (hpost : Nonempty ι) :
    ReceiptKept cd a event s₀.1 s.1 ↔ LookedUpRecorded event.deploymentId log := by
  have ht := run.trace.left
  obtain ⟨d, hd, hcalls⟩ := dispatcher_calls run hdispatched
  obtain rfl : event.deploymentId = d := Option.some.inj (hid.symm.trans hd)
  obtain ⟨h, r, hr, hu, hlookups⟩ :=
    sole_production run hx hterm fresh.unseen hcalls.quiet hdone hpost.some
  constructor
  · intro kept e he hcall
    by_contra hno
    obtain ⟨i, ⟨op, answer⟩, t, t'⟩ := e
    obtain rfl : op = .inl (.store (.attempts (.byDeploymentId event.deploymentId))) := hcall
    have hmem : (⟨i, ⟨.store (.attempts (.byDeploymentId event.deploymentId)), answer⟩, t.1, t'.1⟩ :
        Event (Option ι)) ∈ lefts log := mem_lefts.mpr ⟨_, he, rfl⟩
    obtain rfl := lookup_unrecorded (ht.executed _ hmem) hno
    have hlost := receipts_unchanged ht hu
      (unfound_inserts_nothing hterm hr (hlookups _ hmem (by simp [Quiet])))
      ("rcpt-" ++ attemptIdOf a.mandateIdHex)
    have hrow := kept ("rcpt-" ++ attemptIdOf a.mandateIdHex)
    rw [if_pos rfl, hlost, fresh.noRow] at hrow
    cases hrow
  · intro hrec
    obtain ⟨answer, hlook⟩ := one_lookup hterm hr
    obtain ⟨f, hf, hcall⟩ := hu.made _ ((hlook answer).mpr rfl)
    obtain ⟨e, he, hef⟩ := mem_lefts.mp hf
    obtain ⟨_, hop, hbefore, _⟩ := Entry.left?_eq_some.mp hef
    have hexec := ht.executed f hf
    rw [hcall] at hexec hop
    have hrecorded := hrec e he (by rw [hop]; rfl)
    rw [hbefore] at hrecorded
    obtain ⟨z, rfl, hm, hi, ha⟩ := lookup_recorded hexec
      (owns_throughout run hcalls fresh.noDeployment hf) hrecorded
    have htexts := terminalTexts_congr (y := z) (z := a.attempt 0) hm ha
    obtain ⟨now, hrows⟩ := uncontested_production ht hu hterm (htexts ▸ free)
      (htexts ▸ fresh.noNode) (ha ▸ fresh.noRow) hr fun b hb => (hlook b).mp hb
    intro k
    rw [hrows k, ha]
    split
    · exact congrArg some (untimed_receipt hterm hm hi ha now)
    · rfl

end

/-! ## A delivery before the deployment is recorded -/

/-- The dispatch of `m-1`, delivery `d-1` of its success and the redelivery of `d-1`. -/
def timedStart : Service := started (afterApproval (Stores.empty.issued "m-1"))

def timedRun (turns : List (Option Pair × World)) :
    Snapshot (Option Pair) ServiceAnswer Service Answered? :=
  Snapshot.play (serviceReact sampleCodec.toRuntime)
    ⟨[], timedStart, dispatchAndPosts sampleCodec (sampleReserve "r-1" "m-1" 1)
      (samplePost "d-1" "success" 200)⟩ turns

/-- The dispatch takes `n` steps before the delivery and the others after it. -/
def deliveredAfter (n : Nat) : List (Option Pair × World) :=
  steps none n (.answering (some 42)) ++ steps (some .first) 18 (.answering none) ++
    steps none (12 - n) (.answering none)

def redelivered : List (Option Pair × World) := steps (some .second) 18 (.answering none)

@[irreducible] def lateRun : Snapshot (Option Pair) ServiceAnswer Service Answered? :=
  timedRun (deliveredAfter 12 ++ redelivered)

/-- The delivery comes between the answer of the provider and the update of the attempt. -/
@[irreducible] def earlyRun : Snapshot (Option Pair) ServiceAnswer Service Answered? :=
  timedRun (deliveredAfter 7 ++ redelivered)

theorem timedRun_run (turns : List (Option Pair × World)) :
    TimedRun sampleCodec (sampleReserve "r-1" "m-1" 1) (samplePost "d-1" "success" 200) timedStart
      (timedRun turns).log (timedRun turns).state (timedRun turns).pool :=
  play_run (c := ⟨[], _, _⟩) (serviceReact_sound _ noFaults) .start _

theorem lateRun_run :
    TimedRun sampleCodec (sampleReserve "r-1" "m-1" 1) (samplePost "d-1" "success" 200) timedStart
      lateRun.log lateRun.state lateRun.pool := by
  unfold lateRun
  exact timedRun_run _

theorem earlyRun_run :
    TimedRun sampleCodec (sampleReserve "r-1" "m-1" 1) (samplePost "d-1" "success" 200) timedStart
      earlyRun.log earlyRun.state earlyRun.pool := by
  unfold earlyRun
  exact timedRun_run _

theorem timedStart_undelivered :
    Undelivered sampleCodec (sampleReserve "r-1" "m-1" 1) (samplePost "d-1" "success" 200)
      (sampleEvent "success" 200) timedStart.1 where
  noDeployment := by
    rintro ⟨k, y, hy, _⟩
    cases hy
  noNode _ _ := rfl
  noRow := rfl
  unseen := rfl

def sampleDispatched : Dispatched where
  mandateIdHex := "m-1"
  attemptIdHex := "att-m-1"
  intentIdHex := "i-1"
  executorIdentity := "executor"
  correlationKey := "key"
  providerAccepted := true
  githubDeploymentId := some 42

/-- Delivered after the dispatch, the outcome leaves its receipt. Delivered in the gap it leaves
none, though the provider redelivers it when both have finished. -/
theorem early_delivery_is_lost :
    Undelivered sampleCodec (sampleReserve "r-1" "m-1" 1) (samplePost "d-1" "success" 200)
        (sampleEvent "success" 200) timedStart.1 ∧
      TimedRun sampleCodec (sampleReserve "r-1" "m-1" 1) (samplePost "d-1" "success" 200) timedStart
        lateRun.log lateRun.state lateRun.pool ∧
      TimedRun sampleCodec (sampleReserve "r-1" "m-1" 1) (samplePost "d-1" "success" 200) timedStart
        earlyRun.log earlyRun.state earlyRun.pool ∧
      (∀ n ∈ [12, 7],
        ((timedRun (deliveredAfter n)).pool none).result? =
          some (.ok (.dispatched sampleDispatched)) ∧
        ((timedRun (deliveredAfter n)).pool (some .first)).result?.isSome ∧
        ((timedRun (deliveredAfter n ++ redelivered)).pool (some .second)).result?.isSome) ∧
      (lateRun.state.1.receipt "rcpt-att-m-1").isSome ∧
      earlyRun.state.1.receipt "rcpt-att-m-1" = none := by
  refine ⟨timedStart_undelivered, lateRun_run, earlyRun_run, ?_, ?_, ?_⟩
  · decide +kernel
  · decide +kernel
  · decide +kernel

/-- In the early run the lookup came before the record of the deployment. -/
theorem early_lookup_unrecorded : ¬ LookedUpRecorded 42 earlyRun.log := by
  have hdispatched : (earlyRun.pool none).result? = some (.ok (.dispatched sampleDispatched)) := by
    decide +kernel
  have hanswered : ∀ i, (earlyRun.pool (some i)).result?.isSome := by
    intro i
    cases i <;> decide +kernel
  have hlost : earlyRun.state.1.receipt "rcpt-att-m-1" = none := by decide +kernel
  intro hrec
  have haccepted : accepted sampleCodec (samplePost "d-1" "success" 200) =
      .ok (sampleEvent "success" 200) := by decide +kernel
  have kept := (delivery_kept_iff earlyRun_run haccepted (by decide) timedStart_undelivered (by decide +kernel)
    (eq_ret_of_result? hdispatched) rfl
    (fun i => (Option.isSome_iff_exists.mp (hanswered i)).imp fun r => eq_ret_of_result?)
    ⟨Pair.first⟩).mpr hrec
  have hrow := kept "rcpt-att-m-1"
  rw [hlost, if_pos (by decide)] at hrow
  cases hrow

end Piteka.Safety
