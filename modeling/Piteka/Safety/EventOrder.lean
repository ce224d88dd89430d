import Mathlib.Order.Bounds.Defs
import Piteka.Application.IngestionEffects
import Piteka.Application.IngestionScenario

/-!
# The order of provider events

The tracker of a use case keeps one time for each deployment: the greatest that a
processed delivery has reported. Refused and duplicate deliveries do not come to it,
so a delivery is flagged exactly if a processed one before it reports a later time.
-/
namespace Piteka.Safety

set_option autoImplicit false

open Piteka.Interleaving Piteka.Interleaving.Program Piteka.Storage Piteka.Application
open WebhookIngestion

/-! ## The tracker -/

/-- The times that the events report of the deployment `d`. -/
def eventTimes (events : List DeploymentStatusEvent) (d : UInt64) : Set UInt64 :=
  {u | ∃ e ∈ events, e.deploymentId = d ∧ e.updatedAt = u}

/-- The tracker has the greatest time of each deployment that the events are about. -/
structure Tracks (t : LastReceivedTracker) (events : List DeploymentStatusEvent) : Prop where
  latest : ∀ d m, t.latestEventAt.lookup d = some m → IsGreatest (eventTimes events d) m
  unseen : ∀ d, t.latestEventAt.lookup d = none → ∀ e ∈ events, e.deploymentId ≠ d

theorem tracks_empty : Tracks .empty [] where
  latest d m h := by
    rw [show LastReceivedTracker.empty.latestEventAt.lookup d = none from rfl] at h
    cases h
  unseen d h e he := absurd he List.not_mem_nil

/-- The times of another deployment are not touched. -/
theorem eventTimes_append_ne {events : List DeploymentStatusEvent} {event : DeploymentStatusEvent}
    {d : UInt64} (hd : event.deploymentId ≠ d) :
    eventTimes (events ++ [event]) d = eventTimes events d := by
  ext u
  constructor
  · rintro ⟨e, he, hid, hu⟩
    rcases List.mem_append.mp he with he | he
    · exact ⟨e, he, hid, hu⟩
    · exact absurd (List.mem_singleton.mp he ▸ hid) hd
  · rintro ⟨e, he, hid, hu⟩
    exact ⟨e, List.mem_append_left _ he, hid, hu⟩

theorem eventTimes_append_self (events : List DeploymentStatusEvent)
    (event : DeploymentStatusEvent) {u : UInt64} :
    u ∈ eventTimes (events ++ [event]) event.deploymentId ↔
      u ∈ eventTimes events event.deploymentId ∨ u = event.updatedAt := by
  constructor
  · rintro ⟨e, he, hid, hu⟩
    rcases List.mem_append.mp he with he | he
    · exact Or.inl ⟨e, he, hid, hu⟩
    · exact Or.inr (List.mem_singleton.mp he ▸ hu.symm)
  · rintro (⟨e, he, hid, hu⟩ | rfl)
    · exact ⟨e, List.mem_append_left _ he, hid, hu⟩
    · exact ⟨event, List.mem_append_right _ List.mem_cons_self, rfl, rfl⟩

/-- The greatest time of the event's deployment takes its place; the others keep theirs. -/
theorem Tracks.insert {t : LastReceivedTracker} {events : List DeploymentStatusEvent}
    (h : Tracks t events) {event : DeploymentStatusEvent} {m : UInt64}
    (hm : IsGreatest (eventTimes (events ++ [event]) event.deploymentId) m) :
    Tracks ⟨t.latestEventAt.insert event.deploymentId m⟩ (events ++ [event]) where
  latest d m' hd := by
    by_cases heq : d = event.deploymentId
    · subst heq
      rw [AList.lookup_insert] at hd
      rwa [← Option.some.inj hd]
    · rw [AList.lookup_insert_ne heq] at hd
      rw [eventTimes_append_ne (Ne.symm heq)]
      exact h.latest d m' hd
  unseen d hd e he := by
    by_cases heq : d = event.deploymentId
    · subst heq
      rw [AList.lookup_insert] at hd
      cases hd
    · rw [AList.lookup_insert_ne heq] at hd
      rcases List.mem_append.mp he with he | he
      · exact h.unseen d hd e he
      · rw [List.mem_singleton.mp he]
        exact Ne.symm heq

/-- Recording an event answers whether a later one is known, and keeps the greatest times. -/
theorem Tracks.record {t t' : LastReceivedTracker} {events : List DeploymentStatusEvent}
    (h : Tracks t events) {event : DeploymentStatusEvent} {b : Bool}
    (hr : t.record event.deploymentId event.updatedAt = (b, t')) :
    (b = true ↔ ∃ e ∈ events, e.deploymentId = event.deploymentId ∧ event.updatedAt < e.updatedAt) ∧
      Tracks t' (events ++ [event]) := by
  have hself : event.updatedAt ∈ eventTimes (events ++ [event]) event.deploymentId :=
    (eventTimes_append_self events event).mpr (Or.inr rfl)
  unfold LastReceivedTracker.record at hr
  cases hlook : t.latestEventAt.lookup event.deploymentId with
  | none =>
    rw [hlook] at hr
    obtain ⟨rfl, rfl⟩ := Prod.mk.inj hr
    have hnone := h.unseen _ hlook
    refine ⟨iff_of_false Bool.false_ne_true ?_, h.insert ⟨hself, fun u hu => ?_⟩⟩
    · rintro ⟨e, he, hid, _⟩
      exact hnone e he hid
    · rcases (eventTimes_append_self events event).mp hu with ⟨e, he, hid, _⟩ | rfl
      · exact absurd hid (hnone e he)
      · exact UInt64.le_refl _
  | some latest =>
    rw [hlook] at hr
    obtain ⟨rfl, rfl⟩ := Prod.mk.inj hr
    obtain ⟨hmem, hupper⟩ := h.latest _ latest hlook
    refine ⟨⟨fun hb => ?_, ?_⟩, h.insert ?_⟩
    · obtain ⟨e, he, hid, hu⟩ := hmem
      exact ⟨e, he, hid, hu ▸ of_decide_eq_true hb⟩
    · rintro ⟨e, he, hid, hlt⟩
      have hle : e.updatedAt ≤ latest := hupper ⟨e, he, hid, rfl⟩
      exact decide_eq_true (UInt64.lt_of_lt_of_le hlt hle)
    -- The greater of the two times is reported, and no reported time is above it.
    · by_cases hle : latest ≤ event.updatedAt
      · rw [show max latest event.updatedAt = event.updatedAt from if_pos hle]
        refine ⟨hself, fun u hu => ?_⟩
        rcases (eventTimes_append_self events event).mp hu with hu | rfl
        · exact UInt64.le_trans (hupper hu) hle
        · exact UInt64.le_refl _
      · rw [show max latest event.updatedAt = latest from if_neg hle]
        refine ⟨(eventTimes_append_self events event).mpr (Or.inl hmem), fun u hu => ?_⟩
        rcases (eventTimes_append_self events event).mp hu with hu | rfl
        · exact hupper hu
        · exact UInt64.le_of_lt (UInt64.not_le.mp hle)

/-! ## Sessions of one use case -/

/-- A call of `ingest` and what it returned. -/
structure Ingested where
  payload : GitHubWebhookPayload
  result : Except WebhookError IngestionOutcome
  deriving DecidableEq

/-- Calls of `ingest` on one use case, one after the other and without faults. What other use
cases do to the stores between two of them is arbitrary; the tracker is the use case's own. -/
inductive Ingestions (cd : Codec) (s₀ : Service) : List Ingested → Service → Prop
  | start : Ingestions cd s₀ [] s₀
  | ingest {log : List Ingested} {s s' : Service} {x : GitHubWebhookPayload}
      {r : Except WebhookError IngestionOutcome} (session : Ingestions cd s₀ log s)
      (he : (ingest cd x).run.Eval (ServiceExec cd.toRuntime noFaults) s r s') :
      Ingestions cd s₀ (log ++ [⟨x, r⟩]) s'
  | others {log : List Ingested} {s : Service} (session : Ingestions cd s₀ log s) (t : Stores) :
      Ingestions cd s₀ log (t, s.2)

/-- The event of a call that returned `Processed`. -/
def processedEvent (cd : Codec) (i : Ingested) : Option DeploymentStatusEvent :=
  match i.result with
  | .ok (.processed _ _) => (accepted cd i.payload).toOption
  | _ => none

theorem processedEvent_eq_some {cd : Codec} {i : Ingested} {event : DeploymentStatusEvent} :
    processedEvent cd i = some event ↔
      (∃ b d, i.result = .ok (.processed b d)) ∧ accepted cd i.payload = .ok event := by
  unfold processedEvent
  constructor
  · intro h
    split at h
    · next b d hr =>
      cases hx : accepted cd i.payload with
      | error err =>
        rw [hx] at h
        cases h
      | ok e =>
        rw [hx] at h
        exact ⟨⟨b, d, hr⟩, congrArg Except.ok (Option.some.inj h)⟩
    · cases h
  · rintro ⟨⟨b, d, hr⟩, hx⟩
    rw [hr, hx]
    rfl

/-- A call that returns anything but `Processed` leaves the tracker alone, and one that returns
`Processed` records its event. -/
theorem ingest_tracker {cd : Codec} {x : GitHubWebhookPayload} {s s' : Service}
    {r : Except WebhookError IngestionOutcome}
    (he : (ingest cd x).run.Eval (ServiceExec cd.toRuntime noFaults) s r s') :
    ((∀ b d, r ≠ .ok (.processed b d)) ∧ s'.2 = s.2) ∨
      ∃ event b, accepted cd x = .ok event ∧ r = .ok (.processed b (x.rawDigest cd.toRuntime)) ∧
        s.2.record event.deploymentId event.updatedAt = (b, s'.2) := by
  obtain ⟨h, hr, hs⟩ := eval_iff_returns.mp he
  cases ingest_returns hr with
  | refused hx =>
    obtain rfl : s' = s := hs
    exact Or.inl ⟨by simp, rfl⟩
  | failed h sc e hp =>
    obtain ⟨u, hbefore, v, hf, rfl⟩ := steps_append.mp hs
    refine Or.inl ⟨by simp, hf.2.trans ?_⟩
    cases hp with
    | get hx => exact congrArg Prod.snd hbefore
    | record hx t => exact (steps_onLeft.mp hbefore).2
    -- Without faults the audit event is appended.
    | audit hx t b t' => cases audit_noFaults hf.1
  | seen hx q => exact Or.inl ⟨by simp, (steps_onLeft.mp hs).2⟩
  | raced hx t => exact Or.inl ⟨by simp, (steps_onLeft.mp hs).2⟩
  | processed hx t b t' =>
    obtain ⟨u, h1, h2⟩ := steps_append.mp hs
    obtain ⟨v, h3, w, htrack, rfl⟩ := steps_append.mp h1
    refine Or.inr ⟨_, b, hx, rfl, ?_⟩
    have hrecord := htrack.1
    rw [(steps_onLeft.mp h3).2] at hrecord
    rw [(steps_onLeft.mp h2).2]
    exact hrecord

/-- The tracker has the greatest times of all the processed events of the session. -/
theorem tracks_of_session {cd : Codec} {s₀ s : Service} {log : List Ingested}
    (fresh : s₀.2 = .empty) (session : Ingestions cd s₀ log s) :
    Tracks s.2 (log.filterMap (processedEvent cd)) := by
  induction session with
  | start =>
    rw [fresh]
    exact tracks_empty
  | @ingest log s s' x r session he ih =>
    rw [List.filterMap_append, List.filterMap_cons, List.filterMap_nil]
    rcases ingest_tracker he with ⟨hother, hsame⟩ | ⟨event, b, hx, rfl, hrecord⟩
    · have hnone : processedEvent cd ⟨x, r⟩ = none := by
        cases hevent : processedEvent cd ⟨x, r⟩ with
        | none => rfl
        | some event =>
          obtain ⟨⟨b, d, hr⟩, _⟩ := processedEvent_eq_some.mp hevent
          exact absurd hr (hother b d)
      rw [hnone, hsame, List.append_nil]
      exact ih
    · have hevent : processedEvent cd ⟨x, .ok (.processed b (x.rawDigest cd.toRuntime))⟩ =
          some event := processedEvent_eq_some.mpr ⟨⟨b, x.rawDigest cd.toRuntime, rfl⟩, hx⟩
      rw [hevent]
      exact (ih.record hrecord).2
  | others session t ih => exact ih

/-- A session that contains a call passed through a session that ends before it. -/
theorem session_at {cd : Codec} {s₀ s : Service} {l₁ l₂ : List Ingested} {i : Ingested}
    (session : Ingestions cd s₀ (l₁ ++ i :: l₂) s) :
    ∃ t t', Ingestions cd s₀ l₁ t ∧
      (ingest cd i.payload).run.Eval (ServiceExec cd.toRuntime noFaults) t i.result t' := by
  generalize hlog : l₁ ++ i :: l₂ = log at session
  induction session generalizing l₂ with
  | start => cases l₁ <;> cases hlog
  | @ingest log s s' x r session he ih =>
    rcases List.eq_nil_or_concat l₂ with rfl | ⟨l₂, last, rfl⟩
    · obtain ⟨rfl, hi⟩ := List.append_inj' hlog rfl
      obtain rfl := List.singleton_inj.mp hi
      exact ⟨s, s', session, he⟩
    · rw [List.concat_eq_append, ← List.cons_append, ← List.append_assoc] at hlog
      exact ih (List.append_inj' hlog rfl).1
  | others session t ih => exact ih hlog

/-- In every session of a fresh use case a delivery that is processed is flagged exactly if an
earlier processed delivery of its deployment reports a later time. -/
theorem out_of_order_exact {cd : Codec} {s₀ s : Service} (fresh : s₀.2 = .empty)
    {l₁ l₂ : List Ingested} {x : GitHubWebhookPayload} {b : Bool} {d : ContentDigest}
    (session : Ingestions cd s₀ (l₁ ++ ⟨x, .ok (.processed b d)⟩ :: l₂) s) :
    ∃ event, accepted cd x = .ok event ∧
      (b = true ↔ ∃ y b' d' earlier, ⟨y, .ok (.processed b' d')⟩ ∈ l₁ ∧
        accepted cd y = .ok earlier ∧ earlier.deploymentId = event.deploymentId ∧
        event.updatedAt < earlier.updatedAt) := by
  obtain ⟨t, t', hbefore, he⟩ := session_at session
  rcases ingest_tracker he with ⟨hother, _⟩ | ⟨event, b', hx, hb, hrecord⟩
  · exact absurd rfl (hother b d)
  obtain ⟨rfl, _⟩ := IngestionOutcome.processed.inj (Except.ok.inj hb)
  refine ⟨event, hx, ((tracks_of_session fresh hbefore).record hrecord).1.trans ?_⟩
  constructor
  · rintro ⟨earlier, hmem, hid, hlt⟩
    obtain ⟨⟨y, r⟩, hy, hevent⟩ := List.mem_filterMap.mp hmem
    obtain ⟨⟨b', d', rfl⟩, hy'⟩ := processedEvent_eq_some.mp hevent
    exact ⟨y, b', d', earlier, hy, hy', hid, hlt⟩
  · rintro ⟨y, b', d', earlier, hy, hy', hid, hlt⟩
    have hevent : processedEvent cd ⟨y, .ok (.processed b' d')⟩ = some earlier :=
      processedEvent_eq_some.mpr ⟨⟨b', d', rfl⟩, hy'⟩
    exact ⟨earlier, List.mem_filterMap.mpr ⟨_, hy, hevent⟩, hid, hlt⟩

/-! ## A late delivery -/

/-- The ingestion of `x` that runs alone in memory. -/
def ingestedAlone (s : Service) (x : GitHubWebhookPayload) :
    Except WebhookError IngestionOutcome × Service :=
  (ingest sampleCodec x).run.alone (serviceReact sampleCodec.toRuntime (.answering none)) s

/-- The calls of a list of payloads, one after the other. -/
def ingestedInTurn (s : Service) : List GitHubWebhookPayload → List Ingested × Service
  | [] => ([], s)
  | x :: posts =>
    let now := ingestedAlone s x
    let later := ingestedInTurn now.2 posts
    (⟨x, now.1⟩ :: later.1, later.2)

theorem ingestedInTurn_session {s₀ s : Service} {log : List Ingested}
    (session : Ingestions sampleCodec s₀ log s) (posts : List GitHubWebhookPayload) :
    Ingestions sampleCodec s₀ (log ++ (ingestedInTurn s posts).1) (ingestedInTurn s posts).2 := by
  induction posts generalizing log s with
  | nil =>
    rw [ingestedInTurn, List.append_nil]
    exact session
  | cons x posts ih =>
    have he := alone_eval (serviceReact_sound sampleCodec.toRuntime noFaults (.answering none))
      (ingest sampleCodec x).run s
    have hnext := ih (.ingest session he)
    rw [List.append_assoc] at hnext
    exact hnext

/-- A delivery of the time 200, its repetition, a payload of another kind, and a delivery of the
time 100. -/
def lateLog : List Ingested := [
  ⟨samplePost "d-1" "success" 200,
    .ok (.processed false ((samplePost "d-1" "success" 200).rawDigest sampleCodec.toRuntime))⟩,
  ⟨samplePost "d-1" "success" 200, .ok .duplicate⟩,
  ⟨{ samplePost "d-2" "success" 200 with eventType := "push" },
    .error (.unsupportedEventType "push")⟩,
  ⟨samplePost "d-3" "failure" 100,
    .ok (.processed true ((samplePost "d-3" "failure" 100).rawDigest sampleCodec.toRuntime))⟩]

theorem lateLog_session : ∃ s, Ingestions sampleCodec (started .empty) lateLog s := by
  have hlog : (ingestedInTurn (started .empty) (lateLog.map (·.payload))).1 = lateLog := by
    decide +kernel
  have hstart : Ingestions sampleCodec (started .empty) [] (started .empty) := .start
  have hsession := ingestedInTurn_session hstart (lateLog.map (·.payload))
  exact ⟨_, hlog ▸ hsession⟩

/-- The delivery of the time 100 is flagged, and the one of the time 200 before it is the reason. -/
theorem out_of_order_exact_late :
    ∃ event, accepted sampleCodec (samplePost "d-3" "failure" 100) = .ok event ∧
      (true = true ↔ ∃ y b' d' earlier, ⟨y, .ok (.processed b' d')⟩ ∈ lateLog.take 3 ∧
        accepted sampleCodec y = .ok earlier ∧ earlier.deploymentId = event.deploymentId ∧
        event.updatedAt < earlier.updatedAt) := by
  obtain ⟨s, hsession⟩ := lateLog_session
  have hlate : Ingestions sampleCodec (started .empty) (lateLog.take 3 ++
      ⟨samplePost "d-3" "failure" 100, .ok (.processed true
        ((samplePost "d-3" "failure" 100).rawDigest sampleCodec.toRuntime))⟩ :: []) s := hsession
  exact out_of_order_exact rfl hlate

end Piteka.Safety
