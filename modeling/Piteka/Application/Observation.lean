import Piteka.Domain.Identity
import Piteka.Table.Collected

/-!
# Observation queries

A query asks the observation plane for the lineage of one observation and for the
health of the sources, and turns what is missing into evidence gaps. The rows of
source health are collected into a map, in which the last row of a source stands
for all of them.
-/
namespace Piteka.Application

set_option autoImplicit false

open Piteka.Domain Piteka.Table

structure Observation where
  observationId : String
  sourceId : String
  sourceEventId : String
  sourceEventType : String
  subjectRefs : List String
  assertedEventTime : Option Int64
  observedAt : Int64
  normalizedProfileId : String
  normalizedProfileVersion : UInt16
  normalizedPayloadDigestHex : String
  authenticityMaterialRefs : List String
  collectionRunId : String
  supersedes : Option String
  retractionStatus : String
  visibilityScope : String
  deriving DecidableEq

structure SourceHealth where
  sourceId : String
  connectorKind : String
  displayName : String
  lastRunStartedAt : Option Int64
  lastRunCompletedAt : Option Int64
  cursorObservedAt : Option Int64
  deriving DecidableEq

inductive ObservationError where
  | unavailable
  | unauthenticated
  | notVisible
  | malformed (detail : String)
  | unsupported (detail : String)
  deriving DecidableEq

def ObservationError.toString : ObservationError → String
  | .unavailable => "observation service unavailable"
  | .unauthenticated => "observation credentials were rejected"
  | .notVisible => "observation was not visible to the tenant"
  | .malformed detail => "observation response was malformed: " ++ detail
  | .unsupported detail => "observation query is unsupported: " ++ detail

/-- The answers of the observation plane, which a query asks for at most once each. -/
structure ObservationPort where
  lineage : String → String → Except ObservationError (List Observation)
  sourceHealth : String → Except ObservationError (List SourceHealth)

structure ObservationQuery where
  tenantId : String
  observationId : String

structure EvidenceGap where
  code : String
  detail : String
  deriving DecidableEq

structure ObservationQueryResult where
  lineage : List Observation
  sourceHealth : List SourceHealth
  evidenceGaps : List EvidenceGap
  deriving DecidableEq

def ObservationQueryResult.isComplete (r : ObservationQueryResult) : Bool :=
  r.evidenceGaps.isEmpty

/-- `value.contains(['\0', ',', '='])` -/
def containsSeparator (value : String) : Bool :=
  value.toList.any fun c => c == '\x00' || c == ',' || c == '='

def validIdentifier (value : String) : Bool :=
  !trimIsEmpty value && value.utf8ByteSize ≤ 512 && !containsSeparator value

def gap (code detail : String) : ObservationQueryResult := ⟨[], [], [⟨code, detail⟩]⟩

def gapForError (code : String) (error : ObservationError) : ObservationQueryResult :=
  gap code error.toString

/-- The last run has completed and has left a cursor. -/
def SourceHealth.collected (h : SourceHealth) : Bool :=
  h.lastRunCompletedAt.isSome && h.cursorObservedAt.isSome

def healthGaps (healthBySource : AList fun _ : String => SourceHealth) (o : Observation) :
    List EvidenceGap :=
  match healthBySource.lookup o.sourceId with
  | some health =>
    if health.collected then []
    else [⟨"observation_source_incomplete",
      "source `" ++ o.sourceId ++ "` has no completed collection cursor"⟩]
  | none =>
    [⟨"observation_source_health_missing", "source `" ++ o.sourceId ++ "` has no health record"⟩]

def retractionGaps (o : Observation) : List EvidenceGap :=
  if o.retractionStatus ≠ "active" then
    [⟨"observation_retracted",
      "observation `" ++ o.observationId ++ "` has status `" ++ o.retractionStatus ++ "`"⟩]
  else []

def query (port : ObservationPort) (q : ObservationQuery) : ObservationQueryResult :=
  if !validIdentifier q.tenantId || !validIdentifier q.observationId then
    gap "invalid_observation_query" "tenant or observation identifier is invalid"
  else
    match port.lineage q.tenantId q.observationId with
    | .error error => gapForError "observation_lineage_unavailable" error
    | .ok [] => gap "observation_not_found" "no tenant-visible observation lineage was returned"
    | .ok (o :: os) =>
      match port.sourceHealth q.tenantId with
      | .error error => gapForError "observation_source_health_unavailable" error
      | .ok sourceHealth =>
        let healthBySource := collect (·.sourceId) sourceHealth
        ⟨o :: os, sourceHealth,
          (o :: os).flatMap fun o => healthGaps healthBySource o ++ retractionGaps o⟩

/-! ## When a query is complete -/

/-- The port with these health rows. -/
def ObservationPort.withHealth (port : ObservationPort) (rows : List SourceHealth) :
    ObservationPort :=
  { port with sourceHealth := fun _ => .ok rows }

/-- The port's answers to a query that reaches the comparison. -/
structure Reached (port : ObservationPort) (q : ObservationQuery)
    (observations : List Observation) (rows : List SourceHealth) : Prop where
  tenant : validIdentifier q.tenantId = true
  observation : validIdentifier q.observationId = true
  lineage : port.lineage q.tenantId q.observationId = .ok observations
  found : observations ≠ []
  health : port.sourceHealth q.tenantId = .ok rows

section
variable {port : ObservationPort} {q : ObservationQuery} {observations : List Observation}
  {rows : List SourceHealth} {o : Observation}

theorem healthGaps_eq_nil :
    healthGaps (collect (·.sourceId) rows) o = [] ↔
      LastHas (·.sourceId) rows o.sourceId SourceHealth.collected := by
  unfold healthGaps LastHas
  simp only [← lookup_collect]
  cases (collect (·.sourceId) rows).lookup o.sourceId with
  | none => simp
  | some health => simp

theorem retractionGaps_eq_nil : retractionGaps o = [] ↔ o.retractionStatus = "active" := by
  simp [retractionGaps]

theorem Reached.query_eq (h : Reached port q observations rows) :
    query port q = ⟨observations, rows, observations.flatMap fun o =>
      healthGaps (collect (·.sourceId) rows) o ++ retractionGaps o⟩ := by
  cases observations with
  | nil => exact absurd rfl h.found
  | cons o os => simp [query, h.tenant, h.observation, h.lineage, h.health]

/-- A query that does not reach the comparison has a gap. -/
theorem reached_of_complete (h : (query port q).isComplete = true) :
    ∃ observations rows, Reached port q observations rows := by
  unfold query at h
  split at h
  · cases h
  · next hvalid =>
    simp only [Bool.or_eq_true, Bool.not_eq_true', not_or, Bool.not_eq_false] at hvalid
    split at h
    · cases h
    · cases h
    · next o os hlineage =>
      split at h
      · cases h
      · next rows hhealth =>
        exact ⟨o :: os, rows, hvalid.1, hvalid.2, hlineage, List.cons_ne_nil o os, hhealth⟩

theorem Reached.complete_iff (h : Reached port q observations rows) :
    (query port q).isComplete = true ↔ ∀ o ∈ observations, o.retractionStatus = "active" ∧
      LastHas (·.sourceId) rows o.sourceId SourceHealth.collected := by
  rw [h.query_eq, ObservationQueryResult.isComplete, List.isEmpty_iff, List.flatMap_eq_nil_iff]
  refine forall₂_congr fun o _ => ?_
  rw [List.append_eq_nil_iff, healthGaps_eq_nil, retractionGaps_eq_nil, and_comm]

theorem Reached.withHealth (h : Reached port q observations rows) (rows' : List SourceHealth) :
    Reached (port.withHealth rows') q observations rows' :=
  ⟨h.tenant, h.observation, h.lineage, h.found, rfl⟩

/-- Two comparisons of one query are of the same answers. -/
theorem Reached.unique {observations' : List Observation} {rows' : List SourceHealth}
    (h : Reached port q observations rows) (h' : Reached port q observations' rows') :
    observations' = observations ∧ rows' = rows :=
  ⟨Except.ok.inj (h'.lineage.symm.trans h.lineage), Except.ok.inj (h'.health.symm.trans h.health)⟩

end

end Piteka.Application
