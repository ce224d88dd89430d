import Piteka.Application.Observation
import Piteka.Interleaving.Program
import Piteka.Text.UrlPath

/-!
# The adapter of the observation plane

The adapter turns a query into one authenticated request below its base URL and the
response into rows. The URL library is given from outside, and `Documented` says what
the adapter relies on. A request is what the client is handed; a client that cannot
send it answers with an error.
-/
namespace Piteka.Tuppira

set_option autoImplicit false

open Piteka.Interleaving Piteka.Domain Piteka.Application Piteka.Text

/-! ## URLs -/

/-- A URL without credentials, query or fragment. -/
structure HttpUrl where
  origin : String
  segments : List String
  deriving DecidableEq

def HttpUrl.path (url : HttpUrl) : String := "/" ++ "/".intercalate url.segments

structure UrlLibrary where
  /-- `form_urlencoded::byte_serialize` -/
  byteSerialize : List UInt8 → String
  /-- `Url::join` -/
  join : HttpUrl → String → Option HttpUrl

/-- The segments of a relative reference that is a path of written characters. -/
structure Reference (segments : List String) : Prop where
  relative : ∃ s rest, segments = s :: rest ∧ s ≠ ""
  written : ∀ s ∈ segments, ∀ c ∈ s.toList, Percent.isWritten c = true

structure UrlLibrary.Documented (u : UrlLibrary) : Prop where
  serializes : ∀ bytes, u.byteSerialize bytes = String.ofList (Percent.byteSerialize bytes)
  joins : ∀ base segments, Reference segments →
    u.join base ("/".intercalate segments) =
      some { base with segments := UrlPath.resolve base.segments segments }

/-- The library that the definitions above describe. -/
def UrlLibrary.standard : UrlLibrary where
  byteSerialize bytes := String.ofList (Percent.byteSerialize bytes)
  join base path :=
    some { base with
      segments := UrlPath.resolve base.segments ((path.toList.splitOn '/').map String.ofList) }

theorem UrlLibrary.standard_documented : UrlLibrary.standard.Documented where
  serializes _ := rfl
  joins base segments h := by
    have hslash : ∀ l ∈ segments.map String.toList, '/' ∉ l := by
      intro l hl hmem
      obtain ⟨s, hs, rfl⟩ := List.mem_map.mp hl
      exact absurd (h.written s hs '/' hmem) (by decide)
    have hne : segments.map String.toList ≠ [] := by
      obtain ⟨s, rest, rfl, _⟩ := h.relative
      exact List.cons_ne_nil _ _
    have hsep : "/".toList = ['/'] := by decide
    have hsplit : (("/".intercalate segments).toList.splitOn '/').map String.ofList = segments := by
      rw [String.toList_intercalate, hsep, List.splitOn_intercalate '/' hslash hne, List.map_map]
      exact (List.map_congr_left fun s _ => String.ofList_toList).trans (List.map_id segments)
    simp only [standard, hsplit]

/-- The configuration; its constructor completes the path with a slash. -/
structure TuppiraConfig where
  baseUrl : HttpUrl
  bearerToken : String
  slash : baseUrl.segments.getLast? = some ""

/-! ## Requests -/

structure HttpRequest where
  url : HttpUrl
  headers : List (String × String)
  deriving DecidableEq

structure HttpResponse where
  status : Nat
  contentLength : Option UInt64
  bytes : Except Unit (List UInt8)

abbrev HttpAnswer (_ : HttpRequest) : Type := Except Unit HttpResponse

abbrev TuppiraProgram (α : Type) : Type :=
  Program HttpRequest HttpAnswer (Except ObservationError α)

structure ApiResponse (α : Type) where
  data : α
  success : Bool

structure ObservationDto where
  observationId : String
  sourceId : String
  sourceEventId : String
  sourceEventType : String
  subjectRefs : List String
  assertedEventTime : Option Int64
  observedAt : Int64
  normalizedProfileId : String
  normalizedProfileVersion : UInt16
  normalizedPayloadDigest : String
  authenticityMaterialRefs : List String
  collectionRunId : String
  supersedes : Option String
  retractionStatus : String
  visibilityScope : String

structure SourceHealthDto where
  sourceId : String
  connectorKind : String
  displayName : String
  lastRunStartedAt : Option Int64
  lastRunCompletedAt : Option Int64
  cursorObservedAt : Option Int64

/-- The adapter, with the libraries that it uses. -/
structure TuppiraObservationAdapter where
  config : TuppiraConfig
  url : UrlLibrary
  /-- `serde_json::from_slice`, at each of the two types. -/
  observations : List UInt8 → Option (ApiResponse (List ObservationDto))
  sourceHealth : List UInt8 → Option (ApiResponse (List SourceHealthDto))

def validateIdentifier (value kind : String) : Except ObservationError Unit :=
  if trimIsEmpty value || 512 < value.utf8ByteSize || containsSeparator value then
    .error (.malformed ("invalid " ++ kind ++ " identifier"))
  else .ok ()

def isDigest (value : String) : Bool :=
  (Ascii.bytes value).length == 64 && (Ascii.bytes value).all Hex.isLowerDigit

def observationTryFrom (v : ObservationDto) : Except ObservationError Observation := do
  for x in [("observation", v.observationId), ("source", v.sourceId),
      ("source event", v.sourceEventId), ("profile", v.normalizedProfileId),
      ("collection run", v.collectionRunId)] do
    validateIdentifier x.2 x.1
  if v.normalizedProfileVersion = 0 || !isDigest v.normalizedPayloadDigest ||
      v.visibilityScope ∉ ["public", "tenant"] ||
      v.retractionStatus ∉ ["active", "retracted", "superseded"] then
    .error (.malformed "invalid observation fields")
  else
    .ok {
      observationId := v.observationId
      sourceId := v.sourceId
      sourceEventId := v.sourceEventId
      sourceEventType := v.sourceEventType
      subjectRefs := v.subjectRefs
      assertedEventTime := v.assertedEventTime
      observedAt := v.observedAt
      normalizedProfileId := v.normalizedProfileId
      normalizedProfileVersion := v.normalizedProfileVersion
      normalizedPayloadDigestHex := v.normalizedPayloadDigest
      authenticityMaterialRefs := v.authenticityMaterialRefs
      collectionRunId := v.collectionRunId
      supersedes := v.supersedes
      retractionStatus := v.retractionStatus
      visibilityScope := v.visibilityScope }

def sourceHealthTryFrom (v : SourceHealthDto) : Except ObservationError SourceHealth := do
  validateIdentifier v.sourceId "source"
  if trimIsEmpty v.connectorKind || trimIsEmpty v.displayName then
    .error (.malformed "invalid source health fields")
  else
    .ok {
      sourceId := v.sourceId
      connectorKind := v.connectorKind
      displayName := v.displayName
      lastRunStartedAt := v.lastRunStartedAt
      lastRunCompletedAt := v.lastRunCompletedAt
      cursorObservedAt := v.cursorObservedAt }

def maxResponseBytes : Nat := 1024 * 1024

/-- What `get` makes of a response. -/
def readResponse {α : Type} (parse : List UInt8 → Option (ApiResponse α))
    (response : HttpResponse) : Except ObservationError α :=
  if response.status = 401 || response.status = 403 then .error .unauthenticated
  else if response.status = 404 then .error .notVisible
  else if !(200 ≤ response.status && response.status < 300) then .error .unavailable
  else if response.contentLength.any (maxResponseBytes < ·.toNat) then
    .error (.malformed "response exceeds size limit")
  else
    match response.bytes with
    | .error () => .error .unavailable
    | .ok bytes =>
      if maxResponseBytes < bytes.length then .error (.malformed "response exceeds size limit")
      else
        match parse bytes with
        | none => .error (.malformed "invalid JSON response")
        | some envelope =>
          if envelope.success then .ok envelope.data
          else .error (.malformed "unsuccessful response used a success status")

def get {α : Type} (a : TuppiraObservationAdapter)
    (parse : List UInt8 → Option (ApiResponse α)) (tenantId path : String) : TuppiraProgram α :=
  match validateIdentifier tenantId "tenant" with
  | .error e => .ret (.error e)
  | .ok () =>
    match a.url.join a.config.baseUrl path with
    | none => .ret (.error (.unsupported "invalid observation path"))
    | some url =>
      .call ⟨url, [("x-tuppira-tenant-id", tenantId),
          ("authorization", "Bearer " ++ a.config.bearerToken), ("accept", "application/json")]⟩
        fun
        | .error () => .ret (.error .unavailable)
        | .ok response => .ret (readResponse parse response)

def lineage (a : TuppiraObservationAdapter) (tenantId observationId : String) :
    TuppiraProgram (List Observation) :=
  match validateIdentifier observationId "observation" with
  | .error e => .ret (.error e)
  | .ok () =>
    let encoded := a.url.byteSerialize (Ascii.bytes observationId)
    (get a a.observations tenantId ("api/v1/observations/" ++ encoded ++ "/lineage")).bind
      fun rows => .ret (rows.bind fun rows => rows.mapM observationTryFrom)

def sourceHealth (a : TuppiraObservationAdapter) (tenantId : String) :
    TuppiraProgram (List SourceHealth) :=
  (get a a.sourceHealth tenantId "api/v1/observation-sources/health").bind
    fun rows => .ret (rows.bind fun rows => rows.mapM sourceHealthTryFrom)

end Piteka.Tuppira
