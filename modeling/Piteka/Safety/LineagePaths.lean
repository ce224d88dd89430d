import Piteka.Tuppira.Adapter

/-!
# The paths of lineage requests

A lineage query asks for the given observation exactly if the identifier has no space
and is no dot segment. A space is written as in a form, and the joined URL loses a
segment of dots.
-/
namespace Piteka.Safety

set_option autoImplicit false

open Piteka.Interleaving Piteka.Interleaving.Program Piteka.Application Piteka.Tuppira Piteka.Text

/-- The path is the one of the observation, below the base. -/
def AsksFor (base : HttpUrl) (observationId : String) (url : HttpUrl) : Prop :=
  ∃ segment, url = { base with
      segments := base.segments.dropLast ++ ["api", "v1", "observations", segment, "lineage"] } ∧
    Percent.percentDecode segment.toList = Ascii.bytes observationId

/-- A request is made, and every request asks for the observation. -/
def AsksForIt (a : TuppiraObservationAdapter) (tenantId observationId : String) : Prop :=
  (∃ request, Next (lineage a tenantId observationId) [] request) ∧
    ∀ h request, Next (lineage a tenantId observationId) h request →
      AsksFor a.config.baseUrl observationId request.url

/-- The segment that is written for an identifier. -/
def written (observationId : String) : String :=
  String.ofList (Percent.byteSerialize (Ascii.bytes observationId))

def lineageSegments (observationId : String) : List String :=
  ["api", "v1", "observations"] ++ written observationId :: ["lineage"]

theorem lineage_reference (observationId : String) : Reference (lineageSegments observationId) where
  relative := ⟨"api", ["v1", "observations", written observationId, "lineage"], rfl, by decide⟩
  written := by
    have hfixed : ∀ s ∈ ["api", "v1", "observations", "lineage"],
        s.toList.all Percent.isWritten = true := by decide
    intro s hs c hc
    rcases List.mem_append.mp hs with hs | hs
    · exact List.all_eq_true.mp (hfixed s (List.mem_append_left ["lineage"] hs)) c hc
    rcases List.mem_cons.mp hs with rfl | hs
    · rw [written, String.toList_ofList] at hc
      exact Percent.isWritten_byteSerialize _ c hc
    · exact List.all_eq_true.mp
        (hfixed s (List.mem_append_right ["api", "v1", "observations"] hs)) c hc

theorem lineage_path (segment : String) :
    "api/v1/observations/" ++ segment ++ "/lineage" =
      "/".intercalate ["api", "v1", "observations", segment, "lineage"] := by
  have hfront : "api/v1/observations/" = "api" ++ "/" ++ ("v1" ++ "/" ++ ("observations" ++ "/")) :=
    by decide
  have hback : "/lineage" = "/" ++ "lineage" := by decide
  rw [hfront, hback]
  simp only [String.intercalate_cons_cons, String.intercalate_singleton, String.append_assoc]

/-- The URL of the request for an observation. -/
def lineageUrl (base : HttpUrl) (observationId : String) : HttpUrl :=
  { base with segments := UrlPath.resolve base.segments (lineageSegments observationId) }

/-! ## Where the URL leads -/

theorem written_single {observationId : String} :
    written observationId ∈ UrlPath.singleDots ↔ observationId = "." := by
  have hdot : Ascii.bytes "." = [46] := by decide
  rw [written, UrlPath.written_single_iff, ← hdot]
  exact ⟨Ascii.bytes_inj, congrArg Ascii.bytes⟩

theorem written_double {observationId : String} :
    written observationId ∈ UrlPath.doubleDots ↔ observationId = ".." := by
  have hdots : Ascii.bytes ".." = [46, 46] := by decide
  rw [written, UrlPath.written_double_iff, ← hdots]
  exact ⟨Ascii.bytes_inj, congrArg Ascii.bytes⟩

theorem written_reads_back {observationId : String} :
    Percent.percentDecode (written observationId).toList = Ascii.bytes observationId ↔
      ' ' ∉ observationId.toList := by
  have hspace : Ascii.charOf 32 = ' ' := by decide
  rw [written, String.toList_ofList, Percent.reads_back_iff, Ascii.mem_bytes_iff (by decide), hspace]

/-- A path that has lost segments is not the one of an observation. -/
theorem not_asksFor_of_length {base : HttpUrl} {observationId : String} {segments : List String}
    (h : segments.length ≠ base.segments.dropLast.length + 5) :
    ¬ AsksFor base observationId { base with segments := segments } := by
  rintro ⟨segment, hurl, _⟩
  have hsegments := congrArg (fun url => url.segments.length) hurl
  simp only [List.length_append, List.length_cons, List.length_nil] at hsegments
  exact h hsegments

/-- Segments behind a list that ends in a slash. -/
theorem intercalate_behind (init : List String) {tail : List String} (hne : tail ≠ []) :
    "/".intercalate (init ++ tail) = "/".intercalate (init ++ [""]) ++ "/".intercalate tail := by
  cases init with
  | nil => rw [List.nil_append, List.nil_append, String.intercalate_singleton, String.empty_append]
  | cons s rest =>
    rw [String.intercalate_append_of_ne_nil (List.cons_ne_nil s rest) hne,
      String.intercalate_append_of_ne_nil (List.cons_ne_nil s rest) (List.cons_ne_nil "" []),
      String.intercalate_singleton, String.append_empty]

theorem resolve_lineage (base : List String) (observationId : String) :
    UrlPath.resolve base (lineageSegments observationId) =
      UrlPath.endSegment (base.dropLast ++ ["api", "v1", "observations"]) (written observationId)
        true ++ ["lineage"] :=
  UrlPath.resolve_around base (by decide) (by decide) (by decide)

theorem asksFor_lineageUrl {base : HttpUrl} {observationId : String} :
    AsksFor base observationId (lineageUrl base observationId) ↔
      ' ' ∉ observationId.toList ∧ observationId ≠ "." ∧ observationId ≠ ".." := by
  unfold lineageUrl
  rw [resolve_lineage]
  by_cases hdouble : observationId = ".."
  · refine iff_of_false (not_asksFor_of_length ?_) fun h => h.2.2 hdouble
    rw [UrlPath.endSegment, if_pos (written_double.mpr hdouble), if_pos rfl]
    simp
  by_cases hsingle : observationId = "."
  · refine iff_of_false (not_asksFor_of_length ?_) fun h => h.2.1 hsingle
    rw [UrlPath.endSegment, if_neg (mt written_double.mp hdouble),
      if_pos (written_single.mpr hsingle), if_pos rfl]
    simp
  have hplain : UrlPath.Plain (written observationId) :=
    ⟨mt written_single.mp hsingle, mt written_double.mp hdouble⟩
  rw [UrlPath.endSegment_plain hplain, ← written_reads_back]
  constructor
  · rintro ⟨segment, hurl, hdecode⟩
    have hsegments := congrArg HttpUrl.segments hurl
    obtain rfl : written observationId = segment := by simpa using hsegments
    exact ⟨hdecode, hsingle, hdouble⟩
  · rintro ⟨hdecode, _, _⟩
    exact ⟨written observationId, by simp, hdecode⟩

/-! ## The request -/

section
variable {a : TuppiraObservationAdapter} {tenantId observationId : String}

theorem get_next {α : Type} {parse : List UInt8 → Option (ApiResponse α)} {path : String}
    {url : HttpUrl} (ht : validateIdentifier tenantId "tenant" = .ok ())
    (hjoin : a.url.join a.config.baseUrl path = some url)
    {h : List ((op : HttpRequest) × HttpAnswer op)} {request : HttpRequest}
    (hn : Next (Tuppira.get a parse tenantId path) h request) : request.url = url := by
  simp only [Tuppira.get, ht, hjoin] at hn
  rcases next_call.mp hn with ⟨rfl, rfl⟩ | ⟨answer, t, _, hn⟩
  · rfl
  · cases answer with
    | error u => exact absurd hn next_ret
    | ok response => exact absurd hn next_ret

theorem lineage_joins (hu : a.url.Documented) (observationId : String) :
    a.url.join a.config.baseUrl
      ("api/v1/observations/" ++ a.url.byteSerialize (Ascii.bytes observationId) ++ "/lineage") =
      some (lineageUrl a.config.baseUrl observationId) := by
  have hjoin := hu.joins a.config.baseUrl _ (lineage_reference observationId)
  rw [hu.serializes, lineage_path]
  exact hjoin

theorem lineage_next (hu : a.url.Documented) (ht : validateIdentifier tenantId "tenant" = .ok ())
    (hid : validateIdentifier observationId "observation" = .ok ())
    {h : List ((op : HttpRequest) × HttpAnswer op)} {request : HttpRequest}
    (hn : Next (lineage a tenantId observationId) h request) :
    request.url = lineageUrl a.config.baseUrl observationId := by
  simp only [lineage, hid] at hn
  rcases next_bind hn with hn | ⟨_, _, _, _, _, hn⟩
  · exact get_next ht (lineage_joins hu observationId) hn
  · exact absurd hn next_ret

theorem lineage_requests (hu : a.url.Documented)
    (ht : validateIdentifier tenantId "tenant" = .ok ())
    (hid : validateIdentifier observationId "observation" = .ok ()) :
    ∃ request, Next (lineage a tenantId observationId) [] request := by
  simp only [lineage, hid, Tuppira.get, ht, lineage_joins hu observationId, Program.bind]
  exact ⟨_, next_call.mpr (Or.inl ⟨rfl, rfl⟩)⟩

theorem lineage_asks_iff (hu : a.url.Documented)
    (ht : validateIdentifier tenantId "tenant" = .ok ())
    (hid : validateIdentifier observationId "observation" = .ok ()) :
    AsksForIt a tenantId observationId ↔
      ' ' ∉ observationId.toList ∧ observationId ≠ "." ∧ observationId ≠ ".." := by
  obtain ⟨request, hrequest⟩ := lineage_requests hu ht hid
  have hurl : AsksFor a.config.baseUrl observationId (lineageUrl a.config.baseUrl observationId) ↔
      ' ' ∉ observationId.toList ∧ observationId ≠ "." ∧ observationId ≠ ".." := asksFor_lineageUrl
  rw [← hurl]
  constructor
  · rintro ⟨_, hall⟩
    rw [← lineage_next hu ht hid hrequest]
    exact hall [] request hrequest
  · intro hasks
    refine ⟨⟨request, hrequest⟩, fun h request hn => ?_⟩
    rw [lineage_next hu ht hid hn]
    exact hasks

/-- The text of the path goes on behind the base, which ends in a slash. -/
theorem AsksForIt.path (hasks : AsksForIt a tenantId observationId)
    {h : List ((op : HttpRequest) × HttpAnswer op)} {request : HttpRequest}
    (hn : Next (lineage a tenantId observationId) h request) :
    ∃ segment, request.url.path =
        a.config.baseUrl.path ++ "api/v1/observations/" ++ segment ++ "/lineage" ∧
      Percent.percentDecode segment.toList = Ascii.bytes observationId := by
  obtain ⟨segment, hurl, hdecode⟩ := hasks.2 h request hn
  obtain ⟨init, hinit⟩ := List.getLast?_eq_some_iff.mp a.config.slash
  refine ⟨segment, ?_, hdecode⟩
  simp only [hurl, HttpUrl.path, hinit, List.dropLast_concat]
  rw [intercalate_behind init (List.cons_ne_nil _ _), ← lineage_path]
  simp only [String.append_assoc]

end

/-! An adapter below a path, asked for an observation and for the parent segment. -/

def sampleAdapter : TuppiraObservationAdapter where
  config := ⟨⟨"https://tuppira.example", ["plane", ""]⟩, "secret", rfl⟩
  url := .standard
  observations _ := none
  sourceHealth _ := none

theorem lineage_asks_iff_sample : AsksForIt sampleAdapter "tenant-a" "obs/1" :=
  (lineage_asks_iff UrlLibrary.standard_documented (by decide) (by decide)).mpr
    ⟨by decide, by decide, by decide⟩

theorem parent_segment_removed :
    ¬ ∀ (a : TuppiraObservationAdapter) (tenantId observationId : String), a.url.Documented →
      validateIdentifier tenantId "tenant" = .ok () →
      validateIdentifier observationId "observation" = .ok () →
      AsksForIt a tenantId observationId := by
  intro h
  have ht : validateIdentifier "tenant-a" "tenant" = .ok () := by decide
  have hid : validateIdentifier ".." "observation" = .ok () := by decide
  have hu : sampleAdapter.url.Documented := UrlLibrary.standard_documented
  obtain ⟨⟨request, hrequest⟩, hall⟩ := h sampleAdapter "tenant-a" ".." hu ht hid
  have hasks := hall [] request hrequest
  rw [lineage_next hu ht hid hrequest] at hasks
  exact (asksFor_lineageUrl.mp hasks).2.2 rfl

end Piteka.Safety
