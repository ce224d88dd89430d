import Piteka.Application.Scenario
import Piteka.Storage.Steps
import Piteka.Web.Pages

/-!
# Rendering a stored request

The page of a request shows its intent shortened by a filter that slices bytes. A
request is stored with any intent, and its page panics for an intent with a character
across one of the two slices; for every other one the page is rendered.
-/
namespace Piteka.Safety

set_option autoImplicit false

open Piteka.Interleaving Piteka.Interleaving.Program Piteka.Storage Piteka.Application Piteka.Web
open Piteka.Text

variable {rt : Runtime} {faults : StoreCall → Prop} {s : Stores} {requestId : String}

/-- Every run of the handler from the stores returns a page. -/
def AlwaysRendered (rt : Runtime) (faults : StoreCall → Prop) (s : Stores) (requestId : String) :
    Prop :=
  ∀ (h : Path) (r : Option String) (s' : Stores), Steps (Exec rt faults) s h s' →
    Returns (requestDetail requestId) h r → r.isSome

theorem noIntent_shortens : Shortens noIntent :=
  Or.inr ⟨⟨"000000", "0000000000000000000000000000000000000000000000000000000000", by decide,
    by decide⟩, ⟨"000000000000000000000000000000000000000000000000000000000000", "0000",
      by decide, by decide⟩⟩

theorem requestDetailPage_isSome {request : ActionRequest} {decisions : List ApprovalDecision} :
    (requestDetailPage requestId request decisions).isSome ↔
      ∀ i, request.intentIdHex = some i → Shortens i := by
  rw [requestDetailPage, requestDetailPieces_eq, Option.isSome_map, Option.isSome_map,
    truncateHash_isSome_iff]
  cases request.intentIdHex with
  | none => exact iff_of_true noIntent_shortens fun _ h => by cases h
  | some i => exact ⟨fun h j hj => Option.some.inj hj ▸ h, fun h => h i rfl⟩

theorem rendered_of_shortens (hq : ∀ q i, s.request requestId = some q → q.intentIdHex = some i →
    Shortens i) : AlwaysRendered rt faults s requestId := by
  intro h r s' hs hr
  rcases requestDetail_returns hr with ⟨title, rfl⟩ | ⟨request, decisions, t, rfl, rfl⟩
  · rfl
  · obtain ⟨mid, hx, _⟩ := hs
    exact requestDetailPage_isSome.mpr fun i hi => hq request i (request_read hx).symm hi

theorem shortens_of_rendered (hr : AlwaysRendered rt faults s requestId) {q : ActionRequest}
    {i : String} (hq : s.request requestId = some q) (hi : q.intentIdHex = some i) :
    Shortens i := by
  have hread : Exec rt faults s (.store (.requests (.get requestId))) (.ok (some q)) s :=
    Or.inl ⟨.asListed, by rw [← hq]; rfl⟩
  have hdecisions : Exec rt faults s (.store (.decisions (.byRequest requestId)))
      (s.decisions.byRequest requestId) s := Or.inl ⟨.asListed, rfl⟩
  have hpage := hr [did (.requests (.get requestId)) (some q),
    ⟨.store (.decisions (.byRequest requestId)), s.decisions.byRequest requestId⟩] _ s
    ⟨s, hread, s, hdecisions, rfl⟩
    (returns_call.mpr ⟨_, _, rfl, returns_call.mpr ⟨_, _, rfl, returns_ret.mpr ⟨rfl, rfl⟩⟩⟩)
  exact requestDetailPage_isSome.mp hpage i hi

/-- For every store and request id, and every text that is shortened. -/
theorem request_rendered_iff (rt : Runtime) (faults : StoreCall → Prop) (s : Stores)
    (requestId : String) :
    (AlwaysRendered rt faults s requestId ↔
        ∀ q i, s.request requestId = some q → q.intentIdHex = some i → Shortens i) ∧
      (∀ hash, (truncateHash hash).isSome ↔ Shortens hash) ∧
      (∀ hash, hash.utf8ByteSize ≤ 12 → truncateHash hash = some hash) ∧
      ∀ hash text, 12 < hash.utf8ByteSize → truncateHash hash = some text →
        ∃ front rest init back, hash = front ++ rest ∧ hash = init ++ back ∧
          front.utf8ByteSize = 6 ∧ back.utf8ByteSize = 4 ∧ text = front ++ "…" ++ back :=
  ⟨⟨fun hr _ _ hq hi => shortens_of_rendered hr hq hi, rendered_of_shortens⟩,
    fun _ => truncateHash_isSome_iff, fun _ h => truncateHash_short h,
    fun _ _ h => (truncateHash_long h).mp⟩

/-! ## An intent with a character across the sixth byte -/

def accentedRequest : ActionRequest := ⟨"r-1", "alice", some "aéééééé", .pending, 0⟩

def withAccented : Stores :=
  ((StoreCall.requests (.insert accentedRequest)).run sampleRuntime .asListed .empty).2

theorem accented_panics :
    Steps (Exec sampleRuntime noFaults) .empty [did (.requests (.insert accentedRequest)) ()]
        withAccented ∧
      truncateHash "aéééééé" = none ∧
      ¬ AlwaysRendered sampleRuntime noFaults withAccented "r-1" := by
  have hnone : truncateHash "aéééééé" = none := by decide
  refine ⟨⟨withAccented, Or.inl ⟨.asListed, rfl⟩, rfl⟩, hnone, fun h => ?_⟩
  have hshort := shortens_of_rendered h (q := accentedRequest) (by rfl) rfl
  rw [← truncateHash_isSome_iff, hnone] at hshort
  cases hshort

end Piteka.Safety
