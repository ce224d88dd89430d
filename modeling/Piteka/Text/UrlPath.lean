import Piteka.Text.Percent

/-!
# Paths of URLs

A path is the list of its segments; one that ends in a slash has an empty last
segment. A relative reference takes the place of the last segment. Its own segments
are appended one by one, where a dot segment is dropped or takes the segment before
it along, also when it is percent-encoded.
-/
namespace Piteka.Text.UrlPath

set_option autoImplicit false

def singleDots : List String := [".", "%2e", "%2E"]

def doubleDots : List String :=
  ["..", "%2e%2e", "%2e%2E", "%2E%2e", "%2E%2E", "%2e.", "%2E.", ".%2e", ".%2E"]

/-- The end of a segment, behind which a slash or nothing follows. -/
def endSegment (path : List String) (segment : String) (slash : Bool) : List String :=
  if segment ∈ doubleDots then
    if slash then path.dropLast else path.dropLast ++ [""]
  else if segment ∈ singleDots then
    if slash then path else path ++ [""]
  else path ++ [segment]

def appendSegments (path : List String) : List String → List String
  | [] => path
  | [segment] => endSegment path segment false
  | segment :: rest => appendSegments (endSegment path segment true) rest

/-- The path of a relative reference. -/
def resolve (base segments : List String) : List String := appendSegments base.dropLast segments

/-- The segment is none of the dot segments. -/
def Plain (segment : String) : Prop := segment ∉ singleDots ∧ segment ∉ doubleDots

instance (segment : String) : Decidable (Plain segment) := inferInstanceAs (Decidable (_ ∧ _))

variable {path before after : List String} {segment : String}

theorem endSegment_plain (h : Plain segment) (slash : Bool) :
    endSegment path segment slash = path ++ [segment] := by
  rw [endSegment, if_neg h.2, if_neg h.1]

theorem appendSegments_cons (h : after ≠ []) :
    appendSegments path (segment :: after) = appendSegments (endSegment path segment true) after := by
  cases after with
  | nil => exact absurd rfl h
  | cons s rest => rfl

theorem appendSegments_plain (h : ∀ s ∈ after, Plain s) :
    appendSegments path after = path ++ after := by
  induction after generalizing path with
  | nil => rw [appendSegments, List.append_nil]
  | cons s rest ih =>
    have hs := h s List.mem_cons_self
    cases rest with
    | nil => exact endSegment_plain hs false
    | cons t rest =>
      rw [appendSegments_cons (List.cons_ne_nil t rest), endSegment_plain hs,
        ih fun u hu => h u (List.mem_cons_of_mem s hu), List.append_assoc]
      rfl

/-- Plain segments come off the front of a reference. -/
theorem appendSegments_append (h : ∀ s ∈ before, Plain s) (hafter : after ≠ []) :
    appendSegments path (before ++ after) = appendSegments (path ++ before) after := by
  induction before generalizing path with
  | nil => rw [List.nil_append, List.append_nil]
  | cons s rest ih =>
    rw [List.cons_append, appendSegments_cons (List.append_ne_nil_of_right_ne_nil rest hafter),
      endSegment_plain (h s List.mem_cons_self), ih fun t ht => h t (List.mem_cons_of_mem s ht),
      List.append_assoc]
    rfl

/-- A reference of which one segment may be a dot segment. -/
theorem resolve_around (base : List String) (hbefore : ∀ s ∈ before, Plain s)
    (hafter : ∀ s ∈ after, Plain s) (hne : after ≠ []) :
    resolve base (before ++ segment :: after) =
      endSegment (base.dropLast ++ before) segment true ++ after := by
  rw [resolve, appendSegments_append hbefore (List.cons_ne_nil segment after),
    appendSegments_cons hne, appendSegments_plain hafter]

/-! ## Written segments -/

theorem singleDots_decode : ∀ s ∈ singleDots, Percent.percentDecode s.toList = [46] := by decide

theorem doubleDots_decode : ∀ s ∈ doubleDots, Percent.percentDecode s.toList = [46, 46] := by
  decide

theorem written_single_iff {bytes : List UInt8} :
    String.ofList (Percent.byteSerialize bytes) ∈ singleDots ↔ bytes = [46] := by
  constructor
  · intro h
    have hdecode := singleDots_decode _ h
    rw [String.toList_ofList] at hdecode
    exact Percent.eq_of_decodes (by simp) hdecode
  · rintro rfl
    decide

theorem written_double_iff {bytes : List UInt8} :
    String.ofList (Percent.byteSerialize bytes) ∈ doubleDots ↔ bytes = [46, 46] := by
  constructor
  · intro h
    have hdecode := doubleDots_decode _ h
    rw [String.toList_ofList] at hdecode
    exact Percent.eq_of_decodes (by simp) hdecode
  · rintro rfl
    decide

end Piteka.Text.UrlPath
