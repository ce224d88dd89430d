import Mathlib.Algebra.Order.Field.Rat
import Piteka.Storage.Json

/-!
# Schemas of flat objects

The meaning of the JSON Schema keywords that describe an object of texts and numbers:
`type`, `minLength`, `minimum`, `pattern`, `properties`, `required` and
`additionalProperties`. A schema is itself a JSON value. Of the patterns, those of one
class of characters with a count are read.
-/
namespace Piteka.Text.Schema

set_option autoImplicit false

open Piteka.Storage

/-- A finite float, from its sign, exponent and fraction. -/
def floatValue (bits : UInt64) : ℚ :=
  let fraction : Nat := bits.toNat % 2 ^ 52
  let exponent : Nat := bits.toNat / 2 ^ 52 % 2 ^ 11
  let magnitude : Nat := if exponent = 0 then fraction else 2 ^ 52 + fraction
  (-1) ^ (bits.toNat / 2 ^ 63) * magnitude * 2 ^ (max exponent 1) / 2 ^ 1075

def numberValue : JsonNumber → ℚ
  | .posInt n => n.toNat
  | .negInt n => n.toInt
  | .float bits => floatValue bits

/-- A number is an integer by its value, however it is written. -/
def hasType : Json → String → Bool
  | .object _, t => t = "object"
  | .string _, t => t = "string"
  | .number n, t => t = "integer" ∧ (numberValue n).den = 1
  | _, _ => false

/-- The pattern of a text of `count` characters, each from one of the ranges. -/
structure ClassPattern where
  ranges : List (Char × Char)
  count : Nat
  deriving DecidableEq

def readRanges : List Char → Option (List (Char × Char) × List Char)
  | ']' :: rest => some ([], rest)
  | low :: '-' :: high :: rest => (readRanges rest).map fun r => ((low, high) :: r.1, r.2)
  | _ => none

/-- The texts of the form `^[…]\x7bn\x7d$`. -/
def readPattern (pattern : String) : Option ClassPattern :=
  match pattern.toList with
  | '^' :: '[' :: rest =>
    match readRanges rest with
    | some (ranges, '\x7b' :: rest) =>
      let digits := rest.takeWhile Char.isDigit
      if rest.dropWhile Char.isDigit = ['\x7d', '$'] then
        some ⟨ranges, digits.foldl (fun n c => 10 * n + (c.toNat - 48)) 0⟩
      else none
    | _ => none
  | _ => none

def ClassPattern.accepts (p : ClassPattern) (text : String) : Bool :=
  text.toList.length == p.count &&
    text.toList.all fun c => p.ranges.any fun r => r.1.toNat ≤ c.toNat && c.toNat ≤ r.2.toNat

/-- A keyword that is about texts or numbers; one that is not known asks nothing. -/
def keywordHolds (v : Json) : String × Json → Bool
  | ("type", .string t) => hasType v t
  | ("minLength", .number n) =>
    match v with
    | .string s => numberValue n ≤ s.toList.length
    | _ => true
  | ("minimum", .number n) =>
    match v with
    | .number x => numberValue n ≤ numberValue x
    | _ => true
  | ("pattern", .string p) =>
    match v with
    | .string s => (readPattern p).any fun p => p.accepts s
    | _ => true
  | _ => true

def conformsValue (schema v : Json) : Bool :=
  match schema with
  | .object keywords => keywords.all (keywordHolds v)
  | _ => true

def keys : Json → List String
  | .object entries => entries.map Prod.fst
  | _ => []

/-- A keyword of the object itself, among the others of its schema. -/
def objectKeywordHolds (schema v : Json) : String × Json → Bool
  | ("properties", .object properties) =>
    properties.all fun p => ((v.get p.1).map (conformsValue p.2)).getD true
  | ("required", .array names) =>
    names.all fun name => (name.asStr.bind v.get).isSome
  | ("additionalProperties", .bool false) =>
    (keys v).all fun key => key ∈ keys ((schema.get "properties").getD .null)
  | keyword => keywordHolds v keyword

def conforms (schema v : Json) : Bool :=
  match schema with
  | .object keywords => keywords.all (objectKeywordHolds schema v)
  | _ => true

/-- The schema of an object with these properties and no others. -/
def recordSchema (properties : List (String × Json)) (required : List String) : Json :=
  .object [("type", .string "object"), ("properties", .object properties),
    ("required", .ofStrings required), ("additionalProperties", .bool false)]

theorem conforms_recordSchema {properties entries : List (String × Json)} {required : List String}
    (hnames : ∀ name, name ∈ required ↔ name ∈ properties.map Prod.fst) :
    conforms (recordSchema properties required) (.object entries) = true ↔
      (∀ e ∈ entries, e.1 ∈ properties.map Prod.fst) ∧
        ∀ p ∈ properties,
          ∃ v, (Json.object entries).get p.1 = some v ∧ conformsValue p.2 v = true := by
  have hall : conforms (recordSchema properties required) (.object entries) =
      (true && ((properties.all fun p =>
          (((Json.object entries).get p.1).map (conformsValue p.2)).getD true) &&
        (((required.map Json.string).all fun name =>
          (name.asStr.bind (Json.object entries).get).isSome) &&
        (((entries.map Prod.fst).all fun key => key ∈ properties.map Prod.fst) && true)))) := rfl
  rw [hall]
  simp only [Bool.true_and, Bool.and_true, Bool.and_eq_true, List.all_eq_true, List.forall_mem_map,
    Json.asStr, Option.bind_some, decide_eq_true_eq]
  constructor
  · rintro ⟨hp, hr, hk⟩
    refine ⟨hk, fun p hmem => ?_⟩
    have hsome := hr p.1 ((hnames p.1).mpr (List.mem_map_of_mem hmem))
    obtain ⟨v, hv⟩ := Option.isSome_iff_exists.mp hsome
    have hvalue := hp p hmem
    rw [hv] at hvalue
    exact ⟨v, hv, hvalue⟩
  · rintro ⟨hk, hp⟩
    refine ⟨fun p hmem => ?_, fun name hname => ?_, hk⟩
    · obtain ⟨v, hv, hc⟩ := hp p hmem
      rw [hv]
      exact hc
    · obtain ⟨p, hmem, rfl⟩ := List.mem_map.mp ((hnames name).mp hname)
      obtain ⟨v, hv, _⟩ := hp p hmem
      rw [hv]
      rfl

/-! ## Objects with exactly the named entries -/

theorem get_of_mem {entries : List (String × Json)} (hk : (entries.map Prod.fst).Nodup)
    {key : String} {v : Json} (h : (key, v) ∈ entries) :
    (Json.object entries).get key = some v := by
  have hfind : entries.find? (fun e => e.1 = key) = some (key, v) := by
    induction entries with
    | nil => cases h
    | cons e entries ih =>
      rw [List.map_cons, List.nodup_cons] at hk
      rcases List.mem_cons.mp h with rfl | h
      · simp
      · have hne : e.1 ≠ key := by
          intro he
          exact hk.1 (he ▸ List.mem_map_of_mem h)
        rw [List.find?_cons_of_neg (by simpa using hne)]
        exact ih hk.2 h
  rw [Json.get, hfind]
  rfl

theorem mem_of_get {entries : List (String × Json)} {key : String} {v : Json}
    (h : (Json.object entries).get key = some v) : (key, v) ∈ entries := by
  obtain ⟨e, he, rfl⟩ := Option.map_eq_some_iff.mp h
  have hkey : e.1 = key := by simpa using List.find?_some he
  rw [← hkey]
  exact List.mem_of_find?_eq_some he

theorem nodup_of_keys {entries : List (String × Json)} (hk : (entries.map Prod.fst).Nodup) :
    entries.Nodup :=
  List.Pairwise.of_map Prod.fst (fun _ _ hne heq => hne (congrArg Prod.fst heq)) hk

/-- An object whose keys are the names, each with the value listed for it. -/
theorem perm_of_get {entries fields : List (String × Json)} (hk : (entries.map Prod.fst).Nodup)
    (hf : (fields.map Prod.fst).Nodup) (hsub : ∀ e ∈ entries, e.1 ∈ fields.map Prod.fst)
    (hget : ∀ e ∈ fields, (Json.object entries).get e.1 = some e.2) : entries.Perm fields := by
  refine (List.perm_ext_iff_of_nodup (nodup_of_keys hk) (nodup_of_keys hf)).mpr fun e =>
    ⟨fun he => ?_, fun he => ?_⟩
  · obtain ⟨e', he', hkey⟩ := List.mem_map.mp (hsub e he)
    have hvalue := (get_of_mem hk he).symm.trans (hkey ▸ hget e' he')
    have heq : e = e' := Prod.ext hkey.symm (Option.some.inj hvalue)
    exact heq ▸ he'
  · exact mem_of_get (hget e he)

end Piteka.Text.Schema
