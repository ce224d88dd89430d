import Piteka.Python.Values

/-!
# The deployment consumer

The checks that the pinned workflow makes of the event that started it, in their
order. An integer that was read can be written: the reader and `str` have one limit
on the number of digits. The reader of a payload that is a text, `json.loads`, is a
parameter.
-/
namespace Piteka.Deploy

set_option autoImplicit false

open Piteka.Checks Piteka.Python

/-- `[0-9a-f]`, as a code point. -/
def isLowerHex (point : Nat) : Bool := (48 ≤ point && point ≤ 57) || (97 ≤ point && point ≤ 102)

/-- `re.compile(r"^[0-9a-f]{n}$").fullmatch` -/
def fullmatch (n : Nat) (text : Str) : Bool :=
  text.points.length == n && text.points.all isLowerHex

abbrev Loads := Str → Except PyException Value

structure Validated where
  deploymentId : Str
  sha : Str
  attemptDigest : Str
  repositoryId : Str
  deriving DecidableEq

/-- `str(n)` -/
def str (n : Int) : Str := lit (toString n)

/-- `type(value) is not int or value <= 0` -/
def positiveInt (message : String) : Value → Except PyException Int
  | .int n => if 0 < n then .ok n else raise message
  | _ => raise message

/-- `not isinstance(value, str) or not pattern.fullmatch(value)` -/
def hexText (n : Nat) (message : String) : Value → Except PyException Str
  | .str text => if fullmatch n text then .ok text else raise message
  | _ => raise message

/-- The two objects of the event. -/
def openEvent : Value → Except PyException (Dict × Dict)
  | .dict event => do
    require (!Dict.properSubset event [lit "deployment", lit "repository"])
      "event must contain deployment and repository"
    let deployment ← Dict.subscript event (lit "deployment")
    let repository ← Dict.subscript event (lit "repository")
    match deployment, repository with
    | .dict deployment, .dict repository => .ok (deployment, repository)
    | _, _ => raise "deployment and repository must be objects"
  | _ => raise "event must contain deployment and repository"

def required : List Str :=
  [lit "id", lit "sha", lit "ref", lit "task", lit "environment", lit "payload"]

/-- The deployment's own fields. -/
def checkDeployment (deployment : Dict) (expectedEnvironment : Str) :
    Except PyException (Int × Str) := do
  require (Dict.hasAll deployment required) "deployment is missing required fields"
  let id ← Dict.subscript deployment (lit "id")
  let id ← positiveInt "deployment id must be a positive integer" id
  let sha ← Dict.subscript deployment (lit "sha")
  let sha ← hexText 40 "deployment sha must be a full lowercase commit SHA" sha
  let ref ← Dict.subscript deployment (lit "ref")
  require (ref.equalsStr sha) "deployment ref must equal the exact commit SHA"
  let task ← Dict.subscript deployment (lit "task")
  require (task.equalsStr (lit "deploy")) "deployment task must be deploy"
  let environment ← Dict.subscript deployment (lit "environment")
  require (environment.equalsStr expectedEnvironment)
    "deployment environment is not the controlled environment"
  return (id, sha)

section
variable (loads : Loads)

/-- A payload that is a text is read, and only a text that is no JSON is caught. -/
def readPayload : Value → Except PyException Value
  | .str text =>
    match loads text with
    | .error .jsonDecodeError => raise "deployment payload is not valid JSON"
    | result => result
  | payload => .ok payload

def checkPayload : Value → Except PyException Str
  | .dict payload => do
    require (Dict.sameKeys payload [lit "schema_version", lit "piteka_attempt_digest"])
      "deployment payload has missing or unsupported fields"
    let version ← Dict.subscript payload (lit "schema_version")
    require version.equalsOne "unsupported deployment payload schema"
    let digest ← Dict.subscript payload (lit "piteka_attempt_digest")
    hexText 64 "piteka_attempt_digest must be 64 lowercase hex characters" digest
  | _ => raise "deployment payload must be an object"

/-- `repository.get("id")` -/
def repositoryIdOf (repository : Dict) : Value := (Dict.get? repository (lit "id")).getD .none

def validate (event : Value) (expectedEnvironment : Str) : Except PyException Validated := do
  let (deployment, repository) ← openEvent event
  let (id, sha) ← checkDeployment deployment expectedEnvironment
  let payload ← Dict.subscript deployment (lit "payload")
  let payload ← readPayload loads payload
  let digest ← checkPayload payload
  let repositoryId ← positiveInt "repository id must be a positive integer"
    (repositoryIdOf repository)
  return ⟨str id, sha, digest, str repositoryId⟩

end

/-! ## What each check accepts -/

variable {loads : Loads} {deployment repository : Dict} {environment sha digest : Str}
  {event payload : Value} {n : Int}

theorem positiveInt_ok {message : String} {v : Value} :
    positiveInt message v = .ok n ↔ v = .int n ∧ 0 < n := by
  cases v with
  | int m =>
    by_cases hm : 0 < m
    · rw [positiveInt, if_pos hm]
      constructor
      · intro h
        obtain rfl := Except.ok.inj h
        exact ⟨rfl, hm⟩
      · rintro ⟨h, _⟩
        exact congrArg _ (Value.int.inj h)
    · rw [positiveInt, if_neg hm]
      refine iff_of_false (fun h => by cases h) fun ⟨h, hn⟩ => ?_
      exact hm (Value.int.inj h ▸ hn)
  | _ => exact iff_of_false (fun h => by cases h) (fun h => by cases h.1)

theorem not_escapes_positiveInt {message : String} {v : Value} :
    ¬ Escapes (positiveInt message v) := by
  cases v with
  | int m => exact not_escapes_ite not_escapes_ok not_escapes_raise
  | _ => exact not_escapes_raise

theorem hexText_ok {k : Nat} {message : String} {v : Value} {text : Str} :
    hexText k message v = .ok text ↔ v = .str text ∧ fullmatch k text = true := by
  cases v with
  | str t =>
    by_cases ht : fullmatch k t = true
    · rw [hexText, if_pos ht]
      constructor
      · intro h
        obtain rfl := Except.ok.inj h
        exact ⟨rfl, ht⟩
      · rintro ⟨h, _⟩
        exact congrArg _ (Value.str.inj h)
    · rw [hexText, if_neg ht]
      refine iff_of_false (fun h => by cases h) fun ⟨h, htext⟩ => ?_
      exact ht (Value.str.inj h ▸ htext)
  | _ => exact iff_of_false (fun h => by cases h) (fun h => by cases h.1)

theorem not_escapes_hexText {k : Nat} {message : String} {v : Value} :
    ¬ Escapes (hexText k message v) := by
  cases v with
  | str t => exact not_escapes_ite not_escapes_ok not_escapes_raise
  | _ => exact not_escapes_raise

theorem equalsStr_iff {v : Value} {text : Str} : v.equalsStr text = true ↔ v = .str text := by
  cases v with
  | str t => exact beq_iff_eq.trans ⟨fun h => congrArg _ h, fun h => Value.str.inj h⟩
  | _ => exact iff_of_false Bool.false_ne_true (fun h => by cases h)

end Piteka.Deploy
