import Piteka.Deploy.DeploymentEvent

/-!
# Well-formed deployment events

What the consumer asks of an event, said by the fields and not by the checks, and
that the checks decide it. The one place where the two may differ is the version of
the payload's schema, so that `isOne` says which values are taken for the integer 1.
-/
namespace Piteka.Deploy

set_option autoImplicit false

open Piteka.Checks Piteka.Python

def LowerHex (n : Nat) (text : Str) : Prop :=
  text.points.length = n ∧ ∀ p ∈ text.points, (48 ≤ p ∧ p ≤ 57) ∨ (97 ≤ p ∧ p ≤ 102)

/-- The event is an object with the two objects under their names. -/
def Opens (event : Value) (deployment repository : Dict) : Prop :=
  ∃ fields, event = .dict fields ∧
    Dict.get? fields (lit "deployment") = some (.dict deployment) ∧
    Dict.get? fields (lit "repository") = some (.dict repository)

/-- The value under `id` is a positive integer, and no Boolean. -/
def HasId (d : Dict) (n : Int) : Prop := Dict.get? d (lit "id") = some (.int n) ∧ 0 < n

structure DeploymentFields (deployment : Dict) (environment : Str) (n : Int) (sha : Str) :
    Prop where
  hasId : HasId deployment n
  hasSha : Dict.get? deployment (lit "sha") = some (.str sha)
  lowerHex : LowerHex 40 sha
  hasRef : Dict.get? deployment (lit "ref") = some (.str sha)
  hasTask : Dict.get? deployment (lit "task") = some (.str (lit "deploy"))
  hasEnvironment : Dict.get? deployment (lit "environment") = some (.str environment)

/-- The value is an object, or a text that reads as one. -/
def IsObject (loads : Loads) (v : Value) (payload : Dict) : Prop :=
  v = .dict payload ∨ ∃ text, v = .str text ∧ loads text = .ok (.dict payload)

structure PayloadFields (isOne : Value → Prop) (payload : Dict) (digest : Str) : Prop where
  keys : ∀ key, Dict.hasKey payload key = true ↔
    key = lit "schema_version" ∨ key = lit "piteka_attempt_digest"
  hasVersion : ∃ v, Dict.get? payload (lit "schema_version") = some v ∧ isOne v
  hasDigest : Dict.get? payload (lit "piteka_attempt_digest") = some (.str digest)
  lowerHex : LowerHex 64 digest

/-- The event is well formed, with these two numbers, this commit and this digest. -/
def Describes (loads : Loads) (isOne : Value → Prop) (event : Value) (environment : Str) (n : Int)
    (sha digest : Str) (m : Int) : Prop :=
  ∃ deployment repository, Opens event deployment repository ∧
    DeploymentFields deployment environment n sha ∧
    (∃ v payload, Dict.get? deployment (lit "payload") = some v ∧ IsObject loads v payload ∧
      PayloadFields isOne payload digest) ∧
    HasId repository m

def WellFormed (loads : Loads) (isOne : Value → Prop) (event : Value) (environment : Str) : Prop :=
  ∃ n sha digest m, Describes loads isOne event environment n sha digest m

/-- The value is the integer 1. -/
def IntegerOne (v : Value) : Prop := v = .int 1

/-- The Boolean and the float that are equal to the integer 1. -/
def LooseOne (v : Value) : Prop := v = .bool true ∨ v = .float oneBits

/-! ## The checks decide it -/

variable {loads : Loads} {deployment repository : Dict} {environment sha digest : Str}
  {event payload : Value} {n : Int}

theorem fullmatch_iff {k : Nat} {text : Str} : fullmatch k text = true ↔ LowerHex k text := by
  simp only [fullmatch, LowerHex, isLowerHex, Bool.and_eq_true, beq_iff_eq, List.all_eq_true,
    Bool.or_eq_true, decide_eq_true_eq]

theorem equalsOne_iff {v : Value} : v.equalsOne = true ↔ IntegerOne v ∨ LooseOne v := by
  cases v with
  | int m =>
    simp only [Value.equalsOne, IntegerOne, LooseOne, beq_iff_eq, Value.int.injEq, reduceCtorEq,
      or_self, or_false]
  | bool b =>
    simp only [Value.equalsOne, IntegerOne, LooseOne, Value.bool.injEq, reduceCtorEq, or_false,
      false_or]
  | float bits =>
    simp only [Value.equalsOne, IntegerOne, LooseOne, beq_iff_eq, Value.float.injEq, reduceCtorEq,
      false_or]
  | _ =>
    refine iff_of_false Bool.false_ne_true ?_
    rintro (h | h | h) <;> cases h

/-- The event is an object without one of the two keys and with a key that is neither. -/
def MissingKey (event : Value) : Prop :=
  ∃ fields, event = .dict fields ∧
    (∃ key, Dict.hasKey fields key = true ∧ key ≠ lit "deployment" ∧ key ≠ lit "repository") ∧
    (Dict.hasKey fields (lit "deployment") = false ∨ Dict.hasKey fields (lit "repository") = false)

theorem opensProperly {fields : Dict} :
    (!Dict.properSubset fields [lit "deployment", lit "repository"]) = true ↔
      (∃ key, Dict.hasKey fields key = true ∧ key ≠ lit "deployment" ∧ key ≠ lit "repository") ∨
      (Dict.hasKey fields (lit "deployment") = true ∧
        Dict.hasKey fields (lit "repository") = true) := by
  rw [Bool.not_eq_true', ← Bool.not_eq_true, Dict.properSubset_iff, not_and_or]
  simp only [List.mem_cons, List.not_mem_nil, or_false, exists_eq_or_imp, exists_eq_left,
    not_forall, not_or, Bool.not_eq_false, exists_prop]

theorem openEvent_ok :
    openEvent event = .ok (deployment, repository) ↔ Opens event deployment repository := by
  cases event with
  | dict fields =>
    unfold openEvent
    simp only [bind_eq_ok, require_ok, exists_const, Dict.subscript_ok]
    constructor
    · rintro ⟨_, d, hd, r, hr, h⟩
      split at h
      · obtain ⟨rfl, rfl⟩ := Prod.mk.inj (Except.ok.inj h)
        exact ⟨fields, rfl, hd, hr⟩
      · cases h
    · rintro ⟨fields', hfields, hd, hr⟩
      obtain rfl := Value.dict.inj hfields
      refine ⟨opensProperly.mpr (Or.inr ⟨?_, ?_⟩), _, hd, _, hr, rfl⟩
      · exact Dict.hasKey_iff.mpr ⟨_, hd⟩
      · exact Dict.hasKey_iff.mpr ⟨_, hr⟩
  | _ =>
    refine iff_of_false (fun h => by cases h) ?_
    rintro ⟨fields, hfields, _⟩
    cases hfields

/-- What leaves the opening of the event is a lookup of a missing key. -/
theorem escapes_openEvent : Escapes (openEvent event) ↔ MissingKey event := by
  cases event with
  | dict fields =>
    unfold openEvent
    constructor
    · intro h
      rcases escapes_bind.mp h with h | ⟨_, hproper, h⟩
      · exact absurd h not_escapes_require
      have hmissing : Dict.hasKey fields (lit "deployment") = false ∨
          Dict.hasKey fields (lit "repository") = false := by
        rcases escapes_bind.mp h with h | ⟨d, _, h⟩
        · exact Or.inl (Dict.not_hasKey_iff.mpr (Dict.escapes_subscript.mp h))
        rcases escapes_bind.mp h with h | ⟨r, _, h⟩
        · exact Or.inr (Dict.not_hasKey_iff.mpr (Dict.escapes_subscript.mp h))
        split at h
        · exact absurd h not_escapes_ok
        · exact absurd h not_escapes_raise
      rcases opensProperly.mp (require_ok.mp hproper) with hother | ⟨hdep, hrep⟩
      · exact ⟨fields, rfl, hother, hmissing⟩
      · rw [hdep, hrep] at hmissing
        rcases hmissing with h | h <;> cases h
    · rintro ⟨fields', hfields, hother, hmissing⟩
      obtain rfl := Value.dict.inj hfields
      refine escapes_bind.mpr
        (Or.inr ⟨(), require_ok.mpr (opensProperly.mpr (Or.inl hother)), ?_⟩)
      cases hd : Dict.get? fields (lit "deployment") with
      | none => exact escapes_bind.mpr (Or.inl (Dict.escapes_subscript.mpr hd))
      | some d =>
        refine escapes_bind.mpr (Or.inr ⟨d, Dict.subscript_ok.mpr hd, ?_⟩)
        rcases hmissing with h | h
        · rw [Dict.not_hasKey_iff.mp h] at hd
          cases hd
        · exact escapes_bind.mpr (Or.inl (Dict.escapes_subscript.mpr (Dict.not_hasKey_iff.mp h)))
  | _ =>
    refine iff_of_false not_escapes_raise ?_
    rintro ⟨fields, hfields, _⟩
    cases hfields

theorem checkDeployment_ok :
    checkDeployment deployment environment = .ok (n, sha) ↔
      DeploymentFields deployment environment n sha ∧
        ∃ v, Dict.get? deployment (lit "payload") = some v := by
  unfold checkDeployment
  simp only [bind_eq_ok, require_ok, exists_const, Dict.subscript_ok, positiveInt_ok, hexText_ok,
    equalsStr_iff, fullmatch_iff]
  constructor
  · rintro ⟨hall, _, hid, _, ⟨rfl, hpos⟩, _, hsha, _, ⟨rfl, hhex⟩, _, href, rfl, _, htask, rfl,
      _, henv, rfl, h⟩
    obtain ⟨rfl, rfl⟩ := Prod.mk.inj (Except.ok.inj h)
    refine ⟨⟨⟨hid, hpos⟩, hsha, hhex, href, htask, henv⟩, ?_⟩
    exact Dict.hasKey_iff.mp (Dict.hasAll_iff.mp hall (lit "payload") (by simp [required]))
  · rintro ⟨⟨⟨hid, hpos⟩, hsha, hhex, href, htask, henv⟩, v, hv⟩
    refine ⟨?_, _, hid, _, ⟨rfl, hpos⟩, _, hsha, _, ⟨rfl, hhex⟩, _, href, rfl, _, htask, rfl,
      _, henv, rfl, rfl⟩
    refine Dict.hasAll_iff.mpr fun name hname => Dict.hasKey_iff.mpr ?_
    simp only [required, List.mem_cons, List.not_mem_nil, or_false] at hname
    rcases hname with rfl | rfl | rfl | rfl | rfl | rfl
    exacts [⟨_, hid⟩, ⟨_, hsha⟩, ⟨_, href⟩, ⟨_, htask⟩, ⟨_, henv⟩, ⟨v, hv⟩]

/-- The required fields are looked for first, so that no later lookup fails. -/
theorem not_escapes_checkDeployment : ¬ Escapes (checkDeployment deployment environment) := by
  unfold checkDeployment
  rw [escapes_bind]
  rintro (h | ⟨_, hall, h⟩)
  · exact not_escapes_require h
  have hkey : ∀ name ∈ required, ¬ Escapes (Dict.subscript deployment name) := by
    intro name hname
    obtain ⟨v, hv⟩ := Dict.hasKey_iff.mp (Dict.hasAll_iff.mp (require_ok.mp hall) name hname)
    exact Dict.not_escapes_subscript hv
  refine not_escapes_bind (hkey (lit "id") (by simp [required])) (fun id => ?_) h
  refine not_escapes_bind not_escapes_positiveInt fun n => ?_
  refine not_escapes_bind (hkey (lit "sha") (by simp [required])) fun sha => ?_
  refine not_escapes_bind not_escapes_hexText fun sha => ?_
  refine not_escapes_bind (hkey (lit "ref") (by simp [required])) fun ref => ?_
  refine not_escapes_bind not_escapes_require fun _ => ?_
  refine not_escapes_bind (hkey (lit "task") (by simp [required])) fun task => ?_
  refine not_escapes_bind not_escapes_require fun _ => ?_
  refine not_escapes_bind (hkey (lit "environment") (by simp [required])) fun env => ?_
  exact not_escapes_bind not_escapes_require fun _ => not_escapes_ok

theorem checkPayload_ok {v : Value} :
    checkPayload v = .ok digest ↔
      ∃ payload, v = .dict payload ∧ PayloadFields (fun v => v.equalsOne = true) payload digest := by
  cases v with
  | dict payload =>
    unfold checkPayload
    simp only [bind_eq_ok, require_ok, exists_const, Dict.subscript_ok, hexText_ok, fullmatch_iff,
      Dict.sameKeys_iff, List.mem_cons, List.not_mem_nil, or_false]
    constructor
    · rintro ⟨hkeys, v, hv, hone, _, hdigest, rfl, hhex⟩
      exact ⟨payload, rfl, hkeys, ⟨v, hv, hone⟩, hdigest, hhex⟩
    · rintro ⟨payload', h, hkeys, ⟨v, hv, hone⟩, hdigest, hhex⟩
      obtain rfl := Value.dict.inj h
      exact ⟨hkeys, v, hv, hone, _, hdigest, rfl, hhex⟩
  | _ =>
    refine iff_of_false (fun h => by cases h) ?_
    rintro ⟨payload, h, _⟩
    cases h

/-- The keys are compared first, so that no later lookup fails. -/
theorem not_escapes_checkPayload {v : Value} : ¬ Escapes (checkPayload v) := by
  cases v with
  | dict payload =>
    unfold checkPayload
    rw [escapes_bind]
    rintro (h | ⟨_, hkeys, h⟩)
    · exact not_escapes_require h
    have hkey : ∀ name ∈ [lit "schema_version", lit "piteka_attempt_digest"],
        ¬ Escapes (Dict.subscript payload name) := by
      intro name hname
      obtain ⟨v, hv⟩ := Dict.hasKey_iff.mp ((Dict.sameKeys_iff.mp (require_ok.mp hkeys) name).mpr
        hname)
      exact Dict.not_escapes_subscript hv
    refine not_escapes_bind (hkey (lit "schema_version") (by simp)) (fun version => ?_) h
    refine not_escapes_bind not_escapes_require fun _ => ?_
    exact not_escapes_bind (hkey (lit "piteka_attempt_digest") (by simp))
      fun digest => not_escapes_hexText
  | _ => exact not_escapes_raise

theorem readPayload_ok {v : Value} {payload : Dict} :
    readPayload loads v = .ok (.dict payload) ↔ IsObject loads v payload := by
  cases v with
  | str text =>
    unfold readPayload IsObject
    simp only [reduceCtorEq, false_or, Value.str.injEq, exists_eq_left']
    cases loads text with
    | ok read => exact Iff.rfl
    | error e => cases e <;> exact iff_of_false (fun h => by cases h) (fun h => by cases h)
  | dict d =>
    unfold readPayload IsObject
    simp only [reduceCtorEq, false_and, exists_false, or_false, Except.ok.injEq]
  | _ =>
    unfold readPayload IsObject
    simp only [reduceCtorEq, false_and, exists_false, or_false, Except.ok.injEq]

/-- Of the reader's exceptions only that of a text that is no JSON is caught. -/
theorem escapes_readPayload {v : Value} :
    Escapes (readPayload loads v) ↔ ∃ text, v = .str text ∧ Escapes (loads text) := by
  cases v with
  | str text =>
    unfold readPayload
    simp only [Value.str.injEq, exists_eq_left']
    cases loads text with
    | ok read => exact Iff.rfl
    | error e =>
      cases e with
      | jsonDecodeError =>
        refine iff_of_false not_escapes_raise ?_
        rintro ⟨_, h, he⟩
        obtain rfl := Except.error.inj h
        cases he
      | _ => exact Iff.rfl
  | _ =>
    refine iff_of_false not_escapes_ok ?_
    rintro ⟨_, h, _⟩
    cases h

theorem repositoryIdOf_int : repositoryIdOf repository = .int n ↔
    Dict.get? repository (lit "id") = some (.int n) := by
  unfold repositoryIdOf
  cases Dict.get? repository (lit "id") with
  | none => exact iff_of_false (fun h => by cases h) (fun h => by cases h)
  | some v => exact Option.some.injEq .. ▸ Iff.rfl

/-! ## The whole check -/

/-- What the checks before the payload ask, and a text under `payload` that the reader fails on
with another exception than a `ValueError`. -/
def LoadsFails (loads : Loads) (event : Value) (environment : Str) : Prop :=
  ∃ deployment repository n sha text, Opens event deployment repository ∧
    DeploymentFields deployment environment n sha ∧
    Dict.get? deployment (lit "payload") = some (.str text) ∧ Escapes (loads text)

theorem validate_ok {r : Validated} :
    validate loads event environment = .ok r ↔
      ∃ n sha digest m, Describes loads (fun v => v.equalsOne = true) event environment n sha
        digest m ∧ r = ⟨str n, sha, digest, str m⟩ := by
  unfold validate
  simp only [bind_eq_ok, Prod.exists, openEvent_ok, checkDeployment_ok, Dict.subscript_ok,
    checkPayload_ok, positiveInt_ok, repositoryIdOf_int]
  constructor
  · rintro ⟨d, rep, hopen, n, sha, ⟨hfields, _⟩, v, hv, _, hread, digest, ⟨payload, rfl, hpayload⟩,
      m, ⟨hm, hpos⟩, h⟩
    refine ⟨n, sha, digest, m, ⟨d, rep, hopen, hfields, ⟨v, payload, hv, ?_, hpayload⟩, hm, hpos⟩,
      (Except.ok.inj h).symm⟩
    exact readPayload_ok.mp hread
  · rintro ⟨n, sha, digest, m, ⟨d, rep, hopen, hfields, ⟨v, payload, hv, hobject, hpayload⟩, hid,
      hpos⟩, rfl⟩
    exact ⟨d, rep, hopen, n, sha, ⟨hfields, v, hv⟩, v, hv, _, readPayload_ok.mpr hobject, digest,
      ⟨payload, rfl, hpayload⟩, m, ⟨hid, hpos⟩, rfl⟩

theorem escapes_validate :
    Escapes (validate loads event environment) ↔
      MissingKey event ∨ LoadsFails loads event environment := by
  unfold validate
  rw [escapes_bind, escapes_openEvent]
  refine or_congr_right ?_
  simp only [Prod.exists, openEvent_ok]
  constructor
  · rintro ⟨d, rep, hopen, h⟩
    rcases escapes_bind.mp h with h | ⟨⟨n, sha⟩, hchecked, h⟩
    · exact absurd h not_escapes_checkDeployment
    obtain ⟨hfields, v, hv⟩ := checkDeployment_ok.mp hchecked
    rcases escapes_bind.mp h with h | ⟨_, hsub, h⟩
    · exact absurd h (Dict.not_escapes_subscript hv)
    obtain rfl := Option.some.inj (hv.symm.trans (Dict.subscript_ok.mp hsub))
    rcases escapes_bind.mp h with h | ⟨_, _, h⟩
    · obtain ⟨text, rfl, htext⟩ := escapes_readPayload.mp h
      exact ⟨d, rep, n, sha, text, hopen, hfields, hv, htext⟩
    · refine absurd h (not_escapes_bind not_escapes_checkPayload fun digest => ?_)
      exact not_escapes_bind not_escapes_positiveInt fun m => not_escapes_ok
  · rintro ⟨d, rep, n, sha, text, hopen, hfields, hv, htext⟩
    refine ⟨d, rep, hopen, escapes_bind.mpr (Or.inr ⟨(n, sha), ?_, ?_⟩)⟩
    · exact checkDeployment_ok.mpr ⟨hfields, _, hv⟩
    refine escapes_bind.mpr (Or.inr ⟨_, Dict.subscript_ok.mpr hv, ?_⟩)
    exact escapes_bind.mpr (Or.inl (escapes_readPayload.mpr ⟨text, rfl, htext⟩))

end Piteka.Deploy
