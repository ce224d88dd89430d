import Piteka.Application.EventTime
import Piteka.Application.WebhookScenario

/-!
# The two envelopes of a webhook

A status nested under `deployment_status` and a status whose fields stand beside
`deployment` are one event to the parser, and the time that it reads is the instant
of the field.
-/
namespace Piteka.Safety

set_option autoImplicit false

open Piteka.Storage Piteka.Application

variable {cd : Codec} {d s v : Json}

def nestedEnvelope (d s : Json) : Json := .object [("deployment", d), ("deployment_status", s)]

def flatEnvelope (d : Json) (fields : List (String × Json)) : Json :=
  .object (("deployment", d) :: fields)

/-- Two objects with the same lookups; the reader does not keep the order of the fields. -/
def SameFields (v w : Json) : Prop := ∀ key, v.get key = w.get key

/-- What the parser reads of a deployment and of the fields of a status. -/
def readEvent (cd : Codec) (deployment : Json) (field : String → Option Json) :
    Option DeploymentStatusEvent := do
  let id ← deployment.get "id"
  let deploymentId ← id.asU64
  let stateValue ← field "state"
  let state ← stateValue.asStr
  let updatedAtValue ← field "updated_at"
  let updatedAt ← parseUpdatedAt cd updatedAtValue
  return { deploymentId, state, description := (field "description").bind Json.asStr,
           targetUrl := (field "target_url").bind Json.asStr, updatedAt }

theorem parse_eq_readEvent {payload : Array UInt8} (hv : cd.fromSlice payload = some v)
    (hd : v.get "deployment" = some d) : parseDeploymentStatus cd payload =
      readEvent cd d ((v.get "deployment_status").getD v).get := by
  unfold parseDeploymentStatus
  rw [hv, Option.bind_eq_bind, Option.bind_some, hd]
  rfl

/-- Only four fields of a status are read. -/
theorem readEvent_congr {field field' : String → Option Json}
    (h : ∀ key, key ≠ "deployment" → field key = field' key) :
    readEvent cd d field = readEvent cd d field' := by
  unfold readEvent
  rw [h "state" (by decide), h "updated_at" (by decide), h "description" (by decide),
    h "target_url" (by decide)]

theorem parse_nested {payload : Array UInt8} (hv : cd.fromSlice payload = some v)
    (hsame : SameFields v (nestedEnvelope d s)) :
    parseDeploymentStatus cd payload = readEvent cd d s.get := by
  have hd : v.get "deployment" = some d := (hsame _).trans (by simp [nestedEnvelope, Json.get])
  have hs : v.get "deployment_status" = some s :=
    (hsame _).trans (by simp [nestedEnvelope, Json.get])
  rw [parse_eq_readEvent hv hd, hs, Option.getD_some]

theorem flatEnvelope_get {fields : List (String × Json)} {key : String} (h : key ≠ "deployment") :
    (flatEnvelope d fields).get key = (Json.object fields).get key := by
  simp [flatEnvelope, Json.get, Ne.symm h]

theorem parse_flat {payload : Array UInt8} {fields : List (String × Json)}
    (hv : cd.fromSlice payload = some v) (hsame : SameFields v (flatEnvelope d fields))
    (hfree : (Json.object fields).get "deployment_status" = none) :
    parseDeploymentStatus cd payload = readEvent cd d (Json.object fields).get := by
  have hd : v.get "deployment" = some d := (hsame _).trans (by simp [flatEnvelope, Json.get])
  have hs : v.get "deployment_status" = none := by
    rw [hsame, flatEnvelope_get (by decide), hfree]
  rw [parse_eq_readEvent hv hd, hs, Option.getD_none]
  exact readEvent_congr fun key hkey => (hsame key).trans (flatEnvelope_get hkey)

/-- The time of an event is the instant of the status's field. -/
theorem readEvent_time {field : String → Option Json} {event : DeploymentStatusEvent}
    (h : readEvent cd d field = some event) :
    ∃ value, field "updated_at" = some value ∧
      instant cd value = some (event.updatedAt.toNat : Int) := by
  simp only [readEvent, Option.bind_eq_bind, Option.bind_eq_some_iff] at h
  obtain ⟨_, _, _, _, _, _, _, _, value, hvalue, updatedAt, htime, hevent⟩ := h
  obtain rfl := Option.some.inj hevent
  exact ⟨value, hvalue, parseUpdatedAt_iff.mp htime⟩

theorem envelopes_agree {fields : List (String × Json)} {nested flat : Array UInt8} {w : Json}
    (hstatus : (Json.object fields).get "deployment_status" = none)
    (hnested : cd.fromSlice nested = some v)
    (hv : SameFields v (nestedEnvelope d (.object fields)))
    (hflat : cd.fromSlice flat = some w) (hw : SameFields w (flatEnvelope d fields)) :
    parseDeploymentStatus cd nested = parseDeploymentStatus cd flat ∧
      (∀ event, parseDeploymentStatus cd flat = some event →
        ∃ value, (Json.object fields).get "updated_at" = some value ∧
          instant cd value = some (event.updatedAt.toNat : Int)) ∧
      ∀ value, (Json.object fields).get "updated_at" = some value →
        (∀ t, instant cd value = some t → t < 0) → parseDeploymentStatus cd flat = none := by
  rw [parse_nested hnested hv, parse_flat hflat hw hstatus]
  refine ⟨rfl, fun event hevent => readEvent_time hevent, fun value hvalue hnegative => ?_⟩
  refine Option.eq_none_iff_forall_ne_some.mpr fun event hevent => ?_
  obtain ⟨value', hvalue', htime⟩ := readEvent_time hevent
  obtain rfl := Option.some.inj (hvalue.symm.trans hvalue')
  have hlt := hnegative _ htime
  omega

def sampleFields : List (String × Json) :=
  [("state", .string "success"), ("updated_at", .ofUInt64 200)]

def nestedSample : Json := nestedEnvelope (.object [("id", .ofUInt64 42)]) (.object sampleFields)

def flatSample : Json := flatEnvelope (.object [("id", .ofUInt64 42)]) sampleFields

theorem envelopes_agree_sample :
    let cd := codecReading [nestedSample, flatSample]
    let nested := asBytes (compact nestedSample)
    let flat := asBytes (compact flatSample)
    parseDeploymentStatus cd nested = parseDeploymentStatus cd flat ∧
      (∀ event, parseDeploymentStatus cd flat = some event →
        ∃ value, (Json.object sampleFields).get "updated_at" = some value ∧
          instant cd value = some (event.updatedAt.toNat : Int)) ∧
      ∀ value, (Json.object sampleFields).get "updated_at" = some value →
        (∀ t, instant cd value = some t → t < 0) → parseDeploymentStatus cd flat = none :=
  envelopes_agree (by decide) (codecReading_first ..) (fun _ => rfl)
    (codecReading_second (by decide +kernel)) (fun _ => rfl)

end Piteka.Safety
