import Piteka.Application.ToolBoundary
import Piteka.Checks.Guards

/-!
# Paths of a tool call

What the checks of a tool establish of its arguments, and the calls that it can
have made with their values: an object tool makes one, and a mutation is behind a
recomputation of the intent that returned the one supplied (`ToolPath`).
-/
namespace Piteka.Application

set_option autoImplicit false

open Piteka.Interleaving Piteka.Checks Piteka.Domain Piteka.Storage Piteka.Text

/-- A deployment's fields as `validate_deployment_fields` leaves them. -/
structure StableFields (requestId : String) (repositoryId : UInt64) (commitSha : String)
    (environmentId : UInt64) : Prop where
  requestId : trimIsEmpty requestId = false
  repositoryId : repositoryId ≠ 0
  environmentId : environmentId ≠ 0
  length : commitSha.toList.length = 40
  digits : ∀ c ∈ commitSha.toList, c ∈ "0123456789abcdef".toList

theorem lowerHex_char {b : UInt8} (h : Hex.isLowerDigit b) :
    b.toNat < 128 ∧ Ascii.charOf b ∈ "0123456789abcdef".toList := by
  have hall : ∀ n < 256, Hex.isLowerDigit (UInt8.ofNat n) →
      n < 128 ∧ Char.ofNat n ∈ "0123456789abcdef".toList := by decide +kernel
  have hb := hall b.toNat b.toNat_lt
  rw [UInt8.ofNat_toNat] at hb
  exact hb h

theorem validSha_chars {commitSha : String} (h : validSha commitSha) :
    commitSha.toList.length = 40 ∧ ∀ c ∈ commitSha.toList, c ∈ "0123456789abcdef".toList := by
  obtain ⟨hlen, hall⟩ := Bool.and_eq_true_iff.mp h
  have hbytes : ∀ b ∈ Ascii.bytes commitSha, Hex.isLowerDigit b := List.all_eq_true.mp hall
  have hchars := Ascii.toList_eq fun b hb => (lowerHex_char (hbytes b hb)).1
  rw [hchars, List.length_map]
  refine ⟨beq_iff_eq.mp hlen, fun c hc => ?_⟩
  obtain ⟨b, hb, rfl⟩ := List.mem_map.mp hc
  exact (lowerHex_char (hbytes b hb)).2

theorem validateDeploymentFields_ok {requestId commitSha : String}
    {repositoryId environmentId : UInt64} {u : Unit}
    (h : validateDeploymentFields requestId repositoryId commitSha environmentId = .ok u) :
    StableFields requestId repositoryId commitSha environmentId := by
  unfold validateDeploymentFields at h
  split at h
  · cases h
  · next hno =>
    simp only [Bool.not_eq_true, Bool.or_eq_false_iff, Bool.not_eq_false', beq_eq_false_iff_ne] at hno
    obtain ⟨⟨⟨hr, hrepo⟩, henv⟩, hsha⟩ := hno
    obtain ⟨hlen, hdigits⟩ := validSha_chars hsha
    exact ⟨hr, hrepo, henv, hlen, hdigits⟩

/-- The fields of the arguments, in the order of the record. -/
def RequestDeployment.fields (x : RequestDeployment) : List (String × Json) :=
  [("request_id", .string x.requestId), ("repository_id", .ofUInt64 x.repositoryId),
    ("commit_sha", .string x.commitSha), ("environment_id", .ofUInt64 x.environmentId),
    ("intent_id", .string x.intentId)]

def ExecuteDeployment.fields (x : ExecuteDeployment) : List (String × Json) :=
  [("request_id", .string x.requestId), ("mandate_id", .string x.mandateId),
    ("repository_id", .ofUInt64 x.repositoryId), ("commit_sha", .string x.commitSha),
    ("environment_id", .ofUInt64 x.environmentId), ("intent_id", .string x.intentId)]

/-- What the request tool has established of its arguments. -/
structure RequestChecked (cd : ToolCodec) (arguments : Json) (input : RequestDeployment) : Prop where
  size : (cd.toVec arguments).size ≤ 32 * 1024
  presents : Presents arguments input.fields
  fields : StableFields input.requestId input.repositoryId input.commitSha input.environmentId

structure ExecuteChecked (cd : ToolCodec) (arguments : Json) (input : ExecuteDeployment) : Prop where
  size : (cd.toVec arguments).size ≤ 32 * 1024
  presents : Presents arguments input.fields
  fields : StableFields input.requestId input.repositoryId input.commitSha input.environmentId
  mandateId : trimIsEmpty input.mandateId = false

/-- What a tool that takes an object id has established of its arguments. -/
structure ObjectChecked (cd : ToolCodec) (arguments : Json) (id : String) : Prop where
  size : (cd.toVec arguments).size ≤ 32 * 1024
  presents : Presents arguments [("id", .string id)]
  id : trimIsEmpty id = false

theorem checkObject_ok {cd : ToolCodec} {arguments : Json} {input : ObjectRef}
    (hsize : ¬ maxArgumentBytes < (cd.toVec arguments).size)
    (h : checkObject cd arguments = .ok input) : ObjectChecked cd arguments input.id := by
  obtain ⟨x, hd, h⟩ := bind_eq_ok.mp h
  obtain ⟨u, hv, h⟩ := bind_eq_ok.mp h
  obtain rfl := Except.ok.inj h
  obtain ⟨values, rfl, hpresents⟩ := decode_ok hd
  exact ⟨Nat.le_of_not_lt hsize, hpresents, Bool.eq_false_iff.mpr (guard_eq_ok.mp hv).1⟩

theorem checkRequest_ok {cd : ToolCodec} {arguments : Json} {input : RequestDeployment}
    (hsize : ¬ maxArgumentBytes < (cd.toVec arguments).size)
    (h : checkRequest cd arguments = .ok input) : RequestChecked cd arguments input := by
  obtain ⟨x, hd, h⟩ := bind_eq_ok.mp h
  obtain ⟨u, hv, h⟩ := bind_eq_ok.mp h
  obtain rfl := Except.ok.inj h
  obtain ⟨values, rfl, hpresents⟩ := decode_ok hd
  exact ⟨Nat.le_of_not_lt hsize, hpresents, validateDeploymentFields_ok hv⟩

theorem checkExecute_ok {cd : ToolCodec} {arguments : Json} {input : ExecuteDeployment}
    (hsize : ¬ maxArgumentBytes < (cd.toVec arguments).size)
    (h : checkExecute cd arguments = .ok input) : ExecuteChecked cd arguments input := by
  obtain ⟨x, hd, h⟩ := bind_eq_ok.mp h
  obtain ⟨u, hv, h⟩ := bind_eq_ok.mp h
  obtain ⟨hm, h⟩ := guard_eq_ok.mp h
  obtain rfl := Except.ok.inj h
  obtain ⟨values, rfl, hpresents⟩ := decode_ok hd
  exact ⟨Nat.le_of_not_lt hsize, hpresents, validateDeploymentFields_ok hv,
    Bool.eq_false_iff.mpr hm⟩

/-- One tool call, as the transport makes it. -/
structure ToolInvocation where
  identity : McpIdentity
  name : String
  arguments : Json

abbrev ToolResult := Except McpError Json

def ToolInvocation.program (cd : ToolCodec) (c : ToolInvocation) :
    Program ToolCall ToolCall.Answer ToolResult :=
  (callTool cd c.identity c.name c.arguments).run

abbrev ToolPathway := List ((op : ToolCall) × op.Answer)

/-- The recomputation of a deployment's intent for the tenant of the transport. -/
def ToolInvocation.recompute (c : ToolInvocation) (repositoryId : UInt64) (commitSha : String)
    (environmentId : UInt64) (answer : Except McpError String) : (op : ToolCall) × op.Answer :=
  ⟨.recomputeIntentId c.identity.tenantId repositoryId commitSha environmentId, answer⟩

/-- The tool behind which a method of the backend stands. -/
def ObjectMethod.tool : ObjectMethod → String
  | .getActionStatus => "piteka_get_action_status"
  | .getReceipt => "piteka_get_receipt"
  | .exportDisputeBundle => "piteka_export_dispute_bundle"
  | .verifyBundle => "piteka_verify_bundle"

/-- The deployment that the arguments of a tool call are about. -/
inductive Concerns (cd : ToolCodec) (c : ToolInvocation) : UInt64 → String → UInt64 → Prop
  | request (input : RequestDeployment) (hname : c.name = "piteka_request_deployment")
      (hc : RequestChecked cd c.arguments input) :
      Concerns cd c input.repositoryId input.commitSha input.environmentId
  | execute (input : ExecuteDeployment) (hname : c.name = "piteka_execute_approved_deployment")
      (hc : ExecuteChecked cd c.arguments input) :
      Concerns cd c input.repositoryId input.commitSha input.environmentId

theorem Concerns.name {cd : ToolCodec} {c : ToolInvocation} {repositoryId : UInt64}
    {commitSha : String} {environmentId : UInt64} (hc : Concerns cd c repositoryId commitSha environmentId) :
    c.name = "piteka_request_deployment" ∨ c.name = "piteka_execute_approved_deployment" := by
  cases hc with
  | request input hname => exact Or.inl hname
  | execute input hname => exact Or.inr hname

/-- The calls that a tool call can have made, with the values of its arguments. -/
inductive ToolPath (cd : ToolCodec) (c : ToolInvocation) : ToolPathway → Prop
  | silent : ToolPath cd c []
  | object (method : ObjectMethod) (id : String) (r : ToolResult) (hname : c.name = method.tool)
      (hc : ObjectChecked cd c.arguments id) : ToolPath cd c [⟨.object method c.identity id, r⟩]
  | recomputed (repositoryId : UInt64) (commitSha : String) (environmentId : UInt64)
      (r : Except McpError String) (hc : Concerns cd c repositoryId commitSha environmentId) :
      ToolPath cd c [c.recompute repositoryId commitSha environmentId r]
  | requested (input : RequestDeployment) (r : ToolResult)
      (hname : c.name = "piteka_request_deployment") (hc : RequestChecked cd c.arguments input) :
      ToolPath cd c [c.recompute input.repositoryId input.commitSha input.environmentId
        (.ok input.intentId), ⟨.requestDeployment c.identity input, r⟩]
  | executed (input : ExecuteDeployment) (r : ToolResult)
      (hname : c.name = "piteka_execute_approved_deployment")
      (hc : ExecuteChecked cd c.arguments input) :
      ToolPath cd c [c.recompute input.repositoryId input.commitSha input.environmentId
        (.ok input.intentId), ⟨.executeApprovedDeployment c.identity input, r⟩]

theorem compareIntent_ok {supplied : String} {r : Except McpError String} {u : Unit}
    (h : compareIntent supplied r = .ok u) : r = .ok supplied := by
  cases r with
  | error e => cases h
  | ok computed =>
    dsimp only [compareIntent] at h
    split at h
    · cases h
    · next heq => rw [not_not.mp heq]

section
variable {cd : ToolCodec} {c : ToolInvocation} {h : ToolPathway}
  {q : Program ToolCall ToolCall.Answer ToolResult}

/-- A path of `validate_intent` and one call of the backend behind it. -/
theorem validated_path {repositoryId : UInt64} {commitSha : String} {environmentId : UInt64}
    {supplied : String} {next : ToolUse Json}
    (hf : (validateIntent c.identity repositoryId commitSha environmentId supplied >>=
      fun _ => next).run.Follows h q) :
    h = [] ∨ (∃ r, h = [c.recompute repositoryId commitSha environmentId r]) ∨
      ∃ t, h = c.recompute repositoryId commitSha environmentId (.ok supplied) :: t ∧
        next.run.Follows t q := by
  rcases Program.follows_call.mp hf with ⟨rfl, _⟩ | ⟨r, t, rfl, ht⟩
  · exact Or.inl rfl
  dsimp only at ht
  cases hr : compareIntent supplied r with
  | error e =>
    rw [hr] at ht
    obtain ⟨rfl, _⟩ := Program.follows_ret.mp ht
    exact Or.inr (Or.inl ⟨r, rfl⟩)
  | ok u =>
    rw [hr] at ht
    rw [compareIntent_ok hr]
    exact Or.inr (Or.inr ⟨t, rfl, ht⟩)

theorem requestTool_path (hname : c.name = "piteka_request_deployment")
    (hsize : ¬ maxArgumentBytes < (cd.toVec c.arguments).size)
    (hf : (requestTool cd c.identity c.arguments).run.Follows h q) : ToolPath cd c h := by
  unfold requestTool at hf
  cases hc : checkRequest cd c.arguments with
  | error e =>
    rw [hc] at hf
    obtain ⟨rfl, _⟩ := Program.follows_ret.mp hf
    exact .silent
  | ok input =>
    rw [hc] at hf
    rcases validated_path hf with rfl | ⟨r, rfl⟩ | ⟨t, rfl, ht⟩
    · exact .silent
    · exact .recomputed _ _ _ r (.request input hname (checkRequest_ok hsize hc))
    rcases Program.follows_call.mp ht with ⟨rfl, _⟩ | ⟨r, t, rfl, hr⟩
    · exact .recomputed _ _ _ _ (.request input hname (checkRequest_ok hsize hc))
    · obtain ⟨rfl, _⟩ := Program.follows_ret.mp hr
      exact .requested input r hname (checkRequest_ok hsize hc)

theorem executeTool_path (hname : c.name = "piteka_execute_approved_deployment")
    (hsize : ¬ maxArgumentBytes < (cd.toVec c.arguments).size)
    (hf : (executeTool cd c.identity c.arguments).run.Follows h q) : ToolPath cd c h := by
  unfold executeTool at hf
  cases hc : checkExecute cd c.arguments with
  | error e =>
    rw [hc] at hf
    obtain ⟨rfl, _⟩ := Program.follows_ret.mp hf
    exact .silent
  | ok input =>
    rw [hc] at hf
    rcases validated_path hf with rfl | ⟨r, rfl⟩ | ⟨t, rfl, ht⟩
    · exact .silent
    · exact .recomputed _ _ _ r (.execute input hname (checkExecute_ok hsize hc))
    rcases Program.follows_call.mp ht with ⟨rfl, _⟩ | ⟨r, t, rfl, hr⟩
    · exact .recomputed _ _ _ _ (.execute input hname (checkExecute_ok hsize hc))
    · obtain ⟨rfl, _⟩ := Program.follows_ret.mp hr
      exact .executed input r hname (checkExecute_ok hsize hc)

theorem objectTool_path (method : ObjectMethod) (hname : c.name = method.tool)
    (hsize : ¬ maxArgumentBytes < (cd.toVec c.arguments).size)
    (hf : (objectTool method cd c.identity c.arguments).run.Follows h q) : ToolPath cd c h := by
  unfold objectTool at hf
  cases hc : checkObject cd c.arguments with
  | error e =>
    rw [hc] at hf
    obtain ⟨rfl, _⟩ := Program.follows_ret.mp hf
    exact .silent
  | ok input =>
    rw [hc] at hf
    rcases Program.follows_call.mp hf with ⟨rfl, _⟩ | ⟨r, t, rfl, hr⟩
    · exact .silent
    · obtain ⟨rfl, _⟩ := Program.follows_ret.mp hr
      exact .object method input.id r hname (checkObject_ok hsize hc)

theorem runTool_path (hsize : ¬ maxArgumentBytes < (cd.toVec c.arguments).size)
    (hf : (runTool cd c.identity c.name c.arguments).run.Follows h q) : ToolPath cd c h := by
  unfold runTool at hf
  split at hf
  · next hname => exact requestTool_path hname hsize hf
  · next hname => exact objectTool_path .getActionStatus hname hsize hf
  · next hname => exact executeTool_path hname hsize hf
  · next hname => exact objectTool_path .getReceipt hname hsize hf
  · next hname => exact objectTool_path .exportDisputeBundle hname hsize hf
  · next hname => exact objectTool_path .verifyBundle hname hsize hf
  · obtain ⟨rfl, _⟩ := Program.follows_ret.mp hf
    exact .silent

/-- The response is bounded without a call. -/
theorem callTool_path (hf : (c.program cd).Follows h q) : ToolPath cd c h := by
  unfold ToolInvocation.program callTool at hf
  split at hf
  · obtain ⟨rfl, _⟩ := Program.follows_ret.mp hf
    exact .silent
  · next hsize =>
    rcases Program.follows_bind hf with ⟨p, hp, _⟩ | ⟨h₁, h₂, r, rfl, h1, h2⟩
    · exact runTool_path hsize hp
    have hdone : h₂ = [] := by
      cases r with
      | error e => exact (Program.follows_ret.mp h2).1
      | ok response => exact (Program.follows_ret.mp h2).1
    rw [hdone, List.append_nil]
    exact runTool_path hsize h1

end

end Piteka.Application
