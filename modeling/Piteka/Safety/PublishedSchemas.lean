import Piteka.Safety.ToolReplies
import Piteka.Text.Schema

/-!
# The published schemas

The catalog promises a schema for the arguments of each tool. Arguments that conform to it
reach the backend with all the values they carry, when their texts are not blank, their
numbers are written as unsigned integers and they are within the limit. What reaches the
backend conforms to it, but for an intent id that may be empty.
-/
namespace Piteka.Safety

set_option autoImplicit false

open Piteka.Interleaving Piteka.Interleaving.Program Piteka.Storage Piteka.Application
open Piteka.Text Piteka.Text.Schema Piteka.Domain Piteka.Checks

/-- The catalog lists the tool with this schema. -/
def Lists (name : String) (schema : Json) : Prop :=
  ∃ tools description, toolCatalog = .array tools ∧ tool name description schema ∈ tools

/-- A text is not blank, and a number is written as an unsigned integer. -/
def Plain : Json → Prop
  | .string s => trimIsEmpty s = false
  | .number (.posInt _) => True
  | .number _ => False
  | _ => True

/-- The backend is asked for the method of the tool with all the values of the entries, for a
deployment behind a recomputation that has given the intent id that the entries have. -/
inductive Reaches (cd : ToolCodec) (c : ToolInvocation) (entries : List (String × Json)) : Prop
  | object (method : ObjectMethod) (id : String) (hname : c.name = method.tool)
      (hv : entries.Perm [("id", .string id)])
      (hn : Next (c.program cd) [] (.object method c.identity id))
  | request (input : RequestDeployment) (hname : c.name = "piteka_request_deployment")
      (hv : entries.Perm input.fields)
      (first : Next (c.program cd) [] (.recomputeIntentId c.identity.tenantId input.repositoryId
        input.commitSha input.environmentId))
      (second : Next (c.program cd) [c.recompute input.repositoryId input.commitSha
        input.environmentId (.ok input.intentId)] (.requestDeployment c.identity input))
  | execute (input : ExecuteDeployment) (hname : c.name = "piteka_execute_approved_deployment")
      (hv : entries.Perm input.fields)
      (first : Next (c.program cd) [] (.recomputeIntentId c.identity.tenantId input.repositoryId
        input.commitSha input.environmentId))
      (second : Next (c.program cd) [c.recompute input.repositoryId input.commitSha
        input.environmentId (.ok input.intentId)] (.executeApprovedDeployment c.identity input))

/-- The names of a tool's fields, by which positions are read. -/
def fieldNames : String → List String
  | "piteka_request_deployment" => RequestDeployment.fieldList.map (·.name)
  | "piteka_execute_approved_deployment" => ExecuteDeployment.fieldList.map (·.name)
  | _ => ObjectRef.fieldList.map (·.name)

/-- An intent id that is empty, replaced by a text. -/
def fillIntent (text : String) : String × Json → String × Json
  | ("intent_id", .string "") => ("intent_id", .string text)
  | field => field

/-- The arguments have the fields of an object that conforms to a schema that the catalog lists for
the tool, once any text stands for an intent id that is empty. -/
def Kept (c : ToolInvocation) : Prop :=
  ∃ schema fields, Lists c.name schema ∧ Application.Presents c.arguments fields ∧
    fields.map Prod.fst = fieldNames c.name ∧
    ∀ text, text ≠ "" → conforms schema (.object (fields.map (fillIntent text))) = true

/-- What the catalog promises of the arguments, and what the boundary keeps of it. -/
structure SchemasKept (cd : ToolCodec) (c : ToolInvocation) : Prop where
  accepted : ∀ schema entries, Lists c.name schema → c.arguments = .object entries →
    (entries.map Prod.fst).Nodup → conforms schema c.arguments = true →
    (∀ e ∈ entries, Plain e.2) → (cd.toVec c.arguments).size ≤ 32 * 1024 → Reaches cd c entries
  kept : ∀ h op, Next (c.program cd) h op → (cd.toVec c.arguments).size ≤ 32 * 1024 ∧ Kept c

/-! ## The schemas -/

def shaSchema : Json :=
  .object [("type", .string "string"), ("pattern", .string "^[0-9a-f]\x7b40\x7d$")]

def deploymentProperties : List (String × Json) :=
  [("request_id", textSchema), ("repository_id", numberSchema), ("commit_sha", shaSchema),
    ("environment_id", numberSchema), ("intent_id", textSchema)]

def executeProperties : List (String × Json) :=
  deploymentProperties ++ [("mandate_id", textSchema)]

theorem objectSchema_eq : objectSchema = recordSchema [("id", textSchema)] ["id"] := rfl

theorem requestSchema_eq : deploymentSchema false =
    recordSchema deploymentProperties (deploymentProperties.map Prod.fst) := rfl

theorem executeSchema_eq : deploymentSchema true =
    recordSchema executeProperties (executeProperties.map Prod.fst) := rfl

theorem shaPattern : readPattern "^[0-9a-f]\x7b40\x7d$" = some ⟨[('0', '9'), ('a', 'f')], 40⟩ := by
  decide +kernel

theorem lists_cases {name : String} {schema : Json} (h : Lists name schema) :
    (name = "piteka_request_deployment" ∧ schema = deploymentSchema false) ∨
      (name = "piteka_execute_approved_deployment" ∧ schema = deploymentSchema true) ∨
      (∃ method : ObjectMethod, name = method.tool) ∧ schema = objectSchema := by
  obtain ⟨tools, description, htools, hmem⟩ := h
  obtain rfl := Json.array.inj htools
  simp only [tool, List.mem_cons, Json.object.injEq, List.cons.injEq, Prod.mk.injEq,
    Json.string.injEq, true_and, and_true, List.not_mem_nil, or_false] at hmem
  rcases hmem with ⟨rfl, _, rfl⟩ | ⟨rfl, _, rfl⟩ | ⟨rfl, _, rfl⟩ | ⟨rfl, _, rfl⟩ | ⟨rfl, _, rfl⟩ |
    ⟨rfl, _, rfl⟩
  · exact Or.inl ⟨rfl, rfl⟩
  · exact Or.inr (Or.inr ⟨⟨.getActionStatus, rfl⟩, rfl⟩)
  · exact Or.inr (Or.inl ⟨rfl, rfl⟩)
  · exact Or.inr (Or.inr ⟨⟨.getReceipt, rfl⟩, rfl⟩)
  · exact Or.inr (Or.inr ⟨⟨.exportDisputeBundle, rfl⟩, rfl⟩)
  · exact Or.inr (Or.inr ⟨⟨.verifyBundle, rfl⟩, rfl⟩)

theorem text_conforms_iff {v : Json} :
    conformsValue textSchema v = true ↔ ∃ s, v = .string s ∧ s.toList ≠ [] := by
  have hall : conformsValue textSchema v =
      (hasType v "string" && (keywordHolds v ("minLength", .ofNat 1) && true)) := rfl
  rw [hall]
  cases v with
  | string s =>
    have hlen : keywordHolds (.string s) ("minLength", .ofNat 1) =
        decide ((((1 : Nat) : ℚ)) ≤ s.toList.length) := rfl
    have hcast : ((1 : Nat) : ℚ) ≤ s.toList.length ↔ 1 ≤ s.toList.length := Nat.cast_le
    simp only [hlen, hcast]
    simp [hasType, Nat.one_le_iff_ne_zero]
  | _ => simp [hasType]

theorem number_conforms_iff {n : UInt64} :
    conformsValue numberSchema (.ofUInt64 n) = true ↔ n ≠ 0 := by
  have hall : conformsValue numberSchema (.ofUInt64 n) =
      (decide ("integer" = "integer" ∧ ((n.toNat : Nat) : ℚ).den = 1) &&
        (decide (((1 : Nat) : ℚ) ≤ ((n.toNat : Nat) : ℚ)) && true)) := rfl
  have hcast : ((1 : Nat) : ℚ) ≤ n.toNat ↔ 1 ≤ n.toNat := Nat.cast_le
  simp only [hall, hcast]
  simp [Nat.one_le_iff_ne_zero, ← UInt64.toNat_inj]

theorem plain_number {v : Json} (h : conformsValue numberSchema v = true) (hp : Plain v) :
    ∃ n, v = .ofUInt64 n ∧ n ≠ 0 := by
  have htype : hasType v "integer" = true := (Bool.and_eq_true_iff.mp h).1
  cases v with
  | number x =>
    cases x with
    | posInt n => exact ⟨n, rfl, number_conforms_iff.mp h⟩
    | negInt n => exact hp.elim
    | float bits => exact hp.elim
  | string s => simp [hasType] at htype
  | object entries => simp [hasType] at htype
  | null => cases htype
  | bool b => cases htype
  | array items => cases htype

/-- The pattern of the schema is the check of the boundary. -/
theorem sha_accepts_iff {s : String} :
    (ClassPattern.mk [('0', '9'), ('a', 'f')] 40).accepts s = true ↔
      s.toList.length = 40 ∧ ∀ c ∈ s.toList, c ∈ "0123456789abcdef".toList := by
  have hdigit : ∀ c : Char, ((48 ≤ c.toNat ∧ c.toNat ≤ 57) ∨ 97 ≤ c.toNat ∧ c.toNat ≤ 102) ↔
      c ∈ "0123456789abcdef".toList := by
    intro c
    constructor
    · intro hrange
      have hall : ∀ n < 128, (48 ≤ n ∧ n ≤ 57) ∨ (97 ≤ n ∧ n ≤ 102) →
          Char.ofNat n ∈ "0123456789abcdef".toList := by decide +kernel
      have hc := hall c.toNat (by omega) hrange
      rwa [Char.ofNat_toNat] at hc
    · have hall : ("0123456789abcdef".toList.map Char.toNat).all
          (fun n => (48 ≤ n && n ≤ 57) || (97 ≤ n && n ≤ 102)) = true := by decide +kernel
      intro hc
      have hn := List.all_eq_true.mp hall c.toNat (List.mem_map_of_mem hc)
      simpa using hn
  unfold ClassPattern.accepts
  rw [Bool.and_eq_true, beq_iff_eq, List.all_eq_true]
  refine and_congr_right fun _ => forall_congr' fun c => imp_congr_right fun _ => ?_
  rw [← hdigit c]
  simp

theorem sha_conforms_iff {v : Json} : conformsValue shaSchema v = true ↔
    ∃ s, v = .string s ∧ s.toList.length = 40 ∧ ∀ c ∈ s.toList, c ∈ "0123456789abcdef".toList := by
  have hall : conformsValue shaSchema v = (hasType v "string" &&
      (keywordHolds v ("pattern", .string "^[0-9a-f]\x7b40\x7d$") && true)) := rfl
  rw [hall]
  cases v with
  | string s =>
    have hpattern : keywordHolds (.string s) ("pattern", .string "^[0-9a-f]\x7b40\x7d$") =
        (readPattern "^[0-9a-f]\x7b40\x7d$").any fun p => p.accepts s := rfl
    rw [hpattern, shaPattern, Option.any_some, Bool.and_true, Bool.and_eq_true, sha_accepts_iff]
    simp [hasType]
  | _ => simp [hasType]

theorem validSha_of_chars {s : String} (hlen : s.toList.length = 40)
    (hall : ∀ c ∈ s.toList, c ∈ "0123456789abcdef".toList) : validSha s = true := by
  have htable : ("0123456789abcdef".toList.map Char.toNat).all
      (fun n => n < 128 && Hex.isLowerDigit (UInt8.ofNat n)) = true := by decide +kernel
  have hrange : ∀ c ∈ "0123456789abcdef".toList, c.toNat < 128 ∧
      Hex.isLowerDigit (UInt8.ofNat c.toNat) = true := by
    intro c hc
    have hn := List.all_eq_true.mp htable c.toNat (List.mem_map_of_mem hc)
    simpa using hn
  have hascii : ∀ b ∈ Ascii.bytes s, b.toNat < 128 := by
    refine Ascii.bytes_lt_of_points fun p hp => ?_
    obtain ⟨c, hc, rfl⟩ := List.mem_map.mp hp
    exact (hrange c (hall c hc)).1
  have hchars := Ascii.toList_eq hascii
  rw [hchars, List.length_map] at hlen
  unfold validSha
  rw [hlen]
  refine Bool.and_eq_true_iff.mpr ⟨rfl, List.all_eq_true.mpr fun b hb => ?_⟩
  have hmem : Ascii.charOf b ∈ s.toList := by
    rw [hchars]
    exact List.mem_map_of_mem hb
  have hdigit := (hrange _ (hall _ hmem)).2
  rwa [Ascii.charOf_toNat, UInt8.ofNat_toNat] at hdigit

/-! ## Accepted arguments -/

theorem lossless_text (name : String) (x : (stringField name).Val) :
    (stringField name).read ((stringField name).write x) = .ok x := rfl

theorem lossless_number (name : String) (x : (u64Field name).Val) :
    (u64Field name).read ((u64Field name).write x) = .ok x := rfl

theorem request_lossless : Record.Lossless RequestDeployment.fieldList := by
  simp only [Record.Lossless, RequestDeployment.fieldList, List.forall_mem_cons]
  exact ⟨lossless_text _, lossless_number _, lossless_text _, lossless_number _, lossless_text _,
    fun f hf => absurd hf List.not_mem_nil⟩

theorem execute_lossless : Record.Lossless ExecuteDeployment.fieldList := by
  simp only [Record.Lossless, ExecuteDeployment.fieldList, List.forall_mem_cons]
  exact ⟨lossless_text _, lossless_text _, lossless_number _, lossless_text _, lossless_number _,
    lossless_text _, fun f hf => absurd hf List.not_mem_nil⟩

theorem object_lossless : Record.Lossless ObjectRef.fieldList := by
  simp only [Record.Lossless, ObjectRef.fieldList, List.forall_mem_cons]
  exact ⟨lossless_text _, fun f hf => absurd hf List.not_mem_nil⟩

theorem decode_complete {α : Type} {cd : ToolCodec} {fs : List (Record.Field Json InvalidType)}
    (hl : Record.Lossless fs) (hn : (fs.map Record.Field.name).Nodup) (make : Record.Values fs → α)
    {entries : List (String × Json)} (values : Record.Values fs)
    (hperm : entries.Perm values.fields) :
    decode cd fs make (.object entries) = .ok (make values) := by
  unfold decode shape
  rw [Record.readRecord_complete hl hn hperm]

section
variable {cd : ToolCodec} {entries : List (String × Json)}

theorem checkObject_complete {id : String} (hperm : entries.Perm [("id", .string id)])
    (hid : trimIsEmpty id = false) : checkObject cd (.object entries) = .ok ⟨id⟩ := by
  have hread : decode cd ObjectRef.fieldList ObjectRef.ofValues (.object entries) = .ok ⟨id⟩ :=
    decode_complete object_lossless (by decide) _ (id, ()) hperm
  have hvalid : validateObjectId id = .ok () := by simp [validateObjectId, hid]
  exact bind_eq_ok.mpr ⟨_, hread, bind_eq_ok.mpr ⟨(), hvalid, rfl⟩⟩

theorem validateDeploymentFields_complete {requestId commitSha : String}
    {repositoryId environmentId : UInt64} (hr : trimIsEmpty requestId = false)
    (hrepository : repositoryId ≠ 0) (henvironment : environmentId ≠ 0)
    (hsha : validSha commitSha = true) :
    validateDeploymentFields requestId repositoryId commitSha environmentId = .ok () := by
  unfold validateDeploymentFields
  simp [hr, hrepository, henvironment, hsha]

theorem checkRequest_complete {x : RequestDeployment} (hperm : entries.Perm x.fields)
    (hvalid : validateDeploymentFields x.requestId x.repositoryId x.commitSha x.environmentId =
      .ok ()) :
    checkRequest cd (.object entries) = .ok x := by
  have hread : decode cd RequestDeployment.fieldList RequestDeployment.ofValues
      (.object entries) = .ok x :=
    decode_complete request_lossless (by decide) _
      (x.requestId, x.repositoryId, x.commitSha, x.environmentId, x.intentId, ()) hperm
  exact bind_eq_ok.mpr ⟨_, hread, bind_eq_ok.mpr ⟨(), hvalid, rfl⟩⟩

theorem checkExecute_complete {x : ExecuteDeployment} (hperm : entries.Perm x.fields)
    (hvalid : validateDeploymentFields x.requestId x.repositoryId x.commitSha x.environmentId =
      .ok ())
    (hmandate : trimIsEmpty x.mandateId = false) : checkExecute cd (.object entries) = .ok x := by
  have hread : decode cd ExecuteDeployment.fieldList ExecuteDeployment.ofValues
      (.object entries) = .ok x :=
    decode_complete execute_lossless (by decide) _
      (x.requestId, x.mandateId, x.repositoryId, x.commitSha, x.environmentId, x.intentId, ()) hperm
  exact bind_eq_ok.mpr ⟨_, hread, bind_eq_ok.mpr ⟨(), hvalid,
    guard_eq_ok.mpr ⟨Bool.eq_false_iff.mp hmandate, rfl⟩⟩⟩

end

section
variable {cd : ToolCodec} {c : ToolInvocation} {entries : List (String × Json)}

/-- A call of the tool is one of the whole boundary, when the arguments are within the limit. -/
theorem next_tool {h : ToolPathway} {op : ToolCall} (hsize : (cd.toVec c.arguments).size ≤ 32 * 1024)
    (hnext : Next (runTool cd c.identity c.name c.arguments).run h op) :
    Next (c.program cd) h op := by
  have hlimit : ¬ maxArgumentBytes < (cd.toVec c.arguments).size := Nat.not_lt.mpr hsize
  unfold ToolInvocation.program callTool
  rw [if_neg hlimit, ExceptT.run_bind]
  exact hnext.bind _

/-- Behind the recomputation of the intent that was supplied comes what follows it. -/
theorem next_validated {identity : McpIdentity} {repositoryId : UInt64} {commitSha : String}
    {environmentId : UInt64} {supplied : String} {next : ToolUse Json} {op : ToolCall}
    (hn : Next next.run [] op) :
    Next (validateIntent identity repositoryId commitSha environmentId supplied >>= fun _ => next).run
      [⟨.recomputeIntentId identity.tenantId repositoryId commitSha environmentId, .ok supplied⟩] op := by
  have hsame : compareIntent supplied (.ok supplied) = .ok () := if_neg (not_not.mpr rfl)
  refine next_call.mpr (Or.inr ⟨.ok supplied, [], rfl, ?_⟩)
  dsimp only
  rw [hsame]
  exact hn

/-- The values of conforming arguments, one for each property. -/
theorem conforming_perm {properties fields : List (String × Json)}
    (hk : (entries.map Prod.fst).Nodup) (hn : (properties.map Prod.fst).Nodup)
    (hsub : ∀ e ∈ entries, e.1 ∈ properties.map Prod.fst)
    (hkeys : fields.map Prod.fst = properties.map Prod.fst)
    (hget : ∀ e ∈ fields, (Json.object entries).get e.1 = some e.2) : entries.Perm fields := by
  refine perm_of_get hk (hkeys ▸ hn) (fun e he => ?_) hget
  rw [hkeys]
  exact hsub e he

theorem text_value {key : String} (hplain : ∀ e ∈ entries, Plain e.2)
    (h : ∃ v, (Json.object entries).get key = some v ∧ conformsValue textSchema v = true) :
    ∃ s, (Json.object entries).get key = some (.string s) ∧ trimIsEmpty s = false := by
  obtain ⟨v, hv, hc⟩ := h
  obtain ⟨s, rfl, _⟩ := text_conforms_iff.mp hc
  exact ⟨s, hv, hplain _ (mem_of_get hv)⟩

theorem number_value {key : String} (hplain : ∀ e ∈ entries, Plain e.2)
    (h : ∃ v, (Json.object entries).get key = some v ∧ conformsValue numberSchema v = true) :
    ∃ n, (Json.object entries).get key = some (.ofUInt64 n) ∧ n ≠ 0 := by
  obtain ⟨v, hv, hc⟩ := h
  obtain ⟨n, rfl, hn⟩ := plain_number hc (hplain _ (mem_of_get hv))
  exact ⟨n, hv, hn⟩

/-- The fields that both deployment tools read. -/
structure DeploymentValues (entries : List (String × Json)) (requestId : String)
    (repositoryId : UInt64) (commitSha : String) (environmentId : UInt64) (intentId : String) :
    Prop where
  valid : validateDeploymentFields requestId repositoryId commitSha environmentId = .ok ()
  requestId : (Json.object entries).get "request_id" = some (.string requestId)
  repositoryId : (Json.object entries).get "repository_id" = some (.ofUInt64 repositoryId)
  commitSha : (Json.object entries).get "commit_sha" = some (.string commitSha)
  environmentId : (Json.object entries).get "environment_id" = some (.ofUInt64 environmentId)
  intentId : (Json.object entries).get "intent_id" = some (.string intentId)

theorem deployment_values (hplain : ∀ e ∈ entries, Plain e.2)
    (hp : ∀ p ∈ deploymentProperties,
      ∃ v, (Json.object entries).get p.1 = some v ∧ conformsValue p.2 v = true) :
    ∃ requestId repositoryId commitSha environmentId intentId,
      DeploymentValues entries requestId repositoryId commitSha environmentId intentId := by
  simp only [deploymentProperties, List.forall_mem_cons] at hp
  obtain ⟨hrequest, hrepository, ⟨v, hsha, hc⟩, henvironment, hintent, _⟩ := hp
  obtain ⟨requestId, hrequest, hblank⟩ := text_value hplain hrequest
  obtain ⟨repositoryId, hrepository, hr0⟩ := number_value hplain hrepository
  obtain ⟨environmentId, henvironment, he0⟩ := number_value hplain henvironment
  obtain ⟨intentId, hintent, _⟩ := text_value hplain hintent
  obtain ⟨commitSha, rfl, hlen, hchars⟩ := sha_conforms_iff.mp hc
  have hvalid := validateDeploymentFields_complete hblank hr0 he0 (validSha_of_chars hlen hchars)
  exact ⟨requestId, repositoryId, commitSha, environmentId, intentId, hvalid, hrequest,
    hrepository, hsha, henvironment, hintent⟩

theorem runTool_object {method : ObjectMethod} {identity : McpIdentity} {name : String}
    {arguments : Json} (hname : name = method.tool) :
    runTool cd identity name arguments = objectTool method cd identity arguments := by
  obtain rfl := hname
  cases method <;> rfl

theorem object_accepted {method : ObjectMethod} (hname : c.name = method.tool)
    (hargs : c.arguments = .object entries) (hk : (entries.map Prod.fst).Nodup)
    (hc : conforms objectSchema (.object entries) = true) (hplain : ∀ e ∈ entries, Plain e.2)
    (hsize : (cd.toVec c.arguments).size ≤ 32 * 1024) : Reaches cd c entries := by
  rw [objectSchema_eq, conforms_recordSchema (by simp)] at hc
  obtain ⟨hsub, hp⟩ := hc
  obtain ⟨id, hid, hblank⟩ := text_value hplain (hp _ List.mem_cons_self)
  have hperm : entries.Perm [("id", .string id)] :=
    conforming_perm hk (by simp) hsub rfl (by simpa using hid)
  refine .object method id hname hperm (next_tool hsize ?_)
  rw [runTool_object hname, objectTool, hargs, checkObject_complete hperm hblank]
  exact ⟨_, .here _⟩

theorem request_accepted (hname : c.name = "piteka_request_deployment")
    (hargs : c.arguments = .object entries) (hk : (entries.map Prod.fst).Nodup)
    (hc : conforms (deploymentSchema false) (.object entries) = true)
    (hplain : ∀ e ∈ entries, Plain e.2) (hsize : (cd.toVec c.arguments).size ≤ 32 * 1024) :
    Reaches cd c entries := by
  rw [requestSchema_eq, conforms_recordSchema fun _ => Iff.rfl] at hc
  obtain ⟨hsub, hp⟩ := hc
  obtain ⟨requestId, repositoryId, commitSha, environmentId, intentId, hv⟩ :=
    deployment_values hplain hp
  have hperm : entries.Perm
      (RequestDeployment.mk requestId repositoryId commitSha environmentId intentId).fields :=
    conforming_perm hk (by decide) hsub rfl (by
      simp only [RequestDeployment.fields, List.forall_mem_cons]
      exact ⟨hv.requestId, hv.repositoryId, hv.commitSha, hv.environmentId, hv.intentId,
        fun e he => absurd he List.not_mem_nil⟩)
  have htool : runTool cd c.identity c.name c.arguments =
      requestTool cd c.identity c.arguments := by
    rw [hname]
    rfl
  refine .request _ hname hperm (next_tool hsize ?_) (next_tool hsize ?_)
  · rw [htool, requestTool, hargs, checkRequest_complete hperm hv.valid]
    exact ⟨_, .here _⟩
  · rw [htool, requestTool, hargs, checkRequest_complete hperm hv.valid]
    exact next_validated ⟨_, .here _⟩

theorem execute_accepted (hname : c.name = "piteka_execute_approved_deployment")
    (hargs : c.arguments = .object entries) (hk : (entries.map Prod.fst).Nodup)
    (hc : conforms (deploymentSchema true) (.object entries) = true)
    (hplain : ∀ e ∈ entries, Plain e.2) (hsize : (cd.toVec c.arguments).size ≤ 32 * 1024) :
    Reaches cd c entries := by
  rw [executeSchema_eq, conforms_recordSchema fun _ => Iff.rfl] at hc
  obtain ⟨hsub, hp⟩ := hc
  obtain ⟨requestId, repositoryId, commitSha, environmentId, intentId, hv⟩ :=
    deployment_values hplain fun p hmem => hp p (List.mem_append_left _ hmem)
  obtain ⟨mandateId, hmandate, hblank⟩ :=
    text_value hplain (hp ("mandate_id", textSchema) (List.mem_append_right _ List.mem_cons_self))
  have hlisted : entries.Perm [("request_id", .string requestId),
      ("repository_id", .ofUInt64 repositoryId), ("commit_sha", .string commitSha),
      ("environment_id", .ofUInt64 environmentId),
      ("intent_id", .string intentId), ("mandate_id", .string mandateId)] :=
    conforming_perm hk (by decide) hsub rfl (by
      simp only [List.forall_mem_cons]
      exact ⟨hv.requestId, hv.repositoryId, hv.commitSha, hv.environmentId, hv.intentId, hmandate,
        fun e he => absurd he List.not_mem_nil⟩)
  -- The record has the mandate behind the request, the schema has it at the end.
  have hperm : entries.Perm
      (ExecuteDeployment.mk requestId mandateId repositoryId commitSha environmentId
        intentId).fields :=
    hlisted.trans (.cons _ (List.perm_append_singleton ("mandate_id", Json.string mandateId)
      [("repository_id", Json.ofUInt64 repositoryId), ("commit_sha", .string commitSha),
        ("environment_id", .ofUInt64 environmentId), ("intent_id", .string intentId)]))
  have htool : runTool cd c.identity c.name c.arguments =
      executeTool cd c.identity c.arguments := by
    rw [hname]
    rfl
  refine .execute _ hname hperm (next_tool hsize ?_) (next_tool hsize ?_)
  · rw [htool, executeTool, hargs, checkExecute_complete hperm hv.valid hblank]
    exact ⟨_, .here _⟩
  · rw [htool, executeTool, hargs, checkExecute_complete hperm hv.valid hblank]
    exact next_validated ⟨_, .here _⟩

end

/-! ## Arguments that reach the backend -/

section
variable {cd : ToolCodec} {c : ToolInvocation}

theorem text_conforms {s : String} (h : trimIsEmpty s = false) :
    conformsValue textSchema (.string s) = true := by
  refine text_conforms_iff.mpr ⟨s, rfl, fun hnil => ?_⟩
  obtain rfl : s = "" := String.toList_eq_nil_iff.mp hnil
  revert h
  decide

theorem object_kept {method : ObjectMethod} {id : String} (hname : c.name = method.tool)
    (hc : ObjectChecked cd c.arguments id) : Kept c := by
  obtain ⟨tools, description, htools, hmem, _⟩ := object_listed method
  have hnames : fieldNames c.name = ["id"] := by
    rw [hname]
    cases method <;> rfl
  refine ⟨objectSchema, _, hname ▸ ⟨tools, description, htools, hmem⟩, hc.presents, hnames.symm,
    fun text _ => ?_⟩
  have hfilled : [("id", Json.string id)].map (fillIntent text) = [("id", .string id)] := by
    simp [fillIntent]
  rw [hfilled, objectSchema_eq, conforms_recordSchema (by simp)]
  refine ⟨fun e he => ?_, fun p hp => ?_⟩
  · obtain rfl := List.mem_singleton.mp he
    exact List.mem_cons_self
  · obtain rfl := List.mem_singleton.mp hp
    exact ⟨_, rfl, text_conforms hc.id⟩

/-- The text that stands for an intent id. -/
def filledId (text intentId : String) : String := if intentId = "" then text else intentId

theorem filledId_ne {text intentId : String} (h : text ≠ "") : filledId text intentId ≠ "" := by
  unfold filledId
  split
  · exact h
  · next hne => exact hne

theorem fillIntent_intent (text intentId : String) :
    fillIntent text ("intent_id", .string intentId) = ("intent_id", .string (filledId text intentId)) := by
  unfold filledId
  by_cases h : intentId = ""
  · rw [if_pos h, h]
    rfl
  · rw [if_neg h, fillIntent]
    intro he
    exact h (Json.string.inj (congrArg Prod.snd he))

/-- The fields of a deployment conform when the intent id is not empty. -/
theorem deployment_conforms {fields : List (String × Json)} {requestId commitSha intentId : String}
    {repositoryId environmentId : UInt64}
    (hf : StableFields requestId repositoryId commitSha environmentId) (hi : intentId ≠ "")
    (hget : DeploymentValues fields requestId repositoryId commitSha environmentId intentId) :
    ∀ p ∈ deploymentProperties,
      ∃ v, (Json.object fields).get p.1 = some v ∧ conformsValue p.2 v = true := by
  simp only [deploymentProperties, List.forall_mem_cons]
  refine ⟨⟨_, hget.requestId, text_conforms hf.requestId⟩,
    ⟨_, hget.repositoryId, number_conforms_iff.mpr hf.repositoryId⟩,
    ⟨_, hget.commitSha, sha_conforms_iff.mpr ⟨_, rfl, hf.length, hf.digits⟩⟩,
    ⟨_, hget.environmentId, number_conforms_iff.mpr hf.environmentId⟩,
    ⟨_, hget.intentId, text_conforms_iff.mpr ⟨_, rfl, ?_⟩⟩, fun e he => absurd he List.not_mem_nil⟩
  exact fun hnil => hi (String.toList_eq_nil_iff.mp hnil)

theorem stable_valid {requestId commitSha : String} {repositoryId environmentId : UInt64}
    (hf : StableFields requestId repositoryId commitSha environmentId) :
    validateDeploymentFields requestId repositoryId commitSha environmentId = .ok () :=
  validateDeploymentFields_complete hf.requestId hf.repositoryId hf.environmentId
    (validSha_of_chars hf.length hf.digits)

theorem RequestDeployment.filled_fields (x : RequestDeployment) (text : String) :
    x.fields.map (fillIntent text) = { x with intentId := filledId text x.intentId }.fields := by
  simp only [RequestDeployment.fields, List.map_cons, List.map_nil, fillIntent_intent]
  simp [fillIntent]

theorem ExecuteDeployment.filled_fields (x : ExecuteDeployment) (text : String) :
    x.fields.map (fillIntent text) = { x with intentId := filledId text x.intentId }.fields := by
  simp only [ExecuteDeployment.fields, List.map_cons, List.map_nil, fillIntent_intent]
  simp [fillIntent]

theorem request_kept {input : RequestDeployment} (hname : c.name = "piteka_request_deployment")
    (hc : RequestChecked cd c.arguments input) : Kept c := by
  refine ⟨deploymentSchema false, _, hname ▸ ⟨_, _, rfl, .head _⟩, hc.presents, ?_, fun text htext => ?_⟩
  · rw [hname]
    rfl
  rw [RequestDeployment.filled_fields, requestSchema_eq, conforms_recordSchema fun _ => Iff.rfl]
  have hkeys : ∀ x : RequestDeployment, x.fields.map Prod.fst = deploymentProperties.map Prod.fst :=
    fun _ => rfl
  refine ⟨fun e he => hkeys _ ▸ List.mem_map_of_mem he, ?_⟩
  exact deployment_conforms hc.fields (filledId_ne htext)
    ⟨stable_valid hc.fields, rfl, rfl, rfl, rfl, rfl⟩

theorem execute_kept {input : ExecuteDeployment} (hname : c.name = "piteka_execute_approved_deployment")
    (hc : ExecuteChecked cd c.arguments input) : Kept c := by
  refine ⟨deploymentSchema true, _, hname ▸ ⟨_, _, rfl, .tail _ (.tail _ (.head _))⟩, hc.presents, ?_,
    fun text htext => ?_⟩
  · rw [hname]
    rfl
  rw [ExecuteDeployment.filled_fields, executeSchema_eq, conforms_recordSchema fun _ => Iff.rfl]
  refine ⟨fun e he => ?_, fun p hp => ?_⟩
  · have hkeys : ["request_id", "mandate_id", "repository_id", "commit_sha", "environment_id",
        "intent_id"] ⊆ executeProperties.map Prod.fst := by
      simp [executeProperties, deploymentProperties]
    exact hkeys (List.mem_map_of_mem he)
  · rcases List.mem_append.mp hp with hp | hp
    · exact deployment_conforms hc.fields (filledId_ne htext)
        ⟨stable_valid hc.fields, rfl, rfl, rfl, rfl, rfl⟩ p hp
    · obtain rfl := List.mem_singleton.mp hp
      exact ⟨_, rfl, text_conforms hc.mandateId⟩

/-- Whatever call a tool has made, its arguments have been checked. -/
theorem path_kept {h : ToolPathway} (hp : ToolPath cd c h) (hne : h ≠ []) :
    (cd.toVec c.arguments).size ≤ 32 * 1024 ∧ Kept c := by
  cases hp with
  | silent => exact absurd rfl hne
  | object method id r hname hc => exact ⟨hc.size, object_kept hname hc⟩
  | recomputed repositoryId commitSha environmentId r hd =>
    cases hd with
    | request input hname hc => exact ⟨hc.size, request_kept hname hc⟩
    | execute input hname hc => exact ⟨hc.size, execute_kept hname hc⟩
  | requested input r hname hc => exact ⟨hc.size, request_kept hname hc⟩
  | executed input r hname hc => exact ⟨hc.size, execute_kept hname hc⟩

theorem answer_exists (op : ToolCall) : Nonempty op.Answer := by
  cases op <;> exact ⟨.error (.new "" "")⟩

theorem next_kept {h : ToolPathway} {op : ToolCall} (hn : Next (c.program cd) h op) :
    (cd.toVec c.arguments).size ≤ 32 * 1024 ∧ Kept c := by
  obtain ⟨k, hf⟩ := hn
  obtain ⟨a⟩ := answer_exists op
  exact path_kept (callTool_path (hf.snoc a)) (by simp)

end

/-- The promise of the catalog, for every tool and every value of arguments. -/
theorem published_schemas (cd : ToolCodec) (c : ToolInvocation) : SchemasKept cd c := by
  constructor
  · intro schema entries hlists hargs hk hc hplain hsize
    rw [hargs] at hc
    rcases lists_cases hlists with ⟨hname, rfl⟩ | ⟨hname, rfl⟩ | ⟨⟨method, hname⟩, rfl⟩
    · exact request_accepted hname hargs hk hc hplain hsize
    · exact execute_accepted hname hargs hk hc hplain hsize
    · exact object_accepted hname hargs hk hc hplain hsize
  · exact fun h op hn => next_kept hn

example : conforms objectSchema (.object [("id", .string "r-1")]) = true := by decide +kernel

end Piteka.Safety
