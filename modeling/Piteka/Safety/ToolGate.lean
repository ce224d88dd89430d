import Piteka.Application.Scenario
import Piteka.Application.ToolBoundaryPaths
import Piteka.Interleaving.Atomic

/-!
# Mutations through the tool boundary

Any number of tool calls run against one backend, which may answer and change as it
likes. A mutation is invoked only behind all checks and a recomputation of the
intent by the same tool call, under the identity that the transport has supplied.
-/
namespace Piteka.Safety

set_option autoImplicit false

open Piteka.Interleaving Piteka.Storage Piteka.Application

/-- The call is one of the methods behind the six tools. -/
def isToolMethod : ToolCall → Bool
  | .recomputeIntentId .. => false
  | _ => true

def isMutation : ToolCall → Bool
  | .requestDeployment .. => true
  | .executeApprovedDeployment .. => true
  | _ => false

/-- The call is made for the tenant and, where it names one, the actor of the identity. -/
def ActsFor (identity : McpIdentity) : ToolCall → Prop
  | .recomputeIntentId tenant .. => tenant = identity.tenantId
  | .requestDeployment actor _ => actor = identity
  | .executeApprovedDeployment actor _ => actor = identity
  | .object _ actor _ => actor = identity

variable {ι σ : Type} [DecidableEq ι]

/-- The log of tool calls admits a mutation only as the boundary promises. The history of the caller
before it is one recomputation of the intent, for the tenant and the fields of the mutation. -/
structure Gated (cd : ToolCodec) (calls : ι → ToolInvocation)
    (log : List (Entry ι ToolCall.Answer σ)) : Prop where
  request : ∀ l₁ e l₂ identity input, log = l₁ ++ e :: l₂ →
    e.call.1 = .requestDeployment identity input →
    identity = (calls e.caller).identity ∧
      (calls e.caller).name = "piteka_request_deployment" ∧
      RequestChecked cd (calls e.caller).arguments input ∧
      history e.caller l₁ = [⟨.recomputeIntentId (calls e.caller).identity.tenantId
        input.repositoryId input.commitSha input.environmentId, .ok input.intentId⟩]
  execute : ∀ l₁ e l₂ identity input, log = l₁ ++ e :: l₂ →
    e.call.1 = .executeApprovedDeployment identity input →
    identity = (calls e.caller).identity ∧
      (calls e.caller).name = "piteka_execute_approved_deployment" ∧
      ExecuteChecked cd (calls e.caller).arguments input ∧
      history e.caller l₁ = [⟨.recomputeIntentId (calls e.caller).identity.tenantId
        input.repositoryId input.commitSha input.environmentId, .ok input.intentId⟩]
  once : ∀ i, ((history i log).filter fun c => isToolMethod c.1).length ≤ 1
  actor : ∀ e ∈ log, ActsFor (calls e.caller).identity e.call.1

section
variable {cd : ToolCodec} {c : ToolInvocation} {h : ToolPathway}

/-- What stands at the end of a path: no mutation, or one behind everything it needs. -/
theorem path_end {x : (op : ToolCall) × op.Answer} (hp : ToolPath cd c (h ++ [x])) :
    isMutation x.1 = false ∨
      (∃ input r, x = ⟨.requestDeployment c.identity input, r⟩ ∧
        c.name = "piteka_request_deployment" ∧ RequestChecked cd c.arguments input ∧
        h = [c.recompute input.repositoryId input.commitSha input.environmentId
          (.ok input.intentId)]) ∨
      ∃ input r, x = ⟨.executeApprovedDeployment c.identity input, r⟩ ∧
        c.name = "piteka_execute_approved_deployment" ∧ ExecuteChecked cd c.arguments input ∧
        h = [c.recompute input.repositoryId input.commitSha input.environmentId
          (.ok input.intentId)] := by
  generalize hh : h ++ [x] = path at hp
  cases hp with
  | silent => exact absurd hh (by simp)
  | object method id r =>
    have hend : h ++ [x] = [] ++ [_] := hh
    obtain ⟨_, rfl⟩ := List.append_singleton_inj.mp hend
    exact Or.inl rfl
  | recomputed repo sha env r =>
    have hend : h ++ [x] = [] ++ [_] := hh
    obtain ⟨_, rfl⟩ := List.append_singleton_inj.mp hend
    exact Or.inl rfl
  | requested input r hname hc =>
    have hend : h ++ [x] = [_] ++ [_] := hh
    obtain ⟨rfl, hlast⟩ := List.append_singleton_inj.mp hend
    exact Or.inr (Or.inl ⟨input, r, hlast, hname, hc, rfl⟩)
  | executed input r hname hc =>
    have hend : h ++ [x] = [_] ++ [_] := hh
    obtain ⟨rfl, hlast⟩ := List.append_singleton_inj.mp hend
    exact Or.inr (Or.inr ⟨input, r, hlast, hname, hc, rfl⟩)

theorem path_once (hp : ToolPath cd c h) : (h.filter fun x => isToolMethod x.1).length ≤ 1 := by
  cases hp <;> exact Nat.le_of_ble_eq_true rfl

theorem path_actor (hp : ToolPath cd c h) {x : (op : ToolCall) × op.Answer} (hx : x ∈ h) :
    ActsFor c.identity x.1 := by
  cases hp with
  | silent => cases hx
  | object method id r =>
    obtain rfl := List.mem_singleton.mp hx
    rfl
  | recomputed repo sha env r =>
    obtain rfl := List.mem_singleton.mp hx
    rfl
  | requested input r =>
    rcases List.mem_cons.mp hx with rfl | hx
    · rfl
    · obtain rfl := List.mem_singleton.mp hx
      rfl
  | executed input r =>
    rcases List.mem_cons.mp hx with rfl | hx
    · rfl
    · obtain rfl := List.mem_singleton.mp hx
      rfl

end

variable {cd : ToolCodec} {calls : ι → ToolInvocation}
  {exec : σ → (op : ToolCall) → op.Answer → σ → Prop} {s₀ s : σ}
  {log : List (Entry ι ToolCall.Answer σ)}
  {p : ι → Program ToolCall ToolCall.Answer ToolResult}

/-- The path of a caller up to and with one of its entries. -/
theorem entry_path {l₁ l₂ : List (Entry ι ToolCall.Answer σ)} {e : Entry ι ToolCall.Answer σ}
    (run : Run exec s₀ (fun i => (calls i).program cd) (l₁ ++ e :: l₂) s p) :
    ToolPath cd (calls e.caller) (history e.caller l₁ ++ [e.call]) := by
  obtain ⟨k, hf⟩ := run.at_entry.2
  exact callTool_path (hf.snoc e.call.2)

/-- The boundary admits only authorised mutations, whatever the backend does. -/
theorem mutations_gated (run : Run exec s₀ (fun i => (calls i).program cd) log s p) :
    Gated cd calls log := by
  constructor
  · rintro l₁ e l₂ identity input rfl hop
    rcases path_end (entry_path run) with hno | ⟨x, r, hx, hgate⟩ | ⟨x, r, hx, _⟩
    · rw [hop] at hno
      cases hno
    · rw [hx] at hop
      obtain ⟨rfl, rfl⟩ := ToolCall.requestDeployment.inj hop
      exact ⟨rfl, hgate⟩
    · rw [hx] at hop
      cases hop
  · rintro l₁ e l₂ identity input rfl hop
    rcases path_end (entry_path run) with hno | ⟨x, r, hx, _⟩ | ⟨x, r, hx, hgate⟩
    · rw [hop] at hno
      cases hno
    · rw [hx] at hop
      cases hop
    · rw [hx] at hop
      obtain ⟨rfl, rfl⟩ := ToolCall.executeApprovedDeployment.inj hop
      exact ⟨rfl, hgate⟩
  · intro i
    exact path_once (callTool_path (run.follows i))
  · intro e he
    exact path_actor (callTool_path (run.follows e.caller))
      (mem_history.mpr ⟨e, he, rfl, rfl⟩)

/-! A deployment is requested with its fields by position. -/

def sampleSha : String := "aaaaaaaaaaaaaaaaaaaaaaaaaaaaaaaaaaaaaaaa"

def sampleInvocation : ToolInvocation where
  identity := ⟨"svc:agent", "tenant-a", by decide, by decide⟩
  name := "piteka_request_deployment"
  arguments := .array [.string "r-1", .ofUInt64 1, .string sampleSha, .ofUInt64 2, .string "i-1"]

/-- The texts of the two values that are written. -/
def sampleToolCodec : ToolCodec where
  toRuntime := sampleRuntime
  toVec
    | .array _ => asBytes ("[\"r-1\",1,\"" ++ sampleSha ++ "\",2,\"i-1\"]")
    | _ => asBytes "null"
  fromSlice _ := none
  parseFromRfc3339 _ := none
  errorText _ := ""

def sampleBackend (s : Unit) : (op : ToolCall) → op.Answer × Unit
  | .recomputeIntentId .. => (.ok "i-1", s)
  | .requestDeployment .. => (.ok .null, s)
  | .executeApprovedDeployment .. => (.ok .null, s)
  | .object .. => (.ok .null, s)

def sampleToolRun : Snapshot Unit ToolCall.Answer Unit fun _ => ToolResult :=
  Snapshot.play (fun _ : Unit => sampleBackend)
    ⟨[], (), fun _ => sampleInvocation.program sampleToolCodec⟩ [((), ()), ((), ())]

theorem sampleToolRun_run :
    Run (Atomic sampleBackend) () (fun _ => sampleInvocation.program sampleToolCodec)
      sampleToolRun.log sampleToolRun.state sampleToolRun.pool :=
  play_run (fun _ _ _ => rfl) .start _

theorem sample_request_gated :
    Gated sampleToolCodec (fun _ : Unit => sampleInvocation) sampleToolRun.log ∧
      sampleToolRun.log.map (fun e => isMutation e.call.1) = [false, true] :=
  ⟨mutations_gated sampleToolRun_run, rfl⟩

end Piteka.Safety
