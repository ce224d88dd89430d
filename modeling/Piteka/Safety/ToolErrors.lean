import Piteka.Safety.ToolGate

/-!
# Errors of the tools that mutate

An error of a tool call accounts for the mutation behind it. Any number of calls run
against one backend: where one has ended with an error, it made no mutation, or the
mutation failed with that error, or it succeeded and its response is over the limit.
-/
namespace Piteka.Safety

set_option autoImplicit false

open Piteka.Interleaving Piteka.Storage Piteka.Text Piteka.Application

/-- What the backend answered to a mutation. -/
def mutationAnswer : (op : ToolCall) × op.Answer → Option ToolResult
  | ⟨.requestDeployment .., answer⟩ => some answer
  | ⟨.executeApprovedDeployment .., answer⟩ => some answer
  | ⟨.recomputeIntentId .., _⟩ => none
  | ⟨.object .., _⟩ => none

def responseTooLarge : McpError :=
  .new "RESPONSE_TOO_LARGE" "Tool response exceeds the 256 KiB limit"

/-- Why a call with this error made a mutation that was answered so. -/
inductive Accounted (cd : ToolCodec) (e : McpError) : ToolResult → Prop
  | failed : Accounted cd e (.error e)
  | oversized (response : Json) (hsize : 256 * 1024 < (cd.toVec response).size)
      (he : e = responseTooLarge) : Accounted cd e (.ok response)

/-- The error accounts for every mutation of the path. -/
def ErrorAccounts (cd : ToolCodec) (e : McpError) (h : ToolPathway) : Prop :=
  ∀ x ∈ h, ∀ answer, mutationAnswer x = some answer → Accounted cd e answer

/-- Every mutation of the path was answered with the result. -/
def Answered (h : ToolPathway) (r : ToolResult) : Prop :=
  ∀ x ∈ h, ∀ answer, mutationAnswer x = some answer → answer = r

theorem boundResponse_error {cd : ToolCodec} {response : Json} {e : McpError}
    (h : boundResponse cd response = .error e) :
    maxResponseBytes < (cd.toVec response).size ∧ e = responseTooLarge := by
  unfold boundResponse at h
  split at h
  · next hsize => exact ⟨hsize, (Except.error.inj h).symm⟩
  · cases h

section
variable {cd : ToolCodec} {identity : McpIdentity} {name : String} {arguments : Json}
  {h : ToolPathway} {r : ToolResult}

theorem answered_nil : Answered [] r := by
  intro x hx
  cases hx

/-- A tool whose last call is the backend's returns the answer to it. -/
theorem answered_call {op : ToolCall} {k : op.Answer → ToolResult}
    (hr : Program.Returns (.call op fun a => .ret (k a)) h r)
    (hk : ∀ a answer, mutationAnswer ⟨op, a⟩ = some answer → answer = k a) : Answered h r := by
  obtain ⟨a, t, rfl, ht⟩ := Program.returns_call.mp hr
  obtain ⟨rfl, rfl⟩ := Program.returns_ret.mp ht
  intro x hx answer ha
  obtain rfl := List.mem_singleton.mp hx
  exact hk a answer ha

/-- The recomputation of the intent is no mutation. -/
theorem answered_validated {repositoryId : UInt64} {commitSha : String} {environmentId : UInt64}
    {supplied : String} {next : ToolUse Json}
    (hnext : ∀ {t}, next.run.Returns t r → Answered t r)
    (hr : (validateIntent identity repositoryId commitSha environmentId supplied >>=
      fun _ => next).run.Returns h r) : Answered h r := by
  obtain ⟨a, t, rfl, ht⟩ := Program.returns_call.mp hr
  dsimp only at ht
  have hrest : Answered t r := by
    cases hc : compareIntent supplied a with
    | error e =>
      rw [hc] at ht
      obtain ⟨rfl, _⟩ := Program.returns_ret.mp ht
      exact answered_nil
    | ok u =>
      rw [hc] at ht
      exact hnext ht
  intro x hx answer ha
  rcases List.mem_cons.mp hx with rfl | hx
  · cases ha
  · exact hrest x hx answer ha

theorem requestDeployment_answered {input : RequestDeployment}
    (hr : (requestDeployment identity input).run.Returns h r) : Answered h r :=
  answered_call hr fun _ _ ha => (Option.some.inj ha).symm

theorem executeApprovedDeployment_answered {input : ExecuteDeployment}
    (hr : (executeApprovedDeployment identity input).run.Returns h r) : Answered h r :=
  answered_call hr fun _ _ ha => (Option.some.inj ha).symm

theorem objectCall_answered {method : ObjectMethod} {id : String}
    (hr : (objectCall method identity id).run.Returns h r) : Answered h r := by
  refine answered_call hr fun _ _ ha => ?_
  cases ha

theorem requestTool_answered (hr : (requestTool cd identity arguments).run.Returns h r) :
    Answered h r := by
  unfold requestTool at hr
  cases hc : checkRequest cd arguments with
  | error e =>
    rw [hc] at hr
    obtain ⟨rfl, _⟩ := Program.returns_ret.mp hr
    exact answered_nil
  | ok input =>
    rw [hc] at hr
    exact answered_validated requestDeployment_answered hr

theorem executeTool_answered (hr : (executeTool cd identity arguments).run.Returns h r) :
    Answered h r := by
  unfold executeTool at hr
  cases hc : checkExecute cd arguments with
  | error e =>
    rw [hc] at hr
    obtain ⟨rfl, _⟩ := Program.returns_ret.mp hr
    exact answered_nil
  | ok input =>
    rw [hc] at hr
    exact answered_validated executeApprovedDeployment_answered hr

theorem objectTool_answered {method : ObjectMethod}
    (hr : (objectTool method cd identity arguments).run.Returns h r) : Answered h r := by
  unfold objectTool at hr
  cases hc : checkObject cd arguments with
  | error e =>
    rw [hc] at hr
    obtain ⟨rfl, _⟩ := Program.returns_ret.mp hr
    exact answered_nil
  | ok input =>
    rw [hc] at hr
    exact objectCall_answered hr

theorem runTool_answered (hr : (runTool cd identity name arguments).run.Returns h r) :
    Answered h r := by
  unfold runTool at hr
  split at hr
  · exact requestTool_answered hr
  · exact objectTool_answered hr
  · exact executeTool_answered hr
  · exact objectTool_answered hr
  · exact objectTool_answered hr
  · exact objectTool_answered hr
  · obtain ⟨rfl, _⟩ := Program.returns_ret.mp hr
    exact answered_nil

/-- Behind the tool there is the bound on its response. -/
theorem callTool_accounted {e : McpError}
    (hr : (callTool cd identity name arguments).run.Returns h (.error e)) :
    ErrorAccounts cd e h := by
  unfold callTool at hr
  split at hr
  · obtain ⟨rfl, _⟩ := Program.returns_ret.mp hr
    intro x hx
    cases hx
  intro x hx answer ha
  rcases Program.returns_seq hr with ⟨e', htool, he⟩ | ⟨h₁, h₂, response, rfl, htool, hbound⟩
  · obtain rfl := Except.error.inj he
    obtain rfl := runTool_answered htool x hx answer ha
    exact .failed
  · obtain ⟨rfl, hend⟩ := Program.returns_ret.mp hbound
    rw [List.append_nil] at hx
    obtain rfl := runTool_answered htool x hx answer ha
    obtain ⟨hsize, he⟩ := boundResponse_error hend.symm
    exact .oversized response hsize he

end

section
variable {ι σ : Type} [DecidableEq ι] {cd : ToolCodec} {calls : ι → ToolInvocation}
  {exec : σ → (op : ToolCall) → op.Answer → σ → Prop} {s₀ s : σ}
  {log : List (Entry ι ToolCall.Answer σ)}
  {p : ι → Program ToolCall ToolCall.Answer ToolResult}

/-- For every tool, whatever the backend answers and however other calls come between. -/
theorem errors_accounted (run : Run exec s₀ (fun i => (calls i).program cd) log s p) {i : ι}
    {e : McpError} (hend : p i = .ret (.error e)) : ErrorAccounts cd e (history i log) := by
  have hreturns := run.follows i
  rw [hend] at hreturns
  exact callTool_accounted hreturns

end

/-! ## A response over the limit -/

/-- A text of 256 KiB, two bytes too long with its quotes. -/
def largeText : String := String.ofList ((List.replicate (256 * 1024) 97).map Ascii.charOf)

def largeToolCodec : ToolCodec where
  toRuntime := sampleRuntime
  toVec
    | .array _ => asBytes ("[\"r-1\",1,\"" ++ sampleSha ++ "\",2,\"i-1\"]")
    | .string text => asBytes ("\"" ++ text ++ "\"")
    | _ => asBytes "null"
  fromSlice _ := none
  parseFromRfc3339 _ := none
  errorText _ := ""

theorem largeText_bound : maxResponseBytes < (largeToolCodec.toVec (.string largeText)).size := by
  have hsize : largeText.utf8ByteSize = 256 * 1024 := by
    rw [largeText, Ascii.utf8ByteSize_ofList, List.length_replicate]
    intro b hb
    obtain rfl := List.eq_of_mem_replicate hb
    decide
  have hquoted : (largeToolCodec.toVec (.string largeText)).size =
      ("\"" ++ largeText ++ "\"").utf8ByteSize := rfl
  have hquote : "\"".utf8ByteSize = 1 := by decide
  rw [hquoted, String.utf8ByteSize_append, String.utf8ByteSize_append, hsize, hquote]
  decide

def largeBackend (s : Unit) : (op : ToolCall) → op.Answer × Unit
  | .recomputeIntentId .. => (.ok "i-1", s)
  | .requestDeployment .. => (.ok (.string largeText), s)
  | .executeApprovedDeployment .. => (.ok (.string largeText), s)
  | .object .. => (.ok .null, s)

def largeToolRun : Snapshot Unit ToolCall.Answer Unit fun _ => ToolResult :=
  Snapshot.play (fun _ : Unit => largeBackend)
    ⟨[], (), fun _ => sampleInvocation.program largeToolCodec⟩ [((), ()), ((), ())]

theorem largeToolRun_run :
    Run (Atomic largeBackend) () (fun _ => sampleInvocation.program largeToolCodec)
      largeToolRun.log largeToolRun.state largeToolRun.pool :=
  play_run (fun _ _ _ => rfl) .start _

theorem largeToolRun_end : largeToolRun.pool () = .ret (.error responseTooLarge) := by
  have hend : largeToolRun.pool () = .ret (boundResponse largeToolCodec (.string largeText)) := rfl
  rw [hend, boundResponse, if_pos largeText_bound]
  rfl

theorem errors_accounted_large :
    ErrorAccounts largeToolCodec responseTooLarge (history () largeToolRun.log) ∧
      (history () largeToolRun.log).length = 2 :=
  ⟨errors_accounted largeToolRun_run largeToolRun_end, rfl⟩

/-- A deployment is requested and the call ends with an error. -/
theorem request_behind_error :
    Run (Atomic largeBackend) () (fun _ => sampleInvocation.program largeToolCodec)
        largeToolRun.log largeToolRun.state largeToolRun.pool ∧
      largeToolRun.pool () = .ret (.error responseTooLarge) ∧
      (history () largeToolRun.log).map mutationAnswer =
        [none, some (.ok (.string largeText))] :=
  ⟨largeToolRun_run, largeToolRun_end, rfl⟩

end Piteka.Safety
