import Piteka.Application.ToolTransport
import Piteka.Safety.ToolErrors

/-!
# Replies of the tool transport

Any number of messages, each an arbitrary JSON value, are handled against one backend,
which may answer and change as it likes. What the backend is asked for a message is what
the boundary asks for the tool call in it, and the reply tells the client how the call
of the backend behind it has ended.
-/
namespace Piteka.Safety

set_option autoImplicit false

open Piteka.Interleaving Piteka.Interleaving.Program Piteka.Storage Piteka.Application

/-- What the backend answered to the method of a tool. -/
def methodAnswer : (op : ToolCall) × op.Answer → Option ToolResult
  | ⟨.requestDeployment .., answer⟩ => some answer
  | ⟨.executeApprovedDeployment .., answer⟩ => some answer
  | ⟨.object .., answer⟩ => some answer
  | ⟨.recomputeIntentId .., _⟩ => none

/-- The last call of the path is the method of a tool, and it was answered with the value. -/
def EndsWith (h : ToolPathway) (value : Json) : Prop :=
  ∃ h₀ x, h = h₀ ++ [x] ∧ methodAnswer x = some (.ok value)

/-- The tools of which a call of the backend is made. -/
def Serves (name : String) : ToolCall → Prop
  | .recomputeIntentId .. =>
    name = "piteka_request_deployment" ∨ name = "piteka_execute_approved_deployment"
  | .requestDeployment .. => name = "piteka_request_deployment"
  | .executeApprovedDeployment .. => name = "piteka_execute_approved_deployment"
  | .object method .. => name = method.tool

/-- The calls that reserve a mandate, ask the provider or create an export. -/
def hasSideEffect : ToolCall → Bool
  | .executeApprovedDeployment .. => true
  | .object .exportDisputeBundle .. => true
  | _ => false

/-- The call is one of the tool of the name, which the catalog lists, as a side effect when the call
has one. -/
def Published (name : String) (op : ToolCall) : Prop :=
  Serves name op ∧ ∃ tools description schema, toolCatalog = .array tools ∧
    tool name description schema ∈ tools ∧
    (hasSideEffect op = true → "SIDE EFFECT".toList <+: description.toList)

/-- What the end of a message says of the calls made for it. -/
inductive Replied (cd : TransportCodec) (m : Message) (h : ToolPathway) : Option Json → Prop
  | unanswered (hm : m.id = none ∨ m.method = none) (hh : h = []) : Replied cd m h none
  | described (id value : Json) (hid : m.id = some id)
      (hm : m.method = some "initialize" ∧ value = initialized ∨
        m.method = some "tools/list" ∧ value = .object [("tools", toolCatalog)]) (hh : h = []) :
      Replied cd m h (some (rpcReply id value))
  | succeeded (id value : Json) (hid : m.id = some id) (hm : m.method = some "tools/call")
      (hh : EndsWith h value) (hsize : (cd.toVec value).size ≤ 256 * 1024) :
      Replied cd m h (some (rpcReply id (toolResult cd value)))
  | failed (id : Json) (method : String) (e : McpError) (hid : m.id = some id)
      (hm : m.method = some method) (hh : ErrorAccounts cd.toToolCodec e h) :
      Replied cd m h (some (rpcReply id (errorResult e)))

/-- What has been asked of the backend for a message, with which values, and what its end says. -/
structure RepliesAccount (cd : TransportCodec) (m : Message) (h : ToolPathway)
    (q : Program ToolCall ToolCall.Answer (Option Json)) : Prop where
  path : ToolPath cd.toToolCodec m.invocation h
  asked : h ≠ [] → m.method = some "tools/call" ∧ m.id ≠ none
  published : ∀ x ∈ h, Published m.invocation.name x.1
  reply : ∀ r, q = .ret r → Replied cd m h r

section
variable {cd : ToolCodec} {identity : McpIdentity} {name : String} {arguments value : Json}
  {h : ToolPathway}

theorem endsWith_call {op : ToolCall} {k : op.Answer → ToolResult}
    (hr : Program.Returns (.call op fun a => .ret (k a)) h (.ok value))
    (hk : ∀ a, methodAnswer ⟨op, a⟩ = some (k a)) : EndsWith h value := by
  obtain ⟨a, t, rfl, ht⟩ := returns_call.mp hr
  obtain ⟨rfl, hvalue⟩ := returns_ret.mp ht
  exact ⟨[], ⟨op, a⟩, rfl, (hk a).trans (congrArg some hvalue.symm)⟩

/-- A tool that returns a value has passed the recomputation of the intent. -/
theorem endsWith_validated {repositoryId : UInt64} {commitSha : String} {environmentId : UInt64}
    {supplied : String} {next : ToolUse Json}
    (hnext : ∀ {t}, next.run.Returns t (.ok value) → EndsWith t value)
    (hr : (validateIntent identity repositoryId commitSha environmentId supplied >>=
      fun _ => next).run.Returns h (.ok value)) : EndsWith h value := by
  rcases returns_seq hr with ⟨e, _, he⟩ | ⟨h₁, h₂, u, rfl, _, h2⟩
  · cases he
  · obtain ⟨h₀, x, rfl, hx⟩ := hnext h2
    exact ⟨h₁ ++ h₀, x, (List.append_assoc ..).symm, hx⟩

theorem requestTool_endsWith
    (hr : (requestTool cd identity arguments).run.Returns h (.ok value)) : EndsWith h value := by
  unfold requestTool at hr
  cases hc : checkRequest cd arguments with
  | error e =>
    rw [hc] at hr
    cases (returns_ret.mp hr).2
  | ok input =>
    rw [hc] at hr
    exact endsWith_validated (fun ht => endsWith_call ht fun _ => rfl) hr

theorem executeTool_endsWith
    (hr : (executeTool cd identity arguments).run.Returns h (.ok value)) : EndsWith h value := by
  unfold executeTool at hr
  cases hc : checkExecute cd arguments with
  | error e =>
    rw [hc] at hr
    cases (returns_ret.mp hr).2
  | ok input =>
    rw [hc] at hr
    exact endsWith_validated (fun ht => endsWith_call ht fun _ => rfl) hr

theorem objectTool_endsWith {method : ObjectMethod}
    (hr : (objectTool method cd identity arguments).run.Returns h (.ok value)) :
    EndsWith h value := by
  unfold objectTool at hr
  cases hc : checkObject cd arguments with
  | error e =>
    rw [hc] at hr
    cases (returns_ret.mp hr).2
  | ok input =>
    rw [hc] at hr
    exact endsWith_call hr fun _ => rfl

theorem runTool_endsWith (hr : (runTool cd identity name arguments).run.Returns h (.ok value)) :
    EndsWith h value := by
  unfold runTool at hr
  split at hr
  · exact requestTool_endsWith hr
  · exact objectTool_endsWith hr
  · exact executeTool_endsWith hr
  · exact objectTool_endsWith hr
  · exact objectTool_endsWith hr
  · exact objectTool_endsWith hr
  · cases (returns_ret.mp hr).2

theorem boundResponse_ok {response : Json} (h : boundResponse cd response = .ok value) :
    response = value ∧ (cd.toVec value).size ≤ maxResponseBytes := by
  unfold boundResponse at h
  split at h
  · cases h
  · next hsize =>
    obtain rfl := Except.ok.inj h
    exact ⟨rfl, Nat.le_of_not_lt hsize⟩

/-- The value of a tool call is the answer to its last call, within the limit. -/
theorem callTool_endsWith (hr : (callTool cd identity name arguments).run.Returns h (.ok value)) :
    EndsWith h value ∧ (cd.toVec value).size ≤ maxResponseBytes := by
  unfold callTool at hr
  split at hr
  · cases (returns_ret.mp hr).2
  rcases returns_seq hr with ⟨e, _, he⟩ | ⟨h₁, h₂, response, rfl, htool, hbound⟩
  · cases he
  · obtain ⟨rfl, hend⟩ := returns_ret.mp hbound
    obtain ⟨rfl, hsize⟩ := boundResponse_ok hend.symm
    rw [List.append_nil]
    exact ⟨runTool_endsWith htool, hsize⟩

end

theorem object_listed (method : ObjectMethod) :
    ∃ tools description, toolCatalog = .array tools ∧
      tool method.tool description objectSchema ∈ tools ∧
      (method = .exportDisputeBundle → "SIDE EFFECT".toList <+: description.toList) := by
  cases method with
  | getActionStatus => exact ⟨_, _, rfl, .tail _ (.head _), fun h => by cases h⟩
  | getReceipt => exact ⟨_, _, rfl, .tail _ (.tail _ (.tail _ (.head _))), fun h => by cases h⟩
  | exportDisputeBundle =>
    exact ⟨_, _, rfl, .tail _ (.tail _ (.tail _ (.tail _ (.head _)))), fun _ => by decide +kernel⟩
  | verifyBundle =>
    exact ⟨_, _, rfl, .tail _ (.tail _ (.tail _ (.tail _ (.tail _ (.head _))))),
      fun h => by cases h⟩

theorem serves_published {name : String} {op : ToolCall} (hs : Serves name op) :
    Published name op := by
  refine ⟨hs, ?_⟩
  cases op with
  | recomputeIntentId =>
    rcases hs with rfl | rfl
    · exact ⟨_, _, _, rfl, .head _, fun h => by cases h⟩
    · exact ⟨_, _, _, rfl, .tail _ (.tail _ (.head _)), fun h => by cases h⟩
  | requestDeployment =>
    obtain rfl := hs
    exact ⟨_, _, _, rfl, .head _, fun h => by cases h⟩
  | executeApprovedDeployment =>
    obtain rfl := hs
    exact ⟨_, _, _, rfl, .tail _ (.tail _ (.head _)), fun _ => by decide +kernel⟩
  | object method =>
    obtain rfl := hs
    obtain ⟨tools, description, htools, hmem, heffect⟩ := object_listed method
    refine ⟨tools, description, _, htools, hmem, fun h => heffect ?_⟩
    cases method <;> first | rfl | cases h

section
variable {cd : ToolCodec} {c : ToolInvocation} {h : ToolPathway}
  {q : Program ToolCall ToolCall.Answer ToolResult}

/-- The calls of a path are those of the tool that the invocation names. -/
theorem path_serves (hp : ToolPath cd c h) : ∀ x ∈ h, Serves c.name x.1 := by
  intro x hx
  cases hp with
  | silent => cases hx
  | object method id r hname =>
    obtain rfl := List.mem_singleton.mp hx
    exact hname
  | recomputed repositoryId commitSha environmentId r hc =>
    obtain rfl := List.mem_singleton.mp hx
    exact hc.name
  | requested input r hname =>
    rcases List.mem_cons.mp hx with rfl | hx
    · exact Or.inl hname
    · obtain rfl := List.mem_singleton.mp hx
      exact hname
  | executed input r hname =>
    rcases List.mem_cons.mp hx with rfl | hx
    · exact Or.inr hname
    · obtain rfl := List.mem_singleton.mp hx
      exact hname

/-- A call of the backend is one of the tool that the call names, which the catalog lists. -/
theorem callTool_published (hf : (c.program cd).Follows h q) : ∀ x ∈ h, Published c.name x.1 :=
  fun x hx => serves_published (path_serves (callTool_path hf) x hx)

end

section
variable {cd : TransportCodec} {m : Message} {method : String} {h : ToolPathway}

theorem errorAccounts_nil {e : McpError} : ErrorAccounts cd.toToolCodec e [] := by
  intro x hx
  cases hx

/-- What is asked for a message is asked for the tool call in it. -/
structure AskedFor (cd : TransportCodec) (m : Message) (method : String) (h : ToolPathway) :
    Prop where
  path : ToolPath cd.toToolCodec m.invocation h
  method : h ≠ [] → method = "tools/call"
  published : ∀ x ∈ h, Published m.invocation.name x.1

theorem askedFor_nil : AskedFor cd m method [] where
  path := .silent
  method hne := absurd rfl hne
  published _ hx := absurd hx List.not_mem_nil

theorem result_asked {q : Program ToolCall ToolCall.Answer ToolResult}
    (hf : (m.result cd method).Follows h q) : AskedFor cd m method h := by
  unfold Message.result at hf
  split at hf
  · obtain ⟨rfl, _⟩ := follows_ret.mp hf
    exact askedFor_nil
  · obtain ⟨rfl, _⟩ := follows_ret.mp hf
    exact askedFor_nil
  · rcases follows_bind hf with ⟨p, hp, _⟩ | ⟨h₁, h₂, r, rfl, h1, h2⟩
    · exact ⟨callTool_path hp, fun _ => rfl, callTool_published hp⟩
    · obtain ⟨rfl, _⟩ := follows_ret.mp h2
      rw [List.append_nil]
      exact ⟨callTool_path h1, fun _ => rfl, callTool_published h1⟩
  · obtain ⟨rfl, _⟩ := follows_ret.mp hf
    exact askedFor_nil

theorem result_replied {id : Json} {r : ToolResult} (hid : m.id = some id)
    (hm : m.method = some method) (hr : (m.result cd method).Returns h r) :
    Replied cd m h (some (Message.answer id r)) := by
  unfold Message.result at hr
  split at hr
  · obtain ⟨rfl, rfl⟩ := returns_ret.mp hr
    exact .described id _ hid (Or.inl ⟨hm, rfl⟩) rfl
  · obtain ⟨rfl, rfl⟩ := returns_ret.mp hr
    exact .described id _ hid (Or.inr ⟨hm, rfl⟩) rfl
  · obtain ⟨h₁, h₂, x, rfl, h1, h2⟩ := returns_bind hr
    obtain ⟨rfl, rfl⟩ := returns_ret.mp h2
    rw [List.append_nil]
    cases x with
    | error e => exact .failed id _ e hid hm (callTool_accounted h1)
    | ok value =>
      obtain ⟨hend, hsize⟩ := callTool_endsWith h1
      exact .succeeded id value hid hm hend hsize
  · obtain ⟨rfl, rfl⟩ := returns_ret.mp hr
    exact .failed id _ _ hid hm errorAccounts_nil

theorem AskedFor.accounts {id : Json} {q : Program ToolCall ToolCall.Answer (Option Json)}
    (ha : AskedFor cd m method h) (hid : m.id = some id) (hm : m.method = some method)
    (hreply : ∀ r, q = .ret r → Replied cd m h r) : RepliesAccount cd m h q where
  path := ha.path
  asked hne := ⟨hm.trans (congrArg some (ha.method hne)), by simp [hid]⟩
  published := ha.published
  reply := hreply

theorem handle_accounts {q : Program ToolCall ToolCall.Answer (Option Json)}
    (hf : (m.handle cd).Follows h q) : RepliesAccount cd m h q := by
  unfold Message.handle at hf
  split at hf
  · next method id hm hid =>
    rcases follows_bind hf with ⟨p, hp, rfl⟩ | ⟨h₁, h₂, r, rfl, h1, h2⟩
    · refine (result_asked hp).accounts hid hm fun r hr => ?_
      -- Behind the end of the first part there is only the reply.
      cases p with
      | call op k => cases hr
      | ret x =>
        obtain rfl := Program.ret.inj hr
        exact result_replied hid hm hp
    · obtain ⟨rfl, rfl⟩ := follows_ret.mp h2
      rw [List.append_nil]
      refine (result_asked h1).accounts hid hm fun r' hr => ?_
      obtain rfl := Program.ret.inj hr
      exact result_replied hid hm h1
  · next hnone =>
    obtain ⟨rfl, rfl⟩ := follows_ret.mp hf
    refine ⟨.silent, fun hne => absurd rfl hne, fun x hx => absurd hx List.not_mem_nil,
      fun r hr => ?_⟩
    obtain rfl := Program.ret.inj hr
    refine .unanswered ?_ rfl
    cases hid : m.id with
    | none => exact Or.inl rfl
    | some id =>
      cases hm : m.method with
      | none => exact Or.inr rfl
      | some method => exact absurd hid (hnone method id hm)

end

section
variable {ι σ : Type} [DecidableEq ι] {cd : TransportCodec} {messages : ι → Message}
  {exec : σ → (op : ToolCall) → op.Answer → σ → Prop} {s₀ s : σ}
  {log : List (Entry ι ToolCall.Answer σ)}
  {p : ι → Program ToolCall ToolCall.Answer (Option Json)}

/-- For every message, whatever it says, whatever the backend answers and however other messages
are handled meanwhile. -/
theorem replies_account (run : Run exec s₀ (fun i => (messages i).handle cd) log s p) (i : ι) :
    RepliesAccount cd (messages i) (history i log) (p i) :=
  handle_accounts (run.follows i)

end

/-! ## A request beside a notification -/

def sampleTransport : TransportCodec where
  toToolCodec := sampleToolCodec
  display _ := "null"

/-- The first message requests a deployment, the second is the same without an id. -/
def requestAndNotify : Pair → Message
  | .first => ⟨sampleInvocation.identity, .object [("id", .ofNat 7),
      ("method", .string "tools/call"), ("params", .object [("name", .string sampleInvocation.name),
        ("arguments", sampleInvocation.arguments)])]⟩
  | .second => ⟨sampleInvocation.identity, .object [("method", .string "tools/call"),
      ("params", .object [("name", .string sampleInvocation.name),
        ("arguments", sampleInvocation.arguments)])]⟩

def transported : Snapshot Pair ToolCall.Answer Unit fun _ => Option Json :=
  Snapshot.play (fun _ : Unit => sampleBackend)
    ⟨[], (), fun i => (requestAndNotify i).handle sampleTransport⟩ [(.first, ()), (.first, ())]

theorem transported_run :
    Run (Atomic sampleBackend) () (fun i => (requestAndNotify i).handle sampleTransport)
      transported.log transported.state transported.pool :=
  play_run (fun _ _ _ => rfl) .start _

/-- The request is answered behind its mutation, and the notification asks nothing. -/
theorem replies_account_requested :
    (∀ i, RepliesAccount sampleTransport (requestAndNotify i) (history i transported.log)
        (transported.pool i)) ∧
      (history Pair.first transported.log).map (fun c => isMutation c.1) = [false, true] ∧
      history Pair.second transported.log = [] :=
  ⟨replies_account transported_run, rfl, rfl⟩

end Piteka.Safety
