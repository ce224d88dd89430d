import Piteka.Application.ControlledDemo

/-!
# Paths of the controlled demo

Where the demo stands before each of its calls. It asks GitHub for the deployment once,
after its reservation has been granted; all its other port calls are those of its use
cases, the insertion of its mandate and the two reads of its report.
-/
namespace Piteka.Application

set_option autoImplicit false

open Piteka.Interleaving Piteka.Interleaving.Program Piteka.Storage Piteka.GitHub

abbrev LivePath := List ((op : LiveCall) × LiveAnswer op)

/-- The call asks GitHub for a deployment. -/
def LiveCall.Creates : LiveCall → Prop
  | .inr (.createDeployment _ _ _) => True
  | _ => False

/-- No call of the path has asked GitHub for a deployment. -/
def Uncreated (h : LivePath) : Prop := ∀ d ∈ h, ¬ LiveCall.Creates d.1

theorem uncreated_append {h₁ h₂ : LivePath} (h1 : Uncreated h₁) (h2 : Uncreated h₂) :
    Uncreated (h₁ ++ h₂) := by
  intro d hd
  rcases List.mem_append.mp hd with hd | hd
  · exact h1 d hd
  · exact h2 d hd

theorem uncreated_ports (h : Path) : Uncreated (h.map onLeft) := by
  intro d hd
  obtain ⟨c, _, rfl⟩ := List.mem_map.mp hd
  exact id

theorem uncreated_other {c : DemoCall} {a : DemoAnswer c} (hc : ¬ LiveCall.Creates (.inr c)) :
    Uncreated [⟨.inr c, a⟩] := by
  intro d hd
  obtain rfl := List.mem_singleton.mp hd
  exact hc

variable {α : Type} {rt : Runtime} {env : Env} {h : LivePath} {op : LiveCall}

/-! ## Parts -/

theorem next_fromResult {r : Except DemoError α} {β : Type} {f : α → DemoCase β} :
    Next (fromResult r >>= f).run h op ↔ ∃ x, r = .ok x ∧ Next (f x).run h op := by
  cases r with
  | error e => exact iff_of_false next_ret (fun ⟨_, he, _⟩ => nomatch he)
  | ok x =>
    constructor
    · intro hn
      exact ⟨x, rfl, hn⟩
    · rintro ⟨y, hy, hn⟩
      obtain rfl := Except.ok.inj hy
      exact hn

theorem next_demoAwait {c : StoreCall} {β : Type} {f : c.Ok → DemoCase β} :
    Next (demoAwait c >>= f).run h op ↔ (h = [] ∧ op = .inl (.store c)) ∨
      ∃ x t, h = onLeft (did c x) :: t ∧ Next (f x).run t op := by
  refine next_call.trans (or_congr_right ⟨?_, ?_⟩)
  · rintro ⟨a, t, rfl, ht⟩
    cases a with
    | error e => exact absurd ht next_ret
    | ok x => exact ⟨x, t, rfl, ht⟩
  · rintro ⟨x, t, rfl, ht⟩
    exact ⟨.ok x, t, rfl, ht⟩

theorem next_demoAsk {c : DemoCall} {β : Type} {f : DemoAnswer c → DemoCase β} :
    Next (demoAsk c >>= f).run h op ↔ (h = [] ∧ op = .inr c) ∨
      ∃ a t, h = ⟨.inr c, a⟩ :: t ∧ Next (f a).run t op :=
  next_call

/-- A use case makes its own calls, or has returned. -/
theorem next_runUseCase {c : Call} {β : Type} {f : c.Value → DemoCase β}
    (hn : Next (runUseCase rt c >>= f).run h op) :
    (∃ h' op', h = h'.map onLeft ∧ op = .inl op' ∧ Next (c.program rt) h' op') ∨
      ∃ h₁ h₂ x, h = h₁.map onLeft ++ h₂ ∧ Returns (c.program rt) h₁ (.ok x) ∧ Next (f x).run h₂ op := by
  rcases next_seq hn with h1 | ⟨g, h₂, x, rfl, h1, h2⟩
  · rcases next_bind h1 with h1 | ⟨_, _, _, _, _, h1⟩
    · exact Or.inl (next_lift.mp h1)
    · exact absurd h1 next_ret
  · obtain ⟨g₁, g₂, r, rfl, h3, h4⟩ := returns_bind h1
    obtain ⟨rfl, hr⟩ := returns_ret.mp h4
    obtain ⟨h₁, rfl, h5⟩ := returns_lift.mp h3
    rw [List.append_nil]
    cases r with
    | error e => cases hr
    | ok y =>
      obtain rfl := Except.ok.inj hr
      exact Or.inr ⟨h₁, h₂, x, rfl, h5, h2⟩

theorem demoDeployment_ok {plan : DemoPlan} {target : DemoTarget} {dispatched : Dispatched}
    {call : DeploymentCall} (h : demoDeployment rt plan target dispatched = .ok call) :
    call.commitSha = plan.commitSha ∧ call.attemptDigest = plan.attemptDigest rt dispatched := by
  obtain ⟨installationId, _, h⟩ := Checks.bind_eq_ok.mp h
  obtain ⟨repositoryId, _, h⟩ := Checks.bind_eq_ok.mp h
  obtain ⟨environment, _, h⟩ := Checks.bind_eq_ok.mp h
  obtain rfl := Except.ok.inj h
  exact ⟨rfl, rfl⟩

/-! ## Points -/

/-- The use cases of the demo. -/
def Call.OfDemo : Call → Prop
  | .propose _ | .approve _ | .reserve _ | .completeDispatch _ => True
  | _ => False

/-- Before each call of the demo: its port calls, its request to GitHub, its other calls. -/
inductive DemoPoint (rt : Runtime) (env : Env) : LivePath → LiveCall → Prop
  | useCase {c : Call} {h : Path} {op : PortCall} (h₁ : LivePath) (hn : Next (c.program rt) h op)
      (hc : c.OfDemo) :
      DemoPoint rt env (h₁ ++ h.map onLeft) (.inl op)
  | issue (h : LivePath) (plan : DemoPlan) :
      DemoPoint rt env h (.inl (.store (.mandates (.insert (plan.mandateId rt) "issued"))))
  | readMandate (h : LivePath) (m : String) :
      DemoPoint rt env h (.inl (.store (.mandates (.get m))))
  | readAttempt (h : LivePath) (id : String) :
      DemoPoint rt env h (.inl (.store (.attempts (.get id))))
  | create {plan : DemoPlan} (hplan : readPlan env = .ok plan) (t : UInt64) (q : ActionRequest) (v : Int64)
      {h₁ h₂ : LivePath} (hfirst : Uncreated (h₁ ++ h₂)) (adapter : GitHubAppAdapter) (key : Array UInt8)
      (call : DeploymentCall) (hsha : call.commitSha = plan.commitSha)
      (hdigest : call.attemptDigest = plan.attemptDigest rt (plan.reservation rt).reserved) :
      DemoPoint rt env (h₁ ++ ((plan.reservation rt).granted t q v).map onLeft ++ h₂)
        (.inr (.createDeployment adapter key call))
  | other {h : LivePath} {c : DemoCall} (hc : ¬ LiveCall.Creates (.inr c)) : DemoPoint rt env h (.inr c)

theorem DemoPoint.after {h₁ : LivePath} (hp : DemoPoint rt env h op) (huncreated : Uncreated h₁) :
    DemoPoint rt env (h₁ ++ h) op := by
  cases hp with
  | useCase h₂ hn hc =>
    rw [← List.append_assoc]
    exact .useCase (h₁ ++ h₂) hn hc
  | issue _ plan => exact .issue _ plan
  | readMandate _ m => exact .readMandate _ m
  | readAttempt _ id => exact .readAttempt _ id
  | @create plan hplan t q v g₁ g₂ hfirst adapter key call hsha hdigest =>
    rw [← List.append_assoc, ← List.append_assoc]
    refine .create hplan t q v ?_ adapter key call hsha hdigest
    rw [List.append_assoc]
    exact uncreated_append huncreated hfirst
  | other hc => exact .other hc

theorem authorizeDemo_next {plan : DemoPlan} {f : Unit → DemoCase α}
    (hn : Next (authorizeDemo rt plan >>= f).run h op) :
    DemoPoint rt env h op ∨ ∃ h₁ h₂ : LivePath, h = h₁ ++ h₂ ∧ Uncreated h₁ ∧ Next (f ()).run h₂ op := by
  unfold authorizeDemo at hn
  rw [bind_assoc] at hn
  rcases next_runUseCase hn with ⟨h', op', rfl, rfl, h1⟩ | ⟨h₁, h₂, _, rfl, _, h1⟩
  · exact Or.inl (.useCase [] h1 trivial)
  rw [bind_assoc] at h1
  rcases next_runUseCase h1 with ⟨h', op', rfl, rfl, h2⟩ | ⟨h₃, h₄, _, rfl, _, h2⟩
  · exact Or.inl (.useCase _ h2 trivial)
  rcases next_demoAwait.mp h2 with ⟨rfl, rfl⟩ | ⟨_, t, rfl, h3⟩
  · exact Or.inl (.issue _ plan)
  · refine Or.inr ⟨h₁.map onLeft ++ h₃.map onLeft ++ [onLeft (did (.mandates (.insert (plan.mandateId rt)
      "issued")) ())], t, by simp, ?_, h3⟩
    refine uncreated_append (uncreated_append (uncreated_ports h₁) (uncreated_ports h₃)) ?_
    exact uncreated_ports [did (.mandates (.insert (plan.mandateId rt) "issued")) ()]

/-- A reservation that goes on has been granted. -/
theorem reserveDemo_next {plan : DemoPlan} {f : Dispatched → DemoCase α}
    (hn : Next (reserveDemo rt plan >>= f).run h op) :
    DemoPoint rt env h op ∨ ∃ t q v h₂, h = ((plan.reservation rt).granted t q v).map onLeft ++ h₂ ∧
      Next (f (plan.reservation rt).reserved).run h₂ op := by
  unfold reserveDemo at hn
  rw [bind_assoc] at hn
  rcases next_runUseCase hn with ⟨h', op', rfl, rfl, h1⟩ | ⟨h₁, h₂, o, rfl, hr, h1⟩
  · exact Or.inl (.useCase [] h1 trivial)
  generalize ho : (Except.ok o : Except DispatchError DispatchOutcome) = r at hr
  cases reserve_returns hr with
  | dispatched t q hq v =>
    obtain rfl := Except.ok.inj ho
    exact Or.inr ⟨t, q, v, h₂, rfl, h1⟩
  | replayRejected =>
    obtain rfl := Except.ok.inj ho
    exact absurd h1 next_throw
  | reservationFailed =>
    obtain rfl := Except.ok.inj ho
    exact absurd h1 next_throw
  | _ => cases ho

theorem printWebhookUrl_next {adapter : GitHubAppAdapter} {key : Array UInt8} {f : Unit → DemoCase α}
    (hn : Next (printWebhookUrl env adapter key >>= f).run h op) :
    (∃ c, op = .inr c ∧ ¬ LiveCall.Creates (.inr c)) ∨
      ∃ h₁ h₂ : LivePath, h = h₁ ++ h₂ ∧ Uncreated h₁ ∧ Next (f ()).run h₂ op := by
  unfold printWebhookUrl at hn
  split at hn
  · rw [bind_assoc] at hn
    rcases next_demoAsk.mp hn with ⟨_, rfl⟩ | ⟨a, t, rfl, h1⟩
    · exact Or.inl ⟨_, rfl, id⟩
    rw [bind_assoc] at h1
    obtain ⟨url, _, h2⟩ := next_fromResult.mp h1
    exact Or.inr ⟨[_], t, rfl, uncreated_other id, h2⟩
  · exact Or.inr ⟨[], h, rfl, fun _ hd => absurd hd List.not_mem_nil, hn⟩

/-- The deployment is asked for in the last call of this part. -/
theorem deployDemo_next {plan : DemoPlan} {dispatched : Dispatched}
    {f : Except GitHubAppError DeploymentCreated → DemoCase α}
    (hn : Next (deployDemo rt env plan dispatched >>= f).run h op) :
    (∃ c, op = .inr c ∧ ¬ LiveCall.Creates (.inr c)) ∨
    (Uncreated h ∧ ∃ adapter key call, op = .inr (.createDeployment adapter key call) ∧
      call.commitSha = plan.commitSha ∧ call.attemptDigest = plan.attemptDigest rt dispatched) ∨
    ∃ h₁ h₂ a, h = h₁ ++ h₂ ∧ Next (f a).run h₂ op := by
  unfold deployDemo at hn
  simp only [bind_assoc] at hn
  obtain ⟨keyFile, _, h1⟩ := next_fromResult.mp hn
  rcases next_demoAsk.mp h1 with ⟨_, rfl⟩ | ⟨a, t, rfl, h2⟩
  · exact Or.inl ⟨_, rfl, id⟩
  obtain ⟨key, _, h3⟩ := next_fromResult.mp h2
  obtain ⟨target, _, h4⟩ := next_fromResult.mp h3
  obtain ⟨adapter, _, h5⟩ := next_fromResult.mp h4
  rcases printWebhookUrl_next h5 with hother | ⟨h₁, h₂, rfl, huncreated, h6⟩
  · exact Or.inl hother
  obtain ⟨call, hcall, h7⟩ := next_fromResult.mp h6
  have hread : Uncreated (⟨.inr (.readFile keyFile), a⟩ :: h₁) := uncreated_append (uncreated_other id) huncreated
  rcases next_demoAsk.mp h7 with ⟨rfl, rfl⟩ | ⟨created, t, rfl, h8⟩
  · rw [List.append_nil]
    exact Or.inr (Or.inl ⟨hread, adapter, key, call, rfl, demoDeployment_ok hcall⟩)
  · exact Or.inr (Or.inr ⟨⟨.inr (.readFile keyFile), a⟩ :: h₁ ++ [⟨.inr (.createDeployment adapter key
      call), created⟩], t, created, by simp, h8⟩)

/-- The calls of the report do not depend on what was called before them. -/
theorem reportDemo_next {plan : DemoPlan} {dispatched : Dispatched} {created : DeploymentCreated}
    (hn : Next (reportDemo rt env plan dispatched created).run h op) (g : LivePath) :
    DemoPoint rt env g op := by
  unfold reportDemo at hn
  rcases next_demoAwait.mp hn with ⟨_, rfl⟩ | ⟨mandate, t, rfl, h1⟩
  · exact .readMandate _ _
  cases mandate with
  | none => exact absurd h1 next_throw
  | some mandate =>
    rcases next_demoAwait.mp h1 with ⟨_, rfl⟩ | ⟨attempt, t, rfl, h2⟩
    · exact .readAttempt _ _
    cases attempt with
    | none => exact absurd h2 next_throw
    | some attempt =>
      obtain ⟨path, _, h3⟩ := next_fromResult.mp h2
      rcases next_demoAsk.mp h3 with ⟨_, rfl⟩ | ⟨written, t, rfl, h4⟩
      · exact .other id
      · exact absurd h4 next_ret

theorem controlledDemo_next (hn : Next (controlledDemo rt env).run h op) : DemoPoint rt env h op := by
  unfold controlledDemo at hn
  obtain ⟨plan, hplan, h1⟩ := next_fromResult.mp hn
  obtain ⟨databaseUrl, _, h2⟩ := next_fromResult.mp h1
  rcases next_demoAsk.mp h2 with ⟨rfl, rfl⟩ | ⟨connected, t, rfl, h3⟩
  · exact .other id
  obtain ⟨_, _, h4⟩ := next_fromResult.mp h3
  show DemoPoint rt env ([⟨.inr (.connect databaseUrl), connected⟩] ++ t) op
  refine DemoPoint.after ?_ (uncreated_other id)
  rcases authorizeDemo_next h4 with hp | ⟨h₁, h₂, rfl, hauthorized, h5⟩
  · exact hp
  refine DemoPoint.after ?_ hauthorized
  rcases reserveDemo_next h5 with hp | ⟨time, q, v, h₃, rfl, h6⟩
  · exact hp
  rcases deployDemo_next h6 with ⟨c, rfl, hc⟩ | ⟨hfirst, adapter, key, call, rfl, hsha, hdigest⟩ |
    ⟨h₄, h₅, a, rfl, h7⟩
  · exact .other hc
  · have hfirst' : Uncreated ([] ++ h₃) := hfirst
    exact .create hplan time q v hfirst' adapter key call hsha hdigest
  rw [← List.append_assoc]
  generalize ((plan.reservation rt).granted time q v).map onLeft ++ h₄ = g
  cases a with
  | ok created =>
    rcases next_runUseCase h7 with ⟨h', op', rfl, rfl, h8⟩ | ⟨h₁, h₂, _, rfl, _, h8⟩
    · exact .useCase g h8 trivial
    · exact reportDemo_next h8 _
  | error e =>
    rcases next_runUseCase h7 with ⟨h', op', rfl, rfl, h8⟩ | ⟨h₁, h₂, _, rfl, _, h8⟩
    · exact .useCase g h8 trivial
    · exact absurd h8 next_throw

end Piteka.Application
