import Piteka.Interleaving.Fault
import Piteka.Postgres.Deployment

/-!
# Which process makes which call

Every call on the database is made in carrying out a port call of some part of a
process: a use case, the processor of a delivery, or a part that only reads and notes.
The earlier port calls of the part have been carried out by earlier calls of the
process, so what a part has read or written is in the history of its process.
-/
namespace Piteka.Postgres

set_option autoImplicit false

open Piteka.Interleaving Piteka.Interleaving.Program Piteka.Storage Piteka.Application

/-- A port call that writes no row of which it matters who has written it, and does not ask the
provider. -/
def Plain : PortCall → Prop
  | .store (.mandates (.compareAndSwap _ _ _)) => False
  | .store (.webhookReceipts (.record _)) => False
  | .store (.attempts (.insert _)) => False
  | .store (.evidenceNodes (.insert _)) => False
  | .store (.receipts (.insert _)) => False
  | .dispatchFn _ _ => False
  | _ => True

/-- A part of the process `x` stands at a port call, after port calls of its own. -/
inductive Part (cd : Codec) (x : Process) : Path → PortCall → Prop
  | useCase {c : Call} {h : Path} {op : PortCall} (hn : Next (c.program cd.toRuntime) h op)
      (hc : x = .useCase c ∨ c.OfDemo) : Part cd x h op
  | ingest {payload : GitHubWebhookPayload} (hx : x.Delivers payload) {h : ServicePath} {op : PortCall}
      (hp : IngestPoint cd payload h (.inl op)) : Part cd x [] op
  | process {payload : GitHubWebhookPayload} (hx : x.Delivers payload) {outOfOrder : Bool} {h : Path}
      {op : PortCall} (hn : Next (Delivery.process cd
        ⟨payload.eventType, payload.body, payload.deliveryId, outOfOrder⟩).run h op) : Part cd x h op
  | plain {op : PortCall} (hop : Plain op) : Part cd x [] op

/-- The port calls `h` have been carried out, each by calls that are in `g`. -/
def Carried (g : DeployPath) (h : Path) : Prop :=
  ∀ d ∈ h, ∃ g', Returns (carryPort d.1) g' d.2 ∧ ∀ e ∈ g', e ∈ g

theorem carried_nil (g : DeployPath) : Carried g [] := fun _ hd => absurd hd List.not_mem_nil

/-- The port calls of a path among calls to other components too. -/
theorem carried_of_realizes {Op : Type} {Ans : Op → Type}
    {f : (op : PortCall ⊕ Op) → DeployProgram (OneOf Answer Ans op)}
    (hf : ∀ op g a, Returns (f (.inl op)) g a → Returns (carryPort op) g a)
    {h : List ((op : PortCall ⊕ Op) × OneOf Answer Ans op)}
    {g₁ g : DeployPath} (hreal : Realizes f h g₁) (hg : ∀ e ∈ g₁, e ∈ g) {h' : Path}
    (hh : ∀ d ∈ h', onLeft d ∈ h) : Carried g h' := by
  intro d hd
  obtain ⟨g', hr, hmem⟩ := hreal.carried (hh d hd)
  exact ⟨g', hf d.1 g' d.2 hr, fun e he => hg e (hmem e he)⟩

theorem carried_of_ports {h : Path} {g₁ g : DeployPath} (hreal : Realizes carryPort h g₁)
    (hg : ∀ e ∈ g₁, e ∈ g) : Carried g h := by
  intro d hd
  obtain ⟨g', hr, hmem⟩ := hreal.carried hd
  exact ⟨g', hr, fun e he => hg e (hmem e he)⟩

section
variable {cd : Codec} {g : DeployPath} {c : DatabaseCall}

theorem exportCall_plain {op : PortCall} (hcall : ExportCall cd op) : Plain op := by
  cases hcall <;> trivial

theorem reads_plain {op : PortCall} (hreads : Api.ReadCall.Reads (.inl op)) : Plain op := by
  cases hreads <;> trivial

/-- A call that carries out no port call. -/
inductive Process.Direct : Process → DeployCall → Prop
  | tracker {x : Process} (q : TrackerCall) : Direct x (.inr (.tracker q))
  | demo (env : Env) (q : DemoCall) : Direct (.demo env) (.inr (.demo q))
  | listing {x : Process} (collation : Collation) : Direct x (.inl (.receiptIds collation))

theorem read_part {x : Process} {op : Api.ReadCall} {g g' : DeployPath} {c : DeployCall} (hreads : op.Reads)
    (hop : Next (carryRead op) g' c) :
    (∃ h op g', Carried g h ∧ Part cd x h op ∧ Next (carryPort op) g' c) ∨ x.Direct c := by
  cases op with
  | inl op => exact Or.inl ⟨[], op, g', carried_nil g, .plain (reads_plain hreads), hop⟩
  | inr q =>
    cases q with
    | listIdsOrdered collation =>
      obtain ⟨_, rfl⟩ := next_onDatabase.mp hop
      exact Or.inr (.listing collation)

/-- A call is made in carrying out a port call of a part, or directly. -/
theorem Process.part {x : Process} {c : DeployCall} (hn : Next (x.program cd) g c) :
    (∃ h op g', Carried g h ∧ Part cd x h op ∧ Next (carryPort op) g' c) ∨ x.Direct c := by
  cases x with
  | useCase call =>
    obtain ⟨h, g₁, g₂, op, rfl, hreal, hp, hop⟩ := next_expand hn
    exact Or.inl ⟨h, op, g₂, carried_of_ports hreal fun e he => List.mem_append_left _ he,
      .useCase hp (Or.inl rfl), hop⟩
  | webhook w request =>
    obtain ⟨h, g₁, g₂, op, rfl, hreal, hp, hop⟩ := next_expand hn
    cases op with
    | inr q =>
      rcases next_call.mp hop with ⟨_, rfl⟩ | ⟨_, _, _, h1⟩
      · exact Or.inr (.tracker q)
      · exact absurd h1 next_ret
    | inl op =>
      refine Or.inl ?_
      obtain ⟨payload, hauth, hping, hp⟩ := Api.webhookEndpoint_next hp
      have hx : (Process.webhook w request).Delivers payload := ⟨hauth, hping⟩
      generalize hop' : (Sum.inl op : ServiceCall) = op' at hp
      cases handleWebhook_next hp with
      | ingest hp =>
        subst hop'
        exact ⟨[], op, g₂, carried_nil _, .ingest hx hp, hop⟩
      | @dispatch event _ t b t' h' op'' hd =>
        obtain rfl := Sum.inl.inj hop'
        rcases dispatch_next hd with hd | rfl | ⟨note, rfl⟩
        · refine ⟨h', op, g₂, carried_of_realizes (fun _ _ _ hr => hr) hreal (fun e he => List.mem_append_left _ he)
            fun d hd => List.mem_append_right _ (List.mem_map_of_mem hd), .process hx hd, hop⟩
        · exact ⟨[], .clock, g₂, carried_nil _, .plain trivial, hop⟩
        · exact ⟨[], .store (.audit (.append note)), g₂, carried_nil _, .plain trivial, hop⟩
  | read request =>
    obtain ⟨h, g₁, g₂, op, rfl, _, hp, hop⟩ := next_expand hn
    exact read_part (Api.readEndpoint_next hp) hop
  | pull state authorization query =>
    obtain ⟨h, g₁, g₂, op, rfl, _, hp, hop⟩ := next_expand hn
    exact read_part (FeedServer.serveFeed_next hp) hop
  | exportReceipt id =>
    obtain ⟨h, g₁, g₂, op, rfl, _, hp, hop⟩ := next_expand hn
    have hcall : ExportCall cd op := (exportManifestBytes_next hp).exportCall
    exact Or.inl ⟨[], op, g₂, carried_nil _, .plain (exportCall_plain hcall), hop⟩
  | assembleBundle id =>
    obtain ⟨h, g₁, g₂, op, rfl, _, hp, hop⟩ := next_expand hn
    exact Or.inl ⟨[], op, g₂, carried_nil _, .plain (exportCall_plain (assembleBundle_next hp)), hop⟩
  | demo env =>
    obtain ⟨h, g₁, g₂, op, rfl, hreal, hp, hop⟩ := next_expand hn
    cases op with
    | inr q =>
      rcases next_call.mp hop with ⟨_, rfl⟩ | ⟨_, _, _, h1⟩
      · exact Or.inr (.demo env q)
      · exact absurd h1 next_ret
    | inl op =>
      refine Or.inl ?_
      generalize hop' : (Sum.inl op : LiveCall) = op' at hp
      cases controlledDemo_next hp with
      | @useCase call h' op'' h₁ hn hc =>
        obtain rfl := Sum.inl.inj hop'
        exact ⟨h', op, g₂, carried_of_realizes (fun _ _ _ hr => hr) hreal (fun e he => List.mem_append_left _ he)
          fun d hd => List.mem_append_right _ (List.mem_map_of_mem hd), .useCase hn (Or.inr hc), hop⟩
      | issue _ plan =>
        have hplain : Plain op := by rw [Sum.inl.inj hop']; exact trivial
        exact ⟨[], op, g₂, carried_nil _, .plain hplain, hop⟩
      | readMandate _ m =>
        have hplain : Plain op := by rw [Sum.inl.inj hop']; exact trivial
        exact ⟨[], op, g₂, carried_nil _, .plain hplain, hop⟩
      | readAttempt _ id =>
        have hplain : Plain op := by rw [Sum.inl.inj hop']; exact trivial
        exact ⟨[], op, g₂, carried_nil _, .plain hplain, hop⟩
      | create => cases hop'
      | other => cases hop'

theorem Process.tablePart {x : Process} (hn : Next (x.program cd) g (.inl c))
    (hc : ∀ collation, c ≠ .receiptIds collation) :
    ∃ h op, Carried g h ∧ Part cd x h op ∧ CarriedBy op c := by
  rcases Process.part hn with ⟨h, op, g', hg, hpart, hop⟩ | hdirect
  · exact ⟨h, op, hg, hpart, carryPort_next hop⟩
  · cases hdirect with
    | listing collation => exact absurd rfl (hc collation)

/-! ## The calls before a write -/

/-- A swap that a part has seen applied is an update in the history. -/
theorem Carried.swap {h : Path} (hg : Carried g h) {m state : String} {v w : Int64}
    (hd : did (.mandates (.compareAndSwap m v state)) (.applied w) ∈ h) :
    onLeft ⟨.mandates (.updateRow m v state), .ok (some w)⟩ ∈ g := by
  obtain ⟨g', hr, hmem⟩ := hg _ hd
  obtain ⟨h', hreal, hp⟩ := returns_expand hr
  obtain rfl := mandateSwap_applied hp
  obtain ⟨g'', hr', hmem'⟩ := hreal.carried List.mem_cons_self
  rw [returns_onDatabase.mp hr'] at hmem'
  exact hmem _ (hmem' _ List.mem_cons_self)

theorem Carried.attempts {h : Path} (hg : Carried g h) {q : ExecutionAttemptCall}
    {a : StorageResult (StoreCall.attempts q).Ok}
    (hd : (⟨.store (.attempts q), a⟩ : (op : PortCall) × Answer op) ∈ h) :
    onLeft ⟨.attempts q, a⟩ ∈ g := by
  obtain ⟨g', hr, hmem⟩ := hg _ hd
  rw [returns_onDatabase.mp hr] at hmem
  exact hmem _ List.mem_cons_self

theorem Carried.evidenceNodes {h : Path} (hg : Carried g h) {q : EvidenceNodeCall}
    {a : StorageResult (StoreCall.evidenceNodes q).Ok}
    (hd : (⟨.store (.evidenceNodes q), a⟩ : (op : PortCall) × Answer op) ∈ h) :
    onLeft ⟨.evidenceNodes q, a⟩ ∈ g := by
  obtain ⟨g', hr, hmem⟩ := hg _ hd
  rw [returns_onDatabase.mp hr] at hmem
  exact hmem _ List.mem_cons_self

variable {x : Process}

/-- An attempt is inserted by a reservation whose swap has been applied. -/
theorem attempt_insert_deployed {attempt : ExecutionAttempt}
    (hn : Next (x.program cd) g (.inl (.attempts (.insert attempt)))) :
    ∃ a t v, attempt = ReserveArgs.attempt a t ∧
      onLeft ⟨.mandates (.updateRow a.mandateIdHex a.expectedMandateVersion "reserved"), .ok (some v)⟩ ∈ g := by
  obtain ⟨h, op, hg, hpart, hcarried⟩ := Process.tablePart hn (fun _ h => nomatch h)
  cases hcarried
  cases hpart with
  | useCase hc _ =>
    obtain ⟨a, t, q, v, _, _, rfl, rfl⟩ := attempt_insert_next hc
    exact ⟨a, _, v, rfl, hg.swap (by simp [ReserveArgs.swapped])⟩
  | ingest _ hp => cases hp
  | process _ hp => exact absurd trivial (process_writes_no_attempt hp)
  | plain hop => exact hop.elim

/-- No update of a mandate sets it to `issued`. -/
theorem neverReissues_deployed (hn : Next (x.program cd) g (.inl c)) : c.NeverReissues := by
  by_cases hlisting : ∃ collation, c = .receiptIds collation
  · obtain ⟨collation, rfl⟩ := hlisting
    trivial
  obtain ⟨h, op, _, hpart, hcarried⟩ := Process.tablePart hn (fun collation hc => hlisting ⟨collation, hc⟩)
  cases hcarried with
  | swap m v state =>
    cases hpart with
    | useCase hc _ => cases mandate_swap_next hc <;> simp [DatabaseCall.NeverReissues]
    | ingest _ hp => cases hp
    | process _ hp =>
      generalize hop : PortCall.store (.mandates (.compareAndSwap m v state)) = op at hp
      cases process_next hp with
      | produce _ _ hp => cases hp <;> cases hop
      | _ => cases hop
    | plain hop => exact hop.elim
  | _ => trivial

/-- The process ingests an authenticated delivery that reports the terminal status `event`. -/
def Process.ReportsTerminal (cd : Codec) (x : Process) (event : DeploymentStatusEvent) : Prop :=
  ∃ payload : GitHubWebhookPayload, x.Delivers payload ∧ payload.eventType = "deployment_status" ∧
    parseDeploymentStatus cd payload.body = some event ∧ isTerminalStatus event.state

/-- A receipt is inserted for an attempt that its process has read: by a production, after the
nodes it refers to, or by an abandonment. -/
inductive ReceiptSource (cd : Codec) (x : Process) (g : DeployPath) : ReceiptProjection → ExecutionAttempt → Prop
  | produced {event : DeploymentStatusEvent} {attempt : ExecutionAttempt} {now : Int64}
      (hx : x.ReportsTerminal cd event)
      (hread : onLeft ⟨.attempts (.byDeploymentId event.deploymentId), .ok (some attempt)⟩ ∈ g)
      (hnodes : ∀ id ∈ references (event.receipt cd attempt now), ∃ node : EvidenceNodeRecord,
        node.nodeIdHex = id ∧ onLeft ⟨.evidenceNodes (.insert node), .ok ()⟩ ∈ g) :
      ReceiptSource cd x g (event.receipt cd attempt now) attempt
  | abandoned {a : AbandonArgs} {rows : List ExecutionAttempt} {attempt : ExecutionAttempt} {now : Int64}
      (hx : x = .useCase (.abandonUnresolved a))
      (hread : onLeft ⟨.attempts (.byMandate a.mandateIdHex), .ok rows⟩ ∈ g) (hmem : attempt ∈ rows) :
      ReceiptSource cd x g (a.receipt now attempt) attempt

/-- The nodes that a production refers to are inserted before its receipt. -/
theorem referred_inserted {event : DeploymentStatusEvent} {t : UInt64} {attempt : ExecutionAttempt}
    {id : String} (hid : id ∈ references (event.receipt cd attempt t.toInt64)) :
    ∃ node : EvidenceNodeRecord, node.nodeIdHex = id ∧ nodeInserted node ∈ event.claimed cd t attempt := by
  rw [references, DeploymentStatusEvent.receipt] at hid
  rcases List.mem_append.mp hid with hid | hid
  · rcases List.mem_append.mp hid with hid | hid
    · obtain rfl := List.mem_singleton.mp hid
      exact ⟨event.claimNode cd attempt t.toInt64, rfl, by simp [DeploymentStatusEvent.claimed]⟩
    · obtain rfl := List.mem_singleton.mp hid
      exact ⟨event.observationNode cd attempt t.toInt64, rfl, by simp [DeploymentStatusEvent.claimed]⟩
  · unfold DeploymentStatusEvent.evidenceGaps at hid
    split at hid
    · next hunknown =>
      obtain rfl := List.mem_singleton.mp hid
      refine ⟨DeploymentStatusEvent.gapNode cd attempt t.toInt64, rfl, ?_⟩
      simp [DeploymentStatusEvent.claimed, DeploymentStatusEvent.gapPath, hunknown]
    · cases hid

/-- What a production writes, it writes for an authenticated terminal status. -/
theorem reports_of_produces {payload : GitHubWebhookPayload} (hx : x.Delivers payload) {outOfOrder : Bool}
    {event : DeploymentStatusEvent} (hproduces : (Task.process ⟨payload.eventType, payload.body,
      payload.deliveryId, outOfOrder⟩).Produces cd event) : x.ReportsTerminal cd event := by
  cases hproduces with
  | delivered hreports ht => exact ⟨payload, hx, hreports.1, hreports.2, ht⟩

theorem receipt_insert_deployed {q : ReceiptProjection}
    (hn : Next (x.program cd) g (.inl (.receipts (.insert q)))) : ∃ attempt, ReceiptSource cd x g q attempt := by
  obtain ⟨h, op, hg, hpart, hcarried⟩ := Process.tablePart hn (fun _ h => nomatch h)
  cases hcarried
  cases hpart with
  | useCase hn hc =>
    obtain ⟨a, t, p, rows, y, v, rfl, hchosen, rfl, rfl⟩ := receipt_insert_next hn
    refine ⟨y, .abandoned (hc.resolve_right id) (hg.attempts ?_) hchosen.mem⟩
    simp [AbandonArgs.swapped, chosenPath]
  | ingest _ hp => cases hp
  | process hx hp =>
    obtain ⟨event, hproduces, hpoint⟩ := production_next hp (by simp)
    cases hpoint with
    | receipt t attempt =>
      refine ⟨attempt, .produced (reports_of_produces hx hproduces) (hg.attempts ?_) fun id hid => ?_⟩
      · simp [DeploymentStatusEvent.claimed, DeploymentStatusEvent.looked]
      · obtain ⟨node, hnode, hmem⟩ := referred_inserted hid
        exact ⟨node, hnode, hg.evidenceNodes hmem⟩
  | plain hop => exact hop.elim

theorem node_insert_deployed {node : EvidenceNodeRecord}
    (hn : Next (x.program cd) g (.inl (.evidenceNodes (.insert node)))) :
    ∃ event attempt now, x.ReportsTerminal cd event ∧ ProducedNode cd event attempt now node := by
  obtain ⟨h, op, _, hpart, hcarried⟩ := Process.tablePart hn (fun _ h => nomatch h)
  cases hcarried
  cases hpart with
  | useCase hn _ => exact absurd trivial (Call.no_evidence hn)
  | ingest _ hp => cases hp
  | process hx hp =>
    obtain ⟨event, attempt, now, hproduces, hnode⟩ := Task.node_insert_next (t := .process _) hp
    exact ⟨event, attempt, now, reports_of_produces hx hproduces, hnode⟩
  | plain hop => exact hop.elim

/-- No use case records a delivery. -/
theorem no_delivery_of_call {rt : Runtime} {call : Call} {h : Path} {r : WebhookReceipt} :
    ¬ Next (call.program rt) h (.store (.webhookReceipts (.record r))) := by
  intro hn
  generalize hop : PortCall.store (.webhookReceipts (.record r)) = op at hn
  cases Call.next hn with
  | propose hp => cases hp <;> cases hop
  | decide hc hp =>
    cases hp with
    | status hp => cases hp <;> cases hop
    | _ => cases hop
  | revoke hp =>
    cases hp with
    | status hp => cases hp <;> cases hop
    | _ => cases hop
  | reserve hc hp => cases hp <;> cases hop
  | dispatch a t q hq v => cases hop
  | complete hc hp => cases hp <;> cases hop
  | reconcile hp => cases hp <;> cases hop
  | abandon hp => cases hp <;> cases hop

theorem delivery_record_deployed {r : WebhookReceipt}
    (hn : Next (x.program cd) g (.inl (.webhookReceipts (.record r)))) :
    ∃ payload now, x.Delivers payload ∧ r = payload.receipt cd.toRuntime now := by
  obtain ⟨h, op, _, hpart, hcarried⟩ := Process.tablePart hn (fun _ h => nomatch h)
  cases hcarried
  cases hpart with
  | useCase hn _ => exact absurd hn no_delivery_of_call
  | @ingest payload hx h op hp =>
    cases hp with
    | record _ t => exact ⟨payload, t.toInt64, hx, rfl⟩
  | process hx hp =>
    obtain ⟨event, _, hpoint⟩ := production_next hp (by simp)
    cases hpoint
  | plain hop => exact hop.elim

/-! ## Requests to the provider -/

/-- The process asks the provider for a deployment by this call. -/
def Process.Asks : Process → OwnCall → Prop
  | .useCase _, .port (.dispatchFn _ _) => True
  | .demo _, .demo (.createDeployment _ _ _) => True
  | _, _ => False

/-- The call asks the provider for a deployment. -/
def OwnCall.asksProvider : OwnCall → Bool
  | .port (.dispatchFn _ _) => true
  | .demo (.createDeployment _ _ _) => true
  | _ => false

/-- A process that asks the provider has inserted the attempt of its mandate and has not asked
before. -/
structure Asking (cd : Codec) (x : Process) (g : DeployPath) (c : OwnCall) : Prop where
  asks : x.Asks c
  inserted : ∃ m attempt, x.mandate cd.toRuntime = some m ∧
    attempt.attemptIdHex = attemptIdOf m ∧ onLeft ⟨.attempts (.insert attempt), .ok ()⟩ ∈ g
  first : ∀ d ∈ g, ∀ c', d.1 = .inr c' → ¬ x.Asks c'

/-- A call that is made in carrying out a port call, and is not one on the database. -/
theorem own_of_carried {op : PortCall} {a : Answer op} {g' : DeployPath}
    (hr : Returns (carryPort op) g' a) {d : (c : DeployCall) × DeployAnswer c} (hd : d ∈ g') {c : OwnCall}
    (hc : d.1 = .inr c) : c = .port op := by
  obtain ⟨l₁, l₂, rfl⟩ := List.append_of_mem hd
  have hn := next_of_returns hr
  rw [hc] at hn
  exact carryPort_own hn

theorem process_never_dispatches {d : Delivery} {h : Path} {key : String} {digest : Vector UInt8 32} :
    ¬ Next (d.process cd).run h (.dispatchFn key digest) := by
  intro hn
  generalize hop : PortCall.dispatchFn key digest = op at hn
  cases process_next hn with
  | produce _ _ hp => cases hp <;> cases hop
  | _ => cases hop

theorem demo_mandate {rt : Runtime} {env : Env} {plan : DemoPlan} (hplan : readPlan env = .ok plan) :
    (Process.demo env).mandate rt = some (plan.mandateId rt) := by
  simp only [Process.mandate, hplan]

theorem asks_creates {env : Env} {q : DemoCall} (h : (Process.demo env).Asks (.demo q)) :
    LiveCall.Creates (.inr q) := by
  cases q <;> exact h

theorem granted_without_dispatch {a : ReserveArgs} {t : UInt64} {q : ActionRequest} {v : Int64}
    {key : String} {digest : Vector UInt8 32} {b : Option UInt64} :
    (⟨.dispatchFn key digest, b⟩ : (op : PortCall) × Answer op) ∉ a.granted t q v := by
  simp [ReserveArgs.granted, ReserveArgs.swapped]

theorem useCase_asking {call : Call} {o : OwnCall} (hn : Next ((Process.useCase call).program cd) g (.inr o))
    (ho : (Process.useCase call).Asks o) : Asking cd (.useCase call) g o := by
  obtain ⟨h, g₁, g₂, op, rfl, hreal, hp, hop⟩ := next_expand hn
  obtain rfl := carryPort_own hop
  cases op with
  | dispatchFn key digest =>
    obtain ⟨a, t, q, v, rfl, _, rfl, _⟩ := dispatchFn_next hp
    have hg : Carried (g₁ ++ g₂) (a.granted t q v) :=
      carried_of_ports hreal fun e he => List.mem_append_left _ he
    rcases next_call.mp hop with ⟨rfl, _⟩ | ⟨_, _, _, h1⟩
    · refine ⟨trivial, ⟨a.mandateIdHex, _, rfl, rfl, hg.attempts a.inserted_mem_granted⟩, ?_⟩
      intro d hd c hc hasks
      rw [List.append_nil] at hd
      obtain ⟨⟨op, b⟩, hmem, g', hr, hd'⟩ := hreal.source hd
      obtain rfl := own_of_carried hr hd' hc
      cases op with
      | dispatchFn key digest => exact granted_without_dispatch hmem
      | _ => exact hasks
    · exact absurd h1 next_ret
  | _ => exact ho.elim

theorem demo_asking {env : Env} {o : OwnCall} (hn : Next ((Process.demo env).program cd) g (.inr o))
    (ho : (Process.demo env).Asks o) : Asking cd (.demo env) g o := by
  obtain ⟨h, g₁, g₂, op, rfl, hreal, hp, hop⟩ := next_expand hn
  cases op with
  | inl op =>
    obtain rfl := carryPort_own hop
    exact ho.elim
  | inr q =>
    rcases next_call.mp hop with ⟨rfl, hq⟩ | ⟨_, _, _, h1⟩
    · obtain rfl := Sum.inr.inj hq
      cases q with
      | createDeployment adapter key call =>
        cases controlledDemo_next hp with
        | @create plan hplan t q v h₁ h₂ hfirst _ _ _ _ _ =>
          have hg : Carried (g₁ ++ []) ((plan.reservation cd.toRuntime).granted t q v) :=
            carried_of_realizes (fun _ _ _ hr => hr) hreal (fun e he => List.mem_append_left _ he)
              fun d hd => List.mem_append_left _ (List.mem_append_right _ (List.mem_map_of_mem hd))
          refine ⟨trivial, ⟨_, _, demo_mandate hplan, rfl,
            hg.attempts (plan.reservation cd.toRuntime).inserted_mem_granted⟩, ?_⟩
          intro d hd c hc hasks
          rw [List.append_nil] at hd
          obtain ⟨⟨op, b⟩, hmem, g', hr, hd'⟩ := hreal.source hd
          cases op with
          | inl op =>
            obtain rfl := own_of_carried hr hd' hc
            exact hasks
          | inr q =>
            have hd'' : d = ⟨.inr (.demo q), b⟩ := by
              rw [returns_onOwn.mp hr] at hd'
              exact List.mem_singleton.mp hd'
            obtain rfl : OwnCall.demo q = c := Sum.inr.inj (hd'' ▸ hc)
            refine hfirst ⟨.inr q, b⟩ ?_ (asks_creates hasks)
            simpa [onLeft] using hmem
        | other hc => exact absurd trivial hc
      | _ => exact ho.elim
    · exact absurd h1 next_ret

theorem asks_of_provider {o : OwnCall} (hn : Next (x.program cd) g (.inr o)) (ho : o.asksProvider) :
    x.Asks o := by
  rcases Process.part hn with ⟨h, op, g', _, hpart, hop⟩ | hdirect
  · obtain rfl := carryPort_own hop
    cases op with
    | dispatchFn key digest =>
      cases hpart with
      | useCase hn hc =>
        rcases hc with rfl | hc
        · trivial
        · obtain ⟨a, _, _, _, rfl, _⟩ := dispatchFn_next hn
          exact hc.elim
      | ingest _ hp => cases hp
      | process _ hn => exact absurd hn process_never_dispatches
      | plain hop => exact hop.elim
    | _ => cases ho
  · cases hdirect with
    | tracker q => cases ho
    | demo env q =>
      cases q with
      | createDeployment adapter key call => trivial
      | _ => cases ho

theorem process_asking {o : OwnCall} (hn : Next (x.program cd) g (.inr o)) (ho : x.Asks o) :
    Asking cd x g o := by
  cases x with
  | useCase call => exact useCase_asking hn ho
  | demo env => exact demo_asking hn ho
  | _ => exact ho.elim

end

/-! ## What a process knows -/

section
variable {ι : Type} [DecidableEq ι] {cd : Codec} {rc : RowCodec} {processes : ι → Process}
  {db db' : Database} {log : List (DeployEntry ι)} {p : (i : ι) → DeployProgram (processes i).Res}

theorem deployed_neverReissues (run : DeploymentRun cd rc processes db log db' p) :
    ∀ e ∈ lefts log, e.call.1.NeverReissues := by
  intro e he
  obtain ⟨h, hn⟩ := run.next_of_left he
  exact neverReissues_deployed hn

theorem entry_extends (run : DeploymentRun cd rc processes db log db' p) {e : DeployEntry ι} (he : e ∈ log) :
    e.before.1.Extends e.after.1 := by
  obtain ⟨i, ⟨op, a⟩, s, s'⟩ := e
  have hx : DeployExec rc s op a s' := run.exec_of_mem he
  cases op with
  | inl c =>
    have hmem : (⟨i, ⟨c, a⟩, s.1, s'.1⟩ : Entry ι DatabaseCall.Answer Database) ∈ lefts log :=
      mem_lefts.mpr ⟨_, he, rfl⟩
    exact exec_extends (deployed_neverReissues run _ hmem) hx.1
  | inr c => exact hx.2 ▸ .refl s.1

/-- The call of an entry on the database. -/
theorem database_exec (run : DeploymentRun cd rc processes db log db' p) {e : DeployEntry ι} (he : e ∈ log)
    {c : DatabaseCall} {a : c.Answer} (hcall : e.call = onLeft ⟨c, a⟩) :
    DatabaseExec rc e.before.1 c a e.after.1 := by
  have hx : DeployExec rc e.before e.call.1 e.call.2 e.after := run.exec_of_mem he
  rw [hcall] at hx
  exact hx.1

/-- What is on record after an entry is so before every later one. -/
theorem deployed_recorded (run : DeploymentRun cd rc processes db log db' p) {l₁ l₂ : List (DeployEntry ι)}
    {e f : DeployEntry ι} (hlog : log = l₁ ++ e :: l₂) (hf : f ∈ l₂) : e.after.1.Extends f.before.1 := by
  subst hlog
  have hafter := run.linked.around.2
  refine hafter.keeps_mem (Q := fun s => e.after.1.Extends s.1) (fun g hg h => ?_) (.refl _) hf
  exact h.trans (entry_extends run (List.mem_append_right _ (List.mem_cons_of_mem e hg)))

/-- What is on record at an entry is so at the end. -/
theorem recorded_end (run : DeploymentRun cd rc processes db log db' p) {e : DeployEntry ι} (he : e ∈ log) :
    e.before.1.Extends db' := by
  obtain ⟨l₁, l₂, rfl⟩ := List.append_of_mem he
  have hafter := run.linked.around.2
  have hlater : e.after.1.Extends db' := by
    refine hafter.keeps (Q := fun s => e.after.1.Extends s.1) (fun g hg h => ?_) (.refl _)
    exact h.trans (entry_extends run (List.mem_append_right _ (List.mem_cons_of_mem e hg)))
  exact (entry_extends run he).trans hlater

/-- What a process is answered after an entry is answered from a database that extends the one
after that entry. -/
theorem answered_later (run : DeploymentRun cd rc processes db log db' p) {i : ι}
    {l₁ l₂ : List (DeployEntry ι)} {e : DeployEntry ι} (hlog : log = l₁ ++ e :: l₂) {c : DatabaseCall}
    {a : c.Answer} (hc : onLeft ⟨c, a⟩ ∈ history i l₂) :
    ∃ f ∈ log, e.after.1.Extends f.before.1 ∧ DatabaseExec rc f.before.1 c a f.after.1 := by
  obtain ⟨f, hf, _, hcall⟩ := mem_history.mp hc
  have hmem : f ∈ log := hlog ▸ List.mem_append_right _ (List.mem_cons_of_mem e hf)
  exact ⟨f, hmem, deployed_recorded run hlog hf, database_exec run hmem hcall⟩

/-- Of two entries, one comes before the other. -/
theorem entries_ordered (run : DeploymentRun cd rc processes db log db' p) {e f : DeployEntry ι} (he : e ∈ log)
    (hf : f ∈ log) : e.before.1.Extends f.before.1 ∨ f.before.1.Extends e.before.1 := by
  obtain ⟨l₁, l₂, hlog⟩ := List.append_of_mem he
  rw [hlog] at hf
  rcases List.mem_append.mp hf with hf₁ | hf₂
  · obtain ⟨l₃, l₄, rfl⟩ := List.append_of_mem hf₁
    rw [List.append_assoc, List.cons_append] at hlog
    have hmem : f ∈ log := hlog ▸ List.mem_append_right _ List.mem_cons_self
    have hlater : e ∈ l₄ ++ e :: l₂ := List.mem_append_right _ List.mem_cons_self
    exact Or.inr ((entry_extends run hmem).trans (deployed_recorded run hlog hlater))
  · rcases List.mem_cons.mp hf₂ with rfl | hf₂
    · exact Or.inl (.refl _)
    · exact Or.inl ((entry_extends run he).trans (deployed_recorded run hlog hf₂))

/-- What an answer has told a process is so of the database from then on. -/
theorem deployed_knows (run : DeploymentRun cd rc processes db log db' p) {i : ι}
    {d : (c : DatabaseCall) × c.Answer} (hd : onLeft d ∈ history i log) : db'.Knows d := by
  obtain ⟨e, he, _, rfl⟩ := mem_history.mp (mem_history_lefts.mpr hd)
  have ht : Trace (DatabaseExec rc) db (lefts log) db' := run.trace.left
  refine ht.linked.known (K := fun d db => db.Knows d) (fun f hf => ?_) (fun f hf c hc => ?_) he
  · exact exec_knows (deployed_neverReissues run f hf) (ht.executed f hf)
  · exact (exec_extends (deployed_neverReissues run f hf) (ht.executed f hf)).knows hc

end

end Piteka.Postgres
