import Piteka.Api.WebhookEndpoint
import Piteka.Application.ControlledDemoPaths
import Piteka.Application.Tasks
import Piteka.Feed.Server
import Piteka.Interleaving.Expand
import Piteka.Postgres.Records

/-!
# Processes over one database

The processes of a deployment share the database and nothing else: callers of the use
cases, webhook handlers, readers of the API, pulls of the feed, exporters and demos. A port call of the mandate,
object or audit store is carried out by the statements of its method, one of another
Postgres store by a single call on the tables. The request and decision stores, the
evidence files, the clock, the tracker, the provider and GitHub belong to the process;
what they answer is arbitrary here.
-/
namespace Piteka.Postgres

set_option autoImplicit false

open Piteka.Interleaving Piteka.Interleaving.Program Piteka.Storage Piteka.Application
open Piteka.Api (WebhookState HttpRequest WebhookReply webhookEndpoint ReadCall ReadAnswer ReadRequest
  ReadReply readEndpoint)

/-- What a process asks of its own parts and of the outside. -/
inductive OwnCall where
  | port (op : PortCall)
  | tracker (c : TrackerCall)
  | demo (c : DemoCall)

@[reducible] def OwnAnswer : OwnCall → Type
  | .port op => Answer op
  | .tracker c => TrackerAnswer c
  | .demo c => DemoAnswer c

abbrev DeployCall := DatabaseCall ⊕ OwnCall

abbrev DeployAnswer := OneOf DatabaseCall.Answer OwnAnswer

abbrev DeployProgram (α : Type) := Program DeployCall DeployAnswer α

abbrev DeployPath := List ((op : DeployCall) × DeployAnswer op)

def onDatabase (c : DatabaseCall) : DeployProgram c.Answer := .call (.inl c) .ret

def onOwn (c : OwnCall) : DeployProgram (OwnAnswer c) := .call (.inr c) .ret

/-- How the processes carry out a port call. -/
def carryPort : (op : PortCall) → DeployProgram (Answer op)
  | .store (.protocolObjects (.put record)) =>
    (PgProtocolObjectStore.put record).run.expand fun q => onDatabase (.protocolObjects q)
  | .store (.protocolObjects (.get id)) =>
    (PgProtocolObjectStore.get id).run.expand fun q => onDatabase (.protocolObjects q)
  | .store (.mandates (.insert m state)) =>
    (PgMandateProjectionStore.insert m state).run.expand fun q => onDatabase (.mandates q)
  | .store (.mandates (.get m)) =>
    (PgMandateProjectionStore.get m).run.expand fun q => onDatabase (.mandates q)
  | .store (.mandates (.compareAndSwap m v state)) =>
    (PgMandateProjectionStore.compareAndSwap m v state).run.expand fun q => onDatabase (.mandates q)
  | .store (.audit (.append event)) =>
    (PgAuditLog.append event).run.expand fun q => onDatabase (.audit q)
  | .store (.audit (.recent limit)) =>
    (PgAuditLog.recent limit).run.expand fun q => onDatabase (.audit q)
  | .store (.webhookReceipts c) => onDatabase (.webhookReceipts c)
  | .store (.evidenceNodes c) => onDatabase (.evidenceNodes c)
  | .store (.attempts c) => onDatabase (.attempts c)
  | .store (.receipts c) => onDatabase (.receipts c)
  | .store (.evidence c) => onOwn (.port (.store (.evidence c)))
  | .store (.requests c) => onOwn (.port (.store (.requests c)))
  | .store (.decisions c) => onOwn (.port (.store (.decisions c)))
  | .clock => onOwn (.port .clock)
  | .dispatchFn key digest => onOwn (.port (.dispatchFn key digest))
  | .findCorrelatedDeployment attempt => onOwn (.port (.findCorrelatedDeployment attempt))

def carryService : (op : ServiceCall) → DeployProgram (ServiceAnswer op)
  | .inl op => carryPort op
  | .inr c => onOwn (.tracker c)

def carryLive : (op : LiveCall) → DeployProgram (LiveAnswer op)
  | .inl op => carryPort op
  | .inr c => onOwn (.demo c)

def carryRead : (op : ReadCall) → DeployProgram (ReadAnswer op)
  | .inl op => carryPort op
  | .inr (.listIdsOrdered collation) => onDatabase (.receiptIds collation)

inductive Process where
  | useCase (c : Call)
  | webhook (w : WebhookState) (request : HttpRequest)
  | read (request : ReadRequest)
  | pull (state : FeedState) (authorization : Option String) (query : FeedQuery)
  | exportReceipt (receiptIdHex : String)
  | assembleBundle (receiptIdHex : String)
  | demo (env : Env)

namespace Process

@[reducible] def Res : Process → Type
  | useCase c => c.Res
  | webhook _ _ => WebhookReply
  | read _ => ReadReply
  | pull _ _ _ => Except StatusCode PitekaFeedPage
  | exportReceipt _ => Except BundleExportError (Array UInt8)
  | assembleBundle _ => Except BundleExportError BundleExport
  | demo _ => Except DemoError Unit

def program (cd : Codec) : (x : Process) → DeployProgram x.Res
  | useCase c => (c.program cd.toRuntime).expand carryPort
  | webhook w request => (webhookEndpoint cd (process cd) w request).expand carryService
  | read request => (readEndpoint cd request).expand carryRead
  | pull state authorization query =>
    (FeedServer.serveFeed cd state authorization query).run.expand carryRead
  | exportReceipt id => (exportManifestBytes cd id).run.expand carryPort
  | assembleBundle id => (Application.assembleBundle cd id).run.expand carryPort
  | demo env => (controlledDemo cd.toRuntime env).run.expand carryLive

/-- The mandate under which a process may ask the provider for a deployment. -/
def mandate (rt : Runtime) : Process → Option String
  | .useCase (.reserveAndDispatch a) => some a.mandateIdHex
  | .demo env =>
    match readPlan env with
    | .ok plan => some (plan.mandateId rt)
    | .error _ => none
  | _ => none

/-- The payload of an authenticated event that the process hands to the ingestion. -/
def Delivers : Process → GitHubWebhookPayload → Prop
  | .webhook w request, x => Api.authenticate w request = .ok x ∧ x.eventType ≠ "ping"
  | _, _ => False

end Process

/-- One step: a call on the database, or one of the process itself with any answer. -/
abbrev DeployExec (rc : RowCodec) :
    Database × Unit → (op : DeployCall) → DeployAnswer op → Database × Unit → Prop :=
  Both (DatabaseExec rc) fun _ _ _ _ => True

variable {ι : Type}

abbrev DeployEntry (ι : Type) := Entry ι DeployAnswer (Database × Unit)

/-- A run of the processes from the database `db`. -/
abbrev DeploymentRun [DecidableEq ι] (cd : Codec) (rc : RowCodec) (processes : ι → Process)
    (db : Database) (log : List (DeployEntry ι)) (db' : Database)
    (p : (i : ι) → DeployProgram (processes i).Res) : Prop :=
  Run (DeployExec rc) (db, ()) (fun i => (processes i).program cd) log (db', ()) p

/-! ## How port calls are carried out -/

theorem next_onDatabase {c : DatabaseCall} {g : DeployPath} {op : DeployCall} :
    Next (onDatabase c) g op ↔ g = [] ∧ op = .inl c := by
  refine next_call.trans (or_iff_left ?_)
  rintro ⟨_, _, _, hn⟩
  exact next_ret hn

theorem returns_onDatabase {c : DatabaseCall} {g : DeployPath} {a : c.Answer} :
    Returns (onDatabase c) g a ↔ g = [onLeft ⟨c, a⟩] := by
  refine returns_call.trans ⟨?_, ?_⟩
  · rintro ⟨b, t, rfl, ht⟩
    obtain ⟨rfl, rfl⟩ := returns_ret.mp ht
    rfl
  · rintro rfl
    exact ⟨a, [], rfl, .here _⟩

theorem returns_onOwn {c : OwnCall} {g : DeployPath} {a : OwnAnswer c} :
    Returns (onOwn c) g a ↔ g = [⟨.inr c, a⟩] := by
  refine returns_call.trans ⟨?_, ?_⟩
  · rintro ⟨b, t, rfl, ht⟩
    obtain ⟨rfl, rfl⟩ := returns_ret.mp ht
    rfl
  · rintro rfl
    exact ⟨a, [], rfl, .here _⟩

/-- Statements carried out one by one are calls on the database. -/
theorem next_statements {Q α : Type} {Ans : Q → Type} {call : Q → DatabaseCall}
    {f : (q : Q) → DeployProgram (Ans q)} (hf : ∀ {q g op}, Next (f q) g op → op = .inl (call q))
    {p : Program Q Ans α} {g : DeployPath} {op : DeployCall} (hn : Next (p.expand f) g op) :
    ∃ h q, op = .inl (call q) ∧ Next p h q := by
  obtain ⟨h, _, _, q, _, _, hp, hq⟩ := next_expand hn
  exact ⟨h, q, hf hq, hp⟩

/-- The calls on the database by which a port call is carried out. -/
inductive CarriedBy : PortCall → DatabaseCall → Prop
  | object (c : ProtocolObjectCall) (q : ObjectStatement) :
      CarriedBy (.store (.protocolObjects c)) (.protocolObjects q)
  | issue (m state : String) : CarriedBy (.store (.mandates (.insert m state))) (.mandates (.insertRow m state))
  | readMandate (c : MandateCall) (m : String) : CarriedBy (.store (.mandates c)) (.mandates (.selectRow m))
  | swap (m : String) (v : Int64) (state : String) :
      CarriedBy (.store (.mandates (.compareAndSwap m v state))) (.mandates (.updateRow m v state))
  | audit (c : AuditCall) (q : AuditStatement) : CarriedBy (.store (.audit c)) (.audit q)
  | webhookReceipts (c : WebhookReceiptCall) : CarriedBy (.store (.webhookReceipts c)) (.webhookReceipts c)
  | evidenceNodes (c : EvidenceNodeCall) : CarriedBy (.store (.evidenceNodes c)) (.evidenceNodes c)
  | attempts (c : ExecutionAttemptCall) : CarriedBy (.store (.attempts c)) (.attempts c)
  | receipts (c : ReceiptProjectionCall) : CarriedBy (.store (.receipts c)) (.receipts c)

theorem mandateGet_next {m : String} {h : List ((q : MandateStatement) × q.Answer)} {q : MandateStatement}
    (hn : Next (PgMandateProjectionStore.get m).run h q) : q = .selectRow m := by
  rcases next_call.mp hn with ⟨_, rfl⟩ | ⟨a, t, _, h1⟩
  · rfl
  · cases a <;> exact absurd h1 next_ret

theorem mandateSwap_next {m state : String} {v : Int64} {h : List ((q : MandateStatement) × q.Answer)}
    {q : MandateStatement} (hn : Next (PgMandateProjectionStore.compareAndSwap m v state).run h q) :
    q = .updateRow m v state ∨ q = .selectRow m := by
  rcases next_call.mp hn with ⟨_, rfl⟩ | ⟨a, t, _, h1⟩
  · exact Or.inl rfl
  cases a with
  | error e => exact absurd h1 next_ret
  | ok updated =>
    cases updated with
    | some w => exact absurd h1 next_ret
    | none =>
      rcases next_seq h1 with h2 | ⟨_, _, x, _, _, h2⟩
      · exact Or.inr (mandateGet_next h2)
      · cases x <;> exact absurd h2 next_ret

/-- A swap that is applied has updated the row. -/
theorem mandateSwap_applied {m state : String} {v w : Int64} {h : List ((q : MandateStatement) × q.Answer)}
    (hr : Returns (PgMandateProjectionStore.compareAndSwap m v state).run h (.ok (.applied w))) :
    h = [⟨.updateRow m v state, .ok (some w)⟩] := by
  obtain ⟨a, t, rfl, h1⟩ := returns_call.mp hr
  cases a with
  | error e => cases (returns_ret.mp h1).2
  | ok updated =>
    cases updated with
    | some w' =>
      obtain ⟨rfl, hw⟩ := returns_ret.mp h1
      cases hw
      rfl
    | none =>
      rcases returns_seq h1 with ⟨_, _, he⟩ | ⟨_, _, x, _, _, h2⟩
      · cases he
      · cases x <;> cases (returns_ret.mp h2).2

/-- A port call is carried out by calls on its table, or it is a call of the process itself. -/
theorem carryPort_calls {op : PortCall} {g : DeployPath} {c : DeployCall} (hn : Next (carryPort op) g c) :
    (∃ q, c = .inl q ∧ CarriedBy op q) ∨ c = .inr (.port op) := by
  have hcall : ∀ {c : DatabaseCall} {g op}, Next (onDatabase c) g op → op = .inl c :=
    fun h => (next_onDatabase.mp h).2
  cases op with
  | store sc =>
    cases sc with
    | protocolObjects c' =>
      cases c' with
      | put record =>
        obtain ⟨_, q, rfl, _⟩ := next_statements hcall hn
        exact Or.inl ⟨_, rfl, .object _ q⟩
      | get id =>
        obtain ⟨_, q, rfl, _⟩ := next_statements hcall hn
        exact Or.inl ⟨_, rfl, .object _ q⟩
    | mandates c' =>
      cases c' with
      | insert m state =>
        obtain ⟨_, q, rfl, hq⟩ := next_statements hcall hn
        rw [PgMandateProjectionStore.insert] at hq
        split at hq
        · exact absurd hq next_ret
        rcases next_call.mp hq with ⟨_, rfl⟩ | ⟨_, _, _, h1⟩
        · exact Or.inl ⟨_, rfl, .issue m state⟩
        · exact absurd h1 next_ret
      | get m =>
        obtain ⟨_, q, rfl, hq⟩ := next_statements hcall hn
        obtain rfl := mandateGet_next hq
        exact Or.inl ⟨_, rfl, .readMandate _ m⟩
      | compareAndSwap m v state =>
        obtain ⟨_, q, rfl, hq⟩ := next_statements hcall hn
        rcases mandateSwap_next hq with rfl | rfl
        · exact Or.inl ⟨_, rfl, .swap m v state⟩
        · exact Or.inl ⟨_, rfl, .readMandate _ m⟩
    | audit c' =>
      cases c' with
      | append event =>
        obtain ⟨_, q, rfl, _⟩ := next_statements hcall hn
        exact Or.inl ⟨_, rfl, .audit _ q⟩
      | recent limit =>
        obtain ⟨_, q, rfl, _⟩ := next_statements hcall hn
        exact Or.inl ⟨_, rfl, .audit _ q⟩
    | webhookReceipts c' =>
      obtain ⟨_, rfl⟩ := next_onDatabase.mp hn
      exact Or.inl ⟨_, rfl, .webhookReceipts c'⟩
    | evidenceNodes c' =>
      obtain ⟨_, rfl⟩ := next_onDatabase.mp hn
      exact Or.inl ⟨_, rfl, .evidenceNodes c'⟩
    | attempts c' =>
      obtain ⟨_, rfl⟩ := next_onDatabase.mp hn
      exact Or.inl ⟨_, rfl, .attempts c'⟩
    | receipts c' =>
      obtain ⟨_, rfl⟩ := next_onDatabase.mp hn
      exact Or.inl ⟨_, rfl, .receipts c'⟩
    | _ =>
      rcases next_call.mp hn with ⟨_, rfl⟩ | ⟨_, _, _, h1⟩
      · exact Or.inr rfl
      · exact absurd h1 next_ret
  | _ =>
    rcases next_call.mp hn with ⟨_, rfl⟩ | ⟨_, _, _, h1⟩
    · exact Or.inr rfl
    · exact absurd h1 next_ret

theorem carryPort_next {op : PortCall} {g : DeployPath} {c : DatabaseCall}
    (hn : Next (carryPort op) g (.inl c)) : CarriedBy op c := by
  rcases carryPort_calls hn with ⟨q, hq, hcarried⟩ | h
  · exact Sum.inl.inj hq ▸ hcarried
  · cases h

theorem carryPort_own {op : PortCall} {g : DeployPath} {c : OwnCall}
    (hn : Next (carryPort op) g (.inr c)) : c = .port op := by
  rcases carryPort_calls hn with ⟨q, hq, _⟩ | h
  · cases hq
  · exact Sum.inr.inj h

end Piteka.Postgres
