import Piteka.Application.WebhookScenario
import Piteka.Postgres.DeploymentPaths

/-!
# Scenarios with a database

A schedule of processes determines a run once it is said what is answered outside the
database: here the request and decision stores of a process are those after the approval
of a request, and there is no key file.
-/
namespace Piteka.Postgres

set_option autoImplicit false

open Piteka.Interleaving Piteka.Storage Piteka.Application Piteka.Table
open Piteka.Api (WebhookState HttpRequest)

/-- The answers to the calls that do not go to the database. -/
def ownAnswer (w : World) (s : Stores) : (c : OwnCall) → OwnAnswer c
  | .port op => (react sampleRuntime w s op).1
  | .tracker (.record _ _) => false
  | .demo (.connect _) => .ok ()
  | .demo (.readFile _) => .error "No such file or directory (os error 2)"
  | .demo (.webhookConfigUrl _ _) => .error (.unauthorized "Bad credentials")
  | .demo (.createDeployment _ _ _) => .error (.unauthorized "Bad credentials")
  | .demo (.writeJournal _ _) => .ok ()

def deployReact (rc : RowCodec) (own : Stores) (w : World) (s : Database × Unit) :
    (c : DeployCall) → DeployAnswer c × (Database × Unit)
  | .inl c =>
    let x := s.1.run rc .asListed c
    (x.1, (x.2, ()))
  | .inr c => (ownAnswer w own c, s)

theorem deployReact_sound (rc : RowCodec) (own : Stores) (w : World) (s : Database × Unit) (c : DeployCall) :
    DeployExec rc s c (deployReact rc own w s c).1 (deployReact rc own w s c).2 := by
  cases c with
  | inl c => exact ⟨database_sound rc .asListed s.1 c, rfl⟩
  | inr c => exact ⟨trivial, rfl⟩

/-- The snapshot that a schedule of the processes reaches from the database `db`. -/
def deployed {ι : Type} [DecidableEq ι] (cd : Codec) (rc : RowCodec) (own : Stores) (processes : ι → Process)
    (db : Database) (turns : List (ι × World)) :
    Snapshot ι DeployAnswer (Database × Unit) fun i => (processes i).Res :=
  Snapshot.play (deployReact rc own) ⟨[], (db, ()), fun i => (processes i).program cd⟩ turns

theorem deployed_run {ι : Type} [DecidableEq ι] (cd : Codec) (rc : RowCodec) (own : Stores)
    (processes : ι → Process) (db : Database) (turns : List (ι × World)) :
    DeploymentRun cd rc processes db (deployed cd rc own processes db turns).log
      (deployed cd rc own processes db turns).state.1 (deployed cd rc own processes db turns).pool :=
  play_run (c := ⟨[], (db, ()), fun i => (processes i).program cd⟩) (deployReact_sound rc own) .start turns

/-- Texts without characters that JSON escapes. -/
def isPlain (text : String) : Bool :=
  text.toList.all fun c => c ≠ '"' && c ≠ '\\' && 32 ≤ c.toNat

/-- JSON for lists of at most one plain text. -/
def plainLists : RowCodec where
  toText
    | [] => .ok "[]"
    | [x] => if isPlain x then .ok (String.ofList (['[', '"'] ++ x.toList ++ ['"', ']'])) else .error "escape"
    | _ => .error "more than one text"
  fromStr text :=
    match text.toList with
    | '[' :: '"' :: rest => .ok [String.ofList rest.dropLast.dropLast]
    | _ => .ok []
  hex := Text.Hex.Reader.standard

theorem plainLists_read (l : List String) (text : String) (h : plainLists.toText l = .ok text) :
    plainLists.fromStr text = .ok l := by
  match l with
  | [] =>
    obtain rfl := Except.ok.inj h
    rfl
  | [x] =>
    dsimp only [plainLists] at h
    split at h
    · obtain rfl := Except.ok.inj h
      simp [plainLists]
    · cases h
  | _ :: _ :: _ => cases h

/-! ## Two dispatchers -/

/-- Both processes dispatch the mandate `m-1`. -/
def dispatchers : Pair → Process := fun _ => .useCase (.reserveAndDispatch (sampleReserve "r-1" "m-1" 1))

def issuedDatabase : Database :=
  (Database.empty.run plainLists .asListed (.mandates (.insertRow "m-1" "issued"))).2

/-- The second dispatcher comes to its swap after the first one has asked the provider. -/
def dispatched : Snapshot Pair DeployAnswer (Database × Unit) fun i => (dispatchers i).Res :=
  deployed sampleCodec plainLists (afterApproval .empty) dispatchers issuedDatabase
    (steps .second 2 (.answering (some 7)) ++ steps .first 8 (.answering (some 7)) ++
      steps .second 2 (.answering (some 7)))

theorem dispatched_run : DeploymentRun sampleCodec plainLists dispatchers issuedDatabase dispatched.log
    dispatched.state.1 dispatched.pool := by
  unfold dispatched
  exact deployed_run sampleCodec plainLists _ dispatchers issuedDatabase _

/-! ## A posted delivery -/

/-- HMAC-SHA256 of the delivery of a success under the key `secret`. -/
def successMac : Vector UInt8 32 :=
  digestBytes 0xf882abbdc0bf1470824dd6c2911fa058d37d136968e455c592067ef34bcb1dc2

def successSignature : String := "sha256=f882abbdc0bf1470824dd6c2911fa058d37d136968e455c592067ef34bcb1dc2"

/-- HMAC-SHA256 at the delivery of a success. -/
def successCrypto : GitHub.Crypto where
  hmacSha256 key message :=
    if key.data = asBytes "secret" ∧ message = sampleBody "success" 200 then successMac
    else Vector.replicate 32 0
  hex := .standard

theorem endpointSecret_nonblank : Domain.trimIsEmpty "webhook" = false := by decide

def endpointSecret : GitHub.GitHubWebhookSecret := ⟨"webhook", endpointSecret_nonblank⟩

def sampleWebhook : WebhookState where
  crypto := successCrypto
  resolver := ⟨fun _ => .ok "secret".toByteArray⟩
  webhookSecret := endpointSecret

/-- The delivery of a success, with a signature. -/
def posted (deliveryId signature : String) : HttpRequest where
  headers := [("x-github-delivery", (asBytes deliveryId).toList),
    ("x-github-event", (asBytes "deployment_status").toList),
    ("x-hub-signature-256", (asBytes signature).toList)]
  body := some (sampleBody "success" 200)

/-- The same body, posted with its signature and with a signature of 32 zero bytes. -/
def posts : Pair → Process
  | .first => .webhook sampleWebhook (posted "d-1" successSignature)
  | .second => .webhook sampleWebhook (posted "d-2" ("sha256=" ++ String.ofList (List.replicate 64 '0')))

def attemptedDatabase : Database :=
  (issuedDatabase.run plainLists .asListed (.attempts (.insert sampleAttempt))).2

def received : Snapshot Pair DeployAnswer (Database × Unit) fun i => (posts i).Res :=
  deployed sampleCodec plainLists .empty posts attemptedDatabase
    (steps .second 1 (.answering none) ++ steps .first 20 (.answering none))

theorem received_run : DeploymentRun sampleCodec plainLists posts attemptedDatabase received.log
    received.state.1 received.pool := by
  unfold received
  exact deployed_run sampleCodec plainLists .empty posts attemptedDatabase _

/-! ## A listing while a delivery is handled -/

def olderReceipt : ReceiptProjection where
  receiptIdHex := "rcpt-att-m-0"
  mandateIdHex := "m-0"
  intentIdHex := "i-0"
  attemptIdHex := "att-m-0"
  outcome := .failed
  createdAtUnixSeconds := 5
  dispatchEvidenceRefs := []
  targetEvidenceRefs := []
  evidenceGaps := []
  canonicalBytes := none

def receiptedDatabase : Database :=
  (attemptedDatabase.run plainLists .asListed (.receipts (.insert olderReceipt))).2

/-- The delivery of a success, and a listing of the receipts. -/
def postAndList : Pair → Process
  | .first => .webhook sampleWebhook (posted "d-1" successSignature)
  | .second => .read (.listReceipts byteOrder)

/-- The delivery is handled after the listing has asked for the ids. -/
def listed : Snapshot Pair DeployAnswer (Database × Unit) fun i => (postAndList i).Res :=
  deployed sampleCodec plainLists .empty postAndList receiptedDatabase
    (steps .second 1 (.answering none) ++ steps .first 20 (.answering none) ++
      steps .second 1 (.answering none))

theorem listed_run : DeploymentRun sampleCodec plainLists postAndList receiptedDatabase listed.log
    listed.state.1 listed.pool := by
  unfold listed
  exact deployed_run sampleCodec plainLists .empty postAndList receiptedDatabase _

/-! ## A chain while a delivery is handled -/

def reservedDatabase : Database :=
  ((issuedDatabase.run plainLists .asListed (.mandates (.updateRow "m-1" 1 "reserved"))).2.run plainLists .asListed
    (.attempts (.insert sampleAttempt))).2

/-- The delivery of a success, and the chain of the mandate. -/
def postAndChain : Pair → Process
  | .first => .webhook sampleWebhook (posted "d-1" successSignature)
  | .second => .read (.getMandateChain "m-1")

/-- The delivery is handled after the chain has asked for the mandate. -/
def chained : Snapshot Pair DeployAnswer (Database × Unit) fun i => (postAndChain i).Res :=
  deployed sampleCodec plainLists .empty postAndChain reservedDatabase
    (steps .second 1 (.answering none) ++ steps .first 20 (.answering none) ++
      steps .second 5 (.answering none))

theorem chained_run : DeploymentRun sampleCodec plainLists postAndChain reservedDatabase chained.log
    chained.state.1 chained.pool := by
  unfold chained
  exact deployed_run sampleCodec plainLists .empty postAndChain reservedDatabase _

end Piteka.Postgres
