import Piteka.Postgres.DeploymentScenario

/-!
# References between the tables

The schema declares no foreign keys between mandates, attempts, receipts and nodes.
Each row that a process writes refers to rows that the process has seen or written
before, and no statement of any process takes back what they say.
-/
namespace Piteka.Safety

set_option autoImplicit false

open Piteka.Interleaving Piteka.Interleaving.Program Piteka.Storage Piteka.Application Piteka.Postgres
  Piteka.Table

/-- The receipt is of a stored attempt of its mandate and intent. -/
def ReceiptOfAttempt (db : Database) (row : ReceiptRow) : Prop :=
  row.attemptIdHex = some (attemptIdOf row.mandateIdHex) ∧
    ∃ x, db.attempts.rows.get (attemptIdOf row.mandateIdHex) = some x ∧
      x.mandateIdHex = row.mandateIdHex ∧ x.intentIdHex = row.intentIdHex

/-- The receipt refers to no node; it only notes that the outcome is missing. -/
structure Abandoned (receipt : ReceiptProjection) : Prop where
  outcome : receipt.outcome = .unknown
  dispatch : receipt.dispatchEvidenceRefs = []
  target : receipt.targetEvidenceRefs = []
  gaps : receipt.evidenceGaps = ["target_outcome"]

/-- The receipt of a production, whose nodes are stored, or the one of an abandonment. -/
inductive ReceiptEvidence (rc : RowCodec) (db : Database) (row : ReceiptRow) : Prop
  | produced (hid : row.receiptIdHex = "rcpt-" ++ attemptIdOf row.mandateIdHex)
      (hnodes : ∀ id ∈ references (row.receipt rc), (db.evidenceNodes.rows.get id).isSome) :
      ReceiptEvidence rc db row
  | abandoned (hid : row.receiptIdHex = "rcpt-abandoned-" ++ attemptIdOf row.mandateIdHex)
      (hrow : Abandoned (row.receipt rc)) : ReceiptEvidence rc db row

/-- Every row refers to rows that are there, and the gap of abandoned receipts names no node. -/
structure ReferencesResolve (rc : RowCodec) (db : Database) : Prop where
  attempt : ∀ id row, db.attempts.rows.get id = some row →
    id = attemptIdOf row.mandateIdHex ∧ db.HasSpent row.mandateIdHex
  receipt : ∀ id row, db.receipts.rows.get id = some row →
    ReceiptOfAttempt db row ∧ ReceiptEvidence rc db row
  gap : db.evidenceNodes.rows.get "target_outcome" = none

section
variable {ι : Type} [DecidableEq ι] {cd : Codec} {rc : RowCodec} {processes : ι → Process}
  {db₀ db db' : Database} {log : List (DeployEntry ι)} {p : (i : ι) → DeployProgram (processes i).Res}

theorem ReceiptOfAttempt.extends {row : ReceiptRow} (h : ReceiptOfAttempt db row) (hext : db.Extends db') :
    ReceiptOfAttempt db' row := by
  obtain ⟨hid, x, hx, hm, hi⟩ := h
  obtain ⟨x', hx', hm', hi'⟩ := hext.attempt _ x hx
  exact ⟨hid, x', hx', hm'.trans hm, hi'.trans hi⟩

theorem ReceiptEvidence.extends {row : ReceiptRow} (h : ReceiptEvidence rc db row) (hext : db.Extends db') :
    ReceiptEvidence rc db' row := by
  cases h with
  | produced hid hnodes => exact .produced hid fun id hmem => hext.hasNode (hnodes id hmem)
  | abandoned hid hrow => exact .abandoned hid hrow

/-- A stored attempt that a process knows is the attempt of its mandate. -/
theorem attempt_of_known (href : ReferencesResolve rc db) {x : ExecutionAttempt} (hx : db.HasAttempt x) :
    x.attemptIdHex = attemptIdOf x.mandateIdHex := by
  obtain ⟨row, hrow, hm, _⟩ := hx
  rw [(href.attempt _ row hrow).1, hm]

/-- The row that a receipt of a known attempt is bound to. -/
theorem receiptOfAttempt_bound (href : ReferencesResolve rc db) {x : ExecutionAttempt} (hx : db.HasAttempt x)
    {q : ReceiptProjection} (hm : q.mandateIdHex = x.mandateIdHex) (hi : q.intentIdHex = x.intentIdHex)
    (ha : q.attemptIdHex = x.attemptIdHex) (dispatch target gaps : String) :
    ReceiptOfAttempt db (PgReceiptProjectionStore.bound q dispatch target gaps) := by
  have hid := attempt_of_known href hx
  obtain ⟨row, hrow, hrm, hri⟩ := hx
  refine ⟨?_, row, ?_, hrm.trans hm.symm, ?_⟩
  · show some q.attemptIdHex = some (attemptIdOf q.mandateIdHex)
    rw [ha, hid, hm]
  · show db.attempts.rows.get (attemptIdOf q.mandateIdHex) = some row
    rw [hm, ← hid, hrow]
  · show row.intentIdHex = some q.intentIdHex
    rw [hri, hi]

/-- The row of a receipt is read back as the receipt, since its lists are. -/
theorem receipt_of_bound (hcodec : ∀ l text, rc.toText l = .ok text → rc.fromStr text = .ok l)
    {q : ReceiptProjection} {dispatch target gaps : String}
    (hdispatch : rc.toText q.dispatchEvidenceRefs = .ok dispatch)
    (htarget : rc.toText q.targetEvidenceRefs = .ok target) (hgaps : rc.toText q.evidenceGaps = .ok gaps) :
    (PgReceiptProjectionStore.bound q dispatch target gaps).receipt rc = q := by
  have hread : ∀ {l text}, rc.toText l = .ok text → rc.listOr text = l := by
    intro l text h
    rw [RowCodec.listOr, hcodec l text h]
  have houtcome : strToOutcome (outcomeToStr q.outcome) = q.outcome := strToOutcome_outcomeToStr _
  simp only [ReceiptRow.receipt, PgReceiptProjectionStore.decode, PgReceiptProjectionStore.bound, houtcome,
    hread hdispatch, hread htarget, hread hgaps, Option.getD_some]

/-- A receipt that is inserted refers to an attempt and nodes that are stored. -/
theorem receipt_bound (hcodec : ∀ l text, rc.toText l = .ok text → rc.fromStr text = .ok l)
    (run : DeploymentRun cd rc processes db₀ log db p) (href : ReferencesResolve rc db) {i : ι}
    {q : ReceiptProjection}
    (hn : Next ((processes i).program cd) (history i log) (.inl (.receipts (.insert q))))
    {dispatch target gaps : String} (hdispatch : rc.toText q.dispatchEvidenceRefs = .ok dispatch)
    (htarget : rc.toText q.targetEvidenceRefs = .ok target) (hgaps : rc.toText q.evidenceGaps = .ok gaps) :
    ReceiptOfAttempt db (PgReceiptProjectionStore.bound q dispatch target gaps) ∧
      ReceiptEvidence rc db (PgReceiptProjectionStore.bound q dispatch target gaps) := by
  have hreceipt := receipt_of_bound hcodec hdispatch htarget hgaps
  obtain ⟨x, hsource⟩ := receipt_insert_deployed hn
  cases hsource with
  | @produced event x now _ hread hnodes =>
    have hx : db.HasAttempt x := deployed_knows run hread
    refine ⟨receiptOfAttempt_bound href hx rfl rfl rfl _ _ _, .produced ?_ fun id hid => ?_⟩
    · exact congrArg ("rcpt-" ++ ·) (attempt_of_known href hx)
    · rw [hreceipt] at hid
      obtain ⟨node, rfl, hnode⟩ := hnodes id hid
      exact deployed_knows run hnode
  | @abandoned a rows x now _ hread hmem =>
    obtain ⟨hm, hx⟩ := (deployed_knows run hread : ∀ y ∈ rows, _) x hmem
    refine ⟨receiptOfAttempt_bound href hx hm.symm rfl rfl _ _ _, .abandoned ?_ ?_⟩
    · show "rcpt-abandoned-" ++ x.attemptIdHex = "rcpt-abandoned-" ++ attemptIdOf a.mandateIdHex
      rw [attempt_of_known href hx, hm]
    · rw [hreceipt]
      exact ⟨rfl, rfl, rfl, rfl⟩

/-- The nodes of productions are not stored under the name of a gap. -/
theorem gap_step (hgap : db.evidenceNodes.rows.get "target_outcome" = none) {x : Process} {g : DeployPath}
    {c : EvidenceNodeCall} (hn : Next (x.program cd) g (.inl (.evidenceNodes c))) (scans : Scans) :
    (db.run rc scans (.evidenceNodes c)).2.evidenceNodes.rows.get "target_outcome" = none := by
  have hafter := node_row_after rc scans.nodes.order db.evidenceNodes c "target_outcome"
  rw [show (db.run rc scans (.evidenceNodes c)).2.evidenceNodes =
    (db.evidenceNodes.answer rc scans.nodes.order c).2 from rfl]
  generalize (db.evidenceNodes.answer rc scans.nodes.order c).2.rows.get "target_outcome" = row at hafter
  cases hafter with
  | same => exact hgap
  | inserted hc hid _ _ =>
    subst hc
    obtain ⟨event, x, now, _, hnode⟩ := node_insert_deployed hn
    obtain ⟨d, hd⟩ := hnode.id_eq
    have hchars := congrArg String.toList (hid.trans hd)
    simp at hchars

/-- One call on the database. -/
theorem resolve_step (hcodec : ∀ l text, rc.toText l = .ok text → rc.fromStr text = .ok l)
    (run : DeploymentRun cd rc processes db₀ log db p) (href : ReferencesResolve rc db) {i : ι}
    {c : DatabaseCall} {a : c.Answer} (hn : Next ((processes i).program cd) (history i log) (.inl c))
    (hx : DatabaseExec rc db c a db') : ReferencesResolve rc db' := by
  have hext : db.Extends db' := exec_extends (neverReissues_deployed hn) hx
  rcases exec_state hx with rfl | ⟨scans, rfl⟩
  · exact href
  constructor
  · intro id row hrow
    cases c with
    | attempts c =>
      have hafter := attempt_row_after scans.attempts db.attempts c id
      rw [show (db.attempts.answer scans.attempts c).2.rows.get id = some row from hrow] at hafter
      generalize hrow' : some row = row' at hafter
      cases hafter with
      | same =>
        obtain ⟨hid, hspent⟩ := href.attempt id row hrow'.symm
        exact ⟨hid, hext.hasSpent hspent⟩
      | inserted hc hid _ =>
        subst hc
        obtain ⟨a, t, v, rfl, hswap⟩ := attempt_insert_deployed hn
        obtain rfl := Option.some.inj hrow'
        exact ⟨hid, hext.hasSpent (deployed_knows run hswap)⟩
      | updated hold hsame =>
        obtain rfl := Option.some.inj hrow'
        obtain ⟨hid, hspent⟩ := href.attempt id _ hold
        rw [hsame.mandate]
        exact ⟨hid, hext.hasSpent hspent⟩
    | _ =>
      obtain ⟨hid, hspent⟩ := href.attempt id row hrow
      exact ⟨hid, hext.hasSpent hspent⟩
  · intro id row hrow
    have hkept : ∀ {row}, ReceiptOfAttempt db row ∧ ReceiptEvidence rc db row →
        ReceiptOfAttempt _ row ∧ ReceiptEvidence rc _ row :=
      fun h => ⟨h.1.extends hext, h.2.extends hext⟩
    cases c with
    | receipts c =>
      have hafter := receipt_row_after rc scans.receipts db.receipts c id
      rw [show (db.receipts.answer rc scans.receipts c).2.rows.get id = some row from hrow] at hafter
      generalize hrow' : some row = row' at hafter
      cases hafter with
      | same => exact hkept (href.receipt id row hrow'.symm)
      | inserted hc _ _ hdispatch htarget hgaps =>
        subst hc
        obtain rfl := Option.some.inj hrow'
        exact hkept (receipt_bound hcodec run href hn hdispatch htarget hgaps)
    | _ => exact hkept (href.receipt id row hrow)
  · cases c with
    | evidenceNodes c => exact gap_step href.gap hn scans
    | _ => exact href.gap

theorem resolve_exec (hcodec : ∀ l text, rc.toText l = .ok text → rc.fromStr text = .ok l)
    {s s' : Database × Unit} (run : DeploymentRun cd rc processes db₀ log s.1 p)
    (href : ReferencesResolve rc s.1) {i : ι} {op : DeployCall} {a : DeployAnswer op}
    (hn : Next ((processes i).program cd) (history i log) op) (hx : DeployExec rc s op a s') :
    ReferencesResolve rc s'.1 := by
  cases op with
  | inl c => exact resolve_step hcodec run href hn hx.1
  | inr c => exact hx.2 ▸ href

/-- The references resolve in every state on the way. -/
theorem resolve_before (hcodec : ∀ l text, rc.toText l = .ok text → rc.fromStr text = .ok l)
    (run : DeploymentRun cd rc processes db log db' p) (hdb : ReferencesResolve rc db) {e : DeployEntry ι}
    (he : e ∈ log) : ReferencesResolve rc e.before.1 := by
  obtain ⟨l₁, l₂, rfl⟩ := List.append_of_mem he
  obtain ⟨p', run'⟩ := run.at_entry.1
  refine run'.invariant (I := fun _ s => ReferencesResolve rc s.1) hdb ?_
  intro log s p i op a s' run href hn hx
  exact resolve_exec hcodec run href hn hx

/-- Use cases, webhook handlers, readers, exporters and demos run on one database, in any number and any
order, statements failing or losing their answers: every attempt stays that of a mandate that has
left `issued`, every receipt that of a stored attempt with its mandate and intent, under one of two
ids, every node a produced receipt refers to is stored, and the gap of an abandoned one is no node. -/
theorem references_resolve (hcodec : ∀ l text, rc.toText l = .ok text → rc.fromStr text = .ok l)
    (run : DeploymentRun cd rc processes db log db' p) (hdb : ReferencesResolve rc db) :
    ReferencesResolve rc db' := by
  refine run.invariant (I := fun _ s => ReferencesResolve rc s.1) hdb ?_
  intro log s p i op a s' run href hn hx
  exact resolve_exec hcodec run href hn hx

end

theorem issued_resolve : ReferencesResolve plainLists issuedDatabase := by
  have hattempts : ∀ id, issuedDatabase.attempts.rows.get id = none := fun _ => rfl
  have hreceipts : ∀ id, issuedDatabase.receipts.rows.get id = none := fun _ => rfl
  constructor
  · intro id row hrow
    rw [hattempts id] at hrow
    cases hrow
  · intro id row hrow
    rw [hreceipts id] at hrow
    cases hrow
  · rfl

theorem references_resolve_dispatched : ReferencesResolve plainLists dispatched.state.1 :=
  references_resolve plainLists_read dispatched_run issued_resolve

end Piteka.Safety
