import Piteka.Checks.Guards
import Piteka.Postgres.Database

/-!
# What stays on record

Rows are never deleted. A receipt and an evidence node never change once they are
written, an attempt keeps its mandate and its intent, and a mandate that has left
`issued` never gets back to it unless a statement sets that state. So what a caller
has read of the tables, or written to them, holds in every later state.
-/
namespace Piteka.Postgres

set_option autoImplicit false

open Piteka.Interleaving Piteka.Storage Piteka.Table

/-- No update sets a mandate back to `issued`. -/
def DatabaseCall.NeverReissues : DatabaseCall → Prop
  | .mandates (.updateRow _ _ state) => state ≠ "issued"
  | _ => True

/-- The columns that no update touches. -/
structure AttemptRow.SameAttempt (row row' : AttemptRow) : Prop where
  mandate : row'.mandateIdHex = row.mandateIdHex
  intent : row'.intentIdHex = row.intentIdHex

/-- What is on record in `db` is so in `db'`. -/
structure Database.Extends (db db' : Database) : Prop where
  mandate : ∀ m row, db.mandates.rows.get m = some row →
    ∃ row', db'.mandates.rows.get m = some row' ∧ (row.state ≠ "issued" → row'.state ≠ "issued")
  attempt : ∀ id row, db.attempts.rows.get id = some row →
    ∃ row', db'.attempts.rows.get id = some row' ∧ row.SameAttempt row'
  node : ∀ id row, db.evidenceNodes.rows.get id = some row → db'.evidenceNodes.rows.get id = some row
  receipt : ∀ id row, db.receipts.rows.get id = some row → db'.receipts.rows.get id = some row

namespace Database.Extends

theorem refl (db : Database) : db.Extends db where
  mandate _ row h := ⟨row, h, id⟩
  attempt _ row h := ⟨row, h, rfl, rfl⟩
  node _ _ h := h
  receipt _ _ h := h

theorem trans {db₁ db₂ db₃ : Database} (h : db₁.Extends db₂) (h' : db₂.Extends db₃) :
    db₁.Extends db₃ where
  mandate m row hrow := by
    obtain ⟨row₂, h₂, hs₂⟩ := h.mandate m row hrow
    obtain ⟨row₃, h₃, hs₃⟩ := h'.mandate m row₂ h₂
    exact ⟨row₃, h₃, hs₃ ∘ hs₂⟩
  attempt id row hrow := by
    obtain ⟨row₂, h₂, hm₂, hi₂⟩ := h.attempt id row hrow
    obtain ⟨row₃, h₃, hm₃, hi₃⟩ := h'.attempt id row₂ h₂
    exact ⟨row₃, h₃, hm₃.trans hm₂, hi₃.trans hi₂⟩
  node id row hrow := h'.node id row (h.node id row hrow)
  receipt id row hrow := h'.receipt id row (h.receipt id row hrow)

end Database.Extends

/-! ## One call -/

/-- An insertion leaves the rows that are there. -/
theorem insertUnique_get {K W : Type} [DecidableEq K] {key : W → K} (t : Keyed K W key) (w : W)
    (k : K) :
    (insertUnique t w).2.get k = t.get k ∨
      k = key w ∧ t.get k = none ∧ (insertUnique t w).1 = .ok () ∧
        (insertUnique t w).2.get k = some w := by
  rw [insertUnique]
  cases hrow : t.get (key w) with
  | some row => exact Or.inl rfl
  | none =>
    dsimp only
    rw [Keyed.get_insert]
    by_cases hk : k = key w
    · exact Or.inr ⟨hk, hk ▸ hrow, rfl, if_pos hk⟩
    · exact Or.inl (if_neg hk)

theorem insertUnique_ok {K W : Type} [DecidableEq K] {key : W → K} {t : Keyed K W key} {w : W}
    (h : (insertUnique t w).1 = .ok ()) : t.get (key w) = none ∧ (insertUnique t w).2.get (key w) = some w := by
  rw [insertUnique] at h ⊢
  cases hrow : t.get (key w) with
  | some row =>
    rw [hrow] at h
    cases h
  | none =>
    dsimp only
    rw [Keyed.get_insert, if_pos rfl]
    exact ⟨rfl, rfl⟩

/-- The mandate rows after a call: the old one, one inserted as it was bound, or an updated one. -/
inductive MandateRowAfter (t : MandateTable) (m : String) : MandateStatement → Option MandateProjection → Prop
  | same {q : MandateStatement} : MandateRowAfter t m q (t.rows.get m)
  | inserted {state : String} (hfree : t.rows.get m = none) :
      MandateRowAfter t m (.insertRow m state) (some ⟨m, 1, state⟩)
  | updated {expected : Int64} {state : String} {row : MandateProjection}
      (hrow : t.rows.get m = some row) :
      MandateRowAfter t m (.updateRow m expected state)
        (some { row with version := row.version + 1, state := state })

theorem mandate_row_after (t : MandateTable) (q : MandateStatement) (m : String) :
    MandateRowAfter t m q ((t.run q).2.rows.get m) := by
  cases q with
  | insertRow m' state =>
    rw [MandateTable.run]
    cases hrow : t.rows.get m' with
    | some row => exact .same
    | none =>
      dsimp only
      rw [Keyed.get_insert]
      by_cases hm : m = m'
      · subst hm
        rw [if_pos rfl]
        exact .inserted hrow
      · rw [if_neg hm]
        exact .same
  | updateRow m' expected state =>
    rw [MandateTable.run]
    cases hrow : t.rows.get m' with
    | none => exact .same
    | some row =>
      dsimp only
      split
      · exact .same
      split
      · exact .same
      dsimp only
      rw [Keyed.get_modify]
      by_cases hm : m = m'
      · subst hm
        rw [if_pos rfl, hrow]
        exact .updated hrow
      · rw [if_neg hm]
        exact .same
  | selectRow m' => exact .same

/-- The attempt rows after a call: the old one, the one inserted, or an updated one. -/
inductive AttemptRowAfter (t : AttemptTable) (id : String) (c : ExecutionAttemptCall) :
    Option AttemptRow → Prop
  | same : AttemptRowAfter t id c (t.rows.get id)
  | inserted {x : ExecutionAttempt} (hc : c = .insert x) (hid : id = x.attemptIdHex)
      (hfree : t.rows.get id = none) : AttemptRowAfter t id c (some (PgExecutionAttemptStore.bound x))
  | updated {row row' : AttemptRow} (hrow : t.rows.get id = some row) (hsame : row.SameAttempt row') :
      AttemptRowAfter t id c (some row')

theorem attempt_update_after (t : AttemptTable) (id id' : String) (c : ExecutionAttemptCall)
    (set : AttemptRow → AttemptRow) (hset : ∀ row, (set row).attemptIdHex = row.attemptIdHex)
    (hsame : ∀ row : AttemptRow, row.SameAttempt (set row)) :
    AttemptRowAfter t id c ((PgExecutionAttemptStore.update t id' set hset).2.rows.get id) := by
  rw [PgExecutionAttemptStore.update]
  cases hrow : t.rows.get id' with
  | none => exact .same
  | some row =>
    dsimp only
    rw [Keyed.get_modify]
    by_cases hid : id = id'
    · subst hid
      rw [if_pos rfl, hrow]
      exact .updated hrow (hsame row)
    · rw [if_neg hid]
      exact .same

theorem attempt_row_after (scan : Scan AttemptRow) (t : AttemptTable) (c : ExecutionAttemptCall)
    (id : String) : AttemptRowAfter t id c ((t.answer scan c).2.rows.get id) := by
  cases c with
  | insert x =>
    rw [AttemptTable.answer, PgExecutionAttemptStore.insert]
    split
    · exact .same
    rcases insertUnique_get t.rows (PgExecutionAttemptStore.bound x) id with h | ⟨hid, hfree, _, h⟩
    · dsimp only
      rw [h]
      exact .same
    · dsimp only
      rw [h]
      exact .inserted rfl hid hfree
  | updateState id' state => exact attempt_update_after t id id' _ _ _ fun _ => ⟨rfl, rfl⟩
  | updateDeploymentId id' d => exact attempt_update_after t id id' _ _ _ fun _ => ⟨rfl, rfl⟩
  | _ => exact .same

/-- The receipt rows after a call: the old one, or the one inserted with the texts of its lists. -/
inductive ReceiptRowAfter (rc : RowCodec) (t : ReceiptTable) (id : String) (c : ReceiptProjectionCall) :
    Option ReceiptRow → Prop
  | same : ReceiptRowAfter rc t id c (t.rows.get id)
  | inserted {q : ReceiptProjection} {dispatchRefs targetRefs gaps : String} (hc : c = .insert q)
      (hid : id = q.receiptIdHex) (hfree : t.rows.get id = none)
      (hdispatch : rc.toText q.dispatchEvidenceRefs = .ok dispatchRefs)
      (htarget : rc.toText q.targetEvidenceRefs = .ok targetRefs)
      (hgaps : rc.toText q.evidenceGaps = .ok gaps) :
      ReceiptRowAfter rc t id c (some (PgReceiptProjectionStore.bound q dispatchRefs targetRefs gaps))

theorem column_ok {rc : RowCodec} {l : List String} {text : String} (h : rc.column l = .ok text) :
    rc.toText l = .ok text := by
  rw [RowCodec.column] at h
  cases hl : rc.toText l with
  | error e =>
    rw [hl] at h
    cases h
  | ok text' =>
    rw [hl] at h
    rw [Except.ok.inj h]

theorem receipt_row_after (rc : RowCodec) (scan : Scan ReceiptRow) (t : ReceiptTable)
    (c : ReceiptProjectionCall) (id : String) :
    ReceiptRowAfter rc t id c ((t.answer rc scan c).2.rows.get id) := by
  cases c with
  | insert q =>
    rw [ReceiptTable.answer, PgReceiptProjectionStore.insert]
    split
    · exact .same
    cases hdispatch : rc.column q.dispatchEvidenceRefs with
    | error e => exact .same
    | ok dispatchRefs =>
    cases htarget : rc.column q.targetEvidenceRefs with
    | error e => exact .same
    | ok targetRefs =>
    cases hgaps : rc.column q.evidenceGaps with
    | error e => exact .same
    | ok gaps =>
    dsimp only
    rcases insertUnique_get t.rows (PgReceiptProjectionStore.bound q dispatchRefs targetRefs gaps) id
      with h | ⟨hid, hfree, _, h⟩
    · rw [h]
      exact .same
    · rw [h]
      exact .inserted rfl hid hfree (column_ok hdispatch) (column_ok htarget) (column_ok hgaps)
  | _ => exact .same

/-- The node rows after a call: the old one, or the one inserted with the text of its list. -/
inductive NodeRowAfter (rc : RowCodec) (t : NodeTable) (id : String) (c : EvidenceNodeCall) :
    Option NodeRow → Prop
  | same : NodeRowAfter rc t id c (t.rows.get id)
  | inserted {node : EvidenceNodeRecord} {relationships : String} (hc : c = .insert node)
      (hid : id = node.nodeIdHex) (hfree : t.rows.get id = none)
      (htext : rc.toText node.relationships = .ok relationships) :
      NodeRowAfter rc t id c (some (PgEvidenceNodeStore.bound node relationships))

theorem node_row_after (rc : RowCodec) (scan : List NodeRow → List NodeRow) (t : NodeTable)
    (c : EvidenceNodeCall) (id : String) : NodeRowAfter rc t id c ((t.answer rc scan c).2.rows.get id) := by
  cases c with
  | insert node =>
    rw [NodeTable.answer, PgEvidenceNodeStore.insert]
    split
    · exact .same
    cases htext : rc.toText node.relationships with
    | error e => exact .same
    | ok text =>
      dsimp only
      cases hrow : t.rows.get node.nodeIdHex with
      | some row => exact .same
      | none =>
        dsimp only
        rw [Keyed.get_insert]
        by_cases hid : id = node.nodeIdHex
        · rw [if_pos (by exact hid)]
          exact .inserted rfl hid (hid ▸ hrow) htext
        · rw [if_neg (by exact hid)]
          exact .same
  | _ => exact .same

/-- The delivery rows after a call: the old one, or the one recorded. -/
inductive DeliveryRowAfter (t : DeliveryTable) (id : String) (c : WebhookReceiptCall) :
    Option DeliveryRow → Prop
  | same : DeliveryRowAfter t id c (t.rows.get id)
  | recorded {r : WebhookReceipt} (hc : c = .record r) (hid : id = r.deliveryId)
      (hfree : t.rows.get id = none) : DeliveryRowAfter t id c (some (PgWebhookReceiptStore.bound r))

theorem delivery_row_after (hex : Text.Hex.Reader) (t : DeliveryTable) (c : WebhookReceiptCall) (id : String) :
    DeliveryRowAfter t id c ((t.answer hex c).2.rows.get id) := by
  cases c with
  | record r =>
    rw [DeliveryTable.answer, PgWebhookReceiptStore.record]
    split
    · exact .same
    cases hrow : t.rows.get r.deliveryId with
    | some row => exact .same
    | none =>
      dsimp only
      rw [Keyed.get_insert]
      by_cases hid : id = r.deliveryId
      · rw [if_pos (by exact hid)]
        exact .recorded rfl hid (hid ▸ hrow)
      · rw [if_neg (by exact hid)]
        exact .same
  | _ => exact .same

section
variable {rc : RowCodec} {db db' : Database} {c : DatabaseCall}

/-- A call changes the tables as its answer says, or not at all. -/
theorem exec_state {a : c.Answer} (hx : DatabaseExec rc db c a db') :
    db' = db ∨ ∃ scans, db' = (db.run rc scans c).2 := by
  rcases hx with ⟨scans, hr⟩ | ⟨_, _, rfl | ⟨_, scans, hr⟩⟩
  · exact Or.inr ⟨scans, by rw [hr]⟩
  · exact Or.inl rfl
  · exact Or.inr ⟨scans, by rw [hr]⟩

/-- A call that is answered without an error has been made. -/
theorem exec_ok {x : c.Rows} (hx : DatabaseExec rc db c (.ok x) db') :
    ∃ scans, db.run rc scans c = (.ok x, db') := by
  rcases hx with hr | ⟨_, ⟨_, he⟩, _⟩
  · exact hr
  · cases he

theorem run_extends (hc : c.NeverReissues) (scans : Scans) : db.Extends (db.run rc scans c).2 := by
  cases c with
  | mandates q =>
    refine { Database.Extends.refl db with mandate := fun m row hrow => ?_ }
    have hafter := mandate_row_after db.mandates q m
    rw [show (db.run rc scans (.mandates q)).2.mandates = (db.mandates.run q).2 from rfl]
    generalize (db.mandates.run q).2.rows.get m = row' at hafter
    cases hafter with
    | same => exact ⟨row, hrow, id⟩
    | inserted hfree =>
      rw [hfree] at hrow
      cases hrow
    | updated hrow' => exact ⟨_, rfl, fun _ => hc⟩
  | attempts c =>
    refine { Database.Extends.refl db with attempt := fun id row hrow => ?_ }
    have hafter := attempt_row_after scans.attempts db.attempts c id
    rw [show (db.run rc scans (.attempts c)).2.attempts = (db.attempts.answer scans.attempts c).2 from rfl]
    generalize (db.attempts.answer scans.attempts c).2.rows.get id = row' at hafter
    cases hafter with
    | same => exact ⟨row, hrow, rfl, rfl⟩
    | inserted _ _ hfree =>
      rw [hfree] at hrow
      cases hrow
    | @updated row₀ row₁ hrow₀ hsame =>
      obtain rfl := Option.some.inj (hrow₀.symm.trans hrow)
      exact ⟨row₁, rfl, hsame⟩
  | evidenceNodes c =>
    refine { Database.Extends.refl db with node := fun id row hrow => ?_ }
    have hafter := node_row_after rc scans.nodes.order db.evidenceNodes c id
    rw [show (db.run rc scans (.evidenceNodes c)).2.evidenceNodes =
      (db.evidenceNodes.answer rc scans.nodes.order c).2 from rfl]
    generalize (db.evidenceNodes.answer rc scans.nodes.order c).2.rows.get id = row' at hafter
    cases hafter with
    | same => exact hrow
    | inserted _ _ hfree =>
      rw [hfree] at hrow
      cases hrow
  | receipts c =>
    refine { Database.Extends.refl db with receipt := fun id row hrow => ?_ }
    have hafter := receipt_row_after rc scans.receipts db.receipts c id
    rw [show (db.run rc scans (.receipts c)).2.receipts = (db.receipts.answer rc scans.receipts c).2 from
      rfl]
    generalize (db.receipts.answer rc scans.receipts c).2.rows.get id = row' at hafter
    cases hafter with
    | same => exact hrow
    | inserted _ _ hfree =>
      rw [hfree] at hrow
      cases hrow
  | _ => exact { Database.Extends.refl db with }

theorem exec_extends {a : c.Answer} (hc : c.NeverReissues) (hx : DatabaseExec rc db c a db') :
    db.Extends db' := by
  rcases exec_state hx with rfl | ⟨scans, rfl⟩
  · exact .refl db'
  · exact run_extends hc scans

/-! ## What a caller knows -/

/-- The attempt has a row with its mandate and its intent. -/
def Database.HasAttempt (db : Database) (x : ExecutionAttempt) : Prop :=
  ∃ row, db.attempts.rows.get x.attemptIdHex = some row ∧ row.mandateIdHex = x.mandateIdHex ∧
    row.intentIdHex = some x.intentIdHex

/-- The mandate has a row and is no longer `issued`. -/
def Database.HasSpent (db : Database) (m : String) : Prop :=
  ∃ row, db.mandates.rows.get m = some row ∧ row.state ≠ "issued"

/-- What the caller of an answered call knows of the database from then on. -/
def Database.Knows (db : Database) : (c : (q : DatabaseCall) × q.Answer) → Prop
  | ⟨.mandates (.updateRow m _ _), .ok (some _)⟩ => db.HasSpent m
  | ⟨.attempts (.insert x), .ok ()⟩ => db.HasAttempt x
  | ⟨.attempts (.byMandate m), .ok l⟩ => ∀ x ∈ l, x.mandateIdHex = m ∧ db.HasAttempt x
  | ⟨.attempts (.byDeploymentId _), .ok (some x)⟩ => db.HasAttempt x
  | ⟨.evidenceNodes (.insert node), .ok ()⟩ => (db.evidenceNodes.rows.get node.nodeIdHex).isSome
  | _ => True

theorem Database.Extends.hasSpent (h : db.Extends db') {m : String} (hm : db.HasSpent m) :
    db'.HasSpent m := by
  obtain ⟨row, hrow, hstate⟩ := hm
  obtain ⟨row', hrow', hkept⟩ := h.mandate m row hrow
  exact ⟨row', hrow', hkept hstate⟩

theorem Database.Extends.hasAttempt (h : db.Extends db') {x : ExecutionAttempt}
    (hx : db.HasAttempt x) : db'.HasAttempt x := by
  obtain ⟨row, hrow, hm, hi⟩ := hx
  obtain ⟨row', hrow', hm', hi'⟩ := h.attempt _ row hrow
  exact ⟨row', hrow', hm'.trans hm, hi'.trans hi⟩

theorem Database.Extends.hasNode (h : db.Extends db') {id : String}
    (hid : (db.evidenceNodes.rows.get id).isSome) : (db'.evidenceNodes.rows.get id).isSome := by
  obtain ⟨row, hrow⟩ := Option.isSome_iff_exists.mp hid
  rw [h.node id row hrow]
  rfl

theorem Database.Extends.knows (h : db.Extends db') {d : (q : DatabaseCall) × q.Answer}
    (hd : db.Knows d) : db'.Knows d := by
  obtain ⟨c, a⟩ := d
  unfold Database.Knows at hd ⊢
  split at hd
  · exact h.hasSpent hd
  · exact h.hasAttempt hd
  · exact fun x hx => ⟨(hd x hx).1, h.hasAttempt (hd x hx).2⟩
  · exact h.hasAttempt hd
  · exact h.hasNode hd
  · trivial

theorem notNull_ok {column : String} {value : Option String} {text : String}
    (h : notNull column value = .ok text) : value = some text := by
  cases value with
  | none => cases h
  | some text' => exact congrArg some (Except.ok.inj h)

/-- An attempt that is read has the ids it was read by, and the intent of its row. -/
theorem decode_ok {id m : String} {d : Option UInt64} {row : AttemptRow} {x : ExecutionAttempt}
    (h : PgExecutionAttemptStore.decode id m d row = .ok x) :
    x.attemptIdHex = id ∧ x.mandateIdHex = m ∧ row.intentIdHex = some x.intentIdHex := by
  rw [PgExecutionAttemptStore.decode] at h
  obtain ⟨intent, hintent, h⟩ := Checks.bind_eq_ok.mp h
  obtain ⟨token, _, h⟩ := Checks.bind_eq_ok.mp h
  obtain ⟨executor, _, h⟩ := Checks.bind_eq_ok.mp h
  obtain ⟨key, _, h⟩ := Checks.bind_eq_ok.mp h
  obtain rfl := Except.ok.inj h
  exact ⟨rfl, rfl, notNull_ok hintent⟩

theorem hasAttempt_of_row {row : AttemptRow} {d : Option UInt64} {x : ExecutionAttempt}
    (hrow : row ∈ db.attempts.rows.values)
    (hx : PgExecutionAttemptStore.decode row.attemptIdHex row.mandateIdHex d row = .ok x) :
    db.HasAttempt x := by
  obtain ⟨hid, hm, hintent⟩ := decode_ok hx
  have hget := (db.attempts.rows.mem_values row).mp hrow
  exact ⟨row, hid ▸ hget, hm.symm, hintent⟩

theorem byMandate_known {scan : Scan AttemptRow} {m : String} {l : List ExecutionAttempt}
    (h : PgExecutionAttemptStore.byMandate db.attempts scan m = .ok l) {x : ExecutionAttempt}
    (hx : x ∈ l) : x.mandateIdHex = m ∧ db.HasAttempt x := by
  obtain ⟨row, hrow, hdecode⟩ := mem_of_mapM_ok h hx
  rw [(scan.orderedBy_perm _ _).mem_iff, List.mem_filter] at hrow
  have hm : row.mandateIdHex = m := of_decide_eq_true hrow.2
  refine ⟨(decode_ok hdecode).2.1, hasAttempt_of_row hrow.1 (d := row.githubDeploymentId.map Int64.toUInt64) ?_⟩
  rw [hm]
  exact hdecode

theorem byDeploymentId_known {scan : Scan AttemptRow} {d : UInt64} {x : ExecutionAttempt}
    (h : PgExecutionAttemptStore.byDeploymentId db.attempts scan d = .ok (some x)) : db.HasAttempt x := by
  rw [PgExecutionAttemptStore.byDeploymentId] at h
  split at h
  · cases h
  · next row hfind =>
    have hrow := (scan.perm _).mem_iff.mp (List.mem_of_find?_eq_some hfind)
    cases hdecode : PgExecutionAttemptStore.decode row.attemptIdHex row.mandateIdHex (some d) row with
    | error e =>
      rw [hdecode] at h
      cases h
    | ok y =>
      rw [hdecode] at h
      obtain rfl := Option.some.inj (Except.ok.inj h)
      exact hasAttempt_of_row hrow hdecode

theorem insert_known {x : ExecutionAttempt} {u : Unit} {t t' : AttemptTable}
    (h : PgExecutionAttemptStore.insert t x = (.ok u, t')) :
    t.rows.get x.attemptIdHex = none ∧
      t'.rows.get x.attemptIdHex = some (PgExecutionAttemptStore.bound x) := by
  rw [PgExecutionAttemptStore.insert] at h
  split at h
  · cases (Prod.mk.inj h).1
  · obtain ⟨hok, rfl⟩ := Prod.mk.inj h
    exact insertUnique_ok hok

theorem node_insert_known {node : EvidenceNodeRecord} {u : Unit} {t t' : NodeTable}
    (h : PgEvidenceNodeStore.insert rc t node = (.ok u, t')) :
    (t'.rows.get node.nodeIdHex).isSome := by
  rw [PgEvidenceNodeStore.insert] at h
  split at h
  · cases (Prod.mk.inj h).1
  split at h
  · cases (Prod.mk.inj h).1
  split at h
  · cases (Prod.mk.inj h).1
  · next text _ _ _ =>
    obtain ⟨_, rfl⟩ := Prod.mk.inj h
    have hid : node.nodeIdHex = (PgEvidenceNodeStore.bound node text).nodeIdHex := rfl
    dsimp only
    rw [Keyed.get_insert, if_pos hid]
    rfl

theorem update_known {m : String} {expected v : Int64} {state : String} {t t' : MandateTable}
    (h : t.run (.updateRow m expected state) = (.ok (some v), t')) :
    ∃ row, t'.rows.get m = some row ∧ row.state = state := by
  rw [MandateTable.run] at h
  split at h
  · cases (Prod.mk.inj h).1
  next row hrow =>
  split at h
  · cases (Prod.mk.inj h).1
  split at h
  · cases (Prod.mk.inj h).1
  obtain ⟨_, rfl⟩ := Prod.mk.inj h
  dsimp only
  rw [Keyed.get_modify, if_pos rfl, hrow]
  exact ⟨_, rfl, rfl⟩

/-- An error tells its caller nothing. -/
theorem knows_error (c : DatabaseCall) (e : StorageError) : db.Knows ⟨c, .error e⟩ := by
  cases c with
  | mandates q => cases q <;> trivial
  | attempts c => cases c <;> trivial
  | evidenceNodes c => cases c <;> trivial
  | _ => trivial

/-- Who has been answered knows what the answer says. -/
theorem exec_knows {a : c.Answer} (hc : c.NeverReissues) (hx : DatabaseExec rc db c a db') :
    db'.Knows ⟨c, a⟩ := by
  cases a with
  | error e => exact knows_error c e
  | ok x =>
    obtain ⟨scans, hr⟩ := exec_ok hx
    cases c with
    | mandates q =>
      cases q with
      | updateRow m expected state =>
        cases x with
        | none => trivial
        | some v =>
          obtain ⟨ha, rfl⟩ := Prod.mk.inj hr
          obtain ⟨row, hrow, hstate⟩ := update_known (Prod.ext ha rfl)
          exact ⟨row, hrow, hstate ▸ hc⟩
      | _ => trivial
    | attempts c =>
      cases c with
      | insert y =>
        obtain ⟨ha, rfl⟩ := Prod.mk.inj hr
        exact ⟨_, (insert_known (Prod.ext ha rfl)).2, rfl, rfl⟩
      | byMandate m =>
        obtain ⟨ha, rfl⟩ := Prod.mk.inj hr
        exact fun y hy => byMandate_known ha hy
      | byDeploymentId d =>
        cases x with
        | none => trivial
        | some y =>
          obtain ⟨ha, rfl⟩ := Prod.mk.inj hr
          exact byDeploymentId_known ha
      | _ => trivial
    | evidenceNodes c =>
      cases c with
      | insert node =>
        obtain ⟨ha, rfl⟩ := Prod.mk.inj hr
        exact node_insert_known (Prod.ext ha rfl)
      | _ => trivial
    | _ => trivial

end

end Piteka.Postgres
