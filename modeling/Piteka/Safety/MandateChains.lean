import Piteka.Safety.ReferentialIntegrity

/-!
# The accountability chain of a mandate

A chain is read with one query after another while other processes write. Receipts are
read before attempts and nodes, and what a receipt refers to was there before it, so a
chain that is answered shows everything that its receipts refer to.
-/
namespace Piteka.Safety

set_option autoImplicit false

open Piteka.Interleaving Piteka.Interleaving.Program Piteka.Storage Piteka.Application Piteka.Postgres
  Piteka.Table
open Piteka.Api (MandateChain ReceiptDetail ReadPath Gathered readNode evidenceIds timelineOf matchIds
  mandateDetail chainAttempt chainEvidence receiptDetail chainStep contains)

/-- The chain shows what its receipts refer to, and at most one attempt. -/
structure ChainComplete (m : String) (chain : MandateChain) : Prop where
  mandate : chain.mandate.mandateId = m
  attempts : chain.attempts.map (·.attemptId) = [] ∨ chain.attempts.map (·.attemptId) = [attemptIdOf m]
  receipts : ∀ r ∈ chain.receipts, r.mandateId = m ∧ r.attemptId ∈ chain.attempts.map (·.attemptId)
  evidence : chain.evidence.map (·.nodeId) =
    (chain.receipts.flatMap fun r => r.dispatchEvidenceRefs ++ r.targetEvidenceRefs).eraseDups

/-- What the chain shows is on record, and the receipts and nodes are as it shows them. -/
structure ChainStored (rc : RowCodec) (db : Database) (m : String) (chain : MandateChain) : Prop where
  attempt : ∀ a ∈ chain.attempts, ∃ row, db.attempts.rows.get a.attemptId = some row ∧ row.mandateIdHex = m
  receipt : ∀ r ∈ chain.receipts, ∃ row, db.receipts.rows.get r.receiptId = some row ∧
    r = receiptDetail (row.receipt rc)
  node : ∀ n ∈ chain.evidence, ∃ row x, db.evidenceNodes.rows.get n.nodeId = some row ∧
    PgEvidenceNodeStore.decode rc n.nodeId row = .ok x ∧ n = chainEvidence x

/-- The timeline shows those of the events that name the mandate or one of the attempts, by their
times, and in the order of the events within one second. -/
structure ShowsEvents (m : String) (chain : MandateChain) (events : List AuditEvent) : Prop where
  recorded : ∀ step ∈ chain.timeline, ∃ event ∈ events, step = chainStep event
  named : ∀ event ∈ events, (contains event.detail m ∨ ∃ a ∈ chain.attempts, contains event.detail a.attemptId) →
    chainStep event ∈ chain.timeline
  chronological : chain.timeline.Pairwise fun a b => a.atTime ≤ b.atTime
  ties : ∀ t, (chain.timeline.filter fun step => step.atTime = t).Sublist (events.map chainStep)

/-- The last `n` events of the table. -/
def lastEvents (n : Nat) (t : AuditTable) : List AuditEvent := t.events.drop (t.events.length - n)

section
variable {ι : Type} [DecidableEq ι] {cd : Codec} {rc : RowCodec} {processes : ι → Process}
  {db db' : Database} {log : List (DeployEntry ι)} {p : (i : ι) → DeployProgram (processes i).Res}

/-! ## The queries of a chain -/

theorem mandate_carried {m : String} {mandate : MandateProjection} {g : DeployPath}
    (hr : Returns (carryPort (.store (.mandates (.get m)))) g (.ok (some mandate))) : mandate.mandateIdHex = m := by
  obtain ⟨h, _, hp⟩ := returns_expand hr
  obtain ⟨a, t, rfl, h1⟩ := returns_call.mp hp
  cases a with
  | error e => cases (returns_ret.mp h1).2
  | ok row =>
    obtain ⟨_, hrow⟩ := returns_pure.mp h1
    obtain ⟨⟨version, state⟩, _, rfl⟩ := Option.map_eq_some_iff.mp (Except.ok.inj hrow).symm
    rfl

theorem recent_read {recent : List AuditEvent} {g : DeployPath}
    (hr : Returns (carryPort (.store (.audit (.recent 2000)))) g (.ok recent)) :
    ∃ rows : List AuditRow, g = [onLeft ⟨.audit (.selectRecent 2000), .ok rows⟩] ∧
      recent = (rows.map AuditRow.event).reverse := by
  obtain ⟨h, hreal, hp⟩ := returns_expand hr
  obtain ⟨a, t, rfl, h1⟩ := returns_call.mp hp
  cases a with
  | error e => cases (returns_ret.mp h1).2
  | ok rows =>
    obtain ⟨rfl, hrecent⟩ := returns_pure.mp h1
    cases hreal with
    | cons first rest =>
      cases rest
      refine ⟨rows, ?_, Except.ok.inj hrecent⟩
      rw [List.append_nil]
      exact returns_onDatabase.mp first

theorem chain_calls {m : String} {chain : MandateChain} {g : DeployPath}
    (hr : Returns ((Process.read (.getMandateChain m)).program cd) g ⟨200, .chain chain⟩) :
    ∃ mandate receipts attempts nodes rows t g₁ g₂,
      g = g₁ ++ onLeft ⟨.receipts (.byMandate m), .ok receipts⟩ ::
        (onLeft ⟨.attempts (.byMandate m), .ok attempts⟩ ::
          (g₂ ++ [onLeft ⟨.audit (.selectRecent 2000), .ok rows⟩])) ∧
      Realizes carryRead t g₂ ∧ Gathered readNode (evidenceIds receipts) t nodes ∧
      mandate.mandateIdHex = m ∧
      chain = {
        mandate := mandateDetail mandate
        timeline := timelineOf (matchIds m receipts attempts) (rows.map AuditRow.event).reverse
        attempts := attempts.map chainAttempt
        receipts := receipts.map receiptDetail
        evidence := nodes.flatMap fun node => (node.map chainEvidence).toList } := by
  obtain ⟨h, hreal, hp⟩ := returns_expand hr
  obtain ⟨mandate, receipts, attempts, t, nodes, recent, rfl, hnodes, rfl⟩ := Api.returns_getMandateChain hp
  cases hreal with
  | @cons _ _ _ g₁ _ hmandate rest =>
  cases rest with
  | cons hreceipts rest =>
  cases rest with
  | cons hattempts rest =>
  obtain ⟨g₂, g₃, g₄, rfl, ht, haudit, hlast⟩ := Realizes.around rest
  cases hlast
  obtain ⟨rows, rfl, rfl⟩ := recent_read haudit
  rw [returns_onDatabase.mp hreceipts, returns_onDatabase.mp hattempts, List.append_nil]
  exact ⟨mandate, receipts, attempts, nodes, rows, t, g₁, g₂, rfl, ht, hnodes, mandate_carried hmandate, rfl⟩

/-! ## What the queries find -/

theorem receipts_exec {m : String} {l : List ReceiptProjection}
    (hx : DatabaseExec rc db (.receipts (.byMandate m)) (.ok l) db') {r : ReceiptProjection} (hr : r ∈ l) :
    ∃ row, db.receipts.rows.get row.receiptIdHex = some row ∧ row.mandateIdHex = m ∧ r = row.receipt rc := by
  obtain ⟨scans, hrun⟩ := exec_ok hx
  obtain rfl := Except.ok.inj (Prod.mk.inj hrun).1
  obtain ⟨row, hrow, rfl⟩ := List.mem_map.mp hr
  rw [(scans.receipts.orderedBy_perm _ _).mem_iff, List.mem_filter] at hrow
  have hm : row.mandateIdHex = m := of_decide_eq_true hrow.2
  exact ⟨row, (db.receipts.rows.mem_values row).mp hrow.1, hm, hm ▸ rfl⟩

theorem attempts_exec {m : String} {l : List ExecutionAttempt}
    (hx : DatabaseExec rc db (.attempts (.byMandate m)) (.ok l) db') :
    ∃ rows : List AttemptRow, rows.Perm (db.attempts.rows.values.filter fun row => row.mandateIdHex = m) ∧
      l.map (·.attemptIdHex) = rows.map (·.attemptIdHex) := by
  obtain ⟨scans, hrun⟩ := exec_ok hx
  refine ⟨_, scans.attempts.orderedBy_perm (·.createdAt) _, ?_⟩
  exact map_of_mapM_ok (fun row x hrow => (decode_ok hrow).1) (Prod.mk.inj hrun).1

/-- The attempts that are read are those of rows that stay. -/
theorem attempts_stored {m : String} {l : List ExecutionAttempt} {db₁ : Database}
    (hx : DatabaseExec rc db (.attempts (.byMandate m)) (.ok l) db₁) (hext : db.Extends db')
    {x : ExecutionAttempt} (hmem : x ∈ l) :
    ∃ row, db'.attempts.rows.get x.attemptIdHex = some row ∧ row.mandateIdHex = m := by
  obtain ⟨rows, hperm, hids⟩ := attempts_exec hx
  have hid : x.attemptIdHex ∈ rows.map (·.attemptIdHex) := hids ▸ List.mem_map_of_mem hmem
  obtain ⟨row, hrow, hkey⟩ := List.mem_map.mp hid
  obtain ⟨hvalue, hm⟩ := List.mem_filter.mp (hperm.mem_iff.mp hrow)
  obtain ⟨row', hrow', hsame, _⟩ := hext.attempt _ row ((db.attempts.rows.mem_values row).mp hvalue)
  exact ⟨row', hkey ▸ hrow', hsame.trans (of_decide_eq_true hm)⟩

/-- A mandate has at most one attempt. -/
theorem attempts_shown (href : ReferencesResolve rc db) {m : String} {l : List ExecutionAttempt}
    (hx : DatabaseExec rc db (.attempts (.byMandate m)) (.ok l) db') :
    l.map (·.attemptIdHex) = [] ∨ l.map (·.attemptIdHex) = [attemptIdOf m] := by
  obtain ⟨rows, hperm, hids⟩ := attempts_exec hx
  have hall : ∀ id ∈ l.map (·.attemptIdHex), id = attemptIdOf m := by
    rw [hids]
    intro id hid
    obtain ⟨row, hrow, rfl⟩ := List.mem_map.mp hid
    obtain ⟨hstored, hm⟩ := List.mem_filter.mp (hperm.mem_iff.mp hrow)
    have hm' : row.mandateIdHex = m := of_decide_eq_true hm
    exact hm' ▸ (href.attempt _ row ((db.attempts.rows.mem_values row).mp hstored)).1
  have hnodup : (l.map (·.attemptIdHex)).Nodup := by
    rw [hids]
    refine ((hperm.map _).nodup_iff).mpr ?_
    exact db.attempts.rows.keys_nodup.sublist (List.filter_sublist.map _)
  have hids' := List.eq_replicate_of_mem hall
  rw [hids', List.nodup_replicate] at hnodup
  rcases Nat.le_one_iff_eq_zero_or_eq_one.mp hnodup with hlength | hlength
  · rw [hlength] at hids'
    exact Or.inl hids'
  · rw [hlength] at hids'
    exact Or.inr hids'

theorem decode_id {id : String} {row : NodeRow} {node : EvidenceNodeRecord}
    (h : PgEvidenceNodeStore.decode rc id row = .ok node) : node.nodeIdHex = id := by
  rw [PgEvidenceNodeStore.decode] at h
  split at h
  · cases h
  split at h
  · cases h
  · obtain rfl := Except.ok.inj h
    rfl

theorem node_exec {id : String} {o : Option EvidenceNodeRecord}
    (hx : DatabaseExec rc db (.evidenceNodes (.get id)) (.ok o) db')
    (hid : (db.evidenceNodes.rows.get id).isSome) : ∃ row node, db.evidenceNodes.rows.get id = some row ∧
      PgEvidenceNodeStore.decode rc id row = .ok node ∧ o = some node := by
  obtain ⟨scans, hrun⟩ := exec_ok hx
  have hget : PgEvidenceNodeStore.get rc db.evidenceNodes id = .ok o := (Prod.mk.inj hrun).1
  obtain ⟨row, hrow⟩ := Option.isSome_iff_exists.mp hid
  rw [PgEvidenceNodeStore.get, hrow] at hget
  dsimp only at hget
  cases hnode : PgEvidenceNodeStore.decode rc id row with
  | error e =>
    rw [hnode] at hget
    cases hget
  | ok node =>
    rw [hnode] at hget
    exact ⟨row, node, hrow, hnode, (Except.ok.inj hget).symm⟩

/-- What a receipt of the mandate refers to is stored. -/
theorem referred_stored (href : ReferencesResolve rc db) {row : ReceiptRow}
    (hrow : db.receipts.rows.get row.receiptIdHex = some row) {id : String}
    (hid : id ∈ (row.receipt rc).dispatchEvidenceRefs ++ (row.receipt rc).targetEvidenceRefs) :
    (db.evidenceNodes.rows.get id).isSome := by
  cases (href.receipt _ row hrow).2 with
  | produced _ hnodes => exact hnodes id (List.mem_append_left _ hid)
  | abandoned _ habandoned =>
    rw [habandoned.dispatch, habandoned.target] at hid
    cases hid

/-- The attempt of a receipt is among those found later. -/
theorem attempt_found (href : ReferencesResolve rc db) {row : ReceiptRow}
    (hrow : db.receipts.rows.get row.receiptIdHex = some row) {db₁ db₂ : Database} (hext : db.Extends db₁)
    {l : List ExecutionAttempt} (hx : DatabaseExec rc db₁ (.attempts (.byMandate row.mandateIdHex)) (.ok l) db₂) :
    (row.receipt rc).attemptIdHex ∈ l.map (·.attemptIdHex) := by
  obtain ⟨⟨hattempt, x, hx₁, hm, _⟩, _⟩ := href.receipt _ row hrow
  obtain ⟨x', hx', hm', _⟩ := hext.attempt _ x hx₁
  obtain ⟨rows, hperm, hids⟩ := attempts_exec hx
  have hkey : x'.attemptIdHex = attemptIdOf row.mandateIdHex := db₁.attempts.rows.keyed hx'
  have hid : (row.receipt rc).attemptIdHex = x'.attemptIdHex := by
    show row.attemptIdHex.getD "" = x'.attemptIdHex
    rw [hattempt, Option.getD_some, hkey]
  rw [hids, hid]
  refine List.mem_map_of_mem (hperm.mem_iff.mpr (List.mem_filter.mpr ⟨?_, ?_⟩))
  · exact (db₁.attempts.rows.mem_values x').mpr (hkey ▸ hx')
  · exact decide_eq_true (hm'.trans hm)

theorem recent_exec {rows : List AuditRow} {n : Nat}
    (hx : DatabaseExec rc db (.audit (.selectRecent n)) (.ok rows) db') :
    (rows.map AuditRow.event).reverse = lastEvents n db.audit := by
  obtain ⟨scans, hrun⟩ := exec_ok hx
  obtain rfl : db.audit.descending.take n = rows := Except.ok.inj (Prod.mk.inj hrun).1
  rw [lastEvents, AuditTable.events, AuditTable.ascending, ← List.map_reverse, List.reverse_take,
    List.map_drop, List.length_map, List.length_reverse]

/-! ## The chain -/

theorem shows_events {m : String} {receipts : List ReceiptProjection} {attempts : List ExecutionAttempt}
    {events : List AuditEvent} {chain : MandateChain}
    (hattempts : chain.attempts = attempts.map chainAttempt)
    (htimeline : chain.timeline = timelineOf (matchIds m receipts attempts) events) :
    ShowsEvents m chain events where
  recorded step hstep := by
    rw [htimeline, timelineOf, List.mem_insertionSort] at hstep
    obtain ⟨event, hevent, rfl⟩ := List.mem_map.mp hstep
    exact ⟨event, (List.mem_filter.mp hevent).1, rfl⟩
  named event hevent hnamed := by
    rw [htimeline, timelineOf, List.mem_insertionSort]
    refine List.mem_map_of_mem (List.mem_filter.mpr ⟨hevent, List.any_eq_true.mpr ?_⟩)
    rcases hnamed with hm | ⟨a, ha, hid⟩
    · exact ⟨m, by simp [matchIds], hm⟩
    · rw [hattempts] at ha
      obtain ⟨x, hx, rfl⟩ := List.mem_map.mp ha
      exact ⟨x.attemptIdHex, List.mem_append_right _ (List.mem_map_of_mem hx), hid⟩
  chronological := htimeline ▸ Api.timelineOf_sorted _ _
  ties t := by
    rw [htimeline, timelineOf, filter_insertionSort]
    exact List.filter_sublist.trans (List.filter_sublist.map chainStep)

/-- A node that a receipt refers to is found when it is asked for. -/
theorem node_found {m : String} {receipts : List ReceiptProjection} {t : ReadPath} {g : DeployPath}
    {db₁ : Database} (href : ReferencesResolve rc db)
    (hx : DatabaseExec rc db (.receipts (.byMandate m)) (.ok receipts) db₁) (hreal : Realizes carryRead t g)
    (hlater : ∀ id o, onLeft ⟨.evidenceNodes (.get id), .ok o⟩ ∈ g →
      ∃ db₂ db₃, db.Extends db₂ ∧ db₂.Extends db' ∧
        DatabaseExec rc db₂ (.evidenceNodes (.get id)) (.ok o) db₃)
    {id : String} (hid : id ∈ evidenceIds receipts) {h : ReadPath} {o : Option EvidenceNodeRecord}
    (hread : Returns (readNode id).run h (.ok o)) (hmem : ∀ c ∈ h, c ∈ t) :
    ∃ row node, db'.evidenceNodes.rows.get id = some row ∧
      PgEvidenceNodeStore.decode rc id row = .ok node ∧ o = some node := by
  rw [Api.evidenceIds_eq, List.mem_eraseDups, List.mem_flatMap] at hid
  obtain ⟨q, hq, hid⟩ := hid
  obtain ⟨row, hrow, _, rfl⟩ := receipts_exec hx hq
  rw [Api.returns_query_last hread] at hmem
  obtain ⟨g', hcarry, hg'⟩ := hreal.carried (hmem _ List.mem_cons_self)
  rw [show g' = [onLeft ⟨.evidenceNodes (.get id), .ok o⟩] from returns_onDatabase.mp hcarry] at hg'
  obtain ⟨db₂, db₃, hext, hext', hx'⟩ := hlater id o (hg' _ List.mem_cons_self)
  obtain ⟨row', node, hrow', hnode, rfl⟩ := node_exec hx' (hext.hasNode (referred_stored href hrow hid))
  exact ⟨row', node, hext'.node id row' hrow', hnode, rfl⟩

theorem chain_of_returns (hcodec : ∀ l text, rc.toText l = .ok text → rc.fromStr text = .ok l)
    (run : DeploymentRun cd rc processes db log db' p) (hdb : ReferencesResolve rc db) {i : ι} {m : String}
    {chain : MandateChain}
    (hr : Returns ((Process.read (.getMandateChain m)).program cd) (history i log) ⟨200, .chain chain⟩) :
    ChainComplete m chain ∧ ChainStored rc db' m chain ∧
      ∃ e ∈ log, e.caller = i ∧ ShowsEvents m chain (lastEvents 2000 e.before.1.audit) := by
  obtain ⟨mandate, receipts, attempts, nodes, rows, t, g₁, g₂, hg, hreal, hnodes, rfl, rfl⟩ := chain_calls hr
  obtain ⟨l₁, e, l₂, hlog, hi, hcall, _, hl₂⟩ := history_split hg
  have he : e ∈ log := hlog ▸ List.mem_append_right _ List.mem_cons_self
  have hx := database_exec run he hcall
  have hext := entry_extends run he
  have href := resolve_before hcodec run hdb he
  have hlater : ∀ {c : DatabaseCall} {a : c.Answer}, onLeft ⟨c, a⟩ ∈ history i l₂ →
      ∃ f ∈ log, e.before.1.Extends f.before.1 ∧ DatabaseExec rc f.before.1 c a f.after.1 := by
    intro c a hc
    obtain ⟨f, hf, hextf, hxf⟩ := answered_later run hlog hc
    exact ⟨f, hf, hext.trans hextf, hxf⟩
  rw [hl₂] at hlater
  obtain ⟨f, hf, hextf, hxf⟩ := hlater List.mem_cons_self
  have hfound : ∀ id ∈ evidenceIds receipts, ∀ h' o, Returns (readNode id).run h' (.ok o) →
      (∀ c ∈ h', c ∈ t) → ∃ row node, db'.evidenceNodes.rows.get id = some row ∧
        PgEvidenceNodeStore.decode rc id row = .ok node ∧ o = some node := by
    intro id hid h' o hread hmem
    refine node_found href hx hreal (fun id o hmem => ?_) hid hread hmem
    obtain ⟨f', hf', hextf', hxf'⟩ := hlater (List.mem_cons_of_mem _ (List.mem_append_left _ hmem))
    exact ⟨_, _, hextf', recorded_end run hf', hxf'⟩
  refine ⟨⟨rfl, ?_, ?_, ?_⟩, ⟨?_, ?_, ?_⟩, ?_⟩
  · rw [List.map_map]
    exact attempts_shown (resolve_before hcodec run hdb hf) hxf
  · intro r hr
    obtain ⟨q, hq, rfl⟩ := List.mem_map.mp hr
    obtain ⟨row, hrow, hm, rfl⟩ := receipts_exec hx hq
    refine ⟨hm, ?_⟩
    rw [List.map_map]
    exact attempt_found href hrow hextf (hm ▸ hxf)
  · refine Eq.trans (hnodes.map_shown fun id hid h' o hread hmem => ?_) ?_
    · obtain ⟨row, node, _, hnode, rfl⟩ := hfound id hid h' o hread hmem
      exact ⟨node, rfl, decode_id hnode⟩
    · rw [Api.evidenceIds_eq, List.flatMap_map]
      rfl
  · intro a ha
    obtain ⟨x, hmem, rfl⟩ := List.mem_map.mp ha
    exact attempts_stored hxf (recorded_end run hf) hmem
  · intro r hr
    obtain ⟨q, hq, rfl⟩ := List.mem_map.mp hr
    obtain ⟨row, hrow, _, rfl⟩ := receipts_exec hx hq
    exact ⟨row, (recorded_end run he).receipt _ row hrow, rfl⟩
  · refine hnodes.shown fun id hid h' x hread hmem => ?_
    obtain ⟨row, node, hrow, hnode, hx⟩ := hfound id hid h' _ hread hmem
    obtain rfl := Option.some.inj hx
    have hkey : (chainEvidence x).nodeId = id := decode_id hnode
    exact ⟨row, x, hkey ▸ hrow, hkey ▸ hnode, rfl⟩
  · have hmem : onLeft ⟨.audit (.selectRecent 2000), .ok rows⟩ ∈ history i log := by
      rw [hg]
      simp
    obtain ⟨f', hf', hi', hcall'⟩ := mem_history.mp hmem
    refine ⟨f', hf', hi', ?_⟩
    rw [← recent_exec (database_exec run hf' hcall')]
    exact shows_events rfl rfl

/-- A chain that has been answered, in the database that has been reached. -/
def ChainShown (rc : RowCodec) (i : ι) (log : List (DeployEntry ι)) (db : Database) :
    (x : Process) → DeployProgram x.Res → Prop
  | .read (.getMandateChain m), .ret ⟨200, .chain chain⟩ => ChainComplete m chain ∧
      ChainStored rc db m chain ∧ ∃ e ∈ log, e.caller = i ∧ ShowsEvents m chain (lastEvents 2000 e.before.1.audit)
  | _, _ => True

/-- Over any run of processes on one database, statements failing or losing their answers: a chain
that is answered shows what is on record, the attempt of each of its receipts and each node that they
refer to, and in its timeline those of the last 2000 events of one moment that name the mandate or its
attempt. -/
theorem chains_complete (hcodec : ∀ l text, rc.toText l = .ok text → rc.fromStr text = .ok l)
    (run : DeploymentRun cd rc processes db log db' p) (hdb : ReferencesResolve rc db) (i : ι) :
    ChainShown rc i log db' (processes i) (p i) := by
  have hi := run.follows i
  revert hi
  generalize p i = q
  generalize processes i = x at q
  intro hi
  unfold ChainShown
  split
  · exact chain_of_returns hcodec run hdb hi
  · trivial

end

theorem reserved_resolve : ReferencesResolve plainLists reservedDatabase where
  attempt id row hrow := by
    rw [show reservedDatabase.attempts.rows = Keyed.empty.insert (PgExecutionAttemptStore.bound sampleAttempt) from rfl,
      Keyed.get_insert] at hrow
    split at hrow
    · next hid =>
      obtain rfl := Option.some.inj hrow
      exact ⟨hid, ⟨"m-1", 2, "reserved"⟩, by decide, by decide⟩
    · cases hrow
  receipt id row hrow := by
    rw [show reservedDatabase.receipts.rows.get id = none from rfl] at hrow
    cases hrow
  gap := rfl

/-- The delivery of the outcome is handled while the chain is read, and the chain is answered. -/
theorem chains_complete_produced :
    (chained.pool .second).result?.map (·.status) = some 200 ∧
      ∀ i, ChainShown plainLists i chained.log chained.state.1 (postAndChain i) (chained.pool i) :=
  ⟨by decide +kernel, fun i => chains_complete plainLists_read chained_run reserved_resolve i⟩

end Piteka.Safety
