import Piteka.Safety.FeedStability
import Piteka.Safety.MandateChains
import Piteka.Safety.ReceiptListing

/-!
# Pulls of the feed

A pull is many queries, and others write between them. What a receipt refers to was
stored before it and does not change, so a pull that no query fails serves the feed of
the moment at which it has listed the receipts: the feed of a single step.
-/
namespace Piteka.Safety

set_option autoImplicit false

open Piteka.Interleaving Piteka.Interleaving.Program Piteka.Storage Piteka.Application Piteka.Postgres
  Piteka.Table
open Piteka.FeedServer (AnsweredFrom Asks)
open Piteka.Api (ReadCall ReadAnswer ReadPath)

/-- The node that the database has under the id. -/
def storedNode (rc : RowCodec) (db : Database) (id : String) : Option EvidenceNodeRecord :=
  (db.evidenceNodes.rows.get id).bind fun row => (PgEvidenceNodeStore.decode rc row.nodeIdHex row).toOption

/-- The stores hold the receipts and the nodes of the database. -/
structure HoldsRows (rc : RowCodec) (db : Database) (s : Stores) : Prop where
  receipt : ∀ id, s.receipt id = (db.receipts.rows.get id).map (ReceiptRow.receipt rc)
  node : ∀ id, s.evidenceNode id = storedNode rc db id

section
variable {ι : Type} [DecidableEq ι] {cd : Codec} {rc : RowCodec} {processes : ι → Process}
  {db₀ db db₁ db' : Database} {log : List (DeployEntry ι)} {p : (i : ι) → DeployProgram (processes i).Res}

/-- There are such stores for every database. -/
theorem exists_holdsRows (rc : RowCodec) (db : Database) : ∃ s, HoldsRows rc db s := by
  have hreceipts : ∃ t : Indexed String String ReceiptProjection (·.receiptIdHex) (·.mandateIdHex),
      ∀ id, t.get id = (db.receipts.rows.get id).bind fun row => some (row.receipt rc) := by
    refine exists_image _ _ fun row q hq => ?_
    obtain rfl := Option.some.inj hq
    rfl
  have hnodes : ∃ t : Indexed String String EvidenceNodeRecord (·.nodeIdHex) (·.nodeIdHex),
      ∀ id, t.get id = storedNode rc db id := by
    refine exists_image _ _ fun row node hnode => ?_
    cases hdecode : PgEvidenceNodeStore.decode rc row.nodeIdHex row with
    | error e =>
      rw [hdecode] at hnode
      cases hnode
    | ok x =>
      rw [hdecode] at hnode
      obtain rfl := Option.some.inj hnode
      exact decode_id hdecode
  obtain ⟨receipts, hreceipts⟩ := hreceipts
  obtain ⟨nodes, hnodes⟩ := hnodes
  refine ⟨{ Stores.empty with receipts := ⟨receipts⟩, evidenceNodes := ⟨nodes.toKeyed, ∅⟩ }, ⟨fun id => ?_, hnodes⟩⟩
  refine (hreceipts id).trans ?_
  cases db.receipts.rows.get id with
  | none => rfl
  | some row => rfl

/-! ## What the queries find -/

/-- The listing of the database is that of its stores. -/
theorem listing_found {collation : Collation} {ids : List Listing} {s : Stores} (hs : HoldsRows rc db s)
    (hx : DatabaseExec rc db (.receiptIds collation) (.ok ids) db') : ids = listIdsOrdered collation s := by
  obtain ⟨_, rows, hperm, rfl, hsorted⟩ := listing_exec hx
  have himage : Keyed.Image (ReceiptRow.receipt rc) db.receipts.rows s.receipts.receipts.toKeyed := ⟨hs.receipt⟩
  have hvalues := (himage.values_perm fun _ => rfl).map fun r => (r.receiptIdHex, r.createdAtUnixSeconds)
  rw [List.map_map] at hvalues
  refine List.Perm.eq_of_pairwise (fun a b _ _ h h' => Collation.le_antisymm h h') hsorted ?_ ?_
  · have htotal : Std.Total collation.Le := ⟨Collation.le_total⟩
    have htrans : IsTrans Listing collation.Le := ⟨fun _ _ _ => Collation.le_trans⟩
    exact List.pairwise_insertionSort _ _
  · exact (hperm.map _).trans (hvalues.symm.trans (List.perm_insertionSort _ _).symm)

theorem node_read {id : String} {o : Option EvidenceNodeRecord}
    (hx : DatabaseExec rc db (.evidenceNodes (.get id)) (.ok o) db') : o = storedNode rc db id := by
  obtain ⟨scans, hrun⟩ := exec_ok hx
  have hget : PgEvidenceNodeStore.get rc db.evidenceNodes id = .ok o := (Prod.mk.inj hrun).1
  rw [PgEvidenceNodeStore.get] at hget
  rw [storedNode]
  cases hrow : db.evidenceNodes.rows.get id with
  | none =>
    rw [hrow] at hget
    exact (Except.ok.inj hget).symm
  | some row =>
    have hkey : row.nodeIdHex = id := db.evidenceNodes.rows.keyed hrow
    rw [hrow] at hget
    dsimp only at hget
    rw [Option.bind_some, hkey]
    cases hdecode : PgEvidenceNodeStore.decode rc id row with
    | error e =>
      rw [hdecode] at hget
      cases hget
    | ok node =>
      rw [hdecode] at hget
      exact (Except.ok.inj hget).symm

/-- What a stored receipt refers to is read in the same way from then on. -/
theorem referred_kept (href : ReferencesResolve rc db) (href₁ : ReferencesResolve rc db₁) (hext : db.Extends db₁)
    {row : ReceiptRow} (hrow : row ∈ db.receipts.rows.values) {node : String}
    (hnode : node ∈ references (row.receipt rc)) :
    storedNode rc db₁ node = storedNode rc db node := by
  suffices hrow : db₁.evidenceNodes.rows.get node = db.evidenceNodes.rows.get node by
    rw [storedNode, storedNode, hrow]
  cases (href.receipt _ row ((db.receipts.rows.mem_values row).mp hrow)).2 with
  | produced _ hnodes =>
    obtain ⟨x, hx⟩ := Option.isSome_iff_exists.mp (hnodes node hnode)
    rw [hext.node node x hx, hx]
  | abandoned _ habandoned =>
    have hgap : node = "target_outcome" := by
      simpa [references, habandoned.dispatch, habandoned.target, habandoned.gaps] using hnode
    rw [hgap, href.gap, href₁.gap]

/-! ## A pull -/

/-- The calls of a pull of all receipts: the listing, and the exports of the receipts behind it. -/
theorem pull_calls {state : FeedState} (hall : state.allowList = none) {authorization : Option String}
    {query : FeedQuery} {g : DeployPath} {page : PitekaFeedPage}
    (hr : Returns ((Process.pull state authorization query).program cd) g (.ok page)) :
    ∃ ids t g' exports, g = onLeft ⟨.receiptIds state.collation, .ok ids⟩ :: g' ∧ Realizes carryRead t g' ∧
      Returns (FeedServer.serveFeed cd state authorization query).run
        (⟨.inr (.listIdsOrdered state.collation), .ok ids⟩ :: t) (.ok page) ∧
      Returns (FeedServer.buildExports cd state [] 0 ids).run t (.ok exports) ∧
      page = FeedServer.page exports query := by
  obtain ⟨h, hreal, hp⟩ := returns_expand hr
  obtain ⟨ids, t, exports, rfl, hexports, hpage⟩ := FeedServer.returns_serveFeed hall hp
  cases hreal with
  | cons first rest =>
    rw [returns_onDatabase.mp first]
    exact ⟨ids, t, _, exports, rfl, rest, hp, hexports, hpage⟩

/-- What a pull asks for behind its listing is answered as from the stores of that moment. -/
theorem asked_answered {state : FeedState} {ids : List Listing} {t : ReadPath} {g : DeployPath} {s : Stores}
    {exports : List SignedPitekaExport} (href : ReferencesResolve rc db) (hs : HoldsRows rc db s)
    (hids : ∀ x ∈ ids, ∃ row ∈ db.receipts.rows.values, row.receiptIdHex = x.1)
    (hreal : Realizes carryRead t g)
    (hr : Returns (FeedServer.buildExports cd state [] 0 ids).run t (.ok exports))
    (hlater : ∀ (c : DatabaseCall) (o : c.Rows), onLeft ⟨c, .ok o⟩ ∈ g → ∃ db₁ db₂, db.Extends db₁ ∧
      ReferencesResolve rc db₁ ∧ DatabaseExec rc db₁ c (.ok o) db₂) : AnsweredFrom cd.toRuntime s t := by
  have hasks : ∀ d ∈ t, ∃ t₁, (∀ d' ∈ t₁, d' ∈ t) ∧ Asks ids t₁ d.1 := by
    intro d hd
    obtain ⟨t₁, t₂, rfl⟩ := List.append_of_mem hd
    exact ⟨t₁, fun d' hd' => List.mem_append_left _ hd', FeedServer.buildExports_asks (next_of_returns hr)⟩
  have hreceipt : ∀ x ∈ ids, ∀ o, onLeft (did (.receipts (.get x.1)) o) ∈ t →
      ∃ row ∈ db.receipts.rows.values, o = some (row.receipt rc) ∧ s.receipt x.1 = some (row.receipt rc) := by
    intro x hx o hmem
    obtain ⟨row, hrow, hid⟩ := hids x hx
    obtain ⟨g', hcarry, hg'⟩ := hreal.carried hmem
    rw [show g' = [onLeft ⟨.receipts (.get x.1), .ok o⟩] from returns_onDatabase.mp hcarry] at hg'
    obtain ⟨db₁, db₂, hext, _, hx'⟩ := hlater _ _ (hg' _ List.mem_cons_self)
    refine ⟨row, hrow, ?_, ?_⟩
    · rw [receipt_exec hx', ← hid, storedReceipt_of_row hrow hext]
    · rw [hs.receipt, ← hid, (db.receipts.rows.mem_values row).mp hrow]
      rfl
  intro sc o hd
  obtain ⟨t₁, hsub, hask⟩ := hasks _ hd
  cases hask with
  | @receipt x hx =>
    obtain ⟨row, _, rfl, hfound⟩ := hreceipt x hx o hd
    exact ⟨.asListed, congrArg (fun o => (Except.ok o, s)) hfound⟩
  | @node id q hread node hnode =>
    obtain ⟨t₂, _, hask'⟩ := hasks _ (hsub _ hread)
    cases (hask' : Asks ids t₂ (.inl (.store (.receipts (.get id))))) with
    | @receipt x hx =>
      obtain ⟨row, hrow, hq, _⟩ := hreceipt x hx _ (hsub _ hread)
      obtain rfl := Option.some.inj hq
      obtain ⟨g', hcarry, hg'⟩ := hreal.carried hd
      rw [show g' = [onLeft ⟨.evidenceNodes (.get node), .ok o⟩] from returns_onDatabase.mp hcarry] at hg'
      obtain ⟨db₁, db₂, hext, href₁, hx'⟩ := hlater _ _ (hg' _ List.mem_cons_self)
      have hfound : s.evidenceNode node = o := by
        rw [hs.node, node_read hx', referred_kept href href₁ hext hrow hnode]
      exact ⟨.asListed, congrArg (fun o => (Except.ok o, s)) hfound⟩

theorem asks_store {ids : List Listing} {h : ReadPath} {op : ReadCall} (hask : Asks ids h op) :
    ∃ sc, op = .inl (.store sc) := by
  cases hask with
  | receipt hx => exact ⟨_, rfl⟩
  | node hread hnode => exact ⟨_, rfl⟩

/-- A query that fails is a failed call of its process. -/
theorem asked_failed {ids : List Listing} {h t : ReadPath} {g : DeployPath} (hreal : Realizes carryRead t g)
    {sc : StoreCall} (hask : Asks ids h (.inl (.store sc))) {e : StorageError}
    (hmem : (⟨.inl (.store sc), .error e⟩ : (op : ReadCall) × ReadAnswer op) ∈ t) :
    ∃ c : DatabaseCall, onLeft ⟨c, .error e⟩ ∈ g := by
  obtain ⟨g', hcarry, hg'⟩ := hreal.carried hmem
  cases hask with
  | @receipt x hx =>
    rw [show g' = [onLeft ⟨.receipts (.get x.1), .error e⟩] from returns_onDatabase.mp hcarry] at hg'
    exact ⟨_, hg' _ List.mem_cons_self⟩
  | @node id q hread node hnode =>
    rw [show g' = [onLeft ⟨.evidenceNodes (.get node), .error e⟩] from returns_onDatabase.mp hcarry] at hg'
    exact ⟨_, hg' _ List.mem_cons_self⟩

/-- No query of the process has failed. -/
def Unfailed (i : ι) (log : List (DeployEntry ι)) : Prop :=
  ∀ (c : DatabaseCall) (e : StorageError), onLeft ⟨c, .error e⟩ ∉ history i log

/-- The page is one of the feed of some of the stored receipts, in their order. -/
def ServesChosen (cd : Codec) (state : FeedState) (s : Stores) (query : FeedQuery) (page : PitekaFeedPage) : Prop :=
  ∃ chosen, chosen.Sublist (listIdsOrdered state.collation s) ∧
    page = FeedServer.page (state.buildExports cd s [] 0 chosen) query

theorem pulled_of_returns (hcodec : ∀ l text, rc.toText l = .ok text → rc.fromStr text = .ok l)
    (run : DeploymentRun cd rc processes db log db' p) (hdb : ReferencesResolve rc db) {i : ι} {state : FeedState}
    {authorization : Option String} {query : FeedQuery} {page : PitekaFeedPage} (hall : state.allowList = none)
    (hr : Returns ((Process.pull state authorization query).program cd) (history i log) (.ok page)) :
    ∃ ids, ∃ e ∈ log, e.caller = i ∧ e.call = onLeft ⟨.receiptIds state.collation, .ok ids⟩ ∧
      ∃ s, HoldsRows rc e.before.1 s ∧ ServesChosen cd state s query page ∧
        (Unfailed i log → Application.serveFeed cd state s authorization query = .ok page) := by
  obtain ⟨ids, t, g', exports, hg, hreal, hp, hexports, hpage⟩ := pull_calls hall hr
  have hg' : history i log = [] ++ onLeft ⟨.receiptIds state.collation, .ok ids⟩ :: g' := hg
  obtain ⟨l₁, e, l₂, hlog, hi, hcall, _, rfl⟩ := history_split hg'
  have he : e ∈ log := hlog ▸ List.mem_append_right _ List.mem_cons_self
  have hx := database_exec run he hcall
  obtain ⟨s, hs⟩ := exists_holdsRows rc e.before.1
  have hlisting : ids = listIdsOrdered state.collation s := listing_found hs hx
  obtain ⟨_, rows, hperm, hrows, _⟩ := listing_exec hx
  have hids : ∀ x ∈ ids, ∃ row ∈ e.before.1.receipts.rows.values, row.receiptIdHex = x.1 := by
    intro x hmem
    rw [hrows] at hmem
    obtain ⟨row, hrow, rfl⟩ := List.mem_map.mp hmem
    exact ⟨row, hperm.mem_iff.mp hrow, rfl⟩
  have hanswered : AnsweredFrom cd.toRuntime s t := by
    refine asked_answered (resolve_before hcodec run hdb he) hs hids hreal hexports fun c o hmem => ?_
    obtain ⟨f, hf, hext, hxf⟩ := answered_later run hlog hmem
    exact ⟨_, _, (entry_extends run he).trans hext, resolve_before hcodec run hdb hf, hxf⟩
  refine ⟨ids, e, he, hi, hcall, s, hs, ?_, fun hunfailed => ?_⟩
  · obtain ⟨chosen, hsub, rfl⟩ := FeedServer.buildExports_selects hexports hanswered
    exact ⟨chosen, hlisting ▸ hsub, hpage⟩
  refine (FeedServer.serveFeed_answered hp fun d hd => ?_).symm
  rcases List.mem_cons.mp hd with rfl | hd
  · exact ⟨congrArg Except.ok hlisting, rfl⟩
  obtain ⟨t₁, t₂, ht⟩ := List.append_of_mem hd
  have hask : Asks ids t₁ d.1 := FeedServer.buildExports_asks (next_of_returns (ht ▸ hexports))
  obtain ⟨op, a⟩ := d
  obtain ⟨sc, rfl⟩ := asks_store hask
  cases a with
  | error err =>
    obtain ⟨c, hmem⟩ := asked_failed hreal hask hd
    exact absurd (hg ▸ List.mem_cons_of_mem _ hmem) (hunfailed c err)
  | ok o => exact Or.inl (hanswered sc o hd)

/-- A pull of all receipts that has been answered, against the moment of its listing. -/
def PulledAtOneMoment (cd : Codec) (rc : RowCodec) (i : ι) (log : List (DeployEntry ι)) :
    (x : Process) → DeployProgram x.Res → Prop
  | .pull state authorization query, .ret (.ok page) => state.allowList = none →
    ∃ ids, ∃ e ∈ log, e.caller = i ∧ e.call = onLeft ⟨.receiptIds state.collation, .ok ids⟩ ∧
      ∃ s, HoldsRows rc e.before.1 s ∧ ServesChosen cd state s query page ∧
        (Unfailed i log → Application.serveFeed cd state s authorization query = .ok page)
  | _, _ => True

/-- Over any run of processes on one database, statements failing or losing their answers: a pull of
all receipts serves a page of the feed of some of the receipts that are there when it lists them, each
with the manifest that it has at that moment, and if no query of the pull fails, the page that a pull of a single step
serves then. -/
theorem pulls_linearizable (hcodec : ∀ l text, rc.toText l = .ok text → rc.fromStr text = .ok l)
    (run : DeploymentRun cd rc processes db log db' p) (hdb : ReferencesResolve rc db) (i : ι) :
    PulledAtOneMoment cd rc i log (processes i) (p i) := by
  have hi := run.follows i
  revert hi
  generalize p i = q
  generalize processes i = x at q
  intro hi
  unfold PulledAtOneMoment
  split
  · exact fun hall => pulled_of_returns hcodec run hdb hall hi
  · trivial

end

/-! ## A pull while a delivery is handled -/

/-- A second mandate, whose attempt has a receipt. -/
def publishedDatabase : Database :=
  [.mandates (.insertRow "m-0" "issued"), .mandates (.updateRow "m-0" 1 "reserved"),
    .attempts (.insert { sampleAttempt with
      attemptIdHex := "att-m-0", mandateIdHex := "m-0", intentIdHex := "i-0", githubDeploymentId := some 41 }),
    .receipts (.insert olderReceipt)].foldl (fun db c => (db.run plainLists .asListed c).2) reservedDatabase

/-- The delivery of a success, and a pull of the feed. -/
def postAndPull : Pair → Process
  | .first => .webhook sampleWebhook (posted "d-1" successSignature)
  | .second => .pull sampleFeed (some "Bearer token") ⟨0, 64⟩

/-- The delivery is handled after the pull has listed the receipts. -/
def overtaken : Snapshot Pair DeployAnswer (Database × Unit) fun i => (postAndPull i).Res :=
  deployed sampleCodec plainLists .empty postAndPull publishedDatabase
    (steps .second 1 (.answering none) ++ steps .first 20 (.answering none) ++
      steps .second 1 (.answering none))

theorem overtaken_run : DeploymentRun sampleCodec plainLists postAndPull publishedDatabase overtaken.log
    overtaken.state.1 overtaken.pool := by
  unfold overtaken
  exact deployed_run sampleCodec plainLists .empty postAndPull publishedDatabase _

theorem published_resolve : ReferencesResolve plainLists publishedDatabase where
  attempt id row hrow := by
    have hkey : row.attemptIdHex = id := publishedDatabase.attempts.rows.keyed hrow
    have hall : ∀ row ∈ publishedDatabase.attempts.rows.values, row.attemptIdHex = attemptIdOf row.mandateIdHex ∧
        ∃ mandate, publishedDatabase.mandates.rows.get row.mandateIdHex = some mandate ∧
          mandate.state ≠ "issued" := by
      decide +kernel
    obtain ⟨hid, hspent⟩ := hall row ((publishedDatabase.attempts.rows.mem_values row).mpr (hkey.symm ▸ hrow))
    exact ⟨hkey.symm.trans hid, hspent⟩
  receipt id row hrow := by
    have hkey : row.receiptIdHex = id := publishedDatabase.receipts.rows.keyed hrow
    have hall : ∀ row ∈ publishedDatabase.receipts.rows.values, ReceiptOfAttempt publishedDatabase row ∧
        row.receiptIdHex = "rcpt-" ++ attemptIdOf row.mandateIdHex ∧ references (row.receipt plainLists) = [] := by
      unfold ReceiptOfAttempt
      decide +kernel
    obtain ⟨hattempt, hid, hrefs⟩ :=
      hall row ((publishedDatabase.receipts.rows.mem_values row).mpr (hkey.symm ▸ hrow))
    refine ⟨hattempt, .produced hid fun node hnode => ?_⟩
    rw [hrefs] at hnode
    cases hnode
  gap := rfl

/-- The pull serves the older receipt; that of the delivery is stored before the pull answers. -/
theorem pulls_linearizable_overtaken :
    (overtaken.pool .second).result?.map (fun r => r.toOption.map fun page => page.exports.map (·.exportId)) =
        some (some ["rcpt-att-m-0"]) ∧
      overtaken.state.1.receipts.rows.values.length = 2 ∧
      ∀ i, PulledAtOneMoment sampleCodec plainLists i overtaken.log (postAndPull i) (overtaken.pool i) :=
  ⟨by decide +kernel, by decide +kernel,
    fun i => pulls_linearizable plainLists_read overtaken_run published_resolve i⟩

end Piteka.Safety
