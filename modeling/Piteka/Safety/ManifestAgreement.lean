import Piteka.Safety.FeedSnapshots

/-!
# One manifest for a receipt

Manifests are handed out by the exporters, by the export route and with every export of
the feed, at any time and while others write. A manifest names its receipt and all nodes
that the receipt refers to, and these are never changed, so every manifest of a receipt
is the same, whoever hands it out.
-/
namespace Piteka.Safety

set_option autoImplicit false

open Piteka.Interleaving Piteka.Interleaving.Program Piteka.Storage Piteka.Application Piteka.Postgres
  Piteka.Table
open Piteka.Api (ReadPath ReadCase exported)

/-- What the path has found has been found by calls of `g`. -/
structure FoundIn (g : DeployPath) (h : Path) : Prop where
  receipt : ∀ id q, did (.receipts (.get id)) (some q) ∈ h → onLeft ⟨.receipts (.get id), .ok (some q)⟩ ∈ g
  node : ∀ id node, did (.evidenceNodes (.get id)) (some node) ∈ h →
    onLeft ⟨.evidenceNodes (.get id), .ok (some node)⟩ ∈ g

/-- What has been handed out by a process is of the case file that `file` has for the receipt. -/
def HandsOut (cd : Codec) (file : String → Option CaseFile) : (x : Process) → DeployProgram x.Res → Prop
  | .exportReceipt id, .ret (.ok bytes) => ∃ c, file id = some c ∧ bytes = c.bytes cd
  | .assembleBundle id, .ret (.ok bundle) => ∃ c, file id = some c ∧
    bundle = { c.bundle cd with evidenceNodeIds := bundle.evidenceNodeIds }
  | .read (.exportReceipt id), .ret ⟨200, .manifest bytes⟩ => ∃ c, file id = some c ∧ bytes = c.bytes cd
  | .pull _ _ _, .ret (.ok page) =>
    ∀ e ∈ page.exports, ∃ c, file e.exportId = some c ∧ e.payload = c.bytes cd
  | _, _ => True

/-! ## What a path has found -/

section
variable {h : Path} {g : DeployPath}

theorem foundIn_of_carried
    (hcarried : ∀ c ∈ h, ∃ g', Returns (carryPort c.1) g' c.2 ∧ ∀ d ∈ g', d ∈ g) : FoundIn g h := by
  constructor
  · intro id q hmem
    obtain ⟨g', hcarry, hg'⟩ := hcarried _ hmem
    rw [show g' = [onLeft ⟨.receipts (.get id), .ok (some q)⟩] from returns_onDatabase.mp hcarry] at hg'
    exact hg' _ List.mem_cons_self
  · intro id node hmem
    obtain ⟨g', hcarry, hg'⟩ := hcarried _ hmem
    rw [show g' = [onLeft ⟨.evidenceNodes (.get id), .ok (some node)⟩] from returns_onDatabase.mp hcarry] at hg'
    exact hg' _ List.mem_cons_self

/-- A case file that has been read is found on its path. -/
theorem readCase_returns {id : String} {c : CaseFile} (hr : Returns (readCase id).run h (.ok c)) :
    did (.receipts (.get id)) (some c.receipt) ∈ h ∧
      ∀ ids nodes, (ids, nodes) ∈ [(c.receipt.dispatchEvidenceRefs, c.dispatchNodes),
          (c.receipt.targetEvidenceRefs, c.targetNodes), (c.receipt.evidenceGaps, c.gapNodes)] →
        List.Forall₂ (fun id node => did (.evidenceNodes (.get id)) (some node) ∈ h) ids nodes := by
  unfold readCase at hr
  rcases returns_await.mp hr with ⟨_, _, he⟩ | ⟨o, h, rfl, h1⟩
  · cases he
  cases o with
  | none => cases (returns_throw.mp h1).2
  | some receipt =>
    rcases returns_seq h1 with ⟨_, _, he⟩ | ⟨h₁, h₂, dispatchNodes, rfl, hd, h3⟩
    · cases he
    rcases returns_seq h3 with ⟨_, _, he⟩ | ⟨h₃, h₄, targetNodes, rfl, ht, h5⟩
    · cases he
    rcases returns_seq h5 with ⟨_, _, he⟩ | ⟨h₅, h₆, gapNodes, rfl, hg, h7⟩
    · cases he
    obtain ⟨rfl, hret⟩ := returns_pure.mp h7
    obtain rfl := Except.ok.inj hret
    refine ⟨List.mem_cons_self, fun ids nodes hmem => ?_⟩
    simp only [List.mem_cons, Prod.mk.injEq, List.not_mem_nil, or_false] at hmem
    rcases hmem with ⟨rfl, rfl⟩ | ⟨rfl, rfl⟩ | ⟨rfl, rfl⟩
    · exact (fetchNodes_returns hd).imp fun _ _ hnode => by simp [hnode]
    · exact (fetchNodes_returns ht).imp fun _ _ hnode => by simp [hnode]
    · exact (fetchNodes_returns hg).imp fun _ _ hnode => by simp [hnode]

end

section
variable {ι : Type} [DecidableEq ι] {cd : Codec} {rc : RowCodec} {processes : ι → Process}
  {db db' : Database} {log : List (DeployEntry ι)} {p : (i : ι) → DeployProgram (processes i).Res}

/-- A case file that a process has read is that of the rows at the end. -/
theorem readCase_recorded (run : DeploymentRun cd rc processes db log db' p) {s : Stores}
    (hs : HoldsRows rc db' s) {i : ι} {h : Path} (hfound : FoundIn (history i log) h) {id : String}
    {c : CaseFile} (hr : Returns (readCase id).run h (.ok c)) : caseFile s id = .ok c := by
  obtain ⟨hreceipt, hnodes⟩ := readCase_returns hr
  have hresolve : ∀ ids nodes, List.Forall₂ (fun id node => did (.evidenceNodes (.get id)) (some node) ∈ h)
      ids nodes → ResolveTo s ids nodes := by
    intro ids nodes hall
    refine hall.imp fun id node hmem => ?_
    obtain ⟨f, hf, _, hcall⟩ := mem_history.mp (hfound.node id node hmem)
    have hread := node_read (database_exec run hf hcall)
    obtain ⟨row, hrow, hnode⟩ := Option.bind_eq_some_iff.mp hread.symm
    rw [hs.node, storedNode, (recorded_end run hf).node id row hrow]
    exact hnode
  refine caseFile_ok.mpr ⟨?_, hresolve _ _ (hnodes _ _ ?_), hresolve _ _ (hnodes _ _ ?_),
    hresolve _ _ (hnodes _ _ ?_)⟩
  · obtain ⟨f, hf, _, hcall⟩ := mem_history.mp (hfound.receipt id c.receipt hreceipt)
    have hread := receipt_exec (database_exec run hf hcall)
    obtain ⟨row, hrow, hq⟩ := Option.map_eq_some_iff.mp hread.symm
    have hkey : row.receiptIdHex = id := f.before.1.receipts.rows.keyed hrow
    rw [hs.receipt, (recorded_end run hf).receipt id row hrow, ← hq, ← hkey]
    rfl
  · simp
  · simp
  · simp

/-- A manifest that a process has exported is of the case file at the end. -/
theorem manifest_recorded (run : DeploymentRun cd rc processes db log db' p) {s : Stores}
    (hs : HoldsRows rc db' s) {i : ι} {h : Path} (hfound : FoundIn (history i log) h) {id : String}
    {bytes : Array UInt8} (hr : Returns (exportManifestBytes cd id).run h (.ok bytes)) :
    ∃ c, (caseFile s id).toOption = some c ∧ bytes = c.bytes cd := by
  rw [exportManifestBytes_eq] at hr
  rcases returns_seq hr with ⟨_, _, he⟩ | ⟨h₁, h₂, c, rfl, h1, h2⟩
  · cases he
  obtain ⟨rfl, hbytes⟩ := returns_pure.mp h2
  rw [List.append_nil] at hfound
  refine ⟨c, ?_, Except.ok.inj hbytes⟩
  rw [readCase_recorded run hs hfound h1]
  rfl

/-- The same behind the API and in the feed server. -/
theorem exported_recorded (run : DeploymentRun cd rc processes db log db' p) {s : Stores}
    (hs : HoldsRows rc db' s) {i : ι} {t h : ReadPath} (hreal : Realizes carryRead t (history i log))
    (hsub : ∀ d ∈ h, d ∈ t) {ε : Type} {id : String} {bytes : Array UInt8}
    (hr : Returns (exported cd id : ReadCase ε _).run h (.ok (.ok bytes))) :
    ∃ c, (caseFile s id).toOption = some c ∧ bytes = c.bytes cd := by
  obtain ⟨h', rfl, hp⟩ := Api.returns_exported hr
  have hfound : FoundIn (history i log) h' :=
    foundIn_of_carried fun c hc => hreal.carried (hsub _ (List.mem_map_of_mem hc))
  exact manifest_recorded run hs hfound hp

/-- A bundle that a process has assembled is of the case file at the end; the addresses of its
blobs are what the evidence store of the process has answered. -/
theorem bundle_recorded (run : DeploymentRun cd rc processes db log db' p) {s : Stores}
    (hs : HoldsRows rc db' s) {i : ι} {h : Path} (hfound : FoundIn (history i log) h) {id : String}
    {bundle : BundleExport} (hr : Returns (assembleBundle cd id).run h (.ok bundle)) :
    ∃ c, (caseFile s id).toOption = some c ∧
      bundle = { c.bundle cd with evidenceNodeIds := bundle.evidenceNodeIds } := by
  rw [assembleBundle_eq] at hr
  rcases returns_seq hr with ⟨_, _, he⟩ | ⟨h₁, h₂, c, rfl, h1, h2⟩
  · cases he
  have hfound₁ : FoundIn (history i log) h₁ :=
    ⟨fun id q hmem => hfound.receipt id q (List.mem_append_left _ hmem),
      fun id node hmem => hfound.node id node (List.mem_append_left _ hmem)⟩
  refine ⟨c, ?_, ?_⟩
  · rw [readCase_recorded run hs hfound₁ h1]
    rfl
  · unfold storeCase at h2
    rcases returns_seq h2 with ⟨_, _, he⟩ | ⟨h₃, h₄, stored, rfl, _, h4⟩
    · cases he
    rcases returns_await.mp h4 with ⟨_, _, he⟩ | ⟨_, h₅, rfl, h5⟩
    · cases he
    rcases returns_seq h5 with ⟨_, _, he⟩ | ⟨h₆, h₇, _, rfl, _, h6⟩
    · cases he
    obtain ⟨_, hbundle⟩ := returns_pure.mp h6
    obtain rfl := Except.ok.inj hbundle
    rfl

/-- Over any run of processes on one database, statements failing or losing their answers: all
manifests that are handed out for a receipt, by the exporters, by the export route and in pages of
the feed, at whatever times, are the text of one and the same case file. -/
theorem receipt_manifests_agree (run : DeploymentRun cd rc processes db log db' p) :
    ∃ file : String → Option CaseFile, ∀ i, HandsOut cd file (processes i) (p i) := by
  obtain ⟨s, hs⟩ := exists_holdsRows rc db'
  refine ⟨fun id => (caseFile s id).toOption, fun i => ?_⟩
  have hi := run.follows i
  revert hi
  generalize p i = q
  generalize processes i = x at q
  intro hi
  unfold HandsOut
  split
  · obtain ⟨h, hreal, hp⟩ := returns_expand hi
    exact manifest_recorded run hs (foundIn_of_carried fun c hc => hreal.carried hc) hp
  · obtain ⟨h, hreal, hp⟩ := returns_expand hi
    exact bundle_recorded run hs (foundIn_of_carried fun c hc => hreal.carried hc) hp
  · obtain ⟨h, hreal, hp⟩ := returns_expand hi
    obtain ⟨h', hsub, hexport⟩ := Api.returns_exportReceipt hp
    exact exported_recorded run hs hreal hsub hexport
  · obtain ⟨h, hreal, hp⟩ := returns_expand hi
    intro e he
    obtain ⟨h', hsub, hexport⟩ := FeedServer.serveFeed_payloads hp e he
    exact exported_recorded run hs hreal hsub hexport
  · trivial

end

/-- The export route for a receipt, and a pull of the feed. -/
def exportAndPull : Pair → Process
  | .first => .read (.exportReceipt "rcpt-att-m-0")
  | .second => .pull sampleFeed (some "Bearer token") ⟨0, 64⟩

/-- The pull is answered while the export is under way. -/
def exporting : Snapshot Pair DeployAnswer (Database × Unit) fun i => (exportAndPull i).Res :=
  deployed sampleCodec plainLists .empty exportAndPull publishedDatabase
    (steps .first 1 (.answering none) ++ steps .second 2 (.answering none) ++
      steps .first 1 (.answering none))

theorem exporting_run : DeploymentRun sampleCodec plainLists exportAndPull publishedDatabase exporting.log
    exporting.state.1 exporting.pool := by
  unfold exporting
  exact deployed_run sampleCodec plainLists .empty exportAndPull publishedDatabase _

theorem receipt_manifests_agree_exporting :
    (exporting.pool .first).result?.map (·.status) = some 200 ∧
      (exporting.pool .second).result?.map (fun r => r.toOption.map fun page => page.exports.map (·.exportId)) =
        some (some ["rcpt-att-m-0"]) ∧
      ∃ file : String → Option CaseFile, ∀ i, HandsOut sampleCodec file (exportAndPull i) (exporting.pool i) :=
  ⟨by decide +kernel, by decide +kernel, receipt_manifests_agree exporting_run⟩

end Piteka.Safety
