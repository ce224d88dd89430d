import Piteka.Application.FeedContents
import Piteka.Postgres.DeploymentScenario

/-!
# The list of receipts

A listing asks for the ids and then for one receipt after the other, while other
processes write. Since receipts are never changed or deleted, it shows the receipts that
were there when it asked for the ids.
-/
namespace Piteka.Safety

set_option autoImplicit false

open Piteka.Interleaving Piteka.Interleaving.Program Piteka.Storage Piteka.Application Piteka.Postgres
  Piteka.Table
open Piteka.Api (ReceiptSummary ReadCall ReadAnswer ReadPath Gathered readReceipt receiptSummary)

/-- The receipt that the database has under the id. -/
def storedReceipt (rc : RowCodec) (db : Database) (id : String) : Option ReceiptProjection :=
  (db.receipts.rows.get id).map fun row => PgReceiptProjectionStore.decode rc id row.mandateIdHex row

/-- `a` is listed after `b`: it is later, or has the later id within one second. -/
def ListedAfter (collation : Collation) (a b : ReceiptSummary) : Prop :=
  collation.Le (b.receiptId, b.createdAt) (a.receiptId, a.createdAt)

/-- The summaries are those of all receipts of the database, newest first. -/
structure ListsReceipts (rc : RowCodec) (collation : Collation) (db : Database)
    (summaries : List ReceiptSummary) : Prop where
  all : summaries.Perm (db.receipts.rows.values.map fun row => receiptSummary (row.receipt rc))
  newestFirst : summaries.Pairwise (ListedAfter collation)

section
variable {ι : Type} [DecidableEq ι] {cd : Codec} {rc : RowCodec} {processes : ι → Process}
  {db db' : Database} {log : List (DeployEntry ι)} {p : (i : ι) → DeployProgram (processes i).Res}

/-- A listing that has been answered is one of a moment between its first call and its answer. -/
def ListedAtOneMoment (rc : RowCodec) (i : ι) (log : List (DeployEntry ι)) :
    (x : Process) → DeployProgram x.Res → Prop
  | .read (.listReceipts collation), .ret ⟨200, .summaries summaries⟩ =>
    ∃ e ∈ log, e.caller = i ∧ ListsReceipts rc collation e.before.1 summaries
  | _, _ => True

theorem listing_exec {collation : Collation} {ids : List Listing}
    (hx : DatabaseExec rc db (.receiptIds collation) (.ok ids) db') :
    db' = db ∧ ∃ rows : List ReceiptRow, rows.Perm db.receipts.rows.values ∧
      ids = rows.map ReceiptRow.listing ∧ ids.Pairwise collation.Le := by
  obtain ⟨scans, hr⟩ := exec_ok hx
  obtain ⟨hids, rfl⟩ := Prod.mk.inj hr
  obtain rfl := Except.ok.inj hids
  refine ⟨rfl, _, (List.perm_insertionSort _ _).trans (scans.receipts.perm _), rfl, ?_⟩
  have htotal : Std.Total fun a b : ReceiptRow => collation.Le a.listing b.listing :=
    ⟨fun a b => Collation.le_total a.listing b.listing⟩
  have htrans : IsTrans ReceiptRow fun a b => collation.Le a.listing b.listing :=
    ⟨fun _ _ _ => Collation.le_trans⟩
  exact List.pairwise_map.mpr (List.pairwise_insertionSort _ _)

theorem receipt_exec {id : String} {o : Option ReceiptProjection}
    (hx : DatabaseExec rc db (.receipts (.get id)) (.ok o) db') : o = storedReceipt rc db id := by
  obtain ⟨scans, hr⟩ := exec_ok hx
  exact (Except.ok.inj (Prod.mk.inj hr).1).symm

/-- A row that is on record is what a later query finds. -/
theorem storedReceipt_of_row {row : ReceiptRow} (hrow : row ∈ db.receipts.rows.values) (hext : db.Extends db') :
    storedReceipt rc db' row.receiptIdHex = some (row.receipt rc) := by
  have hget := hext.receipt _ row ((db.receipts.rows.mem_values row).mp hrow)
  rw [storedReceipt, hget]
  rfl

/-- The calls of a listing are those of its queries. -/
theorem listing_calls {collation : Collation} {g : DeployPath} {out : List ReceiptSummary}
    (hr : Returns ((Process.read (.listReceipts collation)).program cd) g ⟨200, .summaries out⟩) :
    ∃ ids t rows g', g = onLeft ⟨.receiptIds collation, .ok ids⟩ :: g' ∧ Realizes carryRead t g' ∧
      Gathered readReceipt (ids.map (·.1)) t rows ∧
      out = (rows.flatMap fun row => (row.map receiptSummary).toList).reverse := by
  obtain ⟨h, hreal, hp⟩ := returns_expand hr
  obtain ⟨ids, t, rows, rfl, hrows, rfl⟩ := Api.returns_listReceipts hp
  cases hreal with
  | cons first rest =>
    rw [returns_onDatabase.mp first]
    exact ⟨ids, t, rows, _, rfl, rest, hrows, rfl⟩

/-- A query of a listing is a call of its process. -/
theorem readReceipt_made {t : ReadPath} {g : DeployPath} (hreal : Realizes carryRead t g) {id : String}
    {h : ReadPath} {o : Option ReceiptProjection} (hr : Returns (readReceipt id).run h (.ok o))
    (hmem : ∀ c ∈ h, c ∈ t) : onLeft ⟨.receipts (.get id), .ok o⟩ ∈ g := by
  rw [Api.returns_query_last hr] at hmem
  obtain ⟨g', hcarry, hg⟩ := hreal.carried (hmem _ List.mem_cons_self)
  have hg' : g' = [onLeft ⟨.receipts (.get id), .ok o⟩] := returns_onDatabase.mp hcarry
  rw [hg'] at hg
  exact hg _ List.mem_cons_self

theorem listed_of_returns (run : DeploymentRun cd rc processes db log db' p) {i : ι} {collation : Collation}
    {out : List ReceiptSummary}
    (hr : Returns ((Process.read (.listReceipts collation)).program cd) (history i log) ⟨200, .summaries out⟩) :
    ∃ e ∈ log, e.caller = i ∧ ListsReceipts rc collation e.before.1 out := by
  obtain ⟨ids, t, found, g', hg, hreal, hfound, rfl⟩ := listing_calls hr
  have hg' : history i log = [] ++ onLeft ⟨.receiptIds collation, .ok ids⟩ :: g' := hg
  obtain ⟨l₁, e, l₂, hlog, hi, hcall, _, rfl⟩ := history_split hg'
  have he : e ∈ log := hlog ▸ List.mem_append_right _ List.mem_cons_self
  obtain ⟨hsame, rows, hperm, rfl, hsorted⟩ := listing_exec (database_exec run he hcall)
  have hstored : ∀ row ∈ rows, ∀ {db₁ : Database}, e.before.1.Extends db₁ →
      storedReceipt rc db₁ row.receiptIdHex = some (row.receipt rc) :=
    fun row hrow _ hext => storedReceipt_of_row (hperm.mem_iff.mp hrow) hext
  -- no row that the ids were taken from has gone when its receipt is asked for
  have hreads : found = ((rows.map ReceiptRow.listing).map (·.1)).map (storedReceipt rc e.before.1) := by
    refine hfound.eq_map fun id hid h' o hread hmem => ?_
    rw [List.map_map] at hid
    obtain ⟨row, hrow, rfl⟩ := List.mem_map.mp hid
    obtain ⟨f, _, hext, hx'⟩ := answered_later run hlog (readReceipt_made hreal hread hmem)
    exact (receipt_exec hx').trans ((hstored row hrow (hsame ▸ hext)).trans (hstored row hrow (.refl _)).symm)
  have hout : found.flatMap (fun row => (row.map receiptSummary).toList) =
      rows.map fun row => receiptSummary (row.receipt rc) := by
    rw [hreads, List.map_map, List.map_map, List.flatMap_map, List.map_eq_flatMap]
    refine List.flatMap_congr fun row hrow => ?_
    show ((storedReceipt rc e.before.1 row.receiptIdHex).map receiptSummary).toList = _
    rw [hstored row hrow (.refl _)]
    rfl
  refine ⟨e, he, hi, ?_, ?_⟩
  · rw [hout]
    exact (List.reverse_perm _).trans (hperm.map _)
  · rw [hout, List.pairwise_reverse, List.pairwise_map]
    exact List.pairwise_map.mp hsorted

/-! ## Two listings -/

theorem ListedAfter.antisymm {collation : Collation} {a b : ReceiptSummary} (h : ListedAfter collation a b)
    (h' : ListedAfter collation b a) : a.receiptId = b.receiptId :=
  congrArg Prod.fst (Collation.le_antisymm h' h)

namespace ListsReceipts

variable {collation : Collation} {summaries later : List ReceiptSummary}

theorem ids_nodup (h : ListsReceipts rc collation db summaries) : (summaries.map (·.receiptId)).Nodup := by
  refine ((h.all.map _).nodup_iff).mpr ?_
  rw [List.map_map]
  exact db.receipts.rows.keys_nodup

theorem mem_of_extends (h : ListsReceipts rc collation db summaries) (h' : ListsReceipts rc collation db' later)
    (hext : db.Extends db') {x : ReceiptSummary} (hx : x ∈ summaries) : x ∈ later := by
  obtain ⟨row, hrow, rfl⟩ := List.mem_map.mp (h.all.mem_iff.mp hx)
  refine h'.all.mem_iff.mpr (List.mem_map.mpr ⟨row, ?_, rfl⟩)
  exact (db'.receipts.rows.mem_values row).mpr (hext.receipt _ row ((db.receipts.rows.mem_values row).mp hrow))

/-- A listing goes on showing what an earlier one has shown, in the same order. -/
theorem sublist_of_extends (h : ListsReceipts rc collation db summaries)
    (h' : ListsReceipts rc collation db' later) (hext : db.Extends db') : summaries.Sublist later := by
  have hstrict : ∀ {db l}, ListsReceipts rc collation db l →
      l.Pairwise fun a b => ListedAfter collation a b ∧ a.receiptId ≠ b.receiptId :=
    fun h => h.newestFirst.and (List.pairwise_map.mp h.ids_nodup)
  refine sublist_of_sorted ?_ (hstrict h) (hstrict h') fun x hx => h.mem_of_extends h' hext hx
  intro a b hab hba
  exact hab.2 (hab.1.antisymm hba.1)

end ListsReceipts

/-- Two listings that have been answered show the same receipts in the same order, as far as the
shorter one goes. -/
def ListingsAgree : (x y : Process) → DeployProgram x.Res → DeployProgram y.Res → Prop
  | .read (.listReceipts collation), .read (.listReceipts collation'), .ret ⟨200, .summaries a⟩,
    .ret ⟨200, .summaries b⟩ => collation = collation' → a.Sublist b ∨ b.Sublist a
  | _, _, _, _ => True

/-- Over any run of processes on one database, statements failing or losing their answers: a
listing of the receipts, which is many queries, shows exactly the receipts of one moment, newest
first, and of any two listings one shows all that the other does, in the same order. -/
theorem listing_snapshot (run : DeploymentRun cd rc processes db log db' p) :
    (∀ i, ListedAtOneMoment rc i log (processes i) (p i)) ∧
      ∀ i j, ListingsAgree (processes i) (processes j) (p i) (p j) := by
  constructor
  · intro i
    have hi := run.follows i
    revert hi
    generalize p i = q
    generalize processes i = x at q
    intro hi
    unfold ListedAtOneMoment
    split
    · exact listed_of_returns run hi
    · trivial
  · intro i j
    have hi := run.follows i
    have hj := run.follows j
    revert hi hj
    generalize p i = q
    generalize p j = q'
    generalize processes i = x at q
    generalize processes j = y at q'
    intro hi hj
    unfold ListingsAgree
    split
    · rintro rfl
      obtain ⟨e, he, _, h⟩ := listed_of_returns run hi
      obtain ⟨f, hf, _, h'⟩ := listed_of_returns run hj
      rcases entries_ordered run he hf with hext | hext
      · exact Or.inl (h.sublist_of_extends h' hext)
      · exact Or.inr (h'.sublist_of_extends h hext)
    · trivial

end

/-- The receipt of the delivery is stored before the listing answers, and it is left out. -/
theorem listing_snapshot_overtaken :
    (listed.pool .second).result?.map (·.status) = some 200 ∧
      (∀ i, ListedAtOneMoment plainLists i listed.log (postAndList i) (listed.pool i)) ∧
      ∀ i j, ListingsAgree (postAndList i) (postAndList j) (listed.pool i) (listed.pool j) :=
  ⟨by decide +kernel, listing_snapshot listed_run⟩

end Piteka.Safety
