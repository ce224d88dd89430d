import Piteka.Application.EvidenceFeed

/-!
# What the feed lists

The feed is the list of the receipts that export, sorted by creation time and id and
numbered from one. It is a function of that list, and a longer list has a feed that
goes on where the shorter one ends.
-/
namespace Piteka.Application

set_option autoImplicit false

open Piteka.Interleaving Piteka.Storage Piteka.Table

/-! ## The order of the listings -/

namespace Collation

variable {c : Collation} {x y z : Listing}

theorem le_total (x y : Listing) : c.Le x y ∨ c.Le y x := by
  unfold Le
  rcases Int64.lt_or_le x.2 y.2 with h | h
  · exact Or.inl (Or.inl h)
  by_cases he : x.2 = y.2
  · rcases c.total x.1 y.1 with hl | hl
    · exact Or.inl (Or.inr ⟨he, hl⟩)
    · exact Or.inr (Or.inr ⟨he.symm, hl⟩)
  · exact Or.inr (Or.inl (Int64.lt_of_le_of_ne h (Ne.symm he)))

theorem le_trans (h : c.Le x y) (h' : c.Le y z) : c.Le x z := by
  rcases h with h | ⟨h, hl⟩
  · rcases h' with h' | ⟨h', _⟩
    · exact Or.inl (Int64.lt_trans h h')
    · exact Or.inl (h' ▸ h)
  · rcases h' with h' | ⟨h', hl'⟩
    · exact Or.inl (h ▸ h')
    · exact Or.inr ⟨h.trans h', c.trans hl hl'⟩

theorem le_antisymm (h : c.Le x y) (h' : c.Le y x) : x = y := by
  rcases h with h | ⟨h, hl⟩
  · rcases h' with h' | ⟨h', _⟩
    · exact absurd h' (Int64.lt_asymm h)
    · exact absurd h (h' ▸ Int64.lt_irrefl)
  · rcases h' with h' | ⟨_, hl'⟩
    · exact absurd h' (h ▸ Int64.lt_irrefl)
    · exact Prod.ext (c.antisymm hl hl') h

instance : Std.Total c.Le := ⟨le_total⟩

instance : IsTrans Listing c.Le := ⟨fun _ _ _ => le_trans⟩

/-- Strictly before. -/
def Before (c : Collation) (x y : Listing) : Prop := c.Le x y ∧ x ≠ y

theorem Before.asymm (h : c.Before x y) : ¬ c.Before y x :=
  fun h' => h.2 (le_antisymm h.1 h'.1)

end Collation

/-! ## The receipts that the feed publishes -/

/-- A listing with the manifest that is exported for it. -/
abbrev Published := Listing × Array UInt8

/-- The listings that export, with their manifests. -/
def assembled (cd : Codec) (s : Stores) : List Listing → List Published
  | [] => []
  | x :: ordered =>
    match (caseFile s x.1).map (CaseFile.bytes cd) with
    | .error _ => assembled cd s ordered
    | .ok payload => (x, payload) :: assembled cd s ordered

namespace FeedState

variable (cd : Codec) (state : FeedState) (s : Stores)

/-- What the feed publishes; nothing while it cannot be served. -/
def published : List Published :=
  match state.currentReceipts s with
  | .error _ => []
  | .ok ordered => assembled cd s ordered

/-- The exports of published receipts behind `count` others, the last emitted at `lastEmitted`. -/
def emit : Nat → Nat → List Published → List SignedPitekaExport
  | _, _, [] => []
  | count, lastEmitted, ((receiptId, createdAt), payload) :: rest =>
    let emittedAt := max createdAt.toInt.toNat (lastEmitted + 1)
    state.signedExport cd (count + 1) receiptId emittedAt payload ::
      emit (count + 1) emittedAt rest

/-- The whole feed. -/
def feed : List SignedPitekaExport := state.emit cd 0 0 (state.published cd s)

/-- The order of the server's listings. -/
def order : Collation :=
  match state.allowList with
  | some _ => byteOrder
  | none => state.collation

end FeedState

section
variable {cd : Codec} {state : FeedState} {s s' : Stores}

theorem buildExports_eq (ordered : List Listing) (exports : List SignedPitekaExport)
    (lastEmitted : Nat) : state.buildExports cd s exports lastEmitted ordered =
      exports ++ state.emit cd exports.length lastEmitted (assembled cd s ordered) := by
  induction ordered generalizing exports lastEmitted with
  | nil => exact (List.append_nil _).symm
  | cons x ordered ih =>
    unfold FeedState.buildExports assembled
    cases (caseFile s x.1).map (CaseFile.bytes cd) with
    | error e => exact ih exports lastEmitted
    | ok payload =>
      dsimp only
      rw [ih, List.length_append, List.length_singleton, List.append_assoc]
      rfl

/-- A pull selects from the feed, or fails because a listed receipt is missing. -/
theorem exports_ok {l : List SignedPitekaExport} (h : state.exports cd s = .ok l) :
    l = state.feed cd s := by
  unfold FeedState.exports at h
  unfold FeedState.feed FeedState.published
  cases hordered : state.currentReceipts s with
  | error e =>
    rw [hordered] at h
    cases h
  | ok ordered =>
    rw [hordered] at h
    rw [← Except.ok.inj h, buildExports_eq]
    rfl

theorem mem_assembled {ordered : List Listing} {x : Published} :
    x ∈ assembled cd s ordered ↔
      x.1 ∈ ordered ∧ ∃ c, caseFile s x.1.1 = .ok c ∧ x.2 = c.bytes cd := by
  induction ordered with
  | nil => simp [assembled]
  | cons y ordered ih =>
    unfold assembled
    cases hcase : caseFile s y.1 with
    | error e =>
      refine ih.trans (and_congr_left fun ⟨c, hc, _⟩ => ?_)
      rw [List.mem_cons]
      refine (or_iff_right fun he => ?_).symm
      rw [he, hcase] at hc
      cases hc
    | ok c =>
      refine List.mem_cons.trans ?_
      rw [ih, List.mem_cons, or_and_right]
      refine or_congr_left ⟨?_, ?_⟩
      · rintro rfl
        exact ⟨rfl, c, hcase, rfl⟩
      · rintro ⟨he, c', hc', hbytes⟩
        rw [he, hcase] at hc'
        obtain rfl := Except.ok.inj hc'
        exact Prod.ext he hbytes

theorem assembled_sublist (ordered : List Listing) :
    ((assembled cd s ordered).map (·.1)).Sublist ordered := by
  induction ordered with
  | nil => exact .slnil
  | cons y ordered ih =>
    unfold assembled
    cases (caseFile s y.1).map (CaseFile.bytes cd) with
    | error e => exact .cons y ih
    | ok payload => exact .cons_cons y ih

/-! ## The listed receipts -/

theorem loadReceipts_kept (hkept : RowsKept s s') {ids : List String} {l : List Listing}
    (h : loadReceipts s ids = .ok l) : loadReceipts s' ids = .ok l := by
  induction ids generalizing l with
  | nil => exact h
  | cons id ids ih =>
    unfold loadReceipts at h ⊢
    cases hrow : s.receipt id with
    | none =>
      rw [hrow] at h
      cases h
    | some receipt =>
      rw [hrow] at h
      rw [hkept.receipt _ _ hrow]
      cases hrest : loadReceipts s ids with
      | error e =>
        rw [hrest] at h
        cases h
      | ok rest =>
        rw [hrest] at h
        rw [ih hrest]
        exact h

/-- The listings are those of the given ids, with the creation times of the rows. -/
theorem loadReceipts_ok {ids : List String} {l : List Listing} (h : loadReceipts s ids = .ok l) :
    l.map (·.1) = ids ∧
      ∀ x ∈ l, ∃ r, s.receipt x.1 = some r ∧ x.2 = r.createdAtUnixSeconds := by
  induction ids generalizing l with
  | nil =>
    obtain rfl := Except.ok.inj h
    simp
  | cons id ids ih =>
    unfold loadReceipts at h
    cases hrow : s.receipt id with
    | none =>
      rw [hrow] at h
      cases h
    | some receipt =>
      cases hrest : loadReceipts s ids with
      | error e =>
        rw [hrow, hrest] at h
        cases h
      | ok rest =>
        rw [hrow, hrest] at h
        obtain rfl := Except.ok.inj h
        obtain ⟨hids, hrows⟩ := ih hrest
        refine ⟨congrArg (id :: ·) hids, fun x hx => ?_⟩
        rcases List.mem_cons.mp hx with rfl | hx
        · exact ⟨receipt, hrow, rfl⟩
        · exact hrows x hx

theorem mem_listIdsOrdered {c : Collation} {x : Listing} :
    x ∈ listIdsOrdered c s ↔ ∃ r, s.receipt x.1 = some r ∧ x.2 = r.createdAtUnixSeconds := by
  unfold listIdsOrdered
  rw [List.mem_insertionSort, List.mem_map]
  constructor
  · rintro ⟨r, hr, rfl⟩
    exact ⟨r, (Keyed.mem_values _ r).mp hr, rfl⟩
  · rintro ⟨r, hr, ht⟩
    have hid : r.receiptIdHex = x.1 := s.receipts.receipts.keyed hr
    refine ⟨r, (Keyed.mem_values _ r).mpr ?_, Prod.ext hid ht.symm⟩
    rw [hid]
    exact hr

/-- With an allow-list, its receipts are loaded and sorted. -/
theorem currentReceipts_allowed {ids : List String} (hallow : state.allowList = some ids)
    {l : List Listing} : state.currentReceipts s = .ok l ↔
      ∃ pairs, loadReceipts s ids = .ok pairs ∧ l = pairs.insertionSort byteOrder.Le := by
  unfold FeedState.currentReceipts
  rw [hallow]
  dsimp only
  cases hload : loadReceipts s ids with
  | error e =>
    constructor
    · intro h
      cases h
    · rintro ⟨_, h, _⟩
      cases h
  | ok pairs =>
    constructor
    · intro h
      exact ⟨pairs, rfl, (Except.ok.inj h).symm⟩
    · rintro ⟨_, h, rfl⟩
      obtain rfl := Except.ok.inj h
      rfl

theorem currentReceipts_all (hallow : state.allowList = none) :
    state.currentReceipts s = .ok (listIdsOrdered state.collation s) := by
  unfold FeedState.currentReceipts
  rw [hallow]

theorem currentReceipts_row {l : List Listing} (h : state.currentReceipts s = .ok l) {x : Listing}
    (hx : x ∈ l) : ∃ r, s.receipt x.1 = some r ∧ x.2 = r.createdAtUnixSeconds := by
  cases hallow : state.allowList with
  | none =>
    rw [currentReceipts_all hallow] at h
    obtain rfl := Except.ok.inj h
    exact mem_listIdsOrdered.mp hx
  | some ids =>
    obtain ⟨pairs, hpairs, rfl⟩ := (currentReceipts_allowed hallow).mp h
    exact (loadReceipts_ok hpairs).2 x ((List.mem_insertionSort _).mp hx)

/-- The listings stay listed. -/
theorem currentReceipts_kept (hkept : RowsKept s s') {l : List Listing}
    (h : state.currentReceipts s = .ok l) :
    ∃ l', state.currentReceipts s' = .ok l' ∧ ∀ x ∈ l, x ∈ l' := by
  cases hallow : state.allowList with
  | none =>
    rw [currentReceipts_all hallow] at h
    obtain rfl := Except.ok.inj h
    refine ⟨_, currentReceipts_all hallow, fun x hx => ?_⟩
    obtain ⟨r, hr, ht⟩ := mem_listIdsOrdered.mp hx
    exact mem_listIdsOrdered.mpr ⟨r, hkept.receipt _ _ hr, ht⟩
  | some ids =>
    obtain ⟨pairs, hpairs, rfl⟩ := (currentReceipts_allowed hallow).mp h
    exact ⟨_, (currentReceipts_allowed hallow).mpr ⟨pairs, loadReceipts_kept hkept hpairs, rfl⟩,
      fun x hx => hx⟩

theorem currentReceipts_sorted {l : List Listing} (h : state.currentReceipts s = .ok l) :
    l.Pairwise state.order.Le := by
  unfold FeedState.order
  cases hallow : state.allowList with
  | none =>
    rw [currentReceipts_all hallow] at h
    obtain rfl := Except.ok.inj h
    exact List.pairwise_insertionSort _ _
  | some ids =>
    obtain ⟨pairs, _, rfl⟩ := (currentReceipts_allowed hallow).mp h
    exact List.pairwise_insertionSort _ _

/-- How often a receipt that exports is in the feed: once for each time the allow-list names it. -/
def FeedState.entries (state : FeedState) (id : String) : Nat :=
  match state.allowList with
  | some ids => ids.count id
  | none => 1

theorem count_currentReceipts {l : List Listing} (h : state.currentReceipts s = .ok l) {x : Listing}
    (hx : x ∈ l) : (l.map (·.1)).count x.1 = state.entries x.1 := by
  unfold FeedState.entries
  cases hallow : state.allowList with
  | none =>
    rw [currentReceipts_all hallow] at h
    obtain rfl := Except.ok.inj h
    have hperm := (List.perm_insertionSort state.collation.Le
      (s.receipts.receipts.values.map fun r => (r.receiptIdHex, r.createdAtUnixSeconds))).map (·.1)
    refine List.count_eq_one_of_mem (hperm.nodup_iff.mpr ?_) (List.mem_map_of_mem hx)
    rw [List.map_map]
    exact s.receipts.receipts.keys_nodup
  | some ids =>
    obtain ⟨pairs, hpairs, rfl⟩ := (currentReceipts_allowed hallow).mp h
    dsimp only
    rw [← (loadReceipts_ok hpairs).1]
    exact ((List.perm_insertionSort byteOrder.Le pairs).map _).count_eq _

/-! ## The published receipts -/

theorem mem_published {x : Published} :
    x ∈ state.published cd s ↔ ∃ l, state.currentReceipts s = .ok l ∧ x.1 ∈ l ∧
      ∃ c, caseFile s x.1.1 = .ok c ∧ x.2 = c.bytes cd := by
  unfold FeedState.published
  cases state.currentReceipts s with
  | error e =>
    constructor
    · intro h
      cases h
    · rintro ⟨_, h, _⟩
      cases h
  | ok l =>
    constructor
    · intro h
      exact ⟨l, rfl, mem_assembled.mp h⟩
    · rintro ⟨_, h, hx⟩
      obtain rfl := Except.ok.inj h
      exact mem_assembled.mpr hx

theorem published_kept (hkept : RowsKept s s') {x : Published} (hx : x ∈ state.published cd s) :
    x ∈ state.published cd s' := by
  obtain ⟨l, hl, hx, c, hc, hbytes⟩ := mem_published.mp hx
  obtain ⟨l', hl', hsub⟩ := currentReceipts_kept hkept hl
  exact mem_published.mpr ⟨l', hl', hsub _ hx, c, caseFile_kept hkept hc, hbytes⟩

/-- The id of a published receipt determines its listing and its manifest. -/
theorem published_unique {x y : Published} (hx : x ∈ state.published cd s)
    (hy : y ∈ state.published cd s) (hid : x.1.1 = y.1.1) : x = y := by
  obtain ⟨l, hl, hxl, c, hc, hbytes⟩ := mem_published.mp hx
  obtain ⟨l', hl', hyl, c', hc', hbytes'⟩ := mem_published.mp hy
  obtain ⟨r, hr, ht⟩ := currentReceipts_row hl hxl
  obtain ⟨r', hr', ht'⟩ := currentReceipts_row hl' hyl
  rw [hid] at hr hc
  obtain rfl := Option.some.inj (hr.symm.trans hr')
  obtain rfl := Except.ok.inj (hc.symm.trans hc')
  exact Prod.ext (Prod.ext hid (ht.trans ht'.symm)) (hbytes.trans hbytes'.symm)

/-- The feed lists its receipts in order, the copies of one next to each other. -/
theorem published_sorted :
    Grouped (fun x y => state.order.Before x.1 y.1) (state.published cd s) := by
  have hle : (state.published cd s).Pairwise fun x y => state.order.Le x.1 y.1 := by
    unfold FeedState.published
    cases hl : state.currentReceipts s with
    | error e => exact .nil
    | ok l =>
      have hsub := (currentReceipts_sorted hl).sublist (@assembled_sublist cd s l)
      exact List.pairwise_map.mp hsub
  refine hle.imp_of_mem fun {x y} hx hy h => ?_
  by_cases he : x.1 = y.1
  · exact Or.inl (published_unique hx hy (congrArg Prod.fst he))
  · exact Or.inr ⟨h, he⟩

theorem assembled_ids (ordered : List Listing) : (assembled cd s ordered).map (·.1.1) =
    (ordered.map (·.1)).filter fun id => (caseFile s id).isOk := by
  induction ordered with
  | nil => rfl
  | cons x ordered ih =>
    unfold assembled
    rw [List.map_cons, List.filter_cons]
    cases caseFile s x.1 with
    | error e => exact ih
    | ok c => exact congrArg (x.1 :: ·) ih

theorem count_published {x : Published} (hx : x ∈ state.published cd s) :
    (state.published cd s).count x = state.entries x.1.1 := by
  have hids : (state.published cd s).count x = ((state.published cd s).map (·.1.1)).count x.1.1 := by
    rw [List.count_eq_countP, List.count_eq_countP, List.countP_map]
    refine List.countP_congr fun y hy => ?_
    simp only [beq_iff_eq, Function.comp_apply]
    exact ⟨fun he => congrArg (·.1.1) he, fun he => published_unique hy hx he⟩
  obtain ⟨l, hl, hxl, c, hc, _⟩ := mem_published.mp hx
  have hpublished : state.published cd s = assembled cd s l := by
    unfold FeedState.published
    rw [hl]
  have hexports : (caseFile s x.1.1).isOk = true := by
    rw [hc]
    rfl
  rw [hids, hpublished, assembled_ids,
    List.count_filter (p := fun id => (caseFile s id).isOk) hexports, count_currentReceipts hl hxl]

/-! ## The exports of published receipts -/

@[simp] theorem length_emit (l : List Published) (count lastEmitted : Nat) :
    (state.emit cd count lastEmitted l).length = l.length := by
  induction l generalizing count lastEmitted with
  | nil => rfl
  | cons x l ih => exact congrArg (· + 1) (ih _ _)

theorem emit_ids (l : List Published) (count lastEmitted : Nat) :
    (state.emit cd count lastEmitted l).map (·.exportId) = l.map (·.1.1) := by
  induction l generalizing count lastEmitted with
  | nil => rfl
  | cons x l ih => exact congrArg (x.1.1 :: ·) (ih _ _)

/-- The feed of a longer list begins with the feed of the shorter one. -/
theorem emit_extends {l l' : List Published} (h : l <+: l') (count lastEmitted : Nat) :
    state.emit cd count lastEmitted l <+: state.emit cd count lastEmitted l' := by
  induction l generalizing l' count lastEmitted with
  | nil => exact List.nil_prefix
  | cons x l ih =>
    cases l' with
    | nil => cases List.prefix_nil.mp h
    | cons y l' =>
      obtain ⟨rfl, hrest⟩ := List.cons_prefix_cons.mp h
      exact List.cons_prefix_cons.mpr ⟨rfl, ih hrest _ _⟩

/-- An export has the number of its position and the id of its receipt. -/
theorem emit_at {l : List Published} {count lastEmitted i : Nat} {e : SignedPitekaExport}
    (he : (state.emit cd count lastEmitted l)[i]? = some e) :
    e.sequence = count + i + 1 ∧ ∃ x, l[i]? = some x ∧ e.exportId = x.1.1 := by
  induction l generalizing count lastEmitted i with
  | nil => cases he
  | cons x l ih =>
    cases i with
    | zero =>
      obtain rfl := Option.some.inj he
      exact ⟨rfl, x, rfl, rfl⟩
    | succ i =>
      obtain ⟨hseq, hx⟩ := ih he
      refine ⟨?_, hx⟩
      omega

theorem sequence_gt {l : List Published} {count lastEmitted : Nat} {e : SignedPitekaExport}
    (he : e ∈ state.emit cd count lastEmitted l) : count < e.sequence := by
  obtain ⟨i, hi⟩ := List.mem_iff_getElem?.mp he
  have hseq := (emit_at hi).1
  omega

/-- What is behind a position in the feed is what has a greater sequence number. -/
theorem emit_filter (l : List Published) (count lastEmitted n : Nat) :
    (state.emit cd count lastEmitted l).filter (fun e => count + n < e.sequence) =
      (state.emit cd count lastEmitted l).drop n := by
  induction l generalizing count lastEmitted n with
  | nil => simp [FeedState.emit]
  | cons x l ih =>
    cases n with
    | zero =>
      refine List.filter_eq_self.mpr fun e he => ?_
      simpa using sequence_gt he
    | succ n =>
      unfold FeedState.emit
      rw [List.drop_succ_cons, ← ih, List.filter_cons_of_neg]
      · refine List.filter_congr fun e _ => ?_
        rw [Nat.add_right_comm, Nat.add_assoc]
      · simp [FeedState.signedExport]

theorem presentedToken_bearer (token : String) :
    presentedToken (some ("Bearer " ++ token)) = some token := by
  have hbearer : "Bearer ".toList.length = 7 := by decide
  unfold presentedToken
  rw [Option.bind_some, if_pos (by simp [String.toList_append])]
  rw [String.toList_append, ← hbearer, List.drop_left, String.ofList_toList]

/-- A page is what follows the cursor, and the cursor moves behind it. -/
theorem pulled_ok {f : FeedRun} {limit : Nat} {page : PitekaFeedPage}
    (h : pulled cd state f limit = .ok page) :
    (0 < limit ∧ limit ≤ 1024) ∧
      page.exports = ((state.feed cd f.stores).drop f.nextSequence).take limit ∧
      page.nextSequence = f.nextSequence + page.exports.length := by
  unfold pulled serveFeed at h
  rw [presentedToken_bearer, if_neg (not_not.mpr rfl)] at h
  split at h
  · cases h
  next hlimit =>
  cases hexports : state.exports cd f.stores with
  | error e =>
    rw [hexports] at h
    cases h
  | ok exports =>
    rw [hexports] at h
    obtain rfl := exports_ok hexports
    obtain rfl := Except.ok.inj h
    have hpage : (state.feed cd f.stores).filter (fun e => f.nextSequence < e.sequence) =
        (state.feed cd f.stores).drop f.nextSequence := by
      have hfilter := @emit_filter cd state (state.published cd f.stores) 0 0 f.nextSequence
      rw [Nat.zero_add] at hfilter
      exact hfilter
    dsimp only at hlimit ⊢
    rw [hpage]
    refine ⟨by omega, rfl, ?_⟩
    generalize hselected : ((state.feed cd f.stores).drop f.nextSequence).take limit = selected
    rcases List.eq_nil_or_concat selected with rfl | ⟨init, last, rfl⟩
    · rfl
    -- The last export of the page has the number of its position in the feed.
    · have hlast : (state.feed cd f.stores)[f.nextSequence + init.length]? = some last := by
        have hat := congrArg (·[init.length]?) hselected
        simp only [List.getElem?_take, List.getElem?_drop, List.concat_eq_append,
          List.getElem?_concat_length] at hat
        split at hat
        · exact hat
        · cases hat
      have hseq := (emit_at hlast).1
      simp
      omega

/-- While the feed has anything, a pull with a limit in range is served. -/
theorem pulled_of_published {f : FeedRun} {limit : Nat} {x : Published} (hpos : 0 < limit)
    (hle : limit ≤ 1024) (hx : x ∈ state.published cd f.stores) :
    ∃ page, pulled cd state f limit = .ok page := by
  obtain ⟨l, hl, _⟩ := mem_published.mp hx
  have hrange : ¬ (limit = 0 ∨ 1024 < limit) := by omega
  unfold pulled serveFeed
  rw [presentedToken_bearer, if_neg (not_not.mpr rfl), if_neg hrange, FeedState.exports, hl]
  exact ⟨_, rfl⟩

end

end Piteka.Application
