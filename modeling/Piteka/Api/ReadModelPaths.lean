import Piteka.Api.ReadModel
import Piteka.Application.Tasks

/-!
# Paths of the read API

The handlers only read. A loop over ids reads them one after the other, and shows what
it has found in the order of the ids.
-/
namespace Piteka.Api

set_option autoImplicit false

open Piteka.Interleaving Piteka.Interleaving.Program Piteka.Storage Piteka.Application

abbrev ReadPath := List ((op : ReadCall) × ReadAnswer op)

/-- The calls of the read API. -/
inductive ReadCall.Reads : ReadCall → Prop
  | receipt (id : String) : Reads (.inl (.store (.receipts (.get id))))
  | receipts (m : String) : Reads (.inl (.store (.receipts (.byMandate m))))
  | attempts (m : String) : Reads (.inl (.store (.attempts (.byMandate m))))
  | node (id : String) : Reads (.inl (.store (.evidenceNodes (.get id))))
  | mandate (m : String) : Reads (.inl (.store (.mandates (.get m))))
  | recent (n : Nat) : Reads (.inl (.store (.audit (.recent n))))
  | listing (collation : Collation) : Reads (.inr (.listIdsOrdered collation))

variable {α β ε : Type} {h : ReadPath} {op : ReadCall}

theorem next_query {wrap : StorageError → ε} {c : StoreCall} {f : c.Ok → ReadCase ε β} :
    Next (query wrap c >>= f).run h op ↔ (h = [] ∧ op = .inl (.store c)) ∨
      ∃ x t, h = onLeft (did c x) :: t ∧ Next (f x).run t op := by
  refine next_call.trans (or_congr_right ⟨?_, ?_⟩)
  · rintro ⟨a, t, rfl, ht⟩
    cases a with
    | error e => exact absurd ht next_ret
    | ok x => exact ⟨x, t, rfl, ht⟩
  · rintro ⟨x, t, rfl, ht⟩
    exact ⟨.ok x, t, rfl, ht⟩

theorem returns_query {wrap : StorageError → ε} {c : StoreCall} {f : c.Ok → ReadCase ε β} {y : β}
    (hr : Returns (query wrap c >>= f).run h (.ok y)) :
    ∃ x t, h = onLeft (did c x) :: t ∧ Returns (f x).run t (.ok y) := by
  obtain ⟨a, t, rfl, ht⟩ := returns_call.mp hr
  cases a with
  | error e => cases (returns_ret.mp ht).2
  | ok x => exact ⟨x, t, rfl, ht⟩

theorem query_next {wrap : StorageError → ε} {c : StoreCall} (hn : Next (query wrap c).run h op) :
    op = .inl (.store c) := by
  rcases next_call.mp hn with ⟨_, rfl⟩ | ⟨a, _, _, h1⟩
  · rfl
  · cases a <;> exact absurd h1 next_ret

theorem returns_query_last {wrap : StorageError → ε} {c : StoreCall} {x : c.Ok}
    (hr : Returns (query wrap c).run h (.ok x)) : h = [onLeft (did c x)] := by
  obtain ⟨a, t, rfl, ht⟩ := returns_call.mp hr
  cases a with
  | error e => cases (returns_ret.mp ht).2
  | ok y =>
    obtain ⟨rfl, hy⟩ := returns_ret.mp ht
    cases hy
    rfl

theorem queryIds_next {wrap : StorageError → ε} {collation : Collation}
    (hn : Next (queryIds wrap collation).run h op) :
    op = .inr (.listIdsOrdered collation) := by
  rcases next_call.mp hn with ⟨_, rfl⟩ | ⟨a, _, _, h1⟩
  · rfl
  · cases a <;> exact absurd h1 next_ret

theorem returns_queryIds {wrap : StorageError → ε} {collation : Collation} {ids : List Listing}
    (hr : Returns (queryIds wrap collation).run h (.ok ids)) :
    h = [⟨.inr (.listIdsOrdered collation), .ok ids⟩] := by
  obtain ⟨a, t, rfl, ht⟩ := returns_call.mp hr
  cases a with
  | error e => cases (returns_ret.mp ht).2
  | ok x =>
    obtain ⟨rfl, hids⟩ := returns_ret.mp ht
    cases hids
    rfl

theorem exported_next {cd : Codec} {id : String} (hn : Next (exported cd id : ReadCase ε _).run h op) : op.Reads := by
  rcases next_bind hn with h1 | ⟨_, _, _, _, _, h1⟩
  · obtain ⟨h', op', rfl, rfl, h2⟩ := next_lift.mp h1
    cases exportManifestBytes_next h2 with
    | receipt id => exact .receipt id
    | node id => exact .node id
  · exact absurd h1 next_ret

theorem returns_exported {cd : Codec} {id : String} {r : Except BundleExportError (Array UInt8)}
    (hr : Returns (exported cd id : ReadCase ε _).run h (.ok r)) :
    ∃ h', h = h'.map onLeft ∧ Returns (exportManifestBytes cd id).run h' r := by
  obtain ⟨h₁, h₂, r', rfl, h1, h2⟩ := returns_bind hr
  obtain ⟨h', rfl, h1'⟩ := returns_lift.mp h1
  obtain ⟨rfl, hr'⟩ := returns_ret.mp h2
  obtain rfl := Except.ok.inj hr'
  exact ⟨h', List.append_nil _, h1'⟩

theorem next_found {resource id : String} {o : Option α} {f : α → ReadCase ApiError β} :
    Next (found resource id o >>= f).run h op ↔ ∃ x, o = some x ∧ Next (f x).run h op := by
  cases o with
  | none => exact iff_of_false next_ret fun ⟨_, he, _⟩ => nomatch he
  | some x =>
    constructor
    · intro hn
      exact ⟨x, rfl, hn⟩
    · rintro ⟨y, hy, hn⟩
      obtain rfl := Option.some.inj hy
      exact hn

theorem returns_found {resource id : String} {o : Option α} {f : α → ReadCase ApiError β} {y : β}
    (hr : Returns (found resource id o >>= f).run h (.ok y)) :
    ∃ x, o = some x ∧ Returns (f x).run h (.ok y) := by
  cases o with
  | none => cases (returns_ret.mp hr).2
  | some x => exact ⟨x, rfl, hr⟩

/-! ## The loop -/

theorem gather_next {read : String → ReadCase ApiError (Option α)} {shown : α → β}
    (hread : ∀ {id h op}, Next (read id).run h op → op.Reads) {ids : List String}
    (hn : Next (gather read shown ids).run h op) : op.Reads := by
  induction ids generalizing h with
  | nil => exact absurd hn next_pure
  | cons id ids ih =>
    rcases next_seq hn with h1 | ⟨_, _, _, rfl, _, h1⟩
    · exact hread h1
    rcases next_seq h1 with h2 | ⟨_, _, _, rfl, _, h2⟩
    · exact ih h2
    · exact absurd h2 next_pure

/-- The rows that the loop has read, one for each id. -/
inductive Gathered (read : String → ReadCase ApiError (Option α)) : List String → ReadPath → List (Option α) → Prop
  | nil : Gathered read [] [] []
  | cons {id : String} {ids : List String} {h h' : ReadPath} {row : Option α} {rows : List (Option α)}
      (first : Returns (read id).run h (.ok row)) (rest : Gathered read ids h' rows) :
      Gathered read (id :: ids) (h ++ h') (row :: rows)

theorem gather_returns {read : String → ReadCase ApiError (Option α)} {shown : α → β} {ids : List String}
    {out : List β} (hr : Returns (gather read shown ids).run h (.ok out)) :
    ∃ rows, Gathered read ids h rows ∧ out = rows.flatMap fun row => (row.map shown).toList := by
  induction ids generalizing h out with
  | nil =>
    obtain ⟨rfl, hout⟩ := returns_pure.mp hr
    exact ⟨[], .nil, Except.ok.inj hout⟩
  | cons id ids ih =>
    rcases returns_seq hr with ⟨_, _, he⟩ | ⟨h₁, h₂, row, rfl, h1, h2⟩
    · cases he
    rcases returns_seq h2 with ⟨_, _, he⟩ | ⟨h₃, h₄, rest, rfl, h3, h4⟩
    · cases he
    obtain ⟨rows, hrows, rfl⟩ := ih h3
    obtain ⟨rfl, hout⟩ := returns_pure.mp h4
    rw [List.append_nil]
    exact ⟨row :: rows, .cons h1 hrows, Except.ok.inj hout⟩

/-- A loop has found for each id what every read of the id finds. -/
theorem Gathered.eq_map {read : String → ReadCase ApiError (Option α)} {row : String → Option α} {ids : List String}
    {rows : List (Option α)} (hrows : Gathered read ids h rows)
    (hread : ∀ id ∈ ids, ∀ h' o, Returns (read id).run h' (.ok o) → (∀ c ∈ h', c ∈ h) → o = row id) :
    rows = ids.map row := by
  induction hrows with
  | nil => rfl
  | @cons id ids h₁ h₂ o rows first rest ih =>
    have hhead : o = row id :=
      hread id List.mem_cons_self h₁ o first fun c hc => List.mem_append_left _ hc
    have htail : rows = ids.map row := ih fun id' hid' h' o' hr hmem =>
      hread id' (List.mem_cons_of_mem _ hid') h' o' hr fun c hc => List.mem_append_right _ (hmem c hc)
    rw [List.map_cons, hhead, htail]

/-- A loop that has found a row for each id shows them in the order of the ids. -/
theorem Gathered.map_shown {read : String → ReadCase ApiError (Option α)} {shown : α → β} {key : β → String}
    {ids : List String} {rows : List (Option α)} (hrows : Gathered read ids h rows)
    (hread : ∀ id ∈ ids, ∀ h' o, Returns (read id).run h' (.ok o) → (∀ c ∈ h', c ∈ h) →
      ∃ x, o = some x ∧ key (shown x) = id) :
    (rows.flatMap fun row => (row.map shown).toList).map key = ids := by
  induction hrows with
  | nil => rfl
  | @cons id ids h₁ h₂ o rows first rest ih =>
    obtain ⟨x, rfl, hx⟩ := hread id List.mem_cons_self h₁ o first fun c hc => List.mem_append_left _ hc
    have htail := ih fun id' hid' h' o' hr hmem =>
      hread id' (List.mem_cons_of_mem _ hid') h' o' hr fun c hc => List.mem_append_right _ (hmem c hc)
    rw [List.flatMap_cons, List.map_append, htail, ← hx]
    rfl

/-- What is shown is what a read has found. -/
theorem Gathered.shown {read : String → ReadCase ApiError (Option α)} {shown : α → β} {P : β → Prop}
    {ids : List String} {rows : List (Option α)} (hrows : Gathered read ids h rows)
    (hread : ∀ id ∈ ids, ∀ h' x, Returns (read id).run h' (.ok (some x)) → (∀ c ∈ h', c ∈ h) → P (shown x)) :
    ∀ y ∈ rows.flatMap fun row => (row.map shown).toList, P y := by
  induction hrows with
  | nil => exact fun y hy => absurd hy List.not_mem_nil
  | @cons id ids h₁ h₂ o rows first rest ih =>
    intro y hy
    rw [List.flatMap_cons] at hy
    rcases List.mem_append.mp hy with hfirst | hrest
    · obtain ⟨x, rfl, rfl⟩ := Option.map_eq_some_iff.mp (Option.mem_toList.mp hfirst)
      exact hread id List.mem_cons_self h₁ x first fun c hc => List.mem_append_left _ hc
    · exact ih (fun id' hid' h' x hr hmem =>
        hread id' (List.mem_cons_of_mem _ hid') h' x hr fun c hc => List.mem_append_right _ (hmem c hc)) y hrest

/-! ## What a chain shows -/

theorem foldl_pushNew (ids acc : List String) :
    ids.foldl pushNew acc = acc ++ (ids.filter fun id => id ∉ acc).eraseDups := by
  induction ids generalizing acc with
  | nil => exact (List.append_nil acc).symm
  | cons id ids ih =>
    rw [List.foldl_cons, ih, pushNew]
    by_cases hid : id ∈ acc
    · rw [if_pos hid, List.filter_cons_of_neg (by simpa using hid)]
    · rw [if_neg hid, List.filter_cons_of_pos (by simpa using hid), List.eraseDups_cons,
        List.filter_filter, List.append_assoc, List.singleton_append]
      congr 3
      refine List.filter_congr fun x _ => ?_
      by_cases hx : x = id <;> simp [hx]

/-- The nodes of a chain are those that its receipts refer to, each of them once. -/
theorem evidenceIds_eq (receipts : List ReceiptProjection) : evidenceIds receipts =
    (receipts.flatMap fun receipt => receipt.dispatchEvidenceRefs ++ receipt.targetEvidenceRefs).eraseDups := by
  rw [evidenceIds, foldl_pushNew, List.nil_append, List.filter_eq_self.mpr fun _ _ => by simp]

theorem timelineOf_sorted (ids : List String) (recent : List AuditEvent) :
    (timelineOf ids recent).Pairwise fun a b => a.atTime ≤ b.atTime := by
  have htotal : Std.Total fun a b : ChainStep => a.atTime ≤ b.atTime := ⟨fun _ _ => Std.le_total⟩
  have htrans : IsTrans ChainStep fun a b => a.atTime ≤ b.atTime := ⟨fun _ _ _ => Std.le_trans⟩
  exact List.pairwise_insertionSort _ _

/-! ## The handlers -/

abbrev readReceipt (id : String) : ReadCase ApiError (Option ReceiptProjection) := fromStore (.receipts (.get id))

abbrev readNode (id : String) : ReadCase ApiError (Option EvidenceNodeRecord) := fromStore (.evidenceNodes (.get id))

theorem readReceipt_next {id : String} (hn : Next (readReceipt id).run h op) : op.Reads := by
  rw [query_next hn]
  exact .receipt id

theorem readNode_next {id : String} (hn : Next (readNode id).run h op) : op.Reads := by
  rw [query_next hn]
  exact .node id

theorem listReceipts_next {collation : Collation} (hn : Next (listReceipts collation).run h op) :
    op.Reads := by
  rcases next_seq hn with h1 | ⟨_, _, ids, rfl, _, h1⟩
  · rw [queryIds_next h1]
    exact .listing collation
  rcases next_seq h1 with h2 | ⟨_, _, _, rfl, _, h2⟩
  · exact gather_next readReceipt_next h2
  · exact absurd h2 next_pure

theorem getReceipt_next {id : String} (hn : Next (getReceipt id).run h op) : op.Reads := by
  rcases next_query.mp hn with ⟨_, rfl⟩ | ⟨o, t, rfl, h1⟩
  · exact .receipt id
  obtain ⟨receipt, rfl, h2⟩ := next_found.mp h1
  exact absurd h2 next_pure

theorem getMandate_next {id : String} (hn : Next (getMandate id).run h op) : op.Reads := by
  rcases next_query.mp hn with ⟨_, rfl⟩ | ⟨o, t, rfl, h1⟩
  · exact .mandate id
  obtain ⟨mandate, rfl, h2⟩ := next_found.mp h1
  exact absurd h2 next_pure

theorem exportReceipt_next {cd : Codec} {id : String} (hn : Next (exportReceipt cd id).run h op) :
    op.Reads := by
  rcases next_query.mp hn with ⟨_, rfl⟩ | ⟨o, t, rfl, h1⟩
  · exact .receipt id
  obtain ⟨receipt, rfl, h2⟩ := next_found.mp h1
  rcases next_seq h2 with h3 | ⟨_, _, r, rfl, _, h3⟩
  · exact exported_next h3
  · cases r with
    | ok bytes => exact absurd h3 next_pure
    | error e => exact absurd h3 next_ret

theorem getMandateChain_next {id : String} (hn : Next (getMandateChain id).run h op) : op.Reads := by
  rcases next_query.mp hn with ⟨_, rfl⟩ | ⟨o, t, rfl, h1⟩
  · exact .mandate id
  obtain ⟨mandate, rfl, h2⟩ := next_found.mp h1
  rcases next_query.mp h2 with ⟨_, rfl⟩ | ⟨receipts, t, rfl, h3⟩
  · exact .receipts id
  rcases next_query.mp h3 with ⟨_, rfl⟩ | ⟨attempts, t, rfl, h4⟩
  · exact .attempts id
  rcases next_seq h4 with h5 | ⟨_, _, evidence, rfl, _, h5⟩
  · exact gather_next readNode_next h5
  rcases next_query.mp h5 with ⟨_, rfl⟩ | ⟨recent, t, rfl, h6⟩
  · exact .recent 2000
  · exact absurd h6 next_pure

/-- The routes only read. -/
theorem readEndpoint_next {cd : Codec} {request : ReadRequest}
    (hn : Next (readEndpoint cd request) h op) : op.Reads := by
  rcases next_bind hn with h1 | ⟨_, _, _, rfl, _, h1⟩
  · cases request with
    | listReceipts collation =>
      rcases next_seq h1 with h2 | ⟨_, _, _, rfl, _, h2⟩
      · exact listReceipts_next h2
      · exact absurd h2 next_pure
    | getReceipt id =>
      rcases next_seq h1 with h2 | ⟨_, _, _, rfl, _, h2⟩
      · exact getReceipt_next h2
      · exact absurd h2 next_pure
    | exportReceipt id =>
      rcases next_seq h1 with h2 | ⟨_, _, _, rfl, _, h2⟩
      · exact exportReceipt_next h2
      · exact absurd h2 next_pure
    | getMandate id =>
      rcases next_seq h1 with h2 | ⟨_, _, _, rfl, _, h2⟩
      · exact getMandate_next h2
      · exact absurd h2 next_pure
    | getMandateChain id =>
      rcases next_seq h1 with h2 | ⟨_, _, _, rfl, _, h2⟩
      · exact getMandateChain_next h2
      · exact absurd h2 next_pure
  · exact absurd h1 next_ret

/-! ## What a handler has read when it answers -/

/-- A reply with a body that is not an error is that of a handler that has returned it. -/
theorem returns_readEndpoint {cd : Codec} {request : ReadRequest} {body : ReadBody}
    (hr : Returns (readEndpoint cd request) h ⟨200, body⟩) (hbody : ∀ b, body ≠ .error b) :
    Returns (request.handle cd).run h (.ok body) := by
  obtain ⟨h₁, h₂, r, rfl, h1, h2⟩ := returns_bind hr
  obtain ⟨rfl, hreply⟩ := returns_ret.mp h2
  rw [List.append_nil]
  cases r with
  | ok body' =>
    cases hreply
    exact h1
  | error e =>
    have hb : body = .error e.intoResponse.body := congrArg ReadReply.body hreply
    exact absurd hb (hbody _)

/-- A handler whose result is put into a body. -/
theorem returns_as {x : ReadCase ApiError α} {body : α → ReadBody} {b : ReadBody}
    (hr : Returns (do return body (← x) : ReadCase ApiError ReadBody).run h (.ok b)) :
    ∃ y, Returns x.run h (.ok y) ∧ b = body y := by
  rcases returns_seq hr with ⟨_, _, he⟩ | ⟨h₁, h₂, y, rfl, h1, h2⟩
  · cases he
  · obtain ⟨rfl, hb⟩ := returns_pure.mp h2
    rw [List.append_nil]
    exact ⟨y, h1, Except.ok.inj hb⟩

/-- A listing asks for the ids once and then for one receipt after the other. -/
theorem returns_listReceipts {cd : Codec} {collation : Collation} {out : List ReceiptSummary}
    (hr : Returns (readEndpoint cd (.listReceipts collation)) h ⟨200, .summaries out⟩) :
    ∃ ids t rows, h = ⟨.inr (.listIdsOrdered collation), .ok ids⟩ :: t ∧
      Gathered readReceipt (ids.map (·.1)) t rows ∧
      out = (rows.flatMap fun row => (row.map receiptSummary).toList).reverse := by
  obtain ⟨y, h1, hy⟩ := returns_as (returns_readEndpoint hr (fun _ hb => nomatch hb))
  obtain rfl := ReadBody.summaries.inj hy
  rcases returns_seq h1 with ⟨_, _, he⟩ | ⟨_, t, ids, rfl, hids, h2⟩
  · cases he
  obtain rfl := returns_queryIds hids
  rcases returns_seq h2 with ⟨_, _, he⟩ | ⟨h₁, h₂, summaries, rfl, h3, h4⟩
  · cases he
  obtain ⟨rows, hrows, rfl⟩ := gather_returns h3
  obtain ⟨rfl, hout⟩ := returns_pure.mp h4
  rw [List.append_nil]
  exact ⟨ids, h₁, rows, rfl, hrows, Except.ok.inj hout⟩

/-- A manifest that is answered has been exported on the path. -/
theorem returns_exportReceipt {cd : Codec} {id : String} {bytes : Array UInt8}
    (hr : Returns (readEndpoint cd (.exportReceipt id)) h ⟨200, .manifest bytes⟩) :
    ∃ h', (∀ d ∈ h', d ∈ h) ∧ Returns (exported cd id : ReadCase ApiError _).run h' (.ok (.ok bytes)) := by
  obtain ⟨y, h1, hy⟩ := returns_as (returns_readEndpoint hr (fun _ hb => nomatch hb))
  obtain rfl := ReadBody.manifest.inj hy
  obtain ⟨o, t, rfl, h2⟩ := returns_query h1
  obtain ⟨receipt, rfl, h3⟩ := returns_found h2
  rcases returns_seq h3 with ⟨_, _, he⟩ | ⟨h₁, h₂, r, rfl, h4, h5⟩
  · cases he
  cases r with
  | error e => cases (returns_ret.mp h5).2
  | ok bytes' =>
    obtain ⟨_, hbytes⟩ := returns_pure.mp h5
    obtain rfl := Except.ok.inj hbytes
    exact ⟨h₁, fun d hd => List.mem_cons_of_mem _ (List.mem_append_left _ hd), h4⟩

/-- What a chain is assembled from: the answers of its queries, in their order. -/
theorem returns_getMandateChain {cd : Codec} {id : String} {chain : MandateChain}
    (hr : Returns (readEndpoint cd (.getMandateChain id)) h ⟨200, .chain chain⟩) :
    ∃ mandate receipts attempts t nodes recent,
      h = [onLeft (did (.mandates (.get id)) (some mandate)), onLeft (did (.receipts (.byMandate id)) receipts),
        onLeft (did (.attempts (.byMandate id)) attempts)] ++ t ++
        [onLeft (did (.audit (.recent 2000)) recent)] ∧
      Gathered readNode (evidenceIds receipts) t nodes ∧
      chain = {
        mandate := mandateDetail mandate
        timeline := timelineOf (matchIds id receipts attempts) recent
        attempts := attempts.map chainAttempt
        receipts := receipts.map receiptDetail
        evidence := nodes.flatMap fun node => (node.map chainEvidence).toList } := by
  obtain ⟨y, h1, hy⟩ := returns_as (returns_readEndpoint hr (fun _ hb => nomatch hb))
  obtain rfl := ReadBody.chain.inj hy
  obtain ⟨o, t, rfl, h2⟩ := returns_query h1
  obtain ⟨mandate, rfl, h3⟩ := returns_found h2
  obtain ⟨receipts, t, rfl, h4⟩ := returns_query h3
  obtain ⟨attempts, t, rfl, h5⟩ := returns_query h4
  rcases returns_seq h5 with ⟨_, _, he⟩ | ⟨h₁, h₂, evidence, rfl, h6, h7⟩
  · cases he
  obtain ⟨nodes, hnodes, rfl⟩ := gather_returns h6
  obtain ⟨recent, t, rfl, h8⟩ := returns_query h7
  obtain ⟨rfl, hchain⟩ := returns_pure.mp h8
  exact ⟨mandate, receipts, attempts, h₁, nodes, recent, rfl, hnodes, Except.ok.inj hchain⟩

end Piteka.Api
