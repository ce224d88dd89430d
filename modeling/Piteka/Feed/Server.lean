import Piteka.Api.ReadModelPaths
import Piteka.Application.FeedContents
import Piteka.Storage.FailFast

/-!
# The feed server

A pull with the queries that it makes: the listing, or one receipt after the other for
an allow-list, and for each receipt those of its export. What goes wrong is printed
there; the caller is told the status only. Sequence numbers and emission times are
natural numbers, as in the feed of a single step.
-/
namespace Piteka.FeedServer

set_option autoImplicit false

open Piteka.Interleaving Piteka.Interleaving.Program Piteka.Storage Piteka.Application
open Piteka.Api (ReadCall ReadAnswer ReadPath ReadCase query queryIds exported)

abbrev FeedCase (α : Type) := ReadCase StatusCode α

/-- `map_err` to the status of a server error. -/
def serverError (_ : StorageError) : StatusCode := .internalServerError

/-- The receipts of an allow-list; every one of them must be stored. -/
def loadReceipts : List String → FeedCase (List Listing)
  | [] => return []
  | id :: ids => do
    match ← query serverError (.receipts (.get id)) with
    | none => throw .internalServerError
    | some receipt => do
      let pairs ← loadReceipts ids
      return (id, receipt.createdAtUnixSeconds) :: pairs

def currentReceipts (state : FeedState) : FeedCase (List Listing) :=
  match state.allowList with
  | some ids => do
    let pairs ← loadReceipts ids
    return pairs.insertionSort byteOrder.Le
  | none => queryIds serverError state.collation

section
variable (cd : Codec) (state : FeedState)

def buildExports (exports : List SignedPitekaExport) (lastEmitted : Nat) :
    List Listing → FeedCase (List SignedPitekaExport)
  | [] => return exports
  | (receiptId, createdAt) :: ordered => do
    match ← exported cd receiptId with
    -- a receipt that does not export is skipped, whatever the reason
    | .error _ => buildExports exports lastEmitted ordered
    | .ok payload =>
      let emittedAt := max createdAt.toInt.toNat (lastEmitted + 1)
      let signed := state.signedExport cd (exports.length + 1) receiptId emittedAt payload
      buildExports (exports ++ [signed]) emittedAt ordered

/-- The page of the exports that is asked for. -/
def page (exports : List SignedPitekaExport) (q : FeedQuery) : PitekaFeedPage :=
  let selected := (exports.filter fun e => q.afterSequence < e.sequence).take q.limit
  { schemaVersion := 1
    exports := selected
    nextSequence := (selected.getLast?.map (·.sequence)).getD q.afterSequence }

def serveFeed (authorization : Option String) (q : FeedQuery) : FeedCase PitekaFeedPage := do
  if presentedToken authorization ≠ some state.bearerToken then throw .unauthorized
  else if q.limit = 0 ∨ 1024 < q.limit then throw .badRequest
  else
    let ordered ← currentReceipts state
    let exports ← buildExports cd state [] 0 ordered
    return page exports q

end

/-! ## Paths -/

section
variable {cd : Codec} {state : FeedState} {h : ReadPath} {op : ReadCall}

theorem loadReceipts_next {ids : List String} (hn : Next (loadReceipts ids).run h op) : op.Reads := by
  induction ids generalizing h with
  | nil => exact absurd hn next_pure
  | cons id ids ih =>
    rcases Api.next_query.mp hn with ⟨_, rfl⟩ | ⟨o, t, rfl, h1⟩
    · exact .receipt id
    cases o with
    | none => exact absurd h1 next_ret
    | some receipt =>
      rcases next_seq h1 with h2 | ⟨_, _, _, rfl, _, h2⟩
      · exact ih h2
      · exact absurd h2 next_pure

theorem currentReceipts_next (hn : Next (currentReceipts state).run h op) : op.Reads := by
  rw [currentReceipts] at hn
  split at hn
  · rcases next_seq hn with h1 | ⟨_, _, _, rfl, _, h1⟩
    · exact loadReceipts_next h1
    · exact absurd h1 next_pure
  · rw [Api.queryIds_next hn]
    exact .listing state.collation

theorem buildExports_next {ordered : List Listing} {exports : List SignedPitekaExport} {lastEmitted : Nat}
    (hn : Next (buildExports cd state exports lastEmitted ordered).run h op) : op.Reads := by
  induction ordered generalizing h exports lastEmitted with
  | nil => exact absurd hn next_pure
  | cons x ordered ih =>
    rcases next_seq hn with h1 | ⟨_, _, r, rfl, _, h1⟩
    · exact Api.exported_next h1
    · cases r <;> exact ih h1

/-- A pull only reads. -/
theorem serveFeed_next {authorization : Option String} {q : FeedQuery}
    (hn : Next (serveFeed cd state authorization q).run h op) : op.Reads := by
  rw [serveFeed] at hn
  split at hn
  · exact absurd hn next_ret
  split at hn
  · exact absurd hn next_ret
  rcases next_seq hn with h1 | ⟨_, _, ordered, rfl, _, h1⟩
  · exact currentReceipts_next h1
  rcases next_seq h1 with h2 | ⟨_, _, exports, rfl, _, h2⟩
  · exact buildExports_next h2
  · exact absurd h2 next_pure

end

/-! ## A pull alone -/

/-- A query that is answered from the stores. -/
def ReadExec (rt : Runtime) (s : Stores) : (op : ReadCall) → ReadAnswer op → Stores → Prop
  | .inl op, a, s' => Exec rt noFaults s op a s'
  | .inr (.listIdsOrdered collation), a, s' => a = .ok (Application.listIdsOrdered collation s) ∧ s' = s

section
variable {cd : Codec} {rt : Runtime} {state : FeedState} {s s' : Stores} {ε : Type}

theorem query_eval {wrap : StorageError → ε} {c : StoreCall} {x : c.Ok}
    (hrun : ∀ order, c.run rt order s = (.ok x, s)) {r : Except ε c.Ok} :
    (query wrap c).run.Eval (ReadExec rt) s r s' ↔ r = .ok x ∧ s' = s := by
  constructor
  · rintro ⟨a, t, ⟨order, hx⟩ | ⟨hfault, _⟩, he⟩
    · rw [hrun order] at hx
      obtain ⟨rfl, rfl⟩ := Prod.mk.inj hx
      exact he
    · exact absurd hfault id
  · rintro ⟨rfl, rfl⟩
    exact ⟨.ok x, s', Or.inl ⟨.asListed, hrun .asListed⟩, rfl, rfl⟩

theorem queryIds_eval {wrap : StorageError → ε} {collation : Collation} {r : Except ε (List Listing)} :
    (queryIds wrap collation).run.Eval (ReadExec rt) s r s' ↔
      r = .ok (Application.listIdsOrdered collation s) ∧ s' = s := by
  constructor
  · rintro ⟨_, _, ⟨rfl, rfl⟩, he⟩
    exact he
  · rintro ⟨rfl, rfl⟩
    exact ⟨_, _, ⟨rfl, rfl⟩, rfl, rfl⟩

theorem exported_eval {id : String} {r : Except ε (Except BundleExportError (Array UInt8))} :
    (exported cd id).run.Eval (ReadExec cd.toRuntime) s r s' ↔
      r = .ok ((caseFile s id).map (CaseFile.bytes cd)) ∧ s' = s := by
  refine eval_bind.trans ⟨?_, ?_⟩
  · rintro ⟨x, t, hx, rfl, rfl⟩
    obtain ⟨rfl, rfl⟩ := exportManifestBytes_eval.mp ((eval_lift fun _ _ _ _ => Iff.rfl).mp hx)
    exact ⟨rfl, rfl⟩
  · rintro ⟨rfl, rfl⟩
    exact ⟨_, s', (eval_lift fun _ _ _ _ => Iff.rfl).mpr (exportManifestBytes_eval.mpr ⟨rfl, rfl⟩), rfl, rfl⟩

/-- What is printed of an error, and the status that is answered. -/
def status {α : Type} (r : Except String α) : Except StatusCode α := r.mapError fun _ => .internalServerError

theorem loadReceipts_eval {ids : List String} {r : Except StatusCode (List Listing)} :
    (loadReceipts ids).run.Eval (ReadExec rt) s r s' ↔ r = status (Application.loadReceipts s ids) ∧ s' = s := by
  induction ids generalizing r s' with
  | nil => exact eval_pure
  | cons id ids ih =>
    have hget : ∀ order, (StoreCall.receipts (.get id)).run rt order s = (.ok (s.receipt id), s) := fun _ => rfl
    unfold loadReceipts
    rw [eval_seq_ok (query_eval hget), Application.loadReceipts]
    cases s.receipt id with
    | none => exact eval_throw
    | some receipt =>
      dsimp only
      cases hload : Application.loadReceipts s ids with
      | error e =>
        rw [eval_seq_error fun {r s'} => by rw [ih, hload]; exact Iff.rfl]
        exact Iff.rfl
      | ok pairs =>
        rw [eval_seq_ok fun {r s'} => by rw [ih, hload]; exact Iff.rfl]
        exact eval_pure

theorem currentReceipts_eval {r : Except StatusCode (List Listing)} :
    (currentReceipts state).run.Eval (ReadExec rt) s r s' ↔ r = status (state.currentReceipts s) ∧ s' = s := by
  unfold currentReceipts FeedState.currentReceipts
  cases state.allowList with
  | none => exact queryIds_eval
  | some ids =>
    dsimp only
    cases hload : Application.loadReceipts s ids with
    | error e =>
      rw [eval_seq_error fun {r s'} => by rw [loadReceipts_eval, hload]; exact Iff.rfl]
      exact Iff.rfl
    | ok pairs =>
      rw [eval_seq_ok fun {r s'} => by rw [loadReceipts_eval, hload]; exact Iff.rfl]
      exact eval_pure

theorem buildExports_eval {ordered : List Listing} {exports : List SignedPitekaExport} {lastEmitted : Nat}
    {r : Except StatusCode (List SignedPitekaExport)} :
    (buildExports cd state exports lastEmitted ordered).run.Eval (ReadExec cd.toRuntime) s r s' ↔
      r = .ok (state.buildExports cd s exports lastEmitted ordered) ∧ s' = s := by
  induction ordered generalizing exports lastEmitted r s' with
  | nil => exact eval_pure
  | cons x ordered ih =>
    obtain ⟨receiptId, createdAt⟩ := x
    unfold buildExports
    rw [eval_seq_ok exported_eval, FeedState.buildExports]
    cases (caseFile s receiptId).map (CaseFile.bytes cd) with
    | error e => exact ih
    | ok payload => exact ih

/-- Alone, a pull of the server is the pull of a single step. -/
theorem serveFeed_eval {authorization : Option String} {q : FeedQuery} {r : Except StatusCode PitekaFeedPage} :
    (serveFeed cd state authorization q).run.Eval (ReadExec cd.toRuntime) s r s' ↔
      r = Application.serveFeed cd state s authorization q ∧ s' = s := by
  unfold serveFeed Application.serveFeed
  split
  · exact eval_throw
  split
  · exact eval_throw
  rw [FeedState.exports]
  cases hcurrent : state.currentReceipts s with
  | error e =>
    rw [eval_seq_error fun {r s'} => by rw [currentReceipts_eval, hcurrent]; exact Iff.rfl]
    exact Iff.rfl
  | ok ordered =>
    rw [eval_seq_ok fun {r s'} => by rw [currentReceipts_eval, hcurrent]; exact Iff.rfl,
      eval_seq_ok buildExports_eval]
    exact eval_pure

/-- A pull whose queries are all answered as from the stores `s` returns what it does there alone. -/
theorem serveFeed_answered {authorization : Option String} {q : FeedQuery} {h : ReadPath}
    {r : Except StatusCode PitekaFeedPage} (hr : Returns (serveFeed cd state authorization q).run h r)
    (hx : ∀ d ∈ h, ReadExec cd.toRuntime s d.1 d.2 s) : r = Application.serveFeed cd state s authorization q := by
  exact (serveFeed_eval.mp (eval_iff_returns.mpr ⟨h, hr, steps_same hx⟩)).1

end

/-! ## What a pull asks for -/

section
variable {cd : Codec} {state : FeedState} {p : Path} {c : PortCall}

theorem readNodes_asks {ids : List String} (hn : Next (readNodes ids).run p c) :
    ∃ id ∈ ids, c = .store (.evidenceNodes (.get id)) := by
  induction ids generalizing p with
  | nil => exact absurd hn next_pure
  | cons id ids ih =>
    unfold readNodes at hn
    rcases next_await.mp hn with ⟨_, rfl⟩ | ⟨o, t, rfl, h1⟩
    · exact ⟨id, List.mem_cons_self, rfl⟩
    cases o with
    | none =>
      rcases next_seq h1 with h2 | ⟨_, _, _, _, _, h2⟩
      · obtain ⟨id', hid, hc⟩ := ih h2
        exact ⟨id', List.mem_cons_of_mem id hid, hc⟩
      · exact absurd h2 next_pure
    | some node =>
      rcases next_seq h1 with h2 | ⟨_, _, _, _, _, h2⟩
      · obtain ⟨id', hid, hc⟩ := ih h2
        exact ⟨id', List.mem_cons_of_mem id hid, hc⟩
      · exact absurd h2 next_pure

theorem fetchNodes_asks {ids : List String} (hn : Next (fetchNodes ids).run p c) :
    ∃ id ∈ ids, c = .store (.evidenceNodes (.get id)) := by
  unfold fetchNodes at hn
  rcases next_seq hn with h1 | ⟨_, _, _, _, _, h1⟩
  · exact readNodes_asks h1
  · split at h1
    · exact absurd h1 next_pure
    · exact absurd h1 next_throw

/-- A case file asks for its receipt, and then for the nodes that the receipt refers to. -/
theorem readCase_asks {id : String} (hn : Next (readCase id).run p c) :
    c = .store (.receipts (.get id)) ∨ ∃ q, did (.receipts (.get id)) (some q) ∈ p ∧
      ∃ node ∈ references q, c = .store (.evidenceNodes (.get node)) := by
  unfold readCase at hn
  rcases next_await.mp hn with ⟨_, rfl⟩ | ⟨o, t, rfl, h1⟩
  · exact Or.inl rfl
  cases o with
  | none => exact absurd h1 next_throw
  | some q =>
    refine Or.inr ⟨q, List.mem_cons_self, ?_⟩
    rw [references]
    rcases next_seq h1 with h2 | ⟨_, _, _, _, _, h2⟩
    · obtain ⟨node, hnode, hc⟩ := fetchNodes_asks h2
      exact ⟨node, by simp [hnode], hc⟩
    rcases next_seq h2 with h3 | ⟨_, _, _, _, _, h3⟩
    · obtain ⟨node, hnode, hc⟩ := fetchNodes_asks h3
      exact ⟨node, by simp [hnode], hc⟩
    rcases next_seq h3 with h4 | ⟨_, _, _, _, _, h4⟩
    · obtain ⟨node, hnode, hc⟩ := fetchNodes_asks h4
      exact ⟨node, by simp [hnode], hc⟩
    · exact absurd h4 next_pure

/-- What is asked for behind the listing `ids`, after the queries `h`. -/
inductive Asks (ids : List Listing) (h : ReadPath) : ReadCall → Prop
  | receipt {x : Listing} (hx : x ∈ ids) : Asks ids h (.inl (.store (.receipts (.get x.1))))
  | node {id : String} {q : ReceiptProjection} (hread : onLeft (did (.receipts (.get id)) (some q)) ∈ h)
      {node : String} (hnode : node ∈ references q) : Asks ids h (.inl (.store (.evidenceNodes (.get node))))

theorem Asks.mono {ids ids' : List Listing} {h h' : ReadPath} {op : ReadCall} (hasks : Asks ids h op)
    (hids : ∀ x ∈ ids, x ∈ ids') (hsub : ∀ d ∈ h, d ∈ h') : Asks ids' h' op := by
  cases hasks with
  | receipt hx => exact .receipt (hids _ hx)
  | node hread hnode => exact .node (hsub _ hread) hnode

theorem buildExports_asks {ordered : List Listing} {exports : List SignedPitekaExport} {lastEmitted : Nat}
    {h : ReadPath} {op : ReadCall} (hn : Next (buildExports cd state exports lastEmitted ordered).run h op) :
    Asks ordered h op := by
  induction ordered generalizing h exports lastEmitted with
  | nil => exact absurd hn next_pure
  | cons x ordered ih =>
    rcases next_seq hn with h1 | ⟨h₁, h₂, r, rfl, _, h1⟩
    · rcases next_bind h1 with h2 | ⟨_, _, _, _, _, h2⟩
      · obtain ⟨p, c, rfl, rfl, h3⟩ := next_lift.mp h2
        rw [exportManifestBytes_eq] at h3
        rcases next_seq h3 with h4 | ⟨_, _, _, _, _, h4⟩
        · rcases readCase_asks h4 with rfl | ⟨q, hq, node, hnode, rfl⟩
          · exact .receipt List.mem_cons_self
          · exact .node (List.mem_map_of_mem hq) hnode
        · exact absurd h4 next_pure
      · exact absurd h2 next_ret
    · have hasks : Asks ordered h₂ op := by
        cases r with
        | error e => exact ih h1
        | ok payload => exact ih h1
      exact hasks.mono (fun _ hx => List.mem_cons_of_mem x hx) fun _ hd => List.mem_append_right _ hd

/-- A pull of all receipts begins with the listing. -/
theorem returns_serveFeed (hall : state.allowList = none) {authorization : Option String} {q : FeedQuery}
    {h : ReadPath} {out : PitekaFeedPage} (hr : Returns (serveFeed cd state authorization q).run h (.ok out)) :
    ∃ ids t exports, h = ⟨.inr (.listIdsOrdered state.collation), .ok ids⟩ :: t ∧
      Returns (buildExports cd state [] 0 ids).run t (.ok exports) ∧ out = page exports q := by
  rw [serveFeed] at hr
  split at hr
  · cases (returns_ret.mp hr).2
  split at hr
  · cases (returns_ret.mp hr).2
  rw [currentReceipts, hall] at hr
  rcases returns_seq hr with ⟨_, _, he⟩ | ⟨h₁, h₂, ids, rfl, hlisted, h1⟩
  · cases he
  rcases returns_seq h1 with ⟨_, _, he⟩ | ⟨h₃, h₄, exports, rfl, h2, h3⟩
  · cases he
  obtain ⟨rfl, hout⟩ := returns_pure.mp h3
  rw [Api.returns_queryIds hlisted, List.append_nil]
  exact ⟨ids, h₃, exports, rfl, h2, Except.ok.inj hout⟩

end

/-! ## Queries that fail -/

section
variable {cd : Codec} {state : FeedState} {s : Stores}

theorem readNodes_failsFast (ids : List String) : FailsFast (readNodes ids) := by
  induction ids with
  | nil => exact failsFast_pure
  | cons id ids ih =>
    refine failsFast_await.seq fun o => ?_
    cases o with
    | none => exact ih.seq fun _ => failsFast_pure
    | some node => exact ih.seq fun _ => failsFast_pure

theorem fetchNodes_failsFast (ids : List String) : FailsFast (fetchNodes ids) := by
  refine (readNodes_failsFast ids).seq fun found => ?_
  split
  · exact failsFast_pure
  · exact failsFast_throw

theorem exportManifestBytes_failsFast (cd : Codec) (id : String) : FailsFast (exportManifestBytes cd id) := by
  refine failsFast_await.seq fun o => ?_
  cases o with
  | none => exact failsFast_throw
  | some receipt =>
    exact (fetchNodes_failsFast _).seq fun _ => (fetchNodes_failsFast _).seq fun _ =>
      (fetchNodes_failsFast _).seq fun _ => failsFast_pure

/-- Each export behind the given ones carries what was exported for its receipt on the path. -/
theorem buildExports_payloads {ordered : List Listing} {exports out : List SignedPitekaExport}
    {lastEmitted : Nat} {h : ReadPath}
    (hr : Returns (buildExports cd state exports lastEmitted ordered).run h (.ok out)) :
    ∀ e ∈ out, e ∈ exports ∨ ∃ h', (∀ d ∈ h', d ∈ h) ∧
      Returns (exported cd e.exportId : FeedCase _).run h' (.ok (.ok e.payload)) := by
  induction ordered generalizing exports lastEmitted h with
  | nil =>
    obtain ⟨_, hout⟩ := returns_pure.mp hr
    obtain rfl := Except.ok.inj hout
    exact fun e he => Or.inl he
  | cons x ordered ih =>
    rcases returns_seq hr with ⟨_, _, he⟩ | ⟨h₁, h₂, r, rfl, h1, h2⟩
    · cases he
    cases r with
    | error err =>
      intro e he
      rcases ih h2 e he with hold | ⟨h', hsub, hexport⟩
      · exact Or.inl hold
      · exact Or.inr ⟨h', fun d hd => List.mem_append_right _ (hsub d hd), hexport⟩
    | ok payload =>
      intro e he
      rcases ih h2 e he with hmem | ⟨h', hsub, hexport⟩
      · rcases List.mem_append.mp hmem with hold | hnew
        · exact Or.inl hold
        · obtain rfl := List.mem_singleton.mp hnew
          exact Or.inr ⟨h₁, fun d hd => List.mem_append_left _ hd, h1⟩
      · exact Or.inr ⟨h', fun d hd => List.mem_append_right _ (hsub d hd), hexport⟩

/-- What is served has been exported on the path. -/
theorem serveFeed_payloads {authorization : Option String} {q : FeedQuery} {h : ReadPath}
    {out : PitekaFeedPage} (hr : Returns (serveFeed cd state authorization q).run h (.ok out)) :
    ∀ e ∈ out.exports, ∃ h', (∀ d ∈ h', d ∈ h) ∧
      Returns (exported cd e.exportId : FeedCase _).run h' (.ok (.ok e.payload)) := by
  rw [serveFeed] at hr
  split at hr
  · cases (returns_ret.mp hr).2
  split at hr
  · cases (returns_ret.mp hr).2
  rcases returns_seq hr with ⟨_, _, he⟩ | ⟨h₁, h₂, ids, rfl, _, h1⟩
  · cases he
  rcases returns_seq h1 with ⟨_, _, he⟩ | ⟨h₃, h₄, exports, rfl, h2, h3⟩
  · cases he
  obtain ⟨_, hout⟩ := returns_pure.mp h3
  obtain rfl := Except.ok.inj hout
  intro e he
  have hmem : e ∈ exports := (List.mem_filter.mp (List.mem_of_mem_take he)).1
  rcases buildExports_payloads h2 e hmem with hnone | ⟨h', hsub, hexport⟩
  · cases hnone
  · exact ⟨h', fun d hd => List.mem_append_right _ (List.mem_append_left _ (hsub d hd)), hexport⟩

/-- What the stores answer on the path without an error, they answer as from `s`. -/
def AnsweredFrom (rt : Runtime) (s : Stores) (h : ReadPath) : Prop :=
  ∀ (sc : StoreCall) (x : sc.Ok), (⟨.inl (.store sc), .ok x⟩ : (op : ReadCall) × ReadAnswer op) ∈ h →
    ∃ order, sc.run rt order s = (.ok x, s)

/-- A manifest that is exported is that of the case file in `s`. -/
theorem exported_answered {id : String} {h : ReadPath} {payload : Array UInt8}
    (hr : Returns (exported cd id : FeedCase _).run h (.ok (.ok payload)))
    (hx : AnsweredFrom cd.toRuntime s h) : (caseFile s id).map (CaseFile.bytes cd) = .ok payload := by
  obtain ⟨p, rfl, hp⟩ := Api.returns_exported hr
  have hsteps : Steps (Exec cd.toRuntime noFaults) s p s := by
    refine steps_same fun d hd => ?_
    obtain ⟨p₁, p₂, rfl⟩ := List.append_of_mem hd
    have hread := exportManifestBytes_next (next_of_returns hp)
    obtain ⟨op, a⟩ := d
    obtain ⟨sc, rfl⟩ : ∃ sc, op = .store sc := by
      cases hread with
      | receipt id => exact ⟨_, rfl⟩
      | node id => exact ⟨_, rfl⟩
    cases a with
    | error e => cases (exportManifestBytes_failsFast cd id _ _ _ _ _ hp).2
    | ok x => exact Or.inl (hx sc x (List.mem_map_of_mem hd))
  exact (exportManifestBytes_eval.mp (eval_iff_returns.mpr ⟨p, hp, hsteps⟩)).1.symm

/-- The exports are those of some of the listed receipts; the others have not been exported. -/
theorem buildExports_selects {ordered : List Listing} {exports out : List SignedPitekaExport}
    {lastEmitted : Nat} {h : ReadPath}
    (hr : Returns (buildExports cd state exports lastEmitted ordered).run h (.ok out))
    (hx : AnsweredFrom cd.toRuntime s h) :
    ∃ chosen, chosen.Sublist ordered ∧ out = state.buildExports cd s exports lastEmitted chosen := by
  induction ordered generalizing exports lastEmitted h with
  | nil =>
    obtain ⟨_, hout⟩ := returns_pure.mp hr
    exact ⟨[], .slnil, Except.ok.inj hout⟩
  | cons x ordered ih =>
    rcases returns_seq hr with ⟨_, _, he⟩ | ⟨h₁, h₂, r, rfl, h1, h2⟩
    · cases he
    have hx₂ : AnsweredFrom cd.toRuntime s h₂ := fun sc y hy => hx sc y (List.mem_append_right _ hy)
    cases r with
    | error e =>
      obtain ⟨chosen, hsub, hout⟩ := ih h2 hx₂
      exact ⟨chosen, hsub.cons x, hout⟩
    | ok payload =>
      have hcase := exported_answered h1 fun sc y hy => hx sc y (List.mem_append_left _ hy)
      obtain ⟨chosen, hsub, hout⟩ := ih h2 hx₂
      refine ⟨x :: chosen, hsub.cons_cons x, ?_⟩
      rw [hout, FeedState.buildExports, hcase]

end

end Piteka.FeedServer
