import Piteka.Api.ActionRequests
import Piteka.Application.ActionRequestPaths
import Piteka.Application.System
import Piteka.Storage.Steps

/-!
# Refused and carried-out calls

A mutating call is refused by its body, by the status that it reads, or by the
swap, and then changes nothing (`refusal`, from the states in which its own calls
are made). A call that is not refused changes the stores, and its response is none
that a refusal of the same mutation gives.
-/
namespace Piteka.Api

set_option autoImplicit false

open Piteka.Interleaving Piteka.Interleaving.Program Piteka.Storage Piteka.Application

/-- The status change of an approval, a rejection or a revocation. -/
structure StatusChange where
  verb : String
  required : ActionRequestStatus
  target : ActionRequestStatus
  requestId : String
  expectedVersion : Int64

namespace StatusChange

def atRead (x : StatusChange) (s : Stores) : Option ActionRequestUseCaseError :=
  match s.request x.requestId with
  | none => some (.notFound x.requestId)
  | some q => if q.status ≠ x.required then some (.invalidTransition q.status x.verb) else none

def atSwap (x : StatusChange) (s : Stores) : Option ActionRequestUseCaseError :=
  match s.request x.requestId with
  | none => some (.notFound x.requestId)
  | some _ =>
    if s.requestVersion x.requestId ≠ x.expectedVersion then
      some (.conflict x.expectedVersion (s.requestVersion x.requestId))
    else none

/-- The error of the status check in the first state, or of the swap in the second. -/
def refusal (x : StatusChange) : List Stores → Option ActionRequestUseCaseError
  | [] => none
  | s :: states =>
    match x.atRead s with
    | some e => some e
    | none =>
      match states with
      | [] => none
      | s' :: _ => x.atSwap s'

end StatusChange

/-- The error of an insertion under the id in the first state. -/
def insertRefusal (requestId : String) : List Stores → Option StorageError
  | [] => none
  | s :: _ =>
    if requestId = "" then some (.emptyField "request_id")
    else
      match s.request requestId with
      | some _ => some (.backend ("action request `" ++ requestId ++ "` already exists"))
      | none => none

namespace Mutation

def change : Mutation → Option StatusChange
  | .propose _ => none
  | .approve requestId body => some ⟨"approve", .pending, .approved, requestId, body.version⟩
  | .reject requestId body => some ⟨"reject", .pending, .rejected, requestId, body.version⟩
  | .revoke requestId body => some ⟨"revoke", .approved, .revoked, requestId, body.version⟩

/-- The response to a body without a user. -/
def badBody : Mutation → Option Response
  | .propose body => if body.requestedBy = "" then some emptyRequestedBy else none
  | .approve _ body => if body.approverId = "" then some emptyApproverId else none
  | .reject _ body => if body.approverId = "" then some emptyApproverId else none
  | .revoke _ body => if body.approverId = "" then some emptyApproverId else none

end Mutation

/-- The response with which the checks of the call refuse it, given the states in which its own
calls are made. The first of them reads the clock. -/
def ApiCall.refusal (c : ApiCall) (states : List Stores) : Option Response :=
  match c.mutation.badBody with
  | some response => some response
  | none =>
    match c.mutation.change with
    | some x => (x.refusal states.tail).map fun e => (ApiError.ofUseCase e).intoResponse
    | none => (insertRefusal c.drawn states.tail).map fun e => (ApiError.ofStorage e).intoResponse

/-- The statuses with which a status change is refused. -/
def RefusalStatus (e : ActionRequestUseCaseError) : Prop :=
  (ApiError.ofUseCase e).intoResponse.status = 404 ∨
    (ApiError.ofUseCase e).intoResponse.status = 409

namespace StatusChange
variable {x : StatusChange} {s : Stores} {e : ActionRequestUseCaseError}

theorem status_atRead (h : x.atRead s = some e) : RefusalStatus e := by
  unfold atRead at h
  split at h
  · obtain rfl := Option.some.inj h
    exact Or.inl rfl
  · split at h
    · obtain rfl := Option.some.inj h
      exact Or.inr rfl
    · cases h

theorem status_atSwap (h : x.atSwap s = some e) : RefusalStatus e := by
  unfold atSwap at h
  split at h
  · obtain rfl := Option.some.inj h
    exact Or.inl rfl
  · split at h
    · obtain rfl := Option.some.inj h
      exact Or.inr rfl
    · cases h

theorem status_refusal {states : List Stores} (h : x.refusal states = some e) :
    RefusalStatus e := by
  unfold refusal at h
  split at h
  · cases h
  · split at h
    · next hread =>
      obtain rfl := Option.some.inj h
      exact status_atRead hread
    · split at h
      · cases h
      · exact status_atSwap h

end StatusChange

theorem status_ofStorage (e : StorageError) :
    (ApiError.ofStorage e).intoResponse.status = 400 ∨
      (ApiError.ofStorage e).intoResponse.status = 500 := by
  cases e with
  | immutableViolation => exact Or.inr rfl
  | evidenceDigestMismatch => exact Or.inr rfl
  | emptyField => exact Or.inl rfl
  | backend => exact Or.inr rfl

/-! ## The calls of one caller -/

section
variable {ι : Type} {rt : Runtime} {es : List (Event ι)}

/-- The entries have been executed by stores that do not fail. -/
def Executed (rt : Runtime) (es : List (Event ι)) : Prop :=
  ∀ e ∈ es, Exec rt noFaults e.before e.call.1 e.call.2 e.after

/-- No entry changes the stores. -/
def Unchanged (es : List (Event ι)) : Prop := ∀ e ∈ es, e.after = e.before

theorem version_moves (v : Int64) : v + 1 ≠ v := by
  intro h
  have hone : (1 : Int64) = 0 := by
    calc (1 : Int64) = v + 1 - v := by rw [Int64.add_comm, Int64.add_sub_cancel]
      _ = 0 := by rw [h, Int64.sub_self]
  exact absurd hone (by decide)

/-- What the head of the caller's entries has executed. -/
theorem Executed.head {e : Event ι} {op : PortCall} {a : Answer op} (hx : Executed rt (e :: es))
    (hc : e.call = ⟨op, a⟩) : Exec rt noFaults e.before op a e.after := by
  have h := hx e List.mem_cons_self
  rw [hc] at h
  exact h

theorem Executed.tail {e : Event ι} (hx : Executed rt (e :: es)) : Executed rt es :=
  fun f hf => hx f (List.mem_cons_of_mem e hf)

/-- A read with the required status is not refused. -/
theorem atRead_of_required {x : StatusChange} {s s' : Stores} {q : ActionRequest}
    (hx : Exec rt noFaults s (.store (.requests (.get x.requestId))) (.ok (some q)) s')
    (hq : q.status = x.required) : x.atRead s = none := by
  have hread := Except.ok.inj (request_get_noFaults hx).1
  simp [StatusChange.atRead, ← hread, hq]

theorem unchanged_nil : Unchanged ([] : List (Event ι)) := fun _ he => by cases he

theorem Unchanged.cons {e : Event ι} (he : e.after = e.before) (h : Unchanged es) :
    Unchanged (e :: es) := by
  intro f hf
  rcases List.mem_cons.mp hf with rfl | hf
  · exact he
  · exact h f hf

/-- The status check and the swap are refused without effect, or go on after a change. -/
theorem swapStatus_settled {x : StatusChange} {r : Except (Stopped ActionRequestUseCaseError) Int64}
    (hr : Returns (swapStatus x.verb x.required x.target x.requestId x.expectedVersion).run
      (es.map (·.call)) r) (hx : Executed rt es) :
    (∃ e, x.refusal (es.map (·.before)) = some e ∧ r = .error (.err e) ∧ Unchanged es) ∨
      (∃ w, r = .ok w) ∧ (∀ more, x.refusal (es.map (·.before) ++ more) = none) ∧
        ∃ e ∈ es, e.after ≠ e.before := by
  have hresult := swapStatus_returns hr
  generalize hh : es.map (·.call) = h at hresult
  -- Each way to return starts with the read, whose answer is the row of that state.
  cases hresult with
  | readFailed err =>
    obtain ⟨e, rfl, hc⟩ := List.map_eq_singleton_iff.mp hh
    cases (request_get_noFaults (hx.head hc)).1
  | notFound =>
    obtain ⟨e, rfl, hc⟩ := List.map_eq_singleton_iff.mp hh
    obtain ⟨hread, hsame⟩ := request_get_noFaults (hx.head hc)
    refine Or.inl ⟨_, ?_, rfl, unchanged_nil.cons hsame⟩
    simp [StatusChange.refusal, StatusChange.atRead, ← Except.ok.inj hread]
  | invalidTransition q hq =>
    obtain ⟨e, rfl, hc⟩ := List.map_eq_singleton_iff.mp hh
    obtain ⟨hread, hsame⟩ := request_get_noFaults (hx.head hc)
    refine Or.inl ⟨_, ?_, rfl, unchanged_nil.cons hsame⟩
    simp [StatusChange.refusal, StatusChange.atRead, ← Except.ok.inj hread, hq]
  | swapFailed q hq err =>
    obtain ⟨e, es, rfl, _, hh⟩ := List.map_eq_cons_iff.mp hh
    obtain ⟨f, rfl, hf⟩ := List.map_eq_singleton_iff.mp hh
    obtain ⟨o, ho⟩ := request_swap_ok (hx.tail.head hf)
    cases ho
  | applied q hq w =>
    obtain ⟨e, es, rfl, hc, hh⟩ := List.map_eq_cons_iff.mp hh
    obtain ⟨f, rfl, hf⟩ := List.map_eq_singleton_iff.mp hh
    have hpass := atRead_of_required (hx.head hc) hq
    obtain ⟨q', hq', hv, _, _, hafter⟩ := request_applied (hx.tail.head hf)
    refine Or.inr ⟨⟨w, rfl⟩, fun more => ?_, f, by simp, fun hsame => ?_⟩
    · simp [StatusChange.refusal, hpass, StatusChange.atSwap, hq', hv]
    · rw [hsame, hv] at hafter
      exact version_moves _ hafter.symm
  | conflict q hq w =>
    obtain ⟨e, es, rfl, hc, hh⟩ := List.map_eq_cons_iff.mp hh
    obtain ⟨f, rfl, hf⟩ := List.map_eq_singleton_iff.mp hh
    have hpass := atRead_of_required (hx.head hc) hq
    obtain ⟨hsame, q', hq', hv, rfl⟩ := request_conflict (hx.tail.head hf)
    refine Or.inl ⟨_, ?_, rfl,
      (unchanged_nil.cons hsame).cons (request_get_noFaults (hx.head hc)).2⟩
    simp [StatusChange.refusal, hpass, StatusChange.atSwap, hq', hv]
  | missing q hq =>
    obtain ⟨e, es, rfl, hc, hh⟩ := List.map_eq_cons_iff.mp hh
    obtain ⟨f, rfl, hf⟩ := List.map_eq_singleton_iff.mp hh
    have hpass := atRead_of_required (hx.head hc) hq
    obtain ⟨hsame, hnone⟩ := request_missing (hx.tail.head hf)
    refine Or.inl ⟨_, ?_, rfl,
      (unchanged_nil.cons hsame).cons (request_get_noFaults (hx.head hc)).2⟩
    simp [StatusChange.refusal, hpass, StatusChange.atSwap, hnone]

/-- What becomes of a use case that changes a status, which begins with the clock: it is refused
without effect, or it changes the stores and can fail only with their errors. -/
inductive ChangeSettled {α : Type} (x : StatusChange) (es : List (Event ι))
    (r : Except (Stopped ActionRequestUseCaseError) α) : Prop
  | refused (e : ActionRequestUseCaseError) (href : x.refusal (es.map (·.before)).tail = some e)
      (hr : r = .error (.err e)) (hsame : Unchanged es)
  | carried (hpass : ∀ more, x.refusal ((es.map (·.before)).tail ++ more) = none)
      (hchange : ∃ e ∈ es, e.after ≠ e.before)
      (hr : ∀ e, r = .error (.err e) → ∃ err, e = .storage err)

/-- A use case that reads the clock, changes the status and goes on with `rest`. -/
theorem change_settled {α : Type} {x : StatusChange}
    {rest : Int64 → Int64 → ActionRequestUseCase α}
    {r : Except (Stopped ActionRequestUseCaseError) α}
    (hrest : ∀ now w h e, Returns (rest now w).run h (.error (.err e)) → ∃ err, e = .storage err)
    (hr : Returns (nowSeconds >>= fun now =>
      swapStatus x.verb x.required x.target x.requestId x.expectedVersion >>= rest now).run
      (es.map (·.call)) r) (hx : Executed rt es) : ChangeSettled x es r := by
  obtain ⟨t, h, hh, h1⟩ := returns_nowSeconds.mp hr
  obtain ⟨e, es, rfl, hc, rfl⟩ := List.map_eq_cons_iff.mp hh
  have hclock : e.after = e.before := hx.head hc
  rcases returns_seq h1 with ⟨err, h2, rfl⟩ | ⟨h₁, h₂, w, hh', h2, h3⟩
  · rcases swapStatus_settled h2 hx.tail with ⟨e', href, he, hsame⟩ | ⟨⟨w, hw⟩, _⟩
    · obtain rfl := Except.error.inj he
      exact .refused e' href rfl (hsame.cons hclock)
    · cases hw
  obtain ⟨es₁, es₂, rfl, rfl, rfl⟩ := List.map_eq_append_iff.mp hh'
  have hx₁ : Executed rt es₁ := fun f hf => hx.tail f (List.mem_append_left _ hf)
  rcases swapStatus_settled h2 hx₁ with ⟨e', _, he, _⟩ | ⟨_, hpass, f, hf, hchange⟩
  · cases he
  refine .carried (fun more => ?_) ⟨f, ?_, hchange⟩ fun e' he => ?_
  · have := hpass (es₂.map (·.before) ++ more)
    simpa only [List.map_cons, List.tail_cons, List.map_append, List.append_assoc] using this
  · exact List.mem_cons_of_mem e (List.mem_append_left _ hf)
  · subst he
    exact hrest _ _ _ _ h3

theorem refreshed_error {r : String} {h : Path} {e : ActionRequestUseCaseError}
    (hr : Returns (refreshed r).run h (.error (.err e))) : ∃ err, e = .storage err := by
  rcases returns_await.mp hr with ⟨err, _, he⟩ | ⟨q, t, _, h1⟩
  · cases he
    exact ⟨err, rfl⟩
  · cases q with
    | none => cases (returns_throw.mp h1).2
    | some q => cases (returns_pure.mp h1).2

theorem recordDecision_error {d : ApprovalDecision} {event : AuditEvent} {h : Path}
    {e : ActionRequestUseCaseError}
    (hr : Returns (recordDecision d event).run h (.error (.err e))) : ∃ err, e = .storage err := by
  rcases returns_await.mp hr with ⟨err, _, he⟩ | ⟨_, t, _, h1⟩
  · cases he
    exact ⟨err, rfl⟩
  rcases returns_await.mp h1 with ⟨err, _, he⟩ | ⟨_, t, _, h2⟩
  · cases he
    exact ⟨err, rfl⟩
  exact refreshed_error h2

/-- Reading a value behind a use case adds no error. -/
theorem pure_error {α β : Type} {p : ActionRequestUseCase α} {f : α → β} {h : Path}
    {e : Stopped ActionRequestUseCaseError}
    (hr : Returns (p >>= fun a => (pure (f a) : ActionRequestUseCase β)).run h (.error e)) :
    Returns p.run h (.error e) := by
  rcases returns_seq hr with ⟨e', h1, he⟩ | ⟨h₁, h₂, a, _, _, h2⟩
  · rw [Except.error.inj he]
    exact h1
  · cases (returns_pure.mp h2).2

/-- What becomes of a call: it is refused without effect, or it changes the stores and its response
has none of the statuses of a refusal. -/
inductive Settled (c : ApiCall) (es : List (Event ι)) (r : ApiResult) : Prop
  | refused (response : Response) (href : c.refusal (es.map (·.before)) = some response)
      (hr : r = .ok response) (hsame : Unchanged es)
  | carried (href : c.refusal (es.map (·.before)) = none) (hchange : ∃ e ∈ es, e.after ≠ e.before)
      (hr : ∀ (c' : ApiCall) states response, c'.mutation = c.mutation →
        c'.refusal states = some response → r ≠ .ok response)

theorem status_shown (e : StorageError) {response : Response}
    (h : (ApiError.ofStorage e).intoResponse = response) :
    response.status ≠ 404 ∧ response.status ≠ 409 := by
  subst h
  rcases status_ofStorage e with hs | hs <;> simp [hs]

/-- A carried-out change is answered with none of the statuses of a refusal. -/
theorem settle_status {α : Type} {a : Except (Stopped ActionRequestUseCaseError) α}
    {requestId : String} {request : α → ActionRequest} {h : Path} {response : Response}
    (ha : ∀ e, a = .error (.err e) → ∃ err, e = .storage err)
    (hr : Returns (settle (fun changed => .call (.store (.decisions (.byRequest requestId)))
      (showDecided (request changed))) a) h (.ok response)) :
    response.status ≠ 404 ∧ response.status ≠ 409 := by
  cases a with
  | error stopped =>
    cases stopped with
    | err e =>
      obtain ⟨err, rfl⟩ := ha e rfl
      exact status_shown err (Except.ok.inj (returns_ret.mp hr).2).symm
    | panicked message => cases (returns_ret.mp hr).2
  | ok x =>
    obtain ⟨d, t, _, h1⟩ := returns_call.mp hr
    cases d with
    | error err => exact status_shown err (Except.ok.inj (returns_ret.mp h1).2).symm
    | ok decisions =>
      obtain rfl := Except.ok.inj (returns_ret.mp h1).2
      simp [shown]

theorem changeActionRequest_settled {α : Type} {c : ApiCall} {x : StatusChange}
    {requestId approverId : String} {useCase : Domain.UserId → ActionRequestUseCase α}
    {request : α → ActionRequest} {r : ApiResult} (hc : c.mutation.change = some x)
    (hbody : c.mutation.badBody = if approverId = "" then some emptyApproverId else none)
    (hsettled : ∀ {es : List (Event ι)} {a},
      Returns (useCase (userIdOf approverId)).run (es.map (·.call)) a → Executed rt es →
      ChangeSettled x es a)
    (hr : Returns (changeActionRequest requestId approverId useCase request) (es.map (·.call)) r)
    (hx : Executed rt es) : Settled c es r := by
  unfold changeActionRequest at hr
  by_cases hempty : approverId = ""
  · rw [if_pos hempty] at hr hbody
    obtain ⟨hnil, rfl⟩ := returns_ret.mp hr
    obtain rfl := List.map_eq_nil_iff.mp hnil
    exact .refused emptyApproverId (by simp [ApiCall.refusal, hbody]) rfl unchanged_nil
  rw [if_neg hempty] at hr hbody
  obtain ⟨h₁, h₂, a, hh, h1, h2⟩ := returns_bind hr
  obtain ⟨es₁, es₂, rfl, rfl, rfl⟩ := List.map_eq_append_iff.mp hh
  have hx₁ : Executed rt es₁ := fun e he => hx e (List.mem_append_left _ he)
  cases hsettled h1 hx₁ with
  | refused e href ha hsame =>
    subst ha
    obtain ⟨hnil, rfl⟩ := returns_ret.mp h2
    obtain rfl := List.map_eq_nil_iff.mp hnil
    rw [List.append_nil]
    exact .refused _ (by simp [ApiCall.refusal, hbody, hc, href]) rfl hsame
  | carried hpass hchange ha =>
    obtain ⟨e, he, hne⟩ := hchange
    refine .carried ?_ ⟨e, List.mem_append_left _ he, hne⟩ ?_
    · have hmap : es₁.map (·.before) ≠ [] := by
        intro hnil
        rw [List.map_eq_nil_iff.mp hnil] at he
        cases he
      simp only [ApiCall.refusal, hbody, hc, List.map_append, List.tail_append_of_ne_nil hmap,
        hpass, Option.map_none]
    · intro c' states response hsame href hresponse
      obtain ⟨h404, h409⟩ := settle_status ha (hresponse ▸ h2)
      unfold ApiCall.refusal at href
      rw [hsame, hbody, hc] at href
      obtain ⟨e', he', rfl⟩ := Option.map_eq_some_iff.mp href
      rcases StatusChange.status_refusal he' with hs | hs
      · exact h404 hs
      · exact h409 hs

theorem insert_settled {s s' : Stores} {q : ActionRequest} {x : StorageResult Unit}
    (hx : Exec rt noFaults s (.store (.requests (.insert q))) x s') (more : List Stores) :
    (∃ e, insertRefusal q.requestId (s :: more) = some e ∧ x = .error e ∧ s' = s) ∨
      insertRefusal q.requestId (s :: more) = none ∧ x = .ok () ∧ s' ≠ s := by
  obtain ⟨order, hr⟩ := exec_noFaults hx
  cases x with
  | ok u =>
    obtain ⟨hnone, hafter, _⟩ := request_inserted hx
    have hne : q.requestId ≠ "" := by
      intro hempty
      simp only [StoreCall.run, InMemoryActionRequestStore.insert, hempty, if_true] at hr
      cases (Prod.mk.inj hr).1
    refine Or.inr ⟨by simp [insertRefusal, hne, hnone], rfl, fun hsame => ?_⟩
    rw [hsame, hnone] at hafter
    cases hafter
  | error e =>
    refine Or.inl ⟨e, ?_, rfl, ?_⟩
    · obtain ⟨he, _⟩ := Prod.mk.inj hr
      unfold InMemoryActionRequestStore.insert at he
      unfold insertRefusal
      dsimp only
      split at he
      · next hempty =>
        rw [if_pos hempty]
        exact congrArg some (Except.error.inj he)
      · next hempty =>
        rw [if_neg hempty]
        cases hget : s.requests.requests.get q.requestId with
        | none =>
          rw [hget] at he
          cases he
        | some q' =>
          rw [hget] at he
          rw [Stores.request, hget]
          exact congrArg some (Except.error.inj he)
    · obtain ⟨he, rfl⟩ := Prod.mk.inj hr
      rcases s.requests.insert_cases q with ⟨e', h⟩ | ⟨t, h, _⟩
      · rw [h]
      · rw [h] at he
        cases he

theorem propose_settled {c : ApiCall} {body : CreateActionRequestRequest} {r : ApiResult}
    (hc : c.mutation = .propose body)
    (hr : Returns (proposeActionRequest rt c.idempotencyKey c.drawn body) (es.map (·.call)) r)
    (hx : Executed rt es) : Settled c es r := by
  unfold proposeActionRequest at hr
  by_cases hempty : body.requestedBy = ""
  · rw [if_pos hempty] at hr
    obtain ⟨hnil, rfl⟩ := returns_ret.mp hr
    obtain rfl := List.map_eq_nil_iff.mp hnil
    exact .refused emptyRequestedBy (by simp [ApiCall.refusal, hc, Mutation.badBody, hempty]) rfl
      unchanged_nil
  rw [if_neg hempty] at hr
  have hbody : c.mutation.badBody = none := by rw [hc, Mutation.badBody, if_neg hempty]
  have hchange : c.mutation.change = none := by rw [hc, Mutation.change]
  obtain ⟨h₁, h₂, a, hh, h1, h2⟩ := returns_bind hr
  obtain ⟨t, h, rfl, h3⟩ := returns_nowSeconds.mp h1
  obtain ⟨e, es, rfl, hclockCall, hh⟩ := List.map_eq_cons_iff.mp hh
  have hclock : e.after = e.before := hx.head hclockCall
  have hrefusal : ∀ states, c.refusal (e.before :: states) =
      (insertRefusal c.drawn states).map fun err => (ApiError.ofStorage err).intoResponse := by
    intro states
    simp only [ApiCall.refusal, hbody, hchange, List.tail_cons]
  rcases returns_await.mp h3 with ⟨err, rfl, rfl⟩ | ⟨u, t', rfl, h4⟩
  · obtain ⟨rfl, rfl⟩ := returns_ret.mp h2
    obtain ⟨f, fs, rfl, hf, hfs⟩ := List.map_eq_cons_iff.mp hh
    obtain rfl := List.map_eq_nil_iff.mp hfs
    rcases insert_settled (hx.tail.head hf) [] with ⟨err', href, herr, hsame⟩ | ⟨_, hok, _⟩
    · obtain rfl := Except.error.inj herr
      refine .refused _ ?_ rfl ((unchanged_nil.cons hsame).cons hclock)
      rw [List.map_cons, hrefusal, List.map_cons, List.map_nil]
      exact Option.map_eq_some_iff.mpr ⟨err, href, rfl⟩
    · cases hok
  · obtain ⟨f, fs, rfl, hf, hfs⟩ := List.map_eq_cons_iff.mp hh
    have hins := hx.tail.head hf
    rcases insert_settled hins (fs.map (·.before)) with ⟨err', _, herr, _⟩ | ⟨hpass, _, hne⟩
    · cases herr
    refine .carried ?_ ⟨f, by simp, hne⟩ ?_
    · rw [List.map_cons, hrefusal, List.map_cons]
      exact Option.map_eq_none_iff.mpr hpass
    · intro c' states response hsame href hresponse
      have hcreated : response.status = 201 := by
        rcases returns_await.mp h4 with ⟨err, rfl, _⟩ | ⟨_, t'', rfl, h5⟩
        · obtain ⟨g, gs, rfl, hg, _⟩ := List.map_eq_cons_iff.mp hfs
          cases audit_noFaults (hx.tail.tail.head hg)
        · obtain ⟨_, rfl⟩ := returns_pure.mp h5
          subst hresponse
          obtain rfl := Except.ok.inj (returns_ret.mp h2).2
          rfl
      unfold ApiCall.refusal at href
      rw [hsame, hbody, hchange] at href
      obtain ⟨err, _, rfl⟩ := Option.map_eq_some_iff.mp href
      rcases status_ofStorage err with hs | hs
      · rw [hs] at hcreated
        cases hcreated
      · rw [hs] at hcreated
        cases hcreated

/-- Every call of a mutating endpoint that has returned has settled. -/
theorem settled {c : ApiCall} {r : ApiResult} (hr : Returns (c.program rt) (es.map (·.call)) r)
    (hx : Executed rt es) : Settled c es r := by
  unfold ApiCall.program at hr
  cases hc : c.mutation with
  | propose body =>
    rw [hc] at hr
    exact propose_settled hc hr hx
  | approve requestId body =>
    rw [hc] at hr
    refine changeActionRequest_settled (x := ⟨"approve", .pending, .approved, requestId, body.version⟩)
      (by rw [hc]; rfl) (by rw [hc]; rfl) ?_ hr hx
    intro es a ha hx
    refine change_settled ?_ ha hx
    intro now w h e he
    exact recordDecision_error (pure_error he)
  | reject requestId body =>
    rw [hc] at hr
    refine changeActionRequest_settled (x := ⟨"reject", .pending, .rejected, requestId, body.version⟩)
      (by rw [hc]; rfl) (by rw [hc]; rfl) ?_ hr hx
    intro es a ha hx
    refine change_settled ?_ ha hx
    intro now w h e he
    exact recordDecision_error (pure_error he)
  | revoke requestId body =>
    rw [hc] at hr
    refine changeActionRequest_settled (x := ⟨"revoke", .approved, .revoked, requestId, body.version⟩)
      (by rw [hc]; rfl) (by rw [hc]; rfl) ?_ hr hx
    intro es a ha hx
    refine change_settled ?_ ha hx
    intro now w h e he
    rcases returns_await.mp he with ⟨err, _, hfail⟩ | ⟨_, t, _, h1⟩
    · cases hfail
      exact ⟨err, rfl⟩
    · exact refreshed_error (pure_error h1)

end

end Piteka.Api
