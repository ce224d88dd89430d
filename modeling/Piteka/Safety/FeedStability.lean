import Piteka.Application.WebhookScenario
import Piteka.Feed.Server

/-!
# A consumer that resumes behind its last page

Sequence numbers are positions in the sorted list of what exports at the moment of
the pull. So the feed is immutable for a resuming consumer exactly as long as
nothing becomes exportable in front of what it has been served and no page comes to
a second entry of one receipt. A pull makes its queries with nothing written between
them.
-/
namespace Piteka.Safety

set_option autoImplicit false

open Piteka.Interleaving Piteka.Interleaving.Program Piteka.Storage Piteka.Table
  Piteka.Application

/-- What holds in a state in which the feed has been immutable for its consumer. -/
structure FeedStable (cd : Codec) (state : FeedState) (f : FeedRun) : Prop where
  once : (f.delivered.map (·.exportId)).Nodup
  /-- When a pull has nothing more to serve, every published receipt has been delivered. -/
  complete : ∀ limit page, pulled cd state f limit = .ok page → page.exports = [] →
    ∀ x ∈ state.published cd f.stores, ∃ e ∈ f.delivered, e.exportId = x.1.1
  /-- What has been served is in the feed as it was, with its number and its emission time. -/
  kept : ∀ e ∈ f.delivered, e ∈ state.feed cd f.stores

/-- What the event makes exportable sorts behind everything that has been served. -/
def AppendsBehind (cd : Codec) (state : FeedState) (e : FeedEvent) (f : FeedRun) : Prop :=
  ∀ x ∈ state.published cd (f.step cd state e).stores, x ∉ state.published cd f.stores →
    ∀ y ∈ (state.published cd f.stores).take f.nextSequence, state.order.Before y.1 x.1

/-- A page that is served does not go beyond a receipt that the feed has more than once. -/
def NamedOnce (cd : Codec) (state : FeedState) : FeedEvent → FeedRun → Prop
  | .call _, _ => True
  | .pull limit, f => 0 < limit → limit ≤ 1024 →
    ∀ x ∈ (state.published cd f.stores).take (f.nextSequence + limit - 1), state.entries x.1.1 = 1

/-- What a step may do. -/
structure LeavesServed (cd : Codec) (state : FeedState) (e : FeedEvent) (f : FeedRun) : Prop where
  behind : AppendsBehind cd state e f
  once : NamedOnce cd state e f

/-- The consumer has been served the first part of the feed, up to its cursor. -/
structure Resumes (cd : Codec) (state : FeedState) (f : FeedRun) : Prop where
  delivered : f.delivered = (state.feed cd f.stores).take f.nextSequence
  cursor : f.nextSequence ≤ (state.feed cd f.stores).length
  once : ((state.published cd f.stores).take f.nextSequence).Nodup

section
variable {cd : Codec} {state : FeedState} {f : FeedRun}

/-! ## A served prefix is stable -/

/-- The exports of the front of the feed have different ids if the front repeats nothing. -/
theorem served_ids_nodup {s : Stores} {n : Nat} :
    (((state.feed cd s).take n).map (·.exportId)).Nodup ↔ ((state.published cd s).take n).Nodup := by
  rw [List.map_take, FeedState.feed, emit_ids, ← List.map_take]
  refine ⟨List.Nodup.of_map _, List.Nodup.map_on fun x hx y hy => ?_⟩
  exact published_unique (List.mem_of_mem_take hx) (List.mem_of_mem_take hy)

theorem stable_of_resumes (inv : Resumes cd state f) : FeedStable cd state f where
  once := by
    rw [inv.delivered]
    exact served_ids_nodup.mpr inv.once
  complete limit page hpull hempty x hx := by
    obtain ⟨hlimit, hpage, _⟩ := pulled_ok hpull
    have hall : (state.feed cd f.stores).length ≤ f.nextSequence := by
      rw [hempty] at hpage
      have hlen := congrArg List.length hpage
      rw [List.length_take, List.length_drop, List.length_nil] at hlen
      omega
    have hid : x.1.1 ∈ (state.feed cd f.stores).map (·.exportId) := by
      rw [FeedState.feed, emit_ids]
      exact List.mem_map_of_mem hx
    rw [inv.delivered, List.take_of_length_le hall]
    exact List.mem_map.mp hid
  kept e he := by
    rw [inv.delivered] at he
    exact List.mem_of_mem_take he

/-! ## One event -/

theorem call_keeps_rows (cd : Codec) (c : StoreCall) (s : Stores) :
    RowsKept s (c.run cd.toRuntime .asListed s).2 := by
  have hx : Exec cd.toRuntime noFaults s (.store c) (c.run cd.toRuntime .asListed s).1
      (c.run cd.toRuntime .asListed s).2 := Or.inl ⟨.asListed, rfl⟩
  exact @rowsKept_of_exec _ _ _ _ ⟨.store c, _⟩ hx

theorem published_count {c : StoreCall} {x : Published} (hx : x ∈ state.published cd f.stores) :
    (state.published cd (c.run cd.toRuntime .asListed f.stores).2).count x =
      (state.published cd f.stores).count x := by
  rw [count_published hx, count_published (published_kept (call_keeps_rows cd c f.stores) hx)]

/-- Nothing comes in front of what has been served exactly if that stays a prefix. -/
theorem appendsBehind_iff (c : StoreCall) :
    AppendsBehind cd state (.call c) f ↔
      (state.published cd f.stores).take f.nextSequence <+:
        state.published cd (c.run cd.toRuntime .asListed f.stores).2 :=
  (take_prefix_iff (fun h => Collation.Before.asymm h) published_sorted published_sorted
    (fun _ hx => published_count hx) f.nextSequence).symm

theorem resumes_call {c : StoreCall} (inv : Resumes cd state f)
    (hbefore : (state.published cd f.stores).take f.nextSequence <+:
      state.published cd (c.run cd.toRuntime .asListed f.stores).2) :
    Resumes cd state (f.step cd state (.call c)) := by
  have hold : (state.feed cd f.stores).take f.nextSequence <+:
      state.feed cd (f.step cd state (.call c)).stores := by
    have hserved := @emit_extends cd state _ _
      (List.take_prefix f.nextSequence (state.published cd f.stores)) 0 0
    have hlen : f.nextSequence ≤ (state.published cd f.stores).length := by
      have hc := inv.cursor
      rwa [FeedState.feed, length_emit] at hc
    have htake := List.prefix_iff_eq_take.mp hserved
    rw [length_emit, List.length_take, Nat.min_eq_left hlen] at htake
    rw [FeedState.feed, ← htake]
    exact emit_extends hbefore 0 0
  have hlen : ((state.feed cd f.stores).take f.nextSequence).length = f.nextSequence := by
    rw [List.length_take, Nat.min_eq_left inv.cursor]
  refine ⟨?_, ?_, ?_⟩
  · have htake := List.prefix_iff_eq_take.mp hold
    rw [hlen] at htake
    exact inv.delivered.trans htake
  · have hle := hold.length_le
    rw [hlen] at hle
    exact hle
  · have htake := List.prefix_iff_eq_take.mp hbefore
    have hc := inv.cursor
    rw [FeedState.feed, length_emit] at hc
    rw [List.length_take, Nat.min_eq_left hc] at htake
    exact htake ▸ inv.once

/-- The front of the feed up to the end of a page, without a repetition. -/
theorem namedOnce_iff {n limit : Nat} {s : Stores} (hpos : 0 < limit) :
    ((state.published cd s).take (n + limit)).Nodup ↔
      ∀ x ∈ (state.published cd s).take (n + limit - 1), state.entries x.1.1 = 1 := by
  have hfront := nodup_take_iff (fun h => Collation.Before.asymm h)
    (@published_sorted cd state s) (n + limit - 1)
  rw [Nat.sub_add_cancel (by omega)] at hfront
  refine hfront.trans (forall₂_congr fun x hx => ?_)
  rw [count_published (List.mem_of_mem_take hx)]

/-- A page that is served moves the cursor to its end, or to the end of the feed. -/
theorem served_front {limit : Nat} {page : PitekaFeedPage} (hpull : pulled cd state f limit = .ok page) :
    (state.published cd f.stores).take page.nextSequence =
      (state.published cd f.stores).take (f.nextSequence + limit) := by
  obtain ⟨_, hpage, hnext⟩ := pulled_ok hpull
  have hlen := congrArg List.length hpage
  rw [List.length_take, List.length_drop, FeedState.feed, length_emit] at hlen
  refine List.take_eq_take_iff.mpr ?_
  omega

/-- With its page the consumer has the feed up to the new cursor. -/
theorem delivered_with_page {limit : Nat} {page : PitekaFeedPage} (inv : Resumes cd state f)
    (hpull : pulled cd state f limit = .ok page) :
    f.delivered ++ page.exports = (state.feed cd f.stores).take page.nextSequence := by
  obtain ⟨_, hpage, hnext⟩ := pulled_ok hpull
  have hpart : page.exports <+: (state.feed cd f.stores).drop f.nextSequence := by
    rw [hpage]
    exact List.take_prefix limit _
  rw [inv.delivered, hnext, List.take_add, ← List.prefix_iff_eq_take.mp hpart]

/-- A page that comes to no second entry of a receipt carries the consumer on. -/
theorem resumes_pull {limit : Nat} {page : PitekaFeedPage} (inv : Resumes cd state f)
    (hpull : pulled cd state f limit = .ok page) (honce : NamedOnce cd state (.pull limit) f) :
    Resumes cd state (f.receive (.ok page)) := by
  obtain ⟨⟨hpos, hle⟩, hpage, hnext⟩ := pulled_ok hpull
  refine ⟨delivered_with_page inv hpull, ?_, ?_⟩
  · have hlen := congrArg List.length hpage
    rw [List.length_take, List.length_drop] at hlen
    have hcursor := inv.cursor
    dsimp only [FeedRun.receive]
    omega
  · dsimp only [FeedRun.receive]
    rw [served_front hpull]
    exact (namedOnce_iff hpos).mpr (honce hpos hle)

/-- A page that does serves an export again, with itself or from before. -/
theorem repeats_of_not_once {limit : Nat} (inv : Resumes cd state f)
    (honce : ¬ NamedOnce cd state (.pull limit) f) :
    ¬ ((f.step cd state (.pull limit)).delivered.map (·.exportId)).Nodup := by
  unfold NamedOnce at honce
  push Not at honce
  obtain ⟨hpos, hle, x, hx, hentries⟩ := honce
  obtain ⟨page, hpull⟩ := pulled_of_published hpos hle (List.mem_of_mem_take hx)
  have hdelivered : (f.step cd state (.pull limit)).delivered =
      (state.feed cd f.stores).take page.nextSequence := by
    dsimp only [FeedRun.step]
    rw [hpull]
    exact delivered_with_page inv hpull
  rw [hdelivered, served_ids_nodup, served_front hpull, namedOnce_iff hpos]
  exact fun hall => hentries (hall x hx)

/-- When what was served is still in the feed, it is there at its old positions. -/
theorem prefix_of_kept {c : StoreCall} (inv : Resumes cd state f)
    (hkept : ∀ e ∈ f.delivered,
      e ∈ state.feed cd (c.run cd.toRuntime .asListed f.stores).2) :
    (state.published cd f.stores).take f.nextSequence <+:
      state.published cd (c.run cd.toRuntime .asListed f.stores).2 := by
  have hserved : ∀ (i : Nat) (x : Published), ((state.published cd f.stores).take f.nextSequence)[i]? = some x →
      (state.published cd (c.run cd.toRuntime .asListed f.stores).2)[i]? = some x := by
    intro i x hx
    rw [List.getElem?_take] at hx
    split at hx
    · next hi =>
      have hlt : i < (state.feed cd f.stores).length := Nat.lt_of_lt_of_le hi inv.cursor
      have he : (state.feed cd f.stores)[i]? = some (state.feed cd f.stores)[i] :=
        List.getElem?_eq_getElem hlt
      generalize (state.feed cd f.stores)[i] = e at he
      obtain ⟨hseq, y, hy, hid⟩ := emit_at he
      obtain rfl := Option.some.inj (hx.symm.trans hy)
      have hdelivered : e ∈ f.delivered := by
        rw [inv.delivered]
        refine List.mem_iff_getElem?.mpr ⟨i, ?_⟩
        rw [List.getElem?_take, if_pos hi, he]
      obtain ⟨j, hj⟩ := List.mem_iff_getElem?.mp (hkept e hdelivered)
      obtain ⟨hseq', z, hz, hid'⟩ := emit_at hj
      obtain rfl : i = j := by omega
      have hstays := published_kept (call_keeps_rows cd c f.stores) (List.mem_of_getElem? hx)
      rw [hz, published_unique hstays (List.mem_of_getElem? hz) (hid.symm.trans hid')]
    · cases hx
  refine List.prefix_iff_getElem?.mpr fun i hi => ?_
  exact hserved i _ (List.getElem?_eq_getElem hi)

theorem receive_stores (r : Except StatusCode PitekaFeedPage) : (f.receive r).stores = f.stores := by
  cases r <;> rfl

theorem step_keeps_rows (e : FeedEvent) : RowsKept f.stores (f.step cd state e).stores := by
  cases e with
  | call c => exact call_keeps_rows cd c f.stores
  | pull limit =>
    dsimp only [FeedRun.step]
    rw [receive_stores]
    exact ⟨fun _ _ h => h, fun _ _ h => h⟩

/-- The condition holds when everything published sorts behind what has been served. -/
theorem appendsBehind_of_order {e : FeedEvent}
    (h : ∀ x ∈ (state.published cd (f.step cd state e).stores).map (·.1),
      ∀ y ∈ ((state.published cd f.stores).take f.nextSequence).map (·.1),
        y = x ∨ state.order.Before y x) : AppendsBehind cd state e f := by
  intro x hx hnew y hy
  rcases h _ (List.mem_map_of_mem hx) _ (List.mem_map_of_mem hy) with heq | hbefore
  · have hy' := List.mem_of_mem_take hy
    have hstays : y ∈ state.published cd (f.step cd state e).stores :=
      published_kept (step_keeps_rows e) hy'
    rw [published_unique hstays hx (congrArg Prod.fst heq)] at hy'
    exact absurd hy' hnew
  · exact hbefore

/-- An allow-list that names nothing twice never repeats an entry. -/
theorem namedOnce_of_listsOnce (honce : ∀ ids ∈ state.allowList, ids.Nodup) (e : FeedEvent) :
    NamedOnce cd state e f := by
  cases e with
  | call c => trivial
  | pull limit =>
    intro _ _ x hx
    obtain ⟨l, hl, hxl, _⟩ := mem_published.mp (List.mem_of_mem_take hx)
    have hpos := List.count_pos_iff.mpr (List.mem_map_of_mem (f := (·.1)) hxl)
    rw [count_currentReceipts hl hxl] at hpos
    unfold FeedState.entries at hpos ⊢
    cases hallow : state.allowList with
    | none => rfl
    | some ids =>
      rw [hallow] at hpos
      exact List.count_eq_one_of_mem (honce ids hallow) (List.count_pos_iff.mp hpos)

theorem meets_or_bad (e : FeedEvent) (inv : Resumes cd state f) :
    (LeavesServed cd state e f ∧ Resumes cd state (f.step cd state e)) ∨
      (¬ LeavesServed cd state e f ∧ ¬ FeedStable cd state (f.step cd state e)) := by
  cases e with
  | call c =>
    by_cases h : AppendsBehind cd state (.call c) f
    · exact Or.inl ⟨⟨h, trivial⟩, resumes_call inv ((appendsBehind_iff c).mp h)⟩
    · refine Or.inr ⟨fun leaves => h leaves.behind, fun stable => h ?_⟩
      exact (appendsBehind_iff c).mpr (prefix_of_kept inv stable.kept)
  | pull limit =>
    have hbehind : AppendsBehind cd state (.pull limit) f := by
      intro x hx hnew
      dsimp only [FeedRun.step] at hx
      rw [receive_stores] at hx
      exact absurd hx hnew
    by_cases honce : NamedOnce cd state (.pull limit) f
    · refine Or.inl ⟨⟨hbehind, honce⟩, ?_⟩
      dsimp only [FeedRun.step]
      cases hpull : pulled cd state f limit with
      | error e => exact inv
      | ok page => exact resumes_pull inv hpull honce
    · refine Or.inr ⟨fun leaves => honce leaves.once, fun stable => ?_⟩
      exact repeats_of_not_once inv honce stable.once

end

/-- The consumer has been served nothing yet. -/
def Unserved (f : FeedRun) : Prop := f.nextSequence = 0 ∧ f.delivered = []

/-- The system of the feed: an event is one step, with nothing to answer. A pull is what the server
does with its queries, one after the other on the same rows. -/
def feedExec (cd : Codec) (state : FeedState) (f : FeedRun) : FeedEvent → Unit → FeedRun → Prop
  | .call c, _, f' => f' = f.step cd state (.call c)
  | .pull limit, _, f' => ∃ r s,
    (FeedServer.serveFeed cd state (some ("Bearer " ++ state.bearerToken))
      { afterSequence := f.nextSequence, limit }).run.Eval (FeedServer.ReadExec cd.toRuntime)
        f.stores r s ∧
    f' = { f with stores := s }.receive r

theorem feedExec_iff {cd : Codec} {state : FeedState} {f f' : FeedRun} {e : FeedEvent} {r : Unit} :
    feedExec cd state f e r f' ↔ f' = f.step cd state e := by
  cases e with
  | call c => exact Iff.rfl
  | pull limit =>
    constructor
    · rintro ⟨r, s, hpull, rfl⟩
      obtain ⟨rfl, rfl⟩ := FeedServer.serveFeed_eval.mp hpull
      rfl
    · rintro rfl
      exact ⟨_, _, FeedServer.serveFeed_eval.mpr ⟨rfl, rfl⟩, rfl⟩

def feedEvent (e : FeedEvent) : Program FeedEvent (fun _ => Unit) Unit := .call e .ret

/-- Whatever the receipts, the allow-list and the clock: the feed is immutable for the consumer after
every step exactly if every step leaves alone what has been served. -/
theorem feed_immutable_iff {cd : Codec} {state : FeedState} {f₀ f : FeedRun}
    {log : List (Turn FeedEvent FeedRun)} (start : Unserved f₀)
    (session : Session (feedExec cd state) feedEvent f₀ log f) :
    (∀ t ∈ log, FeedStable cd state t.after) ↔ ∀ t ∈ log, LeavesServed cd state t.call t.before := by
  have inv₀ : Resumes cd state f₀ := by
    refine ⟨?_, ?_, ?_⟩
    · rw [start.1, start.2]
      rfl
    · rw [start.1]
      exact Nat.zero_le _
    · rw [start.1]
      exact List.nodup_nil
  have step : ∀ (e : FeedEvent) (f : FeedRun) (r : Unit) (f' : FeedRun), True →
      Resumes cd state f → (feedEvent e).Eval (feedExec cd state) f r f' →
        (LeavesServed cd state e f ∧ Resumes cd state f') ∨
          (¬ LeavesServed cd state e f ∧ ¬ FeedStable cd state f') := by
    rintro e f _ f' _ inv ⟨_, _, hexec, _, rfl⟩
    obtain rfl := feedExec_iff.mp hexec
    exact meets_or_bad e inv
  exact session.good_iff inv₀ (fun f => stable_of_resumes) step fun _ _ => trivial

/-! ## A clock that steps back -/

instance (c : Collation) : DecidableRel c.Before := fun x y =>
  inferInstanceAs (Decidable (c.Le x y ∧ x ≠ y))

/-- A receipt that references no evidence, so it exports from the start. -/
def bareReceipt (id : String) (createdAt : Int64) : FeedEvent :=
  .call (.receipts (.insert {
    receiptIdHex := id
    mandateIdHex := "m-1"
    intentIdHex := "i-1"
    attemptIdHex := "att-m-1"
    outcome := .succeeded
    createdAtUnixSeconds := createdAt
    dispatchEvidenceRefs := []
    targetEvidenceRefs := []
    evidenceGaps := []
    canonicalBytes := none }))

/-- A server that publishes every receipt. What the signatures are is of no interest here. -/
def sampleFeed : FeedState where
  bearerToken := "token"
  collation := byteOrder
  sign _ := #[]
  signingKeyId := "key"
  tenantId := "tenant"
  allowList := none

def unservedRun : FeedRun := ⟨.empty, 0, []⟩

@[irreducible] def feedTurns (events : List FeedEvent) : List (Turn FeedEvent FeedRun) × FeedRun :=
  playSession (fun (_ : Unit) f e => ((), f.step sampleCodec sampleFeed e)) feedEvent
    ([], unservedRun) (events.map fun e => (e, ()))

theorem feedTurns_session (events : List FeedEvent) :
    Session (feedExec sampleCodec sampleFeed) feedEvent unservedRun (feedTurns events).1
      (feedTurns events).2 := by
  unfold feedTurns
  exact playSession_session (fun _ _ _ => feedExec_iff.mpr rfl) .start _

theorem older_receipt_redelivers :
    let f := (feedTurns [bareReceipt "r-b" 100, .pull 64, bareReceipt "r-a" 50, .pull 64]).2
    f.delivered.map (fun e => (e.exportId, e.sequence)) = [("r-b", 1), ("r-b", 2)] ∧
      (sampleFeed.published sampleCodec f.stores).map (·.1.1) = ["r-a", "r-b"] ∧
      (pulled sampleCodec sampleFeed f 64).map (·.exports.length) = .ok 0 := by
  decide +kernel

/-- A receipt that the allow-list names twice is delivered twice, when the page reaches so far. -/
example :
    let state := { sampleFeed with allowList := some ["r-a", "r-b", "r-a"] }
    let stored := [bareReceipt "r-a" 50, bareReceipt "r-b" 100].foldl (FeedRun.step sampleCodec state) unservedRun
    let pulledOnce := fun limit => (stored.step sampleCodec state (.pull limit)).delivered.map (·.exportId)
    pulledOnce 1 = ["r-a"] ∧ pulledOnce 2 = ["r-a", "r-a"] := by
  decide +kernel

def appendingEvents : List FeedEvent :=
  [bareReceipt "r-a" 50, .pull 64, bareReceipt "r-b" 100, .pull 64]

theorem newer_receipt_appends :
    (feedTurns appendingEvents).1.length = 4 ∧
      ∀ t ∈ (feedTurns appendingEvents).1, FeedStable sampleCodec sampleFeed t.after := by
  have honce : ∀ ids ∈ sampleFeed.allowList, ids.Nodup := fun ids h => by cases h
  have start : Unserved unservedRun := ⟨rfl, rfl⟩
  have horder : ∀ t ∈ (feedTurns appendingEvents).1,
      ∀ x ∈ (sampleFeed.published sampleCodec (t.before.step sampleCodec sampleFeed t.call).stores).map
          (·.1),
        ∀ y ∈ ((sampleFeed.published sampleCodec t.before.stores).take t.before.nextSequence).map
            (·.1),
          y = x ∨ sampleFeed.order.Before y x := by
    decide +kernel
  have hiff := feed_immutable_iff start (feedTurns_session appendingEvents)
  refine ⟨by decide +kernel, hiff.mpr fun t ht => ⟨?_, namedOnce_of_listsOnce honce t.call⟩⟩
  exact appendsBehind_of_order (horder t ht)

end Piteka.Safety
