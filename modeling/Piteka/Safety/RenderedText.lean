import Piteka.Web.PageMarkup

/-!
# Stored text on the pages

Both templates emit their values as they are. A page is the escaped one exactly if none
of the stored texts on it has a character that escaping replaces, and pages of such
texts have the same tags whatever the texts are.
-/
namespace Piteka.Safety

set_option autoImplicit false

open Piteka.Interleaving Piteka.Interleaving.Program Piteka.Storage Piteka.Web Piteka.Text.Markup

/-- The texts of a request in the work queue need no escaping. -/
def PlainRequest (q : ActionRequest) : Prop := IsPlain q.requestId ∧ IsPlain q.requestedBy

/-- The texts on the page of a request need no escaping; a decision other than the two that are
recorded is shown as it is. -/
def PlainDetail (id : String) (q : ActionRequest) (ds : List ApprovalDecision) : Prop :=
  IsPlain id ∧ IsPlain q.requestId ∧ IsPlain q.requestedBy ∧
    (∀ i, q.intentIdHex = some i → IsPlain i) ∧
    ∀ d ∈ ds, IsPlain d.decidedBy ∧ IsPlain (statusForDecision d.decision).2

theorem queue_escaped_iff {requests : List ActionRequest} {t : WorkQueueTemplate}
    (ht : workQueueTemplate requests = some t) :
    t.page = render .html t.pieces ↔ ∀ q ∈ requests, PlainRequest q := by
  rw [workQueueTemplate_eq] at ht
  rw [← Option.some.inj ht]
  exact (render_eq_iff _).trans (queue_plain requests)

theorem detail_escaped_iff {id : String} {q : ActionRequest} {ds : List ApprovalDecision}
    {ps : List Piece} (hps : requestDetailPieces id q ds = some ps) :
    render RequestDetailTemplate.escape ps = render .html ps ↔ PlainDetail id q ds := by
  rw [requestDetailPieces_eq, Option.map_eq_some_iff] at hps
  obtain ⟨shown, hshown, rfl⟩ := hps
  exact (render_eq_iff _).trans (detail_plain hshown)

theorem queue_tags {requests requests' : List ActionRequest} {t t' : WorkQueueTemplate}
    (ht : workQueueTemplate requests = some t) (ht' : workQueueTemplate requests' = some t')
    (hstatus : requests.map (·.status) = requests'.map (·.status)) :
    tags (render .html t.pieces) = tags (render .html t'.pieces) := by
  have hlen : requests.length = requests'.length := by
    simpa using congrArg List.length hstatus
  rw [workQueueTemplate_eq] at ht ht'
  rw [← Option.some.inj ht, ← Option.some.inj ht']
  have hlits : literals (workQueueBody ⟨"Work queue", "work-queue", requests.map shownQueueRow⟩) =
      literals (workQueueBody ⟨"Work queue", "work-queue", requests'.map shownQueueRow⟩) :=
    queue_literals (by simp [hlen])
  rw [WorkQueueTemplate.pieces, WorkQueueTemplate.pieces, base_tags (workQueueBody_after _),
    base_tags (workQueueBody_after _), base_literals hlits]

theorem detail_tags {id id' : String} {q q' : ActionRequest} {ds ds' : List ApprovalDecision}
    {ps ps' : List Piece} (hps : requestDetailPieces id q ds = some ps)
    (hps' : requestDetailPieces id' q' ds' = some ps') (hstatus : q.status = q'.status)
    (hdecisions : ds.map (·.decision) = ds'.map (·.decision)) :
    tags (render .html ps) = tags (render .html ps') := by
  have hlen : ds.length = ds'.length := by
    simpa using congrArg List.length hdecisions
  rw [requestDetailPieces_eq, Option.map_eq_some_iff] at hps hps'
  obtain ⟨shown, _, rfl⟩ := hps
  obtain ⟨shown', _, rfl⟩ := hps'
  rw [base_tags (requestDetailBody_after _ _ _), base_tags (requestDetailBody_after _ _ _),
    base_literals (detail_literals hstatus hlen)]

/-- The work queue shows the requests that it has listed, or none. -/
theorem workQueue_shows {h : Path} {r : Option String} (hr : Returns workQueue h r) :
    ∃ requests t, workQueueTemplate requests = some t ∧ r = some t.page := by
  obtain ⟨requests, rfl, _⟩ := workQueue_returns hr
  exact ⟨requests, _, workQueueTemplate_eq requests, by rw [workQueueTemplate_eq, Option.map_some]⟩

theorem requestDetail_shows {id page : String} {h : Path}
    (hr : Returns (requestDetail id) h (some page)) :
    (∃ q ds, requestDetailPage id q ds = some page) ∨ ∃ title, page = (emptyQueue title).page := by
  rcases requestDetail_returns hr with ⟨title, htitle⟩ | ⟨q, ds, t, _, hpage⟩
  · exact Or.inr ⟨title, Option.some.inj htitle⟩
  · exact Or.inl ⟨q, ds, hpage.symm⟩

/-- For all pages that the two handlers return, all requests and decisions on them, and every two
pages of equal lengths and statuses. -/
theorem rendered_text_iff (requests requests' : List ActionRequest) (id id' : String)
    (q q' : ActionRequest) (ds ds' : List ApprovalDecision) :
    (∀ h r, Returns workQueue h r →
        ∃ requests t, workQueueTemplate requests = some t ∧ r = some t.page) ∧
      (∀ id page h, Returns (requestDetail id) h (some page) →
        (∃ q ds, requestDetailPage id q ds = some page) ∨
          ∃ title, page = (emptyQueue title).page) ∧
      (∀ t, workQueueTemplate requests = some t →
        (t.page = render .html t.pieces ↔ ∀ q ∈ requests, PlainRequest q)) ∧
      (∀ ps, requestDetailPieces id q ds = some ps →
        (render RequestDetailTemplate.escape ps = render .html ps ↔ PlainDetail id q ds)) ∧
      (∀ t t', workQueueTemplate requests = some t → workQueueTemplate requests' = some t' →
        requests.map (·.status) = requests'.map (·.status) →
        (∀ q ∈ requests, PlainRequest q) → (∀ q ∈ requests', PlainRequest q) →
        tags t.page = tags t'.page) ∧
      ∀ page page', requestDetailPage id q ds = some page →
        requestDetailPage id' q' ds' = some page' → q.status = q'.status →
        ds.map (·.decision) = ds'.map (·.decision) → PlainDetail id q ds →
        PlainDetail id' q' ds' → tags page = tags page' := by
  refine ⟨fun _ _ => workQueue_shows, fun _ _ _ => requestDetail_shows,
    fun _ ht => queue_escaped_iff ht, fun _ hps => detail_escaped_iff hps,
    fun t t' ht ht' hstatus hplain hplain' => ?_,
    fun page page' hp hp' hstatus hdecisions hplain hplain' => ?_⟩
  · rw [(queue_escaped_iff ht).mpr hplain, (queue_escaped_iff ht').mpr hplain']
    exact queue_tags ht ht' hstatus
  · obtain ⟨ps, hps, rfl⟩ := Option.map_eq_some_iff.mp hp
    obtain ⟨ps', hps', rfl⟩ := Option.map_eq_some_iff.mp hp'
    rw [(detail_escaped_iff hps).mpr hplain, (detail_escaped_iff hps').mpr hplain']
    exact detail_tags hps hps' hstatus hdecisions

/-! ## A request made in the name of a tag -/

def taggedRequest : ActionRequest := ⟨"r-1", "<b>alice</b>", none, .pending, 0⟩

theorem tagged_unescaped :
    ∃ t, workQueueTemplate [taggedRequest] = some t ∧
      Returns workQueue [did (.requests .list) [taggedRequest]] (some t.page) ∧
      t.page ≠ render .html t.pieces := by
  refine ⟨_, workQueueTemplate_eq _, ?_, fun h => ?_⟩
  · refine returns_call.mpr ⟨_, _, rfl, returns_ret.mpr ⟨rfl, ?_⟩⟩
    rw [workQueueTemplate_eq, Option.map_some]
  · have hplain := (queue_escaped_iff (workQueueTemplate_eq [taggedRequest])).mp h taggedRequest
      List.mem_cons_self
    exact absurd hplain.2 (by decide)

end Piteka.Safety
