import Piteka.Web.Pages

/-!
# Where the values of the pages stand

In both templates every value stands in the text or in a quoted attribute, and which
literals are around the values depends on the number of rows and on the status alone.
-/
namespace Piteka.Web

set_option autoImplicit false
set_option maxRecDepth 8000

open Piteka.Storage Piteka.Text.Markup

/-! ## Blocks -/

theorem baseHead_after (title : String) : after .data (baseHead title) = some .data := by
  unfold baseHead
  repeat first | rw [after_lit] | rw [after_value]
  decide

theorem baseMain_after : after .data baseMain = some .data := by
  unfold baseMain
  repeat rw [after_lit]
  decide

theorem baseNav_after : after .data (baseNav "work-queue") = some .data := by
  simp only [baseNav, navItem, List.cons_append, List.nil_append, if_true, String.reduceEq,
    if_false]
  repeat rw [after_lit]
  decide

theorem queueHead_after : after .data queueHead = some .data := by
  unfold queueHead
  repeat rw [after_lit]
  decide

theorem queueRow_after (row : WorkQueueRow) : after .data (queueRow row) = some .data := by
  unfold queueRow
  repeat first | rw [after_lit] | rw [after_value]
  decide

theorem detailHeader_after (request : RequestDetailRow) :
    after .data (detailHeader request) = some .data := by
  unfold detailHeader
  repeat first | rw [after_lit] | rw [after_value]
  decide

theorem intentTarget_after (intent : IntentPanelData) (shown : String) :
    after .data (intentTarget intent shown) = some .data := by
  unfold intentTarget
  repeat first | rw [after_lit] | rw [after_value]
  decide

theorem intentControls_after (intent : IntentPanelData) (shown : String) :
    after .data (intentControls intent shown) = some .data := by
  unfold intentControls
  repeat first | rw [after_lit] | rw [after_value]
  decide

theorem intentFooter_after (request : RequestDetailRow) (intent : IntentPanelData)
    (shown : String) : after .data (intentFooter request intent shown) = some .data := by
  unfold intentFooter
  repeat first | rw [after_lit] | rw [after_value]
  decide

theorem decisionRow_after (row : DecisionRow) : after .data (decisionRow row) = some .data := by
  unfold decisionRow
  repeat first | rw [after_lit] | rw [after_value]
  decide

theorem productionChip_after (intent : IntentPanelData) :
    after .data (productionChip intent) = some .data := by
  unfold productionChip
  split
  · repeat rw [after_lit]
    decide
  · rfl

theorem expiry_after (intent : IntentPanelData) : after .data (expiry intent) = some .data := by
  unfold expiry
  split
  · simp only [List.cons_append, List.nil_append]
    split
    · simp only [List.cons_append, List.nil_append]
      repeat first | rw [after_lit] | rw [after_value]
      decide
    · simp only [List.nil_append]
      repeat first | rw [after_lit] | rw [after_value]
      decide
  · repeat rw [after_lit]
    decide

/-- The rows between the head and the end of a table or list. -/
theorem rows_after {α : Type} {head last : List Piece} {rows : List α} {row : α → List Piece}
    (hhead : after .data head = some .data) (hrow : ∀ r, after .data (row r) = some .data)
    (hlast : after .data last = some .data) :
    after .data (head ++ rows.flatMap row ++ last) = some .data :=
  after_both (after_both hhead (after_flatMap fun r _ => hrow r)) hlast

theorem evidencePanel_after (intent : IntentPanelData) :
    after .data (evidencePanel intent) = some .data := by
  unfold evidencePanel
  split
  · rfl
  · apply rows_after
    · repeat rw [after_lit]
      decide
    · intro req
      repeat first | rw [after_lit] | rw [after_value]
      decide
    · repeat rw [after_lit]
      decide

theorem decisionsPanel_after (request : RequestDetailRow) :
    after .data (decisionsPanel request) = some .data := by
  unfold decisionsPanel
  split
  · repeat rw [after_lit]
    decide
  · apply rows_after
    · repeat rw [after_lit]
      decide
    · exact decisionRow_after
    · repeat rw [after_lit]
      decide

theorem quarantineBanner_after (request : RequestDetailRow) :
    after .data (quarantineBanner request) = some .data := by
  unfold quarantineBanner
  split
  · repeat rw [after_lit]
    decide
  · repeat rw [after_lit]
    decide

theorem approvalActions_after (request : RequestDetailRow) :
    after .data (approvalActions request) = some .data := by
  unfold approvalActions
  split
  · repeat first | rw [after_lit] | rw [after_value]
    decide
  · repeat rw [after_lit]
    decide

theorem limitations_after : after .data limitations = some .data := by
  unfold limitations
  repeat rw [after_lit]
  decide

/-! ## Pages -/

theorem emptyNotice_after (t : WorkQueueTemplate) : after .data (emptyNotice t) = some .data := by
  unfold emptyNotice
  split
  · repeat rw [after_lit]
    decide
  · repeat rw [after_lit]
    decide

theorem workQueueBody_after (t : WorkQueueTemplate) :
    after .data (workQueueBody t) = some .data := by
  unfold workQueueBody
  apply rows_after
  · exact after_both queueHead_after (emptyNotice_after t)
  · exact queueRow_after
  · repeat rw [after_lit]
    decide

theorem requestDetailBody_after (t : RequestDetailTemplate) (shownCommit shownDigest : String) :
    after .data (requestDetailBody t shownCommit shownDigest) = some .data := by
  have hheader := detailHeader_after t.request
  have htarget := after_both hheader (intentTarget_after t.intent shownCommit)
  have hchip := after_both htarget (productionChip_after t.intent)
  have hcontrols := after_both hchip (intentControls_after t.intent shownDigest)
  have hexpiry := after_both hcontrols (expiry_after t.intent)
  have hfooter := after_both hexpiry (intentFooter_after t.request t.intent shownDigest)
  have hevidence := after_both hfooter (evidencePanel_after t.intent)
  have hdecisions := after_both hevidence (decisionsPanel_after t.request)
  have hbanner := after_both hdecisions (quarantineBanner_after t.request)
  have hactions := after_both hbanner (approvalActions_after t.request)
  exact after_both hactions limitations_after

/-- After the body there is no value. -/
theorem base_tags {title : String} {body : List Piece} (h : after .data body = some .data) :
    tags (render .html (base title "work-queue" body)) =
      (Scan.start.feed (literals (base title "work-queue" body))).tags := by
  have hfront := after_both (after_both (after_both (baseHead_after title) baseNav_after)
    baseMain_after) h
  refine tags_render hfront fun text ht => ?_
  simp [baseDialogs, stepUpScript, pageScript] at ht

/-! ## Literals -/

theorem base_literals {title title' : String} {body body' : List Piece}
    (h : literals body = literals body') :
    literals (base title "work-queue" body) = literals (base title' "work-queue" body') := by
  have hhead : literals (baseHead title) = literals (baseHead title') := rfl
  simp only [base, literals_append, hhead, h]

theorem isEmpty_congr {α : Type} {l l' : List α} (h : l.length = l'.length) :
    l.isEmpty = l'.isEmpty := by
  rw [Bool.eq_iff_iff, List.isEmpty_iff_length_eq_zero, List.isEmpty_iff_length_eq_zero, h]

theorem queue_literals {t t' : WorkQueueTemplate} (hlen : t.requests.length = t'.requests.length) :
    literals (workQueueBody t) = literals (workQueueBody t') := by
  have hempty := isEmpty_congr hlen
  have hrows : literals (t.requests.flatMap queueRow) = literals (t'.requests.flatMap queueRow) :=
    literals_flatMap hlen fun _ _ => rfl
  simp only [workQueueBody, literals_append, emptyNotice, hempty, hrows]

theorem decisions_literals {r r' : RequestDetailRow}
    (hlen : r.decisions.length = r'.decisions.length) :
    literals (decisionsPanel r) = literals (decisionsPanel r') := by
  have hempty := isEmpty_congr hlen
  have hrows : literals (r.decisions.flatMap decisionRow) =
      literals (r'.decisions.flatMap decisionRow) := literals_flatMap hlen fun _ _ => rfl
  unfold decisionsPanel
  rw [hempty]
  split
  · rfl
  · simp only [literals_append, hrows]

theorem actions_literals {r r' : RequestDetailRow} (hstatus : r.status = r'.status) :
    literals (approvalActions r) = literals (approvalActions r') := by
  unfold approvalActions
  rw [hstatus]
  split <;> rfl

theorem banner_literals {r r' : RequestDetailRow} (hstatus : r.status = r'.status) :
    literals (quarantineBanner r) = literals (quarantineBanner r') := by
  unfold quarantineBanner
  rw [hstatus]

/-- The status and the number of decisions fix the literals of the page. -/
theorem detail_literals {id id' shown shown' : String} {q q' : ActionRequest}
    {ds ds' : List ApprovalDecision} (hstatus : q.status = q'.status)
    (hlen : ds.length = ds'.length) :
    literals (requestDetailBody (shownDetail id q ds) shown shown) =
      literals (requestDetailBody (shownDetail id' q' ds') shown' shown') := by
  have hrow : (shownRequest q ds).status = (shownRequest q' ds').status :=
    congrArg requestStatus hstatus
  have hdecisions : literals (decisionsPanel (shownRequest q ds)) =
      literals (decisionsPanel (shownRequest q' ds')) := by
    apply decisions_literals
    simp only [shownRequest, requestRow, List.length_map, hlen]
  have hheader : literals (detailHeader (shownRequest q ds)) =
      literals (detailHeader (shownRequest q' ds')) := rfl
  have htarget : literals (intentTarget (intentPanel q) shown) =
      literals (intentTarget (intentPanel q') shown') := rfl
  have hchip : literals (productionChip (intentPanel q)) =
      literals (productionChip (intentPanel q')) := rfl
  have hcontrols : literals (intentControls (intentPanel q) shown) =
      literals (intentControls (intentPanel q') shown') := rfl
  have hexpiry : literals (expiry (intentPanel q)) = literals (expiry (intentPanel q')) := rfl
  have hfooter : literals (intentFooter (shownRequest q ds) (intentPanel q) shown) =
      literals (intentFooter (shownRequest q' ds') (intentPanel q') shown') := rfl
  have hevidence : literals (evidencePanel (intentPanel q)) =
      literals (evidencePanel (intentPanel q')) := rfl
  simp only [requestDetailBody, shownDetail, literals_append, hheader, htarget, hchip, hcontrols,
    hexpiry, hfooter, hevidence, hdecisions, banner_literals hrow, actions_literals hrow]

/-! ## Values -/

theorem isPlain_repr (n : Nat) : IsPlain (Nat.repr n) := by
  refine isPlain_ofList fun c hc => ?_
  have hdigit := Nat.isDigit_of_mem_toDigits (by decide) (by decide) hc
  rintro (rfl | rfl | rfl | rfl | rfl) <;> cases hdigit

theorem isPlain_zeros (n : Nat) : IsPlain (String.ofList (List.replicate n '0')) := by
  refine isPlain_ofList fun c hc => ?_
  rw [List.eq_of_mem_replicate hc]
  decide

theorem isPlain_padded (width : Nat) (n : Int) : IsPlain (padded width n) := by
  have hminus : IsPlain "-" := by decide
  unfold padded
  split
  · exact (isPlain_append _ _).mpr ⟨isPlain_zeros _, isPlain_repr _⟩
  · exact (isPlain_append _ _).mpr
      ⟨(isPlain_append _ _).mpr ⟨hminus, isPlain_zeros _⟩, isPlain_repr _⟩

theorem isPlain_shownTime (seconds : Int64) : IsPlain (shownTime seconds) := by
  have hseparators : IsPlain "-" ∧ IsPlain "T" ∧ IsPlain ":" ∧ IsPlain "Z" := by decide
  obtain ⟨c, hc, _⟩ := civil_spec seconds.toUInt64
  rw [shownTime, hc, Option.map_some, Option.getD_some]
  simp only [isoText, isPlain_append, isPlain_padded, hseparators, and_self]

theorem isPlain_status (status : ActionRequestStatus) :
    IsPlain (statusForRequest (requestStatus status)).1 ∧
      IsPlain (statusForRequest (requestStatus status)).2.1 ∧
      IsPlain (statusForRequest (requestStatus status)).2.2 := by
  cases status <;> decide

theorem isPlain_decisionClass (decision : String) : IsPlain (statusForDecision decision).1 := by
  have hclasses : IsPlain "approved" ∧ IsPlain "rejected" ∧ IsPlain "indeterminate" := by decide
  unfold statusForDecision
  split
  · exact hclasses.1
  · split
    · exact hclasses.2.1
    · exact hclasses.2.2

theorem isSpecial_lt {c : Char} (h : IsSpecial c) : c.toNat < 65 := by
  rcases h with rfl | rfl | rfl | rfl | rfl <;> decide

theorem toUpper_cases (c : Char) : c.toUpper = c ∨ 65 ≤ c.toUpper.toNat := by
  unfold Char.toUpper
  split
  · next h =>
    have hge : 97 ≤ c.val.toNat := h.1
    have hle : c.val.toNat ≤ 122 := h.2
    have hshift : ('A'.val - 'a'.val).toNat = 2 ^ 32 - 32 := rfl
    refine Or.inr ?_
    rw [Char.toNat, UInt32.toNat_add, hshift]
    omega
  · exact Or.inl rfl

theorem isPlain_firstChar {s : String} (h : IsPlain s) : IsPlain (firstChar s) := by
  unfold firstChar
  split
  · decide
  · next c cs heq =>
    refine isPlain_ofList fun d hd => ?_
    obtain rfl := List.mem_singleton.mp hd
    have hc : ¬ IsSpecial c := h c (heq ▸ List.mem_cons_self)
    rcases toUpper_cases c with hsame | hupper
    · rwa [hsame]
    · exact fun hspecial => absurd (isSpecial_lt hspecial) (by omega)

/-- A shortened hash has the characters of the hash and an ellipsis. -/
theorem isPlain_truncated {hash shown : String} (hshown : truncateHash hash = some shown)
    (h : IsPlain hash) : IsPlain shown := by
  by_cases hlen : hash.utf8ByteSize ≤ 12
  · rw [truncateHash_short hlen] at hshown
    rwa [← Option.some.inj hshown]
  · obtain ⟨front, rest, init, back, rfl, hback, _, _, rfl⟩ :=
      (truncateHash_long (by omega)).mp hshown
    have hfront := ((isPlain_append _ _).mp h).1
    rw [hback] at h
    have hellipsis : IsPlain "…" := by decide
    simp only [isPlain_append, hfront, hellipsis, ((isPlain_append _ _).mp h).2, and_self]

theorem base_plain (title : String) (body : List Piece) :
    PlainValues (base title "work-queue" body) ↔ IsPlain title ∧ PlainValues body := by
  simp [base, baseHead, baseNav, navItem, baseMain, baseDialogs, stepUpScript, pageScript]

theorem queueRow_plain (q : ActionRequest) :
    PlainValues (queueRow (shownQueueRow q)) ↔ IsPlain q.requestId ∧ IsPlain q.requestedBy := by
  obtain ⟨hclass, hicon, hlabel⟩ := isPlain_status q.status
  simp [queueRow, shownQueueRow, workQueueRow, hclass, hicon, hlabel, isPlain_shownTime]

theorem queue_plain (requests : List ActionRequest) :
    PlainValues (WorkQueueTemplate.pieces
        ⟨"Work queue", "work-queue", requests.map shownQueueRow⟩) ↔
      ∀ q ∈ requests, IsPlain q.requestId ∧ IsPlain q.requestedBy := by
  have htitle : IsPlain "Work queue" := by decide
  have hnotice : PlainValues (emptyNotice
      ⟨"Work queue", "work-queue", requests.map shownQueueRow⟩) := by
    unfold emptyNotice
    split <;> simp
  simp only [WorkQueueTemplate.pieces, base_plain, htitle, workQueueBody, queueHead, hnotice,
    plainValues_append, plainValues_flatMap, plainValues_lit, plainValues_nil, true_and, and_true,
    List.forall_mem_map, queueRow_plain]

theorem decisionRow_plain (d : ApprovalDecision) :
    PlainValues (decisionRow (shownDecision d)) ↔
      IsPlain d.decidedBy ∧ IsPlain (statusForDecision d.decision).2 := by
  have hclass := isPlain_decisionClass d.decision
  simp only [decisionRow, shownDecision, decisionRowOf, plainValues_lit, plainValues_value,
    plainValues_nil, hclass, isPlain_shownTime, true_and, and_true]
  constructor
  · rintro ⟨_, hby, hlabel⟩
    exact ⟨hby, hlabel⟩
  · rintro ⟨hby, hlabel⟩
    exact ⟨isPlain_firstChar hby, hby, hlabel⟩

theorem decisionsPanel_plain (q : ActionRequest) (ds : List ApprovalDecision) :
    PlainValues (decisionsPanel (shownRequest q ds)) ↔
      ∀ d ∈ ds, IsPlain d.decidedBy ∧ IsPlain (statusForDecision d.decision).2 := by
  unfold decisionsPanel
  cases ds with
  | nil => simp [shownRequest, requestRow]
  | cons d ds =>
    rw [if_neg (by simp [shownRequest, requestRow])]
    simp only [shownRequest, requestRow, plainValues_append, plainValues_lit, plainValues_nil,
      plainValues_flatMap, List.forall_mem_map, decisionRow_plain, true_and, and_true]

theorem intent_plain (q : ActionRequest) :
    IsPlain (q.intentIdHex.getD noIntent) ↔ ∀ i, q.intentIdHex = some i → IsPlain i := by
  have hnone : IsPlain noIntent := by decide
  cases q.intentIdHex with
  | none => exact iff_of_true hnone fun _ h => by cases h
  | some i => exact ⟨fun h j hj => Option.some.inj hj ▸ h, fun h => h i rfl⟩

theorem evidencePanel_plain (q : ActionRequest) : PlainValues (evidencePanel (intentPanel q)) := by
  have hfirst : IsPlain "GitHub commit status: all required contexts passed" := by decide
  have hsecond : IsPlain "Artifact attestation present" := by decide
  simp [evidencePanel, intentPanel, hfirst, hsecond]

/-- A value that is shown once more. -/
theorem shown_twice {a b : Prop} : a ∧ b ∧ a ↔ a ∧ b := by
  constructor
  · rintro ⟨ha, hb, _⟩
    exact ⟨ha, hb⟩
  · rintro ⟨ha, hb⟩
    exact ⟨ha, hb, ha⟩

/-- The values of the page are plain exactly if the texts of the request and of its decisions
are. -/
theorem detail_plain {id shown : String} {q : ActionRequest} {ds : List ApprovalDecision}
    (hshown : truncateHash (q.intentIdHex.getD noIntent) = some shown) :
    PlainValues (base ("Request " ++ id) "work-queue"
        (requestDetailBody (shownDetail id q ds) shown shown)) ↔
      IsPlain id ∧ IsPlain q.requestId ∧ IsPlain q.requestedBy ∧
        (∀ i, q.intentIdHex = some i → IsPlain i) ∧
        ∀ d ∈ ds, IsPlain d.decidedBy ∧ IsPlain (statusForDecision d.decision).2 := by
  have htitle : IsPlain "Request " := by decide
  have htexts : IsPlain "diewan" ∧ IsPlain "demo-app" ∧ IsPlain "production" ∧
      IsPlain "deploy" := by decide
  obtain ⟨hclass, hicon, hlabel⟩ := isPlain_status q.status
  have hheader : PlainValues (detailHeader (shownRequest q ds)) ↔
      IsPlain q.requestId ∧ IsPlain q.requestedBy := by
    simp [detailHeader, shownRequest, requestRow, hclass, hicon, hlabel]
  have htarget : PlainValues (intentTarget (intentPanel q) shown) ↔
      IsPlain (q.intentIdHex.getD noIntent) ∧ IsPlain shown := by
    simp only [intentTarget, intentPanel, plainValues_lit, plainValues_value, plainValues_nil,
      htexts, true_and, and_true]
    exact shown_twice
  have hchip : PlainValues (productionChip (intentPanel q)) := by
    simp [productionChip, intentPanel]
  have hcontrols : PlainValues (intentControls (intentPanel q) shown) ↔ IsPlain shown := by
    simp [intentControls, intentPanel, htexts]
  have hexpiry : PlainValues (expiry (intentPanel q)) := by
    simp [expiry, intentPanel]
  have hfooter : PlainValues (intentFooter (shownRequest q ds) (intentPanel q) shown) ↔
      IsPlain (q.intentIdHex.getD noIntent) ∧ IsPlain shown := by
    simp only [intentFooter, intentPanel, shownRequest, requestRow, plainValues_lit,
      plainValues_value, plainValues_nil, isPlain_shownTime, and_true]
    exact shown_twice
  have hbanner : PlainValues (quarantineBanner (shownRequest q ds)) := by
    unfold quarantineBanner
    split <;> simp
  have hactions : IsPlain q.requestId → PlainValues (approvalActions (shownRequest q ds)) := by
    intro hid
    unfold approvalActions
    split <;> simp [shownRequest, requestRow, hid]
  have hlimitations : PlainValues limitations := by simp [limitations]
  simp only [base_plain, isPlain_append, htitle, requestDetailBody, shownDetail,
    plainValues_append, hheader, htarget, hchip, hcontrols, hexpiry, hfooter,
    evidencePanel_plain, decisionsPanel_plain, hbanner, hlimitations, true_and, and_true]
  rw [← intent_plain]
  constructor
  · rintro ⟨hid, ⟨⟨⟨⟨⟨⟨hrequest, hby⟩, hintent, _⟩, _⟩, _⟩, hds⟩, _⟩⟩
    exact ⟨hid, hrequest, hby, hintent, hds⟩
  · rintro ⟨hid, hrequest, hby, hintent, hds⟩
    have hshort := isPlain_truncated hshown hintent
    exact ⟨hid, ⟨⟨⟨⟨⟨⟨hrequest, hby⟩, hintent, hshort⟩, hshort⟩, hintent, hshort⟩, hds⟩,
      hactions hrequest⟩⟩

end Piteka.Web
