import Piteka.Text.Markup
import Piteka.Text.Slices

/-!
# The page templates

The templates of the work queue and of a request, line by line: a literal for the text
of each line and a value for each expression in it. The filters are at the front;
slicing a hash inside a character panics, and then there is no page.
-/
namespace Piteka.Web

set_option autoImplicit false

open Piteka.Text Piteka.Text.Markup

/-! ## Filters -/

/-- The first six bytes of a hash and its last four; `none` is the panic. -/
def truncateHash (hash : String) : Option String :=
  if hash.utf8ByteSize ≤ 12 then some hash
  else do
    let front ← Slices.splitAtByte 6 hash
    let back ← Slices.splitAtByte (hash.utf8ByteSize - 4) hash
    return front.1 ++ "…" ++ back.2

/-- The hash is short, or both slices begin and end between characters. -/
def Shortens (hash : String) : Prop :=
  hash.utf8ByteSize ≤ 12 ∨
    Slices.IsBoundary hash 6 ∧ Slices.IsBoundary hash (hash.utf8ByteSize - 4)

theorem truncateHash_short {hash : String} (h : hash.utf8ByteSize ≤ 12) :
    truncateHash hash = some hash := if_pos h

/-- A shortened hash is made of a prefix and a suffix. -/
theorem truncateHash_long {hash text : String} (h : 12 < hash.utf8ByteSize) :
    truncateHash hash = some text ↔
      ∃ front rest init back, hash = front ++ rest ∧ hash = init ++ back ∧
        front.utf8ByteSize = 6 ∧ back.utf8ByteSize = 4 ∧ text = front ++ "…" ++ back := by
  rw [truncateHash, if_neg (by omega)]
  simp only [Option.bind_eq_bind, Option.pure_def, Option.bind_eq_some_iff, Prod.exists,
    Slices.splitAtByte_eq_some_iff, Option.some.injEq]
  constructor
  · rintro ⟨front, rest, ⟨hfront, hsize⟩, init, back, ⟨hback, hinit⟩, rfl⟩
    refine ⟨front, rest, init, back, hfront, hback, hsize, ?_, rfl⟩
    have hsum := congrArg String.utf8ByteSize hback
    rw [String.utf8ByteSize_append] at hsum
    omega
  · rintro ⟨front, rest, init, back, hfront, hback, hsize, hlast, rfl⟩
    refine ⟨front, rest, ⟨hfront, hsize⟩, init, back, ⟨hback, ?_⟩, rfl⟩
    have hsum := congrArg String.utf8ByteSize hback
    rw [String.utf8ByteSize_append] at hsum
    omega

theorem truncateHash_isSome_iff {hash : String} :
    (truncateHash hash).isSome ↔ Shortens hash := by
  by_cases h : hash.utf8ByteSize ≤ 12
  · rw [truncateHash_short h]
    exact iff_of_true rfl (Or.inl h)
  · rw [truncateHash, if_neg h, Shortens, or_iff_right h, ← Slices.splitAtByte_isSome_iff,
      ← Slices.splitAtByte_isSome_iff]
    cases Slices.splitAtByte 6 hash <;>
      cases Slices.splitAtByte (hash.utf8ByteSize - 4) hash <;> simp

def firstChar (s : String) : String :=
  match s.toList with
  | [] => "?"
  | c :: _ => String.ofList [c.toUpper]

/-! ## What the templates are given -/

structure WorkQueueRow where
  id : String
  requestedBy : String
  status : String
  statusClass : String
  statusIcon : String
  statusLabel : String
  createdAtHuman : String
  createdAtIso : String

structure WorkQueueTemplate where
  title : String
  currentPage : String
  requests : List WorkQueueRow

structure DecisionRow where
  decidedBy : String
  decision : String
  decisionClass : String
  decisionLabel : String
  decidedAtHuman : String
  decidedAtIso : String

structure RequestDetailRow where
  id : String
  requestedBy : String
  status : String
  statusClass : String
  statusIcon : String
  statusLabel : String
  createdAtHuman : String
  createdAtIso : String
  decisions : List DecisionRow

structure IntentPanelData where
  repositoryOwner : String
  repositoryName : String
  commitSha : String
  environmentName : String
  productionEnvironment : Bool
  task : String
  expiresAt : Option String
  expiresAtHuman : String
  expired : Bool
  digest : String
  evidenceRequirements : List String

structure RequestDetailTemplate where
  title : String
  currentPage : String
  request : RequestDetailRow
  intent : IntentPanelData

/-- `escape = "none"` -/
def WorkQueueTemplate.escape : Escape := .none

/-- `escape = "none"` -/
def RequestDetailTemplate.escape : Escape := .none

/-! ## Templates -/

def baseHead (title : String) : List Piece :=
  [.lit "<!DOCTYPE html>\n",
   .lit "<html lang=\"en\">\n",
   .lit "<head>\n",
   .lit "  <meta charset=\"UTF-8\">\n",
   .lit "  <meta name=\"viewport\" content=\"width=device-width, initial-scale=1.0\">\n",
   .lit "  <title>", .value title, .lit " — Piteka</title>\n",
   .lit "  <link rel=\"stylesheet\" href=\"/assets/piteka.css\">\n",
   .lit "  <link rel=\"preconnect\" href=\"https://fonts.googleapis.com\">\n",
   .lit "  <link rel=\"preconnect\" href=\"https://fonts.gstatic.com\" crossorigin>\n",
   .lit "  <link href=\"https://fonts.googleapis.com/css2?family=IBM+Plex+Mono:w",
   .lit "ght@400;500&family=IBM+Plex+Sans:wght@400;500;600&display=swap\"",
   .lit " rel=\"stylesheet\">\n",
   .lit "</head>\n",
   .lit "<body>\n",
   .lit "  <div class=\"pk-app\">\n",
   .lit "    <aside class=\"pk-sidebar\" role=\"navigation\" aria-label=\"Main",
   .lit " navigation\">\n",
   .lit "      <div class=\"pk-sidebar-brand\">Piteka</div>\n",
   .lit "      <ul class=\"pk-sidebar-nav\">\n"]

def navItem (currentPage page label : String) : List Piece :=
  [.lit "        <li><a href=\"/", .lit page, .lit "\" "] ++
    (if currentPage = page then [.lit "aria-current=\"page\""] else []) ++
    [.lit ">", .lit label, .lit "</a></li>\n"]

def baseNav (currentPage : String) : List Piece :=
  navItem currentPage "work-queue" "Work queue" ++ navItem currentPage "executions" "Executions" ++
    navItem currentPage "verification" "Verification" ++
    [.lit "        <hr class=\"pk-sidebar-divider\">\n"] ++
    navItem currentPage "settings" "Integration"

def baseMain : List Piece :=
  [.lit "      </ul>\n",
   .lit "    </aside>\n",
   .lit "\n",
   .lit "    <main class=\"pk-main\" role=\"main\">\n",
   .lit "      "]

/-- The step-up dialog and the toast. -/
def baseDialogs : List Piece :=
  [.lit "\n",
   .lit "    </main>\n",
   .lit "  </div>\n",
   .lit "\n",
   .lit "  <!-- Step-up overlay (OV1) -->\n",
   .lit "  <div class=\"pk-overlay\" id=\"stepup-overlay\" role=\"dialog\"",
   .lit " aria-modal=\"true\" aria-labelledby=\"stepup-title\">\n",
   .lit "    <div class=\"pk-modal\">\n",
   .lit "      <h2 id=\"stepup-title\">Confirm identity</h2>\n",
   .lit "      <p id=\"stepup-message\">Confirm your identity before recording this",
   .lit " decision.</p>\n",
   .lit "      <form id=\"stepup-form\" method=\"post\" action=\"/api/v1/session/reauth\">\n",
   .lit "        <div class=\"pk-mb-md\">\n",
   .lit "          <label for=\"stepup-password\" class=\"pk-text-sm\"",
   .lit " style=\"display:block;margin-bottom:4px;color:var(--ink-2);\">Password</label>\n",
   .lit "          <input type=\"password\" id=\"stepup-password\" name=\"password\"",
   .lit " required autocomplete=\"current-password\"\n",
   .lit "                 style=\"width:100%;padding:var(--space-sm);border:1px",
   .lit " solid var(--rule);border-radius:var(--radius-sm);font-family:var(--fo",
   .lit "nt-sans);font-size:0.875rem;\">\n",
   .lit "        </div>\n",
   .lit "        <div class=\"pk-modal-actions\">\n",
   .lit "          <button type=\"button\" class=\"pk-btn pk-btn-secondary\"",
   .lit " id=\"stepup-cancel\">Cancel</button>\n",
   .lit "          <button type=\"submit\" class=\"pk-btn pk-btn-primary\">Confirm",
   .lit " identity</button>\n",
   .lit "        </div>\n",
   .lit "      </form>\n",
   .lit "    </div>\n",
   .lit "  </div>\n",
   .lit "\n",
   .lit "  <!-- Toast notification -->\n",
   .lit "  <div class=\"pk-toast\" id=\"toast\" role=\"status\" aria-live=\"polite\"></div>\n",
   .lit "\n"]

def stepUpScript : List Piece :=
  [.lit "  <script>\n",
   .lit "    // Step-up overlay controls\n",
   .lit "    (function() \x7b\n",
   .lit "      var overlay = document.getElementById('stepup-overlay');\n",
   .lit "      var cancelBtn = document.getElementById('stepup-cancel');\n",
   .lit "      var toast = document.getElementById('toast');\n",
   .lit "\n",
   .lit "      // Open step-up overlay\n",
   .lit "      window.pkOpenStepUp = function(message) \x7b\n",
   .lit "        if (message) \x7b\n",
   .lit "          document.getElementById('stepup-message').textContent = message;\n",
   .lit "        \x7d\n",
   .lit "        overlay.classList.add('pk-overlay--visible');\n",
   .lit "        document.getElementById('stepup-password').focus();\n",
   .lit "      \x7d;\n",
   .lit "\n",
   .lit "      // Close step-up overlay\n",
   .lit "      window.pkCloseStepUp = function() \x7b\n",
   .lit "        overlay.classList.remove('pk-overlay--visible');\n",
   .lit "      \x7d;\n",
   .lit "\n",
   .lit "      if (cancelBtn) \x7b\n",
   .lit "        cancelBtn.addEventListener('click', window.pkCloseStepUp);\n",
   .lit "      \x7d\n",
   .lit "\n",
   .lit "      // Close on Escape\n",
   .lit "      document.addEventListener('keydown', function(e) \x7b\n",
   .lit "        if (e.key === 'Escape' &&",
   .lit " overlay.classList.contains('pk-overlay--visible')) \x7b\n",
   .lit "          window.pkCloseStepUp();\n",
   .lit "        \x7d\n",
   .lit "      \x7d);\n",
   .lit "\n"]

def pageScript : List Piece :=
  [.lit "      document.querySelectorAll('time[data-local-time]').forEach(funct",
   .lit "ion(time) \x7b\n",
   .lit "        var local = new Date(time.dateTime).toLocaleString();\n",
   .lit "        time.title = 'Local time: ' + local;\n",
   .lit "        time.setAttribute('aria-label', time.textContent + '; local time:",
   .lit " ' + local);\n",
   .lit "      \x7d);\n",
   .lit "\n",
   .lit "      // Toast notification\n",
   .lit "      window.pkShowToast = function(message) \x7b\n",
   .lit "        toast.textContent = message;\n",
   .lit "        toast.classList.add('pk-toast--visible');\n",
   .lit "        setTimeout(function() \x7b\n",
   .lit "          toast.classList.remove('pk-toast--visible');\n",
   .lit "        \x7d, 3000);\n",
   .lit "      \x7d;\n",
   .lit "\n",
   .lit "      // Hash field copy on click\n",
   .lit "      document.addEventListener('click', function(e) \x7b\n",
   .lit "        var hashField = e.target.closest('.pk-hash-field');\n",
   .lit "        if (hashField) \x7b\n",
   .lit "          var tooltip = hashField.querySelector('.hash-tooltip');\n",
   .lit "          if (tooltip) \x7b\n",
   .lit "            var fullHash = tooltip.textContent;\n",
   .lit "            if (navigator.clipboard) \x7b\n",
   .lit "              navigator.clipboard.writeText(fullHash).then(function() \x7b\n",
   .lit "                window.pkShowToast('Copied');\n",
   .lit "              \x7d);\n",
   .lit "            \x7d\n",
   .lit "          \x7d\n",
   .lit "        \x7d\n",
   .lit "      \x7d);\n",
   .lit "    \x7d)();\n",
   .lit "  </script>\n",
   .lit "</body>\n",
   .lit "</html>"]

/-- `base.html` around the body of a page. -/
def base (title currentPage : String) (body : List Piece) : List Piece :=
  baseHead title ++ baseNav currentPage ++ baseMain ++ body ++
    (baseDialogs ++ stepUpScript ++ pageScript)

def queueHead : List Piece :=
  [.lit "\n",
   .lit "<div class=\"pk-page-header\">\n",
   .lit "  <h1>Work queue</h1>\n",
   .lit "  <p>Actions that need your attention, filtered by your role.</p>\n",
   .lit "</div>\n",
   .lit "\n",
   .lit "  <table class=\"pk-table\" aria-label=\"Action requests\">\n",
   .lit "    <thead>\n",
   .lit "      <tr>\n",
   .lit "        <th scope=\"col\">Request</th>\n",
   .lit "        <th scope=\"col\">Requested by</th>\n",
   .lit "        <th scope=\"col\">Status</th>\n",
   .lit "        <th scope=\"col\">Created</th>\n",
   .lit "      </tr>\n",
   .lit "    </thead>\n",
   .lit "    <tbody>\n",
   .lit "      "]

def queueRow (row : WorkQueueRow) : List Piece :=
  [.lit "\n",
   .lit "      <tr>\n",
   .lit "        <td>\n",
   .lit "          <a href=\"/request/", .value row.id, .lit "\" aria-label=\"View request ",
   .value row.id, .lit "\">\n",
   .lit "            ", .value row.id, .lit "\n",
   .lit "          </a>\n",
   .lit "        </td>\n",
   .lit "        <td>", .value row.requestedBy, .lit "</td>\n",
   .lit "        <td>\n",
   .lit "          <span class=\"pk-status-chip pk-status-chip--", .value row.statusClass,
   .lit "\">\n",
   .lit "            <span class=\"pk-status-icon\" aria-hidden=\"true\">",
   .value row.statusIcon, .lit "</span>\n",
   .lit "            ", .value row.statusLabel, .lit "\n",
   .lit "          </span>\n",
   .lit "        </td>\n",
   .lit "        <td>\n",
   .lit "          <time datetime=\"", .value row.createdAtIso,
   .lit "\" data-local-time tabindex=\"0\">", .value row.createdAtHuman, .lit "</time>\n",
   .lit "        </td>\n",
   .lit "      </tr>\n",
   .lit "      "]

def emptyNotice (t : WorkQueueTemplate) : List Piece :=
  if t.requests.isEmpty then
    [.lit "\n",
     .lit "      <tr><td colspan=\"4\" class=\"pk-empty-state\">Nothing awaiting your",
     .lit " review.</td></tr>\n",
     .lit "      ", .lit "\n",
     .lit "      "]
  else
    [.lit "\n",
     .lit "      "]

/-- `work_queue.html` -/
def workQueueBody (t : WorkQueueTemplate) : List Piece :=
  queueHead ++ emptyNotice t ++ t.requests.flatMap queueRow ++
    [.lit "\n",
     .lit "    </tbody>\n",
     .lit "  </table>\n",
     .lit "\n"]

def WorkQueueTemplate.pieces (t : WorkQueueTemplate) : List Piece :=
  base t.title t.currentPage (workQueueBody t)

def detailHeader (request : RequestDetailRow) : List Piece :=
  [.lit "\n",
   .lit "<!-- Breadcrumbs -->\n",
   .lit "<nav class=\"pk-breadcrumbs\" aria-label=\"Breadcrumb\">\n",
   .lit "  <a href=\"/work-queue\">Work queue</a>\n",
   .lit "  <span class=\"separator\" aria-hidden=\"true\">/</span>\n",
   .lit "  <span class=\"current\">Request ", .value request.id, .lit "</span>\n",
   .lit "</nav>\n",
   .lit "\n",
   .lit "<!-- Page header -->\n",
   .lit "<div class=\"pk-page-header pk-flex-between\">\n",
   .lit "  <div>\n",
   .lit "    <h1>Request ", .value request.id, .lit "</h1>\n",
   .lit "    <p>\n",
   .lit "      <span class=\"pk-status-chip pk-status-chip--", .value request.statusClass,
   .lit "\">\n",
   .lit "        <span class=\"pk-status-icon\" aria-hidden=\"true\">",
   .value request.statusIcon, .lit "</span>\n",
   .lit "        ", .value request.statusLabel, .lit "\n",
   .lit "      </span>\n",
   .lit "      &nbsp;Requested by ", .value request.requestedBy, .lit "\n",
   .lit "    </p>\n",
   .lit "  </div>\n",
   .lit "</div>\n",
   .lit "\n"]

def intentTarget (intent : IntentPanelData) (shownCommit : String) : List Piece :=
  [.lit "<!-- Intent panel — the approval's centerpiece -->\n",
   .lit "<div class=\"pk-intent-panel pk-mb-lg\">\n",
   .lit "  <div class=\"pk-intent-panel-header\">\n",
   .lit "    <h3>Requested action</h3>\n",
   .lit "    <span class=\"pk-provenance-chip\">Recorded by Piteka</span>\n",
   .lit "  </div>\n",
   .lit "  <div class=\"pk-intent-panel-body\">\n",
   .lit "    <div class=\"pk-intent-field\">\n",
   .lit "      <span class=\"pk-intent-field-label\">Repository</span>\n",
   .lit "      <span class=\"pk-intent-field-value\">", .value intent.repositoryOwner, .lit "/",
   .value intent.repositoryName, .lit "</span>\n",
   .lit "    </div>\n",
   .lit "    <div class=\"pk-intent-field\">\n",
   .lit "      <span class=\"pk-intent-field-label\">Commit</span>\n",
   .lit "      <span class=\"pk-intent-field-value\">\n",
   .lit "        <span class=\"pk-hash-field\" tabindex=\"0\" role=\"button\"",
   .lit " aria-label=\"Copy commit SHA ", .value intent.commitSha, .lit "\">\n",
   .lit "          ", .value shownCommit, .lit "\n",
   .lit "          <span class=\"hash-tooltip\">", .value intent.commitSha, .lit "</span>\n",
   .lit "        </span>\n",
   .lit "      </span>\n",
   .lit "    </div>\n",
   .lit "    <div class=\"pk-intent-field\">\n",
   .lit "      <span class=\"pk-intent-field-label\">Environment</span>\n",
   .lit "      <span class=\"pk-intent-field-value\">\n",
   .lit "        ", .value intent.environmentName, .lit "\n",
   .lit "        "]

def productionChip (intent : IntentPanelData) : List Piece :=
  if intent.productionEnvironment then
    [.lit "\n",
     .lit "        <span class=\"pk-status-chip pk-status-chip--not-met\"",
     .lit " style=\"margin-left:var(--space-sm);\">Production</span>\n",
     .lit "        "]
  else []

def intentControls (intent : IntentPanelData) (shownDigest : String) : List Piece :=
  [.lit "\n",
   .lit "      </span>\n",
   .lit "    </div>\n",
   .lit "    <div class=\"pk-intent-field\">\n",
   .lit "      <span class=\"pk-intent-field-label\">Task</span>\n",
   .lit "      <span class=\"pk-intent-field-value\">", .value intent.task, .lit "</span>\n",
   .lit "    </div>\n",
   .lit "    <fieldset class=\"pk-deployment-controls\" disabled>\n",
   .lit "      <legend>Deployment controls</legend>\n",
   .lit "      <dl>\n",
   .lit "        <dt>Commit checks</dt><dd>All submitted checks</dd>\n",
   .lit "        <dt>Automatic merge</dt><dd>Off</dd>\n",
   .lit "        <dt>Deployment task</dt><dd>", .value intent.task, .lit "</dd>\n",
   .lit "        <dt>Environment type</dt><dd>Production</dd>\n",
   .lit "        <dt>Correlation payload</dt><dd>Piteka-controlled</dd>\n",
   .lit "        <dt>Gate-policy fingerprint</dt><dd><code>", .value shownDigest,
   .lit "</code></dd>\n",
   .lit "      </dl>\n",
   .lit "    </fieldset>\n",
   .lit "    <div class=\"pk-intent-field\">\n",
   .lit "      <span class=\"pk-intent-field-label\">Expiry</span>\n",
   .lit "      <span class=\"pk-intent-field-value\">\n",
   .lit "        "]

def expiry (intent : IntentPanelData) : List Piece :=
  if intent.expiresAt.isSome then
    [.lit "\n",
     .lit "        ", .value intent.expiresAtHuman, .lit "\n",
     .lit "        "] ++
      (if intent.expired then
        [.lit "\n",
         .lit "        <span class=\"pk-status-chip pk-status-chip--not-met\"",
         .lit " style=\"margin-left:var(--space-sm);\">Expired</span>\n",
         .lit "        "]
      else []) ++
      [.lit "\n", .lit "        "]
  else
    [.lit "\n",
     .lit "        No expiry set\n",
     .lit "        "]

def intentFooter (request : RequestDetailRow) (intent : IntentPanelData) (shownDigest : String) :
    List Piece :=
  [.lit "\n",
   .lit "      </span>\n",
   .lit "    </div>\n",
   .lit "    <div class=\"pk-intent-field\">\n",
   .lit "      <span class=\"pk-intent-field-label\">Intent fingerprint</span>\n",
   .lit "      <span class=\"pk-intent-field-value\">\n",
   .lit "        <span class=\"pk-hash-field\" tabindex=\"0\" role=\"button\"",
   .lit " aria-label=\"Copy intent fingerprint ", .value intent.digest, .lit "\">\n",
   .lit "          ", .value shownDigest, .lit "\n",
   .lit "          <span class=\"hash-tooltip\">", .value intent.digest, .lit "</span>\n",
   .lit "        </span>\n",
   .lit "      </span>\n",
   .lit "    </div>\n",
   .lit "    <div class=\"pk-intent-field\">\n",
   .lit "      <span class=\"pk-intent-field-label\">Requested at</span>\n",
   .lit "      <span class=\"pk-intent-field-value\">\n",
   .lit "        <time datetime=\"", .value request.createdAtIso,
   .lit "\" data-local-time tabindex=\"0\">", .value request.createdAtHuman, .lit "</time>\n",
   .lit "      </span>\n",
   .lit "    </div>\n",
   .lit "  </div>\n",
   .lit "</div>\n",
   .lit "\n",
   .lit "<!-- Evidence requirements -->\n"]

def evidencePanel (intent : IntentPanelData) : List Piece :=
  if intent.evidenceRequirements.isEmpty then []
  else
    [.lit "\n",
     .lit "<div class=\"pk-card pk-mb-lg\">\n",
     .lit "  <div class=\"pk-card-header\">\n",
     .lit "    <h3>Evidence requirements</h3>\n",
     .lit "    <span class=\"pk-provenance-chip\">Recorded by Piteka</span>\n",
     .lit "  </div>\n",
     .lit "  <ul style=\"list-style:none;padding:0;\">\n",
     .lit "    "] ++
      (intent.evidenceRequirements.flatMap fun req =>
        [.lit "\n",
         .lit "    <li style=\"padding:var(--space-xs)",
         .lit " 0;font-size:0.875rem;color:var(--ink-1);\">\n",
         .lit "      <span aria-hidden=\"true\"",
         .lit " style=\"color:var(--ink-3);margin-right:var(--space-xs);\">—</span>\n",
         .lit "      ", .value req, .lit "\n",
         .lit "    </li>\n",
         .lit "    "]) ++
      [.lit "\n",
       .lit "  </ul>\n",
       .lit "</div>\n"]

def decisionRow (row : DecisionRow) : List Piece :=
  [.lit "\n",
   .lit "      <tr>\n",
   .lit "        <td>\n",
   .lit "          <span class=\"pk-identity-badge\">\n",
   .lit "            <span class=\"pk-identity-avatar\" aria-hidden=\"true\">",
   .value (firstChar row.decidedBy), .lit "</span>\n",
   .lit "            ", .value row.decidedBy, .lit "\n",
   .lit "          </span>\n",
   .lit "        </td>\n",
   .lit "        <td>\n",
   .lit "          <span class=\"pk-status-chip pk-status-chip--", .value row.decisionClass,
   .lit "\">\n",
   .lit "            ", .value row.decisionLabel, .lit "\n",
   .lit "          </span>\n",
   .lit "        </td>\n",
   .lit "        <td>\n",
   .lit "          <time datetime=\"", .value row.decidedAtIso,
   .lit "\" data-local-time tabindex=\"0\">", .value row.decidedAtHuman, .lit "</time>\n",
   .lit "        </td>\n",
   .lit "      </tr>\n",
   .lit "      "]

def decisionsPanel (request : RequestDetailRow) : List Piece :=
  if request.decisions.isEmpty then
    [.lit "\n",
     .lit "\n",
     .lit "<!-- Decisions history -->\n"]
  else
    [.lit "\n",
     .lit "\n",
     .lit "<!-- Decisions history -->\n",
     .lit "\n",
     .lit "<div class=\"pk-card pk-mb-lg\">\n",
     .lit "  <div class=\"pk-card-header\">\n",
     .lit "    <h3>Decisions</h3>\n",
     .lit "  </div>\n",
     .lit "  <table class=\"pk-table\">\n",
     .lit "    <thead>\n",
     .lit "      <tr>\n",
     .lit "        <th scope=\"col\">Decided by</th>\n",
     .lit "        <th scope=\"col\">Decision</th>\n",
     .lit "        <th scope=\"col\">At</th>\n",
     .lit "      </tr>\n",
     .lit "    </thead>\n",
     .lit "    <tbody>\n",
     .lit "      "] ++
      request.decisions.flatMap decisionRow ++
      [.lit "\n",
       .lit "    </tbody>\n",
       .lit "  </table>\n",
       .lit "</div>\n"]

def quarantineBanner (request : RequestDetailRow) : List Piece :=
  if request.status = "Quarantined" then
    [.lit "\n",
     .lit "\n",
     .lit "<!-- Quarantine banner (if applicable) -->\n",
     .lit "\n",
     .lit "<div class=\"pk-quarantine-banner\" role=\"alert\">\n",
     .lit "  <div class=\"pk-quarantine-banner-title\">Outcome under review</div>\n",
     .lit "  We cannot confirm whether GitHub accepted this deployment. This",
     .lit " approval cannot be retried.\n",
     .lit "  <p>Review may confirm that it was accepted. If confirmation remains",
     .lit " impossible, this approval will be closed unresolved and remain unusable.</p>\n",
     .lit "</div>\n"]
  else
    [.lit "\n",
     .lit "\n",
     .lit "<!-- Quarantine banner (if applicable) -->\n"]

def approvalActions (request : RequestDetailRow) : List Piece :=
  if request.status = "Pending" then
    [.lit "\n",
     .lit "\n",
     .lit "<!-- Approval action bar — only shown for Pending requests -->\n",
     .lit "\n",
     .lit "<div class=\"pk-approval-actions\" role=\"region\" aria-label=\"Approval",
     .lit " actions\">\n",
     .lit "  <button type=\"button\" class=\"pk-btn pk-btn-primary\"\n",
     .lit "          onclick=\"pkOpenStepUp('Confirm your identity before recording",
     .lit " this deployment approval.')\"\n",
     .lit "          aria-label=\"Approve deployment request ", .value request.id, .lit "\">\n",
     .lit "    Approve deployment\n",
     .lit "  </button>\n",
     .lit "  <form method=\"post\" action=\"/api/v1/action-requests/", .value request.id,
     .lit "/reject\" style=\"display:inline;\">\n",
     .lit "    <button type=\"submit\" class=\"pk-btn pk-btn-destructive\"\n",
     .lit "            aria-label=\"Reject request ", .value request.id, .lit "\">\n",
     .lit "      Reject\n",
     .lit "    </button>\n",
     .lit "  </form>\n",
     .lit "  <div class=\"pk-actions-spacer\"></div>\n",
     .lit "  <div class=\"pk-reauth-note\">\n",
     .lit "    Confirm identity is required. Your decision is recorded separately",
     .lit " from the mandate issued and signed by Piteka.\n",
     .lit "  </div>\n",
     .lit "</div>\n"]
  else
    [.lit "\n",
     .lit "\n",
     .lit "<!-- Approval action bar — only shown for Pending requests -->\n"]

def limitations : List Piece :=
  [.lit "\n",
   .lit "\n",
   .lit "<!-- Limitations strip — always shown on detail page -->\n",
   .lit "<div class=\"pk-limitations-strip\" role=\"note\">\n",
   .lit "  <strong>What this record does not establish:</strong> that the action",
   .lit " was legally authorized beyond this approval policy,\n",
   .lit "  that every statement inside the evidence is factually true, or that all",
   .lit " relevant events were captured.\n",
   .lit "</div>\n",
   .lit "\n"]

/-- `request_detail.html` -/
def requestDetailBody (t : RequestDetailTemplate) (shownCommit shownDigest : String) : List Piece :=
  detailHeader t.request ++ intentTarget t.intent shownCommit ++ productionChip t.intent ++
    intentControls t.intent shownDigest ++ expiry t.intent ++
    intentFooter t.request t.intent shownDigest ++ evidencePanel t.intent ++
    decisionsPanel t.request ++ quarantineBanner t.request ++ approvalActions t.request ++
    limitations

def RequestDetailTemplate.pieces (t : RequestDetailTemplate) : Option (List Piece) := do
  let shownCommit ← truncateHash t.intent.commitSha
  let shownDigest ← truncateHash t.intent.digest
  return base t.title t.currentPage (requestDetailBody t shownCommit shownDigest)

end Piteka.Web
