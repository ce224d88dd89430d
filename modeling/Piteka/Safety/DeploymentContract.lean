import Piteka.Application.ToolBoundary
import Piteka.Deploy.DeploymentEcho
import Piteka.GitHub.Intent

/-!
# The adapter and the consumer

The adapter takes a commit in digits of either case, and the normalizer, the tool
boundary and the consumer take it in lower case only. Apart from the commits with an
upper-case digit the four sets are one, and what the adapter sends is accepted.
-/
namespace Piteka.Safety

set_option autoImplicit false

open Piteka.Checks Piteka.Application Piteka.Deploy Piteka.GitHub Piteka.Python Piteka.Storage
  Piteka.Text

def hasUpperDigit (commitSha : String) : Bool := (Ascii.bytes commitSha).any isUpperDigit

/-- Some call with this commit passes the adapter's checks. -/
def AdapterTakes (commitSha : String) : Prop :=
  ∃ context call, checkCall context call = .ok () ∧ call.commitSha = commitSha

/-- The digits of the lower case, as the other three checks ask for them. -/
def LowerSha (commitSha : String) : Prop :=
  (Ascii.bytes commitSha).length = 40 ∧ (Ascii.bytes commitSha).all Hex.isLowerDigit = true

theorem lowerDigit_not_upper {b : UInt8} (h : Hex.isLowerDigit b = true) :
    isUpperDigit b = false := by
  simp only [Hex.isLowerDigit, isUpperDigit, Bool.or_eq_true, Bool.and_eq_true, decide_eq_true_eq,
    Bool.and_eq_false_iff, decide_eq_false_iff_not, UInt8.le_iff_toNat_le] at h ⊢
  change (48 ≤ b.toNat ∧ b.toNat ≤ 57) ∨ (97 ≤ b.toNat ∧ b.toNat ≤ 102) at h
  change ¬ 65 ≤ b.toNat ∨ ¬ b.toNat ≤ 70
  omega

theorem lowerSha_iff {commitSha : String} :
    LowerSha commitSha ↔ AdapterSha commitSha ∧ hasUpperDigit commitSha = false := by
  unfold LowerSha AdapterSha hasUpperDigit
  rw [and_assoc]
  refine and_congr_right fun _ => ?_
  simp only [List.all_eq_true, List.any_eq_false, isAsciiHexdigit, Bool.or_eq_true]
  constructor
  · intro h
    exact ⟨fun b hb => Or.inl (h b hb),
      fun b hb => Bool.eq_false_iff.mp (lowerDigit_not_upper (h b hb))⟩
  · intro h b hb
    exact (h.1 b hb).resolve_right (h.2 b hb)

theorem validateCommitSha_ok {commitSha : String} :
    validateCommitSha commitSha = .ok () ↔ LowerSha commitSha := by
  unfold validateCommitSha byteLen LowerSha
  simp only [guard_eq_ok, ne_eq, not_not, Bool.not_eq_true', Bool.not_eq_false, and_true]

theorem validSha_iff {commitSha : String} : validSha commitSha = true ↔ LowerSha commitSha := by
  rw [validSha, Bool.and_eq_true, beq_iff_eq, LowerSha]

/-- The request's fields, as the provider finds them. -/
theorem deploymentRequestBody_get (commitSha : String) (environment : GitHubEnvironmentName)
    (attemptDigest : Vector UInt8 32) :
    let body := deploymentRequestBody commitSha environment attemptDigest
    body.get "ref" = some (.string commitSha) ∧
      body.get "environment" = some (.string environment.asStr) ∧
      body.get "payload" = some (correlationPayload attemptDigest) := by
  simp [deploymentRequestBody, Json.get]

/-- The consumer of a call's event accepts it, with the commit and the digest that were sent. -/
def ConsumerAccepts (loads : Loads) (context : GitHubInstallationContext) (call : DeploymentCall)
    (event : Value) (n m : Int) : Prop :=
  validate loads event (lit context.environmentName.asStr) =
    .ok ⟨str n, lit call.commitSha, lit (ContentDigest.toHex ⟨call.attemptDigest⟩), str m⟩

def bodyOf (call : DeploymentCall) : Json :=
  deploymentRequestBody call.commitSha call.environment call.attemptDigest

section
variable {loads : Loads} {context : GitHubInstallationContext} {call : DeploymentCall}
  {event : Value} {n m : Int}

theorem consumerAccepts_iff (hcall : checkCall context call = .ok ())
    (hecho : Echoes (bodyOf call) event n m) :
    ConsumerAccepts loads context call event n m ↔ LowerSha call.commitSha := by
  obtain ⟨ref, environment, payload, d, rep, href, henv, hpay, hopen, hn, hm, hsha, hrefs, htask,
    henvs, hpays⟩ := hecho
  obtain ⟨href', henv', hpay'⟩ := deploymentRequestBody_get call.commitSha call.environment
    call.attemptDigest
  obtain rfl := Option.some.inj (href'.symm.trans href)
  obtain rfl := Option.some.inj (henv'.symm.trans henv)
  obtain rfl := Option.some.inj (hpay'.symm.trans hpay)
  obtain ⟨_, _, hcontext, _⟩ := checkCall_ok.mp hcall
  constructor
  · intro h
    obtain ⟨_, sha, _, _, ⟨_, _, _, hfields, _⟩, hr⟩ := validate_ok.mp h
    obtain rfl : lit call.commitSha = sha := congrArg Validated.sha hr
    exact lowerHex_lit.mp hfields.lowerHex
  · intro h
    obtain ⟨fields, hdict, hfields⟩ := correlationPayload_fields call.attemptDigest
    refine validate_ok.mpr ⟨n, _, _, m, ⟨d, rep, hopen, ⟨hn, hsha, lowerHex_lit.mpr h, hrefs,
      htask, ?_⟩, ⟨_, fields, hpays, Or.inl hdict, hfields⟩, hm⟩, rfl⟩
    rw [henvs, hcontext]
    rfl

end

/-! ## A configured adapter -/

def demoContext : GitHubInstallationContext where
  installationId := ⟨"1", by decide, by decide⟩
  repositoryId := ⟨"2", by decide, by decide⟩
  repositoryName := ⟨"owner/demo", by decide⟩
  environmentName := ⟨"production", by decide⟩

def demoCall (commitSha : String) : DeploymentCall where
  installationId := demoContext.installationId
  repositoryId := demoContext.repositoryId
  commitSha := commitSha
  environment := demoContext.environmentName
  autoMerge := false
  payloadCommitment := ContentDigest.toHex ⟨Vector.replicate 32 0⟩
  attemptDigest := Vector.replicate 32 0

/-- The event of the deployment that the call created. -/
def demoEvent (commitSha : String) : Value :=
  .dict [(lit "action", .str (lit "created")),
    (lit "deployment", .dict [(lit "id", .int 7), (lit "sha", .str (lit commitSha)),
      (lit "ref", .str (lit commitSha)), (lit "task", .str (lit "deploy")),
      (lit "environment", .str (lit "production")),
      (lit "payload", ofJson (correlationPayload (Vector.replicate 32 0)))]),
    (lit "repository", .dict [(lit "id", .int 2)])]

theorem demoCall_checked {commitSha : String} (h : AdapterSha commitSha) :
    checkCall demoContext (demoCall commitSha) = .ok () := by
  obtain ⟨hlen, hdigits⟩ := ContentDigest.toHex_digits ⟨Vector.replicate 32 0⟩
  refine checkCall_ok.mpr ⟨rfl, rfl, rfl, h, ⟨hlen, ?_⟩, rfl⟩
  refine List.all_eq_true.mpr fun b hb => ?_
  rw [isAsciiHexdigit, List.all_eq_true.mp hdigits b hb, Bool.true_or]

theorem demoEvent_echoes (commitSha : String) :
    Echoes (bodyOf (demoCall commitSha)) (demoEvent commitSha) 7 2 := by
  obtain ⟨href, henv, hpay⟩ := deploymentRequestBody_get commitSha demoContext.environmentName
    (Vector.replicate 32 0)
  refine ⟨_, _, _, _, _, href, henv, hpay, ⟨_, rfl, rfl, rfl⟩, ⟨rfl, by decide⟩,
    ⟨rfl, by decide⟩, rfl, rfl, rfl, rfl, rfl⟩

theorem adapterTakes_iff {commitSha : String} : AdapterTakes commitSha ↔ AdapterSha commitSha := by
  constructor
  · rintro ⟨context, call, hcall, rfl⟩
    exact (checkCall_ok.mp hcall).2.2.2.1
  · exact fun h => ⟨demoContext, demoCall commitSha, demoCall_checked h, rfl⟩

theorem sent_commit_accepted_iff {loads : Loads} {context : GitHubInstallationContext}
    {call : DeploymentCall} {event : Value} {n m : Int}
    (hcall : checkCall context call = .ok ()) (hecho : Echoes (bodyOf call) event n m)
    (commitSha : String) :
    (ConsumerAccepts loads context call event n m ↔ hasUpperDigit call.commitSha = false) ∧
      ((AdapterTakes commitSha ↔ validateCommitSha commitSha = .ok ()) ∧
          (AdapterTakes commitSha ↔ validSha commitSha = true) ↔
        ¬ (AdapterTakes commitSha ∧ hasUpperDigit commitSha = true)) := by
  have hsent : AdapterSha call.commitSha := (checkCall_ok.mp hcall).2.2.2.1
  refine ⟨?_, ?_⟩
  · rw [consumerAccepts_iff hcall hecho, lowerSha_iff]
    exact and_iff_right hsent
  · rw [validateCommitSha_ok, validSha_iff, and_self_iff, lowerSha_iff, adapterTakes_iff,
      iff_self_and, not_and, Bool.not_eq_true]

def lowerSha : String := "0123456789abcdef0123456789abcdef01234567"

def upperSha : String := "ABCDEF0123456789abcdef0123456789abcdef01"

theorem sent_commit_accepted_iff_demo :
    (ConsumerAccepts (fun _ => .error .jsonDecodeError) demoContext (demoCall lowerSha)
        (demoEvent lowerSha) 7 2 ↔ hasUpperDigit lowerSha = false) ∧
      ((AdapterTakes upperSha ↔ validateCommitSha upperSha = .ok ()) ∧
          (AdapterTakes upperSha ↔ validSha upperSha = true) ↔
        ¬ (AdapterTakes upperSha ∧ hasUpperDigit upperSha = true)) :=
  sent_commit_accepted_iff (demoCall_checked ⟨by decide, by decide⟩)
    (demoEvent_echoes lowerSha) upperSha

/-- The adapter sends a commit with upper-case digits, and the consumer rejects its event. -/
theorem upper_commit_rejected :
    checkCall demoContext (demoCall upperSha) = .ok () ∧
      Echoes (bodyOf (demoCall upperSha)) (demoEvent upperSha) 7 2 ∧
      ¬ ConsumerAccepts (fun _ => .error .jsonDecodeError) demoContext (demoCall upperSha)
        (demoEvent upperSha) 7 2 ∧
      AdapterTakes upperSha ∧ validateCommitSha upperSha ≠ .ok () ∧ validSha upperSha = false := by
  have hsha : AdapterSha upperSha := ⟨by decide, by decide⟩
  have hcall := demoCall_checked hsha
  have hupper : ¬ LowerSha upperSha := by
    rintro ⟨_, h⟩
    revert h
    decide
  refine ⟨hcall, demoEvent_echoes upperSha, ?_, adapterTakes_iff.mpr hsha, ?_, ?_⟩
  · exact fun h => hupper ((consumerAccepts_iff hcall (demoEvent_echoes upperSha)).mp h)
  · exact fun h => hupper (validateCommitSha_ok.mp h)
  · exact Bool.eq_false_iff.mpr fun h => hupper (validSha_iff.mp h)

end Piteka.Safety
