import Piteka.GitHub.DeploymentRequest

/-!
# Constructing the adapter

The constructors of the GitHub ids and names, and of the adapter itself. A value that
passes is kept as it was given; nothing is trimmed.
-/
namespace Piteka.GitHub

set_option autoImplicit false

open Piteka.Domain Piteka.Text

inductive GitHubIdError where
  | empty
  | nonNumeric
  deriving DecidableEq

/-- The checks of a numeric id. -/
def checkNumericId (value : String) : Except GitHubIdError (PLift (IsNumericId value)) :=
  if hblank : trimIsEmpty value then .error .empty
  else if hdigits : (Ascii.bytes value).all (fun b => 48 ≤ b && b ≤ 57) then
    .ok ⟨not_blank hblank, hdigits⟩
  else .error .nonNumeric

/-- The check of a name or of a reference. -/
def checkNonblank (value : String) : Except GitHubIdError (PLift (trimIsEmpty value = false)) :=
  if h : trimIsEmpty value then .error .empty else .ok ⟨not_blank h⟩

def GitHubInstallationId.new (value : String) : Except GitHubIdError GitHubInstallationId :=
  (checkNumericId value).map fun h => ⟨value, h.down⟩

def GitHubRepositoryId.new (value : String) : Except GitHubIdError GitHubRepositoryId :=
  (checkNumericId value).map fun h => ⟨value, h.down⟩

def GitHubRepositoryName.new (value : String) : Except GitHubIdError GitHubRepositoryName :=
  (checkNonblank value).map fun h => ⟨value, h.down⟩

structure GitHubEnvironmentId where
  asStr : String
  numeric : IsNumericId asStr

def GitHubEnvironmentId.new (value : String) : Except GitHubIdError GitHubEnvironmentId :=
  (checkNumericId value).map fun h => ⟨value, h.down⟩

def GitHubEnvironmentName.new (value : String) : Except GitHubIdError GitHubEnvironmentName :=
  (checkNonblank value).map fun h => ⟨value, h.down⟩

def GitHubSecretReference.new (value : String) : Except GitHubIdError GitHubSecretReference :=
  (checkNonblank value).map fun h => ⟨value, h.down⟩

def GitHubWebhookSecret.new (value : String) : Except GitHubIdError GitHubWebhookSecret :=
  (checkNonblank value).map fun h => ⟨value, h.down⟩

/-- `.map_err(|_| GitHubAppError::EmptyField(field))` -/
def orEmptyField {α : Type} (field : String) (r : Except GitHubIdError α) : Except GitHubAppError α :=
  r.mapError fun _ => .emptyField field

/-- The environment id is checked; the model's context does not keep it. -/
def GitHubInstallationContext.new
    (installationId repositoryId repositoryName environmentId environmentName : String) :
    Except GitHubAppError GitHubInstallationContext := do
  let installationId ← orEmptyField "installation_id" (GitHubInstallationId.new installationId)
  let repositoryId ← orEmptyField "repository_id" (GitHubRepositoryId.new repositoryId)
  let repositoryName ← orEmptyField "repository_name" (GitHubRepositoryName.new repositoryName)
  let _ ← orEmptyField "environment_id" (GitHubEnvironmentId.new environmentId)
  let environmentName ← orEmptyField "environment_name" (GitHubEnvironmentName.new environmentName)
  return { installationId, repositoryId, repositoryName, environmentName }

namespace GitHubAppAdapter

/-- The reference to the webhook secret is checked; the calls of the model do not use it. -/
def new (context : GitHubInstallationContext) (appSecretReference webhookSecretReference : String) :
    Except GitHubAppError GitHubAppAdapter := do
  let appSecretReference ← orEmptyField "app_secret_reference" (GitHubSecretReference.new appSecretReference)
  let _ ← orEmptyField "webhook_secret_reference" (GitHubWebhookSecret.new webhookSecretReference)
  return { context, appSecretReference, appId := none, apiBaseUrl := "https://api.github.com" }

def withLiveTransport (adapter : GitHubAppAdapter) (appId : UInt64) : GitHubAppAdapter :=
  { adapter with appId := some appId }

end GitHubAppAdapter

/-- `str::parse::<u64>`: an optional sign `+` and decimal digits that fit. -/
def parseU64 (text : String) : Option UInt64 :=
  let digits :=
    match text.toList with
    | '+' :: digits => digits
    | digits => digits
  if digits = [] ∨ digits.all Char.isDigit = false then none
  else
    let n := digits.foldl (fun n c => 10 * n + (c.toNat - 48)) 0
    if n < 2 ^ 64 then some (UInt64.ofNat n) else none

example : parseU64 "18446744073709551615" = some 18446744073709551615 := by decide
example : parseU64 "18446744073709551616" = none := by decide

end Piteka.GitHub
