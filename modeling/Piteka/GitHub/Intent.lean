import Piteka.Domain.Identity
import Piteka.Text.Ascii
import Piteka.Text.Hex

/-!
# Intent normalization

The only place that builds a deployment intent from raw input. The accountability
types and their construction come from the linked contract and are the fields of
`Contract`; every check that the normalizer makes itself is here, in its order.
-/
namespace Piteka.GitHub

set_option autoImplicit false

open Piteka.Domain Piteka.Text

/-- Maximum UTF-8 byte length of any presentation label. -/
def maxDisplayBytes : Nat := 255

def maxRequiredContexts : Nat := 32

def maxIdentityBytes : Nat := 4096

def githubDeploymentTaskV1 : String := "deploy"

inductive NormalizeError where
  | emptyField (field : String)
  | displayFieldTooLong (field : String)
  | invalidCommitSha
  | refMismatch
  | autoMergeForbidden
  | invalidEnvironmentClassification
  | invalidRequiredContexts
  | gatePolicyMismatch
  | tooManyContextCommitments
  | identityTooLong
  | unsupportedTask
  | invalidContextsMode (message : String)
  | invalidStableId
  | parwanaError (message : String)
  | invalidContextName (message : String)
  deriving DecidableEq

/-! ## The linked contract -/

/-- The failures of the contract that the normalizer tells apart, and any other. -/
inductive IntentError where
  | emptyField (field : String)
  | displayFieldTooLong (field : String)
  | invalidCommitSha
  | invalidRequiredContexts
  | gatePolicyMismatch
  | invalidStableId
  | invalidEvidenceSourceDeclaration
  | identityTooLong
  | tooManyContextCommitments
  | parametersCommitmentMismatch
  | unsupportedVersion
  | unsupportedTask
  | targetMismatch
  | unregisteredProfile
  | other (name : String)

abbrev Digest := Vector UInt8 32

structure GatePolicyId where
  intoBytes : Digest

structure GitHubDeploymentIntentV1 (RequiredContexts : Type) where
  repositoryId : UInt64
  repositoryOwner : String
  repositoryName : String
  commitSha : String
  exactRef : String
  environmentId : UInt64
  environmentName : String
  requiredContexts : RequiredContexts
  payloadCommitment : Digest
  artifactDigest : Option Digest
  deploymentGatePolicyDigest : GatePolicyId

/-- What the normalizer uses of the contract: the required contexts and the digest of a gate,
the registry's entry for the deployment profile, and the construction of an intent. -/
structure Contract where
  RequiredContexts : Type
  Descriptor : Type
  Codec : Type
  ActionIntent : Type
  allSubmitted : RequiredContexts
  explicit : List String → Except IntentError RequiredContexts
  gatePolicyId : RequiredContexts → Except IntentError GatePolicyId
  descriptor : Option Descriptor
  codec : Option Codec
  validateProfile : GitHubDeploymentIntentV1 RequiredContexts → Except IntentError Unit
  canonicalBytes : GitHubDeploymentIntentV1 RequiredContexts → Except IntentError (List UInt8)
  newIntent : Descriptor → Codec → (profileBytes requestedBy : List UInt8) →
    (requestedAt : UInt64) → (requestNonce : Digest) → (contextCommitments : List Digest) →
    Except IntentError ActionIntent
  validateIntent : ActionIntent → Except IntentError Unit
  debug : IntentError → String

/-! ## Texts -/

/-- `str::trim` -/
def trim (value : String) : String :=
  String.ofList ((value.toList.dropWhile isWhiteSpace).reverse.dropWhile isWhiteSpace).reverse

/-- `char::is_control`: the general category Cc. -/
def isControl (c : Char) : Bool :=
  c.toNat < 0x20 || (0x7F ≤ c.toNat && c.toNat ≤ 0x9F)

/-- `str::len` -/
def byteLen (value : String) : Nat := (Ascii.bytes value).length

/-- The order of `str`, which compares the bytes. -/
def Before (a b : String) : Prop := Ascii.bytes a < Ascii.bytes b

instance (a b : String) : Decidable (Before a b) :=
  inferInstanceAs (Decidable (Ascii.bytes a < Ascii.bytes b))

/-! ## The checks -/

inductive RequiredContextsMode where
  | allSubmitted
  | explicitNonEmpty (contexts : List String)

structure GitHubDeploymentInput where
  repositoryId : UInt64
  repositoryOwner : String
  repositoryName : String
  commitSha : String
  refField : String
  task : String
  environmentId : UInt64
  environmentName : String
  requiredContexts : RequiredContextsMode
  autoMerge : Bool
  productionEnvironment : Bool
  transientEnvironment : Bool
  artifactDigest : Option Digest
  deploymentGatePolicyDigest : Option Digest

def validateTask (task : String) : Except NormalizeError Unit :=
  if task ≠ githubDeploymentTaskV1 then .error .unsupportedTask else .ok ()

def validateAutoMerge (autoMerge : Bool) : Except NormalizeError Unit :=
  if autoMerge then .error .autoMergeForbidden else .ok ()

def validateEnvironmentClassification (production transient : Bool) : Except NormalizeError Unit :=
  if !production || transient then .error .invalidEnvironmentClassification else .ok ()

def validateStableId (id : UInt64) : Except NormalizeError Unit :=
  if id = 0 then .error .invalidStableId else .ok ()

/-- A blank end or a control character is reported as a field that is too long. -/
def validateDisplayField (name value : String) : Except NormalizeError Unit :=
  if value = "" then .error (.emptyField name)
  else if maxDisplayBytes < byteLen value then .error (.displayFieldTooLong name)
  else if trim value ≠ value then .error (.displayFieldTooLong name)
  else if value.toList.any isControl then .error (.displayFieldTooLong name)
  else .ok ()

def validateCommitSha (sha : String) : Except NormalizeError Unit :=
  if byteLen sha ≠ 40 then .error .invalidCommitSha
  else if !(Ascii.bytes sha).all Hex.isLowerDigit then .error .invalidCommitSha
  else .ok ()

def validateContextName (context : String) : Except NormalizeError Unit :=
  if context = "" then .error (.invalidContextName "context name is empty")
  else if trim context ≠ context then
    .error (.invalidContextName "context name has leading/trailing whitespace")
  else if maxDisplayBytes < byteLen context then
    .error (.invalidContextName "context name too long")
  else if context.toList.any isControl then
    .error (.invalidContextName "context name contains control characters")
  else .ok ()

/-- The loop over the names. -/
def validateContextNames : List String → Except NormalizeError Unit
  | [] => .ok ()
  | context :: contexts => do
    validateContextName context
    validateContextNames contexts

/-- The loop over `contexts.windows(2)`. -/
def validateContextOrder : List String → Except NormalizeError Unit
  | a :: b :: contexts =>
    if Before a b then validateContextOrder (b :: contexts) else .error .invalidRequiredContexts
  | _ => .ok ()

/-- The checks of an explicit list, before the contract sees it. -/
def checkContexts (contexts : List String) : Except NormalizeError Unit :=
  if contexts = [] then .error .invalidRequiredContexts
  else if maxRequiredContexts < contexts.length then .error .invalidRequiredContexts
  else do
    validateContextNames contexts
    validateContextOrder contexts

section
variable (k : Contract)

def explicitContexts (contexts : List String) : Except NormalizeError k.RequiredContexts :=
  (k.explicit contexts).mapError fun _ => .invalidRequiredContexts

def derivedGate (contexts : k.RequiredContexts) : Except NormalizeError GatePolicyId :=
  (k.gatePolicyId contexts).mapError fun _ => .gatePolicyMismatch

def validateRequiredContexts : RequiredContextsMode → Except NormalizeError k.RequiredContexts
  | .allSubmitted => .ok k.allSubmitted
  | .explicitNonEmpty contexts => do
    checkContexts contexts
    explicitContexts k contexts

/-- The `match` of `compute_gate_policy_digest`, which validates a list and constructs it again. -/
def digestContexts : RequiredContextsMode → Except NormalizeError k.RequiredContexts
  | .allSubmitted => .ok k.allSubmitted
  | .explicitNonEmpty contexts => do
    let _ ← validateRequiredContexts k (.explicitNonEmpty contexts)
    explicitContexts k contexts

def computeGatePolicyDigest (mode : RequiredContextsMode) : Except NormalizeError Digest := do
  let contexts ← digestContexts k mode
  let gate ← derivedGate k contexts
  return gate.intoBytes

/-! ## Normalization -/

def profileError : IntentError → NormalizeError
  | .emptyField f => .emptyField f
  | .displayFieldTooLong f => .displayFieldTooLong f
  | .invalidCommitSha => .invalidCommitSha
  | .invalidRequiredContexts => .invalidRequiredContexts
  | .gatePolicyMismatch => .gatePolicyMismatch
  | .invalidStableId => .invalidStableId
  | .invalidEvidenceSourceDeclaration => .invalidRequiredContexts
  | e => .invalidContextsMode (k.debug e)

def constructionError : IntentError → NormalizeError
  | .emptyField f => .emptyField f
  | .identityTooLong => .identityTooLong
  | .tooManyContextCommitments => .tooManyContextCommitments
  | .parametersCommitmentMismatch => .parwanaError "parameters commitment mismatch"
  | e => .parwanaError ("intent construction failed: " ++ k.debug e)

def validationError : IntentError → NormalizeError
  | .unsupportedVersion => .parwanaError "unsupported protocol version"
  | .unsupportedTask => .unsupportedTask
  | .targetMismatch => .parwanaError "target mismatch"
  | .parametersCommitmentMismatch => .parwanaError "parameters commitment mismatch"
  | .emptyField f => .emptyField f
  | .identityTooLong => .identityTooLong
  | .tooManyContextCommitments => .tooManyContextCommitments
  | e => .parwanaError ("intent validation failed: " ++ k.debug e)

def buildGithubActionIntent (profile : GitHubDeploymentIntentV1 k.RequiredContexts)
    (requestedBy : List UInt8) (requestedAt : UInt64) (requestNonce : Digest)
    (contextCommitments : List Digest) : Except IntentError k.ActionIntent :=
  match k.descriptor, k.codec with
  | some descriptor, some codec => do
    let profileBytes ← k.canonicalBytes profile
    k.newIntent descriptor codec profileBytes requestedBy requestedAt requestNonce
      contextCommitments
  | _, _ => .error .unregisteredProfile

structure NormalizedIntent where
  intent : k.ActionIntent
  profile : GitHubDeploymentIntentV1 k.RequiredContexts
  gatePolicyDigest : Digest

/-- The checks up to the required contexts. -/
def checkInput (input : GitHubDeploymentInput) : Except NormalizeError Unit := do
  validateTask input.task
  validateAutoMerge input.autoMerge
  validateEnvironmentClassification input.productionEnvironment input.transientEnvironment
  validateStableId input.repositoryId
  validateStableId input.environmentId
  validateDisplayField "repository_owner" input.repositoryOwner
  validateDisplayField "repository_name" input.repositoryName
  validateDisplayField "environment_name" input.environmentName
  validateCommitSha input.commitSha
  if input.refField ≠ input.commitSha then throw .refMismatch

/-- The comparison with the digest that the caller supplied, if any. -/
def checkSuppliedGate (supplied : Option Digest) (gate : GatePolicyId) :
    Except NormalizeError Unit :=
  match supplied with
  | some digest => if digest ≠ gate.intoBytes then .error .gatePolicyMismatch else .ok ()
  | none => .ok ()

def checkRequester (requestedBy : List UInt8) (contextCommitments : List Digest) :
    Except NormalizeError Unit :=
  if requestedBy = [] then .error (.emptyField "requested_by")
  else if maxIdentityBytes < requestedBy.length then .error .identityTooLong
  else if 32 < contextCommitments.length then .error .tooManyContextCommitments
  else .ok ()

def GitHubDeploymentInput.profile (input : GitHubDeploymentInput)
    (requiredContexts : k.RequiredContexts) (gate : GatePolicyId) :
    GitHubDeploymentIntentV1 k.RequiredContexts where
  repositoryId := input.repositoryId
  repositoryOwner := input.repositoryOwner
  repositoryName := input.repositoryName
  commitSha := input.commitSha
  exactRef := input.refField
  environmentId := input.environmentId
  environmentName := input.environmentName
  requiredContexts := requiredContexts
  payloadCommitment := Vector.replicate 32 0
  artifactDigest := input.artifactDigest
  deploymentGatePolicyDigest := gate

/-- The end of `normalize`, behind the gate. -/
def constructIntent (profile : GitHubDeploymentIntentV1 k.RequiredContexts)
    (requestedBy : List UInt8) (requestedAt : UInt64) (requestNonce : Digest)
    (contextCommitments : List Digest) : Except NormalizeError (NormalizedIntent k) := do
  checkRequester requestedBy contextCommitments
  (k.validateProfile profile).mapError (profileError k)
  let intent ← (buildGithubActionIntent k profile requestedBy requestedAt requestNonce
    contextCommitments).mapError (constructionError k)
  (k.validateIntent intent).mapError (validationError k)
  return ⟨intent, profile, profile.deploymentGatePolicyDigest.intoBytes⟩

def normalize (input : GitHubDeploymentInput) (requestedBy : List UInt8) (requestedAt : UInt64)
    (requestNonce : Digest) (contextCommitments : List Digest) :
    Except NormalizeError (NormalizedIntent k) := do
  checkInput input
  let requiredContexts ← validateRequiredContexts k input.requiredContexts
  let gate ← derivedGate k requiredContexts
  checkSuppliedGate input.deploymentGatePolicyDigest gate
  constructIntent k (input.profile k requiredContexts gate) requestedBy requestedAt requestNonce
    contextCommitments

end

end Piteka.GitHub
