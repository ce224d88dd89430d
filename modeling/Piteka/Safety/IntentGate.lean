import Mathlib.Data.List.DropRight
import Mathlib.Data.List.Sort
import Piteka.Checks.Guards
import Piteka.GitHub.Intent

/-!
# The gate of an intent

An explicit list of required contexts is accepted in one form only: bounded, clean
and strictly increasing. So a set of names has one list and one digest, and the
digest that a caller derives is the one that the normalizer compares with.
-/
namespace Piteka.Safety

set_option autoImplicit false

open Piteka.Checks Piteka.GitHub Piteka.Text
open Piteka.Domain (isWhiteSpace)

/-! ## The order of names -/

instance : Std.Irrefl Before := ⟨fun a => List.lt_irrefl (Ascii.bytes a)⟩

instance : Std.Antisymm Before :=
  ⟨fun _ _ hab hba => absurd (List.lt_trans hab hba) (List.lt_irrefl _)⟩

instance : Trans Before Before Before := ⟨fun hab hbc => List.lt_trans hab hbc⟩

/-- Comparing neighbours is enough for the whole list. -/
theorem validateContextOrder_ok {contexts : List String} {u : Unit} :
    validateContextOrder contexts = .ok u ↔ contexts.Pairwise Before := by
  rw [← List.isChain_iff_pairwise]
  induction contexts using validateContextOrder.induct with
  | case1 a b contexts hab ih =>
    rw [validateContextOrder, if_pos hab, ih, List.isChain_cons_cons]
    exact (and_iff_right hab).symm
  | case2 a b contexts hab =>
    rw [validateContextOrder, if_neg hab, List.isChain_cons_cons]
    exact iff_of_false (fun h => by cases h) fun h => hab h.1
  | case3 contexts hshort =>
    cases contexts with
    | nil => exact iff_of_true rfl List.IsChain.nil
    | cons a contexts =>
      cases contexts with
      | nil => exact iff_of_true rfl (List.IsChain.singleton a)
      | cons b contexts => exact absurd rfl (hshort a b contexts)

/-! ## Accepted lists -/

/-- No blank at either end. -/
def Trimmed (name : String) : Prop :=
  ∀ h : name.toList ≠ [], isWhiteSpace (name.toList.head h) = false ∧
    isWhiteSpace (name.toList.getLast h) = false

structure CleanName (name : String) : Prop where
  nonempty : name ≠ ""
  trimmed : Trimmed name
  bounded : byteLen name ≤ 255
  printable : ∀ c ∈ name.toList, isControl c = false

/-- The one form of a set of required contexts. -/
structure CanonicalContexts (contexts : List String) : Prop where
  nonempty : 1 ≤ contexts.length
  bounded : contexts.length ≤ 32
  names : ∀ name ∈ contexts, CleanName name
  increasing : contexts.Pairwise Before

/-- A text stays as it is under `trim` when neither end is blank. -/
theorem trim_eq_iff {name : String} : trim name = name ↔ Trimmed name := by
  have hlist : trim name = name ↔
      (name.toList.dropWhile isWhiteSpace).rdropWhile isWhiteSpace = name.toList := by
    rw [trim, ← String.toList_inj, String.toList_ofList, List.rdropWhile]
  have hboth : (name.toList.dropWhile isWhiteSpace).rdropWhile isWhiteSpace = name.toList ↔
      name.toList.dropWhile isWhiteSpace = name.toList ∧
        name.toList.rdropWhile isWhiteSpace = name.toList := by
    constructor
    · intro h
      have hfront : name.toList.dropWhile isWhiteSpace = name.toList := by
        have hle := (List.rdropWhile_prefix (l := name.toList.dropWhile isWhiteSpace)
          isWhiteSpace).length_le
        rw [h] at hle
        have hsuffix := List.dropWhile_suffix (l := name.toList) isWhiteSpace
        exact hsuffix.eq_of_length (Nat.le_antisymm hsuffix.length_le hle)
      exact ⟨hfront, by rwa [hfront] at h⟩
    · rintro ⟨hfront, hback⟩
      rw [hfront, hback]
  rw [hlist, hboth, List.dropWhile_eq_self_iff, List.rdropWhile_eq_self_iff]
  unfold Trimmed
  constructor
  · rintro ⟨hfront, hback⟩ h
    refine ⟨?_, Bool.not_eq_true _ ▸ hback h⟩
    rw [List.head_eq_getElem]
    exact Bool.not_eq_true _ ▸ hfront (List.length_pos_iff.mpr h)
  · intro h
    refine ⟨fun hl => ?_, fun hne => ?_⟩
    · have hhead := (h (List.length_pos_iff.mp hl)).1
      rw [List.head_eq_getElem] at hhead
      simp [hhead]
    · simp [(h hne).2]

theorem validateContextName_ok {name : String} {u : Unit} :
    validateContextName name = .ok u ↔ CleanName name := by
  unfold validateContextName
  simp only [guard_eq_ok, ne_eq, not_not, trim_eq_iff, Nat.not_lt, Bool.not_eq_true,
    List.any_eq_false]
  constructor
  · rintro ⟨hne, htrim, hlen, hctl, _⟩
    exact ⟨hne, htrim, hlen, hctl⟩
  · intro h
    exact ⟨h.nonempty, h.trimmed, h.bounded, h.printable, trivial⟩

theorem validateContextNames_ok {contexts : List String} {u : Unit} :
    validateContextNames contexts = .ok u ↔ ∀ name ∈ contexts, CleanName name := by
  induction contexts with
  | nil => exact iff_of_true rfl fun _ h => absurd h List.not_mem_nil
  | cons name contexts ih =>
    rw [validateContextNames, bind_eq_ok, List.forall_mem_cons]
    simp only [validateContextName_ok, ih, exists_const]

theorem checkContexts_ok {contexts : List String} {u : Unit} :
    checkContexts contexts = .ok u ↔ CanonicalContexts contexts := by
  unfold checkContexts
  rw [guard_eq_ok, guard_eq_ok, bind_eq_ok]
  simp only [validateContextNames_ok, validateContextOrder_ok, exists_const, Nat.not_lt]
  constructor
  · rintro ⟨hne, hlen, hnames, horder⟩
    exact ⟨List.length_pos_iff.mpr hne, hlen, hnames, horder⟩
  · intro h
    exact ⟨List.length_pos_iff.mp h.nonempty, h.bounded, h.names, h.increasing⟩

/-- The strictly increasing list of a set of names is unique. -/
theorem canonical_unique {l l' : List String} (h : CanonicalContexts l)
    (h' : CanonicalContexts l') (hsame : ∀ name, name ∈ l ↔ name ∈ l') : l = l' :=
  h.increasing.eq_of_mem_iff h'.increasing hsame

/-! ## One list for a set of names -/

section
variable (k : Contract)

def Accepted (contexts : List String) : Prop :=
  ∃ r, validateRequiredContexts k (.explicitNonEmpty contexts) = .ok r

/-- The contract takes every list that passes the local checks. -/
def TakesCanonical : Prop :=
  ∀ contexts, CanonicalContexts contexts → ∃ r, k.explicit contexts = .ok r

/-- The gates of two different lists are different. -/
def SeparatesGates (l l' : List String) : Prop :=
  ∀ r r' gate gate', k.explicit l = .ok r → k.explicit l' = .ok r' →
    k.gatePolicyId r = .ok gate → k.gatePolicyId r' = .ok gate' →
    gate.intoBytes = gate'.intoBytes → l = l'

end

section
variable {k : Contract}

theorem validateRequiredContexts_ok {l : List String} {r : k.RequiredContexts} :
    validateRequiredContexts k (.explicitNonEmpty l) = .ok r ↔
      CanonicalContexts l ∧ k.explicit l = .ok r := by
  rw [validateRequiredContexts, bind_eq_ok]
  simp only [checkContexts_ok, explicitContexts, mapError_eq_ok, exists_const]

theorem accepted_iff (htakes : TakesCanonical k) {l : List String} :
    Accepted k l ↔ CanonicalContexts l := by
  constructor
  · rintro ⟨r, hr⟩
    exact (validateRequiredContexts_ok.mp hr).1
  · intro h
    obtain ⟨r, hr⟩ := htakes l h
    exact ⟨r, validateRequiredContexts_ok.mpr ⟨h, hr⟩⟩

/-- Validating a list and constructing it again comes to the same contexts. -/
theorem digestContexts_ok {mode : RequiredContextsMode} {r : k.RequiredContexts} :
    digestContexts k mode = .ok r ↔ validateRequiredContexts k mode = .ok r := by
  cases mode with
  | allSubmitted => exact Iff.rfl
  | explicitNonEmpty contexts =>
    rw [digestContexts, bind_eq_ok, validateRequiredContexts_ok]
    simp only [validateRequiredContexts_ok, explicitContexts, mapError_eq_ok]
    constructor
    · rintro ⟨_, ⟨hcanonical, _⟩, hr⟩
      exact ⟨hcanonical, hr⟩
    · rintro ⟨hcanonical, hr⟩
      exact ⟨r, ⟨hcanonical, hr⟩, hr⟩

/-- The digest that a caller computes is that of the contexts that the normalizer constructs. -/
theorem computeGatePolicyDigest_ok {mode : RequiredContextsMode} {d : Digest} :
    computeGatePolicyDigest k mode = .ok d ↔
      ∃ r gate, validateRequiredContexts k mode = .ok r ∧ k.gatePolicyId r = .ok gate ∧
        gate.intoBytes = d := by
  unfold computeGatePolicyDigest derivedGate
  simp only [bind_eq_ok, digestContexts_ok, mapError_eq_ok]
  constructor
  · rintro ⟨r, hr, gate, hgate, hd⟩
    exact ⟨r, gate, hr, hgate, Except.ok.inj hd⟩
  · rintro ⟨r, gate, hr, hgate, rfl⟩
    exact ⟨r, hr, gate, hgate, rfl⟩

/-- The accepted lists are the canonical ones, a set of names has at most one of them, an accepted
list has the digest of the gate that the contract identifies for it, and two accepted lists have the
same digest exactly when they name the same set. -/
theorem required_contexts_canonical (htakes : TakesCanonical k) :
    (∀ l, Accepted k l ↔ CanonicalContexts l) ∧
      (∀ l l', Accepted k l → Accepted k l' → (∀ name, name ∈ l ↔ name ∈ l') → l = l') ∧
      (∀ l d, computeGatePolicyDigest k (.explicitNonEmpty l) = .ok d ↔ Accepted k l ∧
        ∃ r gate, k.explicit l = .ok r ∧ k.gatePolicyId r = .ok gate ∧ gate.intoBytes = d) ∧
      ∀ l l' d d', computeGatePolicyDigest k (.explicitNonEmpty l) = .ok d →
        computeGatePolicyDigest k (.explicitNonEmpty l') = .ok d' → SeparatesGates k l l' →
        (d = d' ↔ ∀ name, name ∈ l ↔ name ∈ l') := by
  refine ⟨fun l => accepted_iff htakes, fun l l' h h' hsame => ?_, fun l d => ?_, ?_⟩
  · exact canonical_unique ((accepted_iff htakes).mp h) ((accepted_iff htakes).mp h') hsame
  · rw [computeGatePolicyDigest_ok, accepted_iff htakes]
    constructor
    · rintro ⟨r, gate, hr, hgate, hd⟩
      obtain ⟨hl, hexplicit⟩ := validateRequiredContexts_ok.mp hr
      exact ⟨hl, r, gate, hexplicit, hgate, hd⟩
    · rintro ⟨hl, r, gate, hexplicit, hgate, hd⟩
      exact ⟨r, gate, validateRequiredContexts_ok.mpr ⟨hl, hexplicit⟩, hgate, hd⟩
  intro l l' d d' hd hd' hseparates
  obtain ⟨r, gate, hr, hgate, rfl⟩ := computeGatePolicyDigest_ok.mp hd
  obtain ⟨r', gate', hr', hgate', rfl⟩ := computeGatePolicyDigest_ok.mp hd'
  obtain ⟨hl, hexplicit⟩ := validateRequiredContexts_ok.mp hr
  obtain ⟨hl', hexplicit'⟩ := validateRequiredContexts_ok.mp hr'
  constructor
  · intro hdigest
    obtain rfl := hseparates r r' gate gate' hexplicit hexplicit' hgate hgate' hdigest
    exact fun _ => Iff.rfl
  · intro hsame
    obtain rfl := canonical_unique hl hl' hsame
    rw [hd] at hd'
    exact Except.ok.inj hd'

end

/-- A contract that takes every list that is not empty, with a digest for each length. -/
def sampleContract : Contract where
  RequiredContexts := Option (List String)
  Descriptor := Unit
  Codec := Unit
  ActionIntent := Unit
  allSubmitted := none
  explicit contexts := if contexts = [] then .error .invalidRequiredContexts else .ok (some contexts)
  gatePolicyId
    | none => .ok ⟨Vector.replicate 32 0⟩
    | some contexts => .ok ⟨Vector.replicate 32 (UInt8.ofNat contexts.length)⟩
  descriptor := some ()
  codec := some ()
  validateProfile _ := .ok ()
  canonicalBytes _ := .ok []
  newIntent _ _ _ _ _ _ _ := .ok ()
  validateIntent _ := .ok ()
  debug _ := ""

theorem sampleContract_takes : TakesCanonical sampleContract := by
  intro contexts h
  have hne : contexts ≠ [] := List.length_pos_iff.mp h.nonempty
  exact ⟨some contexts, if_neg hne⟩

/-- The list of two names is accepted, and its digest is not that of one of them. -/
theorem required_contexts_canonical_sample :
    (Accepted sampleContract ["ci", "security"] ↔ CanonicalContexts ["ci", "security"]) ∧
      ((Vector.replicate 32 2 : Digest) = Vector.replicate 32 1 ↔
        ∀ name, name ∈ ["ci", "security"] ↔ name ∈ ["ci"]) := by
  obtain ⟨haccepted, _, _, hdigests⟩ := required_contexts_canonical sampleContract_takes
  refine ⟨haccepted _, hdigests _ _ _ _ rfl rfl ?_⟩
  intro r r' gate gate' hr hr' hgate hgate' hsame
  obtain rfl := Except.ok.inj hr
  obtain rfl := Except.ok.inj hr'
  obtain rfl := Except.ok.inj hgate
  obtain rfl := Except.ok.inj hgate'
  exact absurd hsame (by decide)

/-! ## Both paths to the digest -/

def suppliedGate (input : GitHubDeploymentInput) (digest : Option Digest) :
    GitHubDeploymentInput :=
  { input with deploymentGatePolicyDigest := digest }

section
variable {k : Contract} {input : GitHubDeploymentInput} {requestedBy : List UInt8}
  {requestedAt : UInt64} {requestNonce : Digest} {contextCommitments : List Digest}

/-- What follows the checks of the input, with the gate at hand. -/
theorem normalize_ok {supplied : Option Digest} {x : NormalizedIntent k} :
    GitHub.normalize k (suppliedGate input supplied) requestedBy requestedAt requestNonce
        contextCommitments = .ok x ↔
      checkInput input = .ok () ∧ ∃ r gate,
        validateRequiredContexts k input.requiredContexts = .ok r ∧
        k.gatePolicyId r = .ok gate ∧ checkSuppliedGate supplied gate = .ok () ∧
        constructIntent k (input.profile k r gate) requestedBy requestedAt requestNonce
          contextCommitments = .ok x := by
  unfold GitHub.normalize derivedGate
  simp only [bind_eq_ok, mapError_eq_ok]
  constructor
  · rintro ⟨_, hinput, r, hr, gate, hgate, _, hsupplied, hx⟩
    exact ⟨hinput, r, gate, hr, hgate, hsupplied, hx⟩
  · rintro ⟨hinput, r, gate, hr, hgate, hsupplied, hx⟩
    exact ⟨(), hinput, r, hr, gate, hgate, (), hsupplied, hx⟩

theorem checkSuppliedGate_some {digest : Digest} {gate : GatePolicyId} :
    checkSuppliedGate (some digest) gate = .ok () ↔ gate.intoBytes = digest := by
  rw [checkSuppliedGate, guard_eq_ok, not_not, and_iff_left rfl]
  exact eq_comm

theorem constructIntent_gate {profile : GitHubDeploymentIntentV1 k.RequiredContexts}
    {x : NormalizedIntent k} (h : constructIntent k profile requestedBy requestedAt requestNonce
      contextCommitments = .ok x) :
    x.gatePolicyDigest = profile.deploymentGatePolicyDigest.intoBytes := by
  unfold constructIntent at h
  simp only [bind_eq_ok] at h
  obtain ⟨_, _, _, _, intent, _, _, _, hx⟩ := h
  obtain rfl := Except.ok.inj hx
  rfl

/-- With a supplied digest the input is normalized exactly when it is without one and the digest
is the computed one; the result is the same and carries it, and any other digest is refused as a
mismatch. -/
theorem gate_digest_paths_agree (d : Digest) :
    ((∃ x, GitHub.normalize k (suppliedGate input (some d)) requestedBy requestedAt requestNonce
          contextCommitments = .ok x) ↔
        (∃ x, GitHub.normalize k (suppliedGate input none) requestedBy requestedAt requestNonce
          contextCommitments = .ok x) ∧
        computeGatePolicyDigest k input.requiredContexts = .ok d) ∧
      (∀ x, GitHub.normalize k (suppliedGate input (some d)) requestedBy requestedAt requestNonce
          contextCommitments = .ok x →
        GitHub.normalize k (suppliedGate input none) requestedBy requestedAt requestNonce
          contextCommitments = .ok x ∧ x.gatePolicyDigest = d) ∧
      ∀ x, GitHub.normalize k (suppliedGate input none) requestedBy requestedAt requestNonce
          contextCommitments = .ok x →
        computeGatePolicyDigest k input.requiredContexts ≠ .ok d →
        GitHub.normalize k (suppliedGate input (some d)) requestedBy requestedAt requestNonce
          contextCommitments = .error .gatePolicyMismatch := by
  refine ⟨⟨?_, ?_⟩, fun x hx => ?_, fun x hx hother => ?_⟩
  · rintro ⟨x, hx⟩
    obtain ⟨hinput, r, gate, hr, hgate, hsupplied, hx⟩ := normalize_ok.mp hx
    exact ⟨⟨x, normalize_ok.mpr ⟨hinput, r, gate, hr, hgate, rfl, hx⟩⟩,
      computeGatePolicyDigest_ok.mpr ⟨r, gate, hr, hgate, checkSuppliedGate_some.mp hsupplied⟩⟩
  · rintro ⟨⟨x, hx⟩, hd⟩
    obtain ⟨hinput, r, gate, hr, hgate, _, hx⟩ := normalize_ok.mp hx
    obtain ⟨r', gate', hr', hgate', hd⟩ := computeGatePolicyDigest_ok.mp hd
    obtain rfl := Except.ok.inj (hr.symm.trans hr')
    obtain rfl := Except.ok.inj (hgate.symm.trans hgate')
    exact ⟨x, normalize_ok.mpr ⟨hinput, r, gate, hr, hgate, checkSuppliedGate_some.mpr hd, hx⟩⟩
  · obtain ⟨hinput, r, gate, hr, hgate, hsupplied, hx⟩ := normalize_ok.mp hx
    exact ⟨normalize_ok.mpr ⟨hinput, r, gate, hr, hgate, rfl, hx⟩,
      (constructIntent_gate hx).trans (checkSuppliedGate_some.mp hsupplied)⟩
  -- All that comes before the comparison succeeds as it does without a digest.
  · obtain ⟨hinput, r, gate, hr, hgate, _, _⟩ := normalize_ok.mp hx
    have hne : d ≠ gate.intoBytes := fun h =>
      hother (computeGatePolicyDigest_ok.mpr ⟨r, gate, hr, hgate, h.symm⟩)
    have hchecked : checkInput (suppliedGate input (some d)) = .ok () := hinput
    have hcontexts : validateRequiredContexts k (suppliedGate input (some d)).requiredContexts =
        .ok r := hr
    have hderived : derivedGate k r = .ok gate := mapError_eq_ok.mpr hgate
    have hrefused : checkSuppliedGate (suppliedGate input (some d)).deploymentGatePolicyDigest
        gate = .error .gatePolicyMismatch := if_pos hne
    unfold GitHub.normalize
    rw [hchecked]
    refine bind_eq_error.mpr (Or.inr ⟨(), rfl, bind_eq_error.mpr (Or.inr ⟨r, hcontexts, ?_⟩)⟩)
    refine bind_eq_error.mpr (Or.inr ⟨gate, hderived, bind_eq_error.mpr (Or.inl hrefused)⟩)

end

end Piteka.Safety
