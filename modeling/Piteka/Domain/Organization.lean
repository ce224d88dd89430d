import Piteka.Domain.Identity
import Mathlib.Data.List.Nodup

/-!
# The configured organization

Roles, members and the directory that sessions are checked against. A directory
carries what its constructor checks: it has members, all of the configured
organization, and no two of them share a user identifier. So a member is found
under an identifier exactly if it is listed with it.
-/
namespace Piteka.Domain

set_option autoImplicit false

inductive Role where
  | requester
  | approver
  | auditor
  deriving DecidableEq

/-- An atomic capability. -/
inductive Capability where
  | proposeAction
  | receiveActionStatus
  | executeApprovedMandate
  | reviewIntent
  | approveAction
  | rejectAction
  | requireConditions
  | revokeMandate
  | readScopedRecords
  | verifyBundle
  | inspectAssurance
  deriving DecidableEq

/-- The text of `{:?}`. -/
def Capability.debug : Capability → String
  | .proposeAction => "ProposeAction"
  | .receiveActionStatus => "ReceiveActionStatus"
  | .executeApprovedMandate => "ExecuteApprovedMandate"
  | .reviewIntent => "ReviewIntent"
  | .approveAction => "ApproveAction"
  | .rejectAction => "RejectAction"
  | .requireConditions => "RequireConditions"
  | .revokeMandate => "RevokeMandate"
  | .readScopedRecords => "ReadScopedRecords"
  | .verifyBundle => "VerifyBundle"
  | .inspectAssurance => "InspectAssurance"

def Role.capabilities : Role → List Capability
  | .requester => [.proposeAction, .receiveActionStatus, .executeApprovedMandate]
  | .approver => [.reviewIntent, .approveAction, .rejectAction, .requireConditions, .revokeMandate]
  | .auditor => [.readScopedRecords, .verifyBundle, .inspectAssurance]

def Role.grants (role : Role) (capability : Capability) : Bool :=
  role.capabilities.contains capability

/-- The wire tag under which a role is committed to signed session bytes. -/
def Role.tag : Role → UInt8
  | .requester => 1
  | .approver => 2
  | .auditor => 3

theorem Role.tag_inj {r r' : Role} (h : r.tag = r'.tag) : r = r' := by
  cases r <;> cases r' <;> first | rfl | exact absurd h (by decide)

@[ext] structure Organization where
  id : OrganizationId
  displayName : String
  nonblank : trimIsEmpty displayName = false

instance : DecidableEq Organization := fun _ _ => decidable_of_iff _ Organization.ext_iff.symm

def Organization.new (id : OrganizationId) (displayName : String) :
    Except IdentityError Organization :=
  if h : trimIsEmpty displayName then .error (.emptyField "organization_display_name")
  else .ok ⟨id, displayName, not_blank h⟩

/-- A member identity bound to an organization and a single role. -/
@[ext] structure Identity where
  userId : UserId
  organization : OrganizationId
  displayName : String
  role : Role
  nonblank : trimIsEmpty displayName = false

instance : DecidableEq Identity := fun _ _ => decidable_of_iff _ Identity.ext_iff.symm

def Identity.new (userId : UserId) (organization : OrganizationId) (displayName : String)
    (role : Role) : Except IdentityError Identity :=
  if h : trimIsEmpty displayName then .error (.emptyField "identity_display_name")
  else .ok ⟨userId, organization, displayName, role, not_blank h⟩

structure ConfiguredOrganization where
  organization : Organization
  members : List Identity
  inhabited : members ≠ []
  sameOrganization : ∀ m ∈ members, m.organization = organization.id
  distinct : (members.map (·.userId)).Nodup

namespace ConfiguredOrganization

/-- The loop of the constructor, with the members that it has passed: its first objection. -/
def objection (organization : Organization) (passed : List Identity) :
    List Identity → Option IdentityError
  | [] => none
  | member :: rest =>
    if member.organization ≠ organization.id then
      some (.crossOrganizationMember organization.id member.organization)
    else if passed.any fun other => other.userId = member.userId then
      some (.duplicateMember member.userId)
    else objection organization (passed ++ [member]) rest

theorem objection_eq_none {organization : Organization} {members passed : List Identity}
    (h : objection organization passed members = none) (hp : (passed.map (·.userId)).Nodup) :
    (∀ m ∈ members, m.organization = organization.id) ∧
      ((passed ++ members).map (·.userId)).Nodup := by
  induction members generalizing passed with
  | nil => exact ⟨fun m hm => absurd hm List.not_mem_nil, by rwa [List.append_nil]⟩
  | cons member rest ih =>
    unfold objection at h
    split at h
    · cases h
    · next horg =>
      split at h
      · cases h
      · next hdup =>
        have hfresh : member.userId ∉ passed.map (·.userId) := by
          simpa using hdup
        have hp' : ((passed ++ [member]).map (·.userId)).Nodup := by
          rw [List.map_append]
          exact List.nodup_append'.mpr ⟨hp, List.nodup_singleton _,
            List.disjoint_singleton.mpr hfresh⟩
        obtain ⟨hrest, hnodup⟩ := ih h hp'
        rw [List.append_assoc] at hnodup
        refine ⟨fun m hm => ?_, hnodup⟩
        rcases List.mem_cons.mp hm with rfl | hm
        · exact not_not.mp horg
        · exact hrest m hm

def new (organization : Organization) (members : List Identity) :
    Except IdentityError ConfiguredOrganization :=
  if hne : members = [] then .error .noMembers
  else match h : objection organization [] members with
    | some e => .error e
    | none =>
      .ok ⟨organization, members, hne, (objection_eq_none h List.nodup_nil).1,
        (objection_eq_none h List.nodup_nil).2⟩

def member (directory : ConfiguredOrganization) (userId : UserId) : Option Identity :=
  directory.members.find? fun m => m.userId = userId

theorem member_eq_some {directory : ConfiguredOrganization} {userId : UserId} {m : Identity} :
    directory.member userId = some m ↔ m ∈ directory.members ∧ m.userId = userId := by
  unfold member
  constructor
  · intro h
    exact ⟨List.mem_of_find?_eq_some h, by simpa using List.find?_some h⟩
  · rintro ⟨hm, rfl⟩
    cases hf : directory.members.find? fun other => other.userId = m.userId with
    | none => simpa using List.find?_eq_none.mp hf m hm
    | some other =>
      have hid : other.userId = m.userId := by simpa using List.find?_some hf
      exact congrArg some
        (List.inj_on_of_nodup_map directory.distinct (List.mem_of_find?_eq_some hf) hm hid)

end ConfiguredOrganization

end Piteka.Domain
