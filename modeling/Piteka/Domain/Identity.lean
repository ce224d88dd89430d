import Mathlib.Data.List.Basic

/-!
# Identifiers of people and organizations

Blank means what `str::trim` leaves empty: every character has the Unicode
property White_Space. A user or organization identifier carries that it is not
blank, which is all that its constructor checks.
-/
namespace Piteka.Domain

set_option autoImplicit false

/-- The characters with the Unicode property White_Space. -/
def isWhiteSpace (c : Char) : Bool :=
  let n := c.toNat
  (9 ≤ n && n ≤ 13) || n == 0x20 || n == 0x85 || n == 0xA0 || n == 0x1680 ||
    (0x2000 ≤ n && n ≤ 0x200A) || n == 0x2028 || n == 0x2029 || n == 0x202F ||
    n == 0x205F || n == 0x3000

/-- `value.trim().is_empty()` -/
def trimIsEmpty (value : String) : Bool := value.toList.all isWhiteSpace

theorem not_blank {value : String} (h : ¬ trimIsEmpty value) : trimIsEmpty value = false :=
  Bool.eq_false_iff.mpr h

structure OrganizationId where
  asStr : String
  nonblank : trimIsEmpty asStr = false
  deriving DecidableEq

structure UserId where
  asStr : String
  nonblank : trimIsEmpty asStr = false
  deriving DecidableEq

inductive IdentityError where
  | emptyField (field : String)
  | crossOrganizationMember (organization member : OrganizationId)
  | duplicateMember (user : UserId)
  | noMembers
  deriving DecidableEq

def OrganizationId.new (value : String) : Except IdentityError OrganizationId :=
  if h : trimIsEmpty value then .error (.emptyField "organization_id")
  else .ok ⟨value, not_blank h⟩

def UserId.new (value : String) : Except IdentityError UserId :=
  if h : trimIsEmpty value then .error (.emptyField "user_id")
  else .ok ⟨value, not_blank h⟩

end Piteka.Domain
