import DriveAccess.Resource
import DriveAccess.Role
/-!
Grants of a role on a resource, and the groups that may receive them.
-/
namespace DriveAccess

inductive GranteeKind
  | user | group
deriving DecidableEq

def GranteeKind.tag : GranteeKind → String
  | user => "user"
  | group => "group"

def GranteeKind.parse : String → Except ValidationError GranteeKind
  | "user" => .ok user
  | "group" => .ok group
  | word => .error (.unknown .granteeType word)

structure Grantee where
  kind : GranteeKind
  id : Uuid
deriving DecidableEq

def Grantee.user (id : Uuid) : Grantee := ⟨.user, id⟩
def Grantee.group (id : Uuid) : Grantee := ⟨.group, id⟩

instance : ToString Grantee := ⟨fun g => s!"{g.kind.tag}:{g.id}"⟩

structure Grant where
  id : Uuid
  resource : Resource
  grantee : Grantee
  role : Role
  grantedBy : Uuid
  grantedAt : Instant
deriving DecidableEq

/-- Grants are unique in what they assign, whoever made them and when. -/
def Grant.sameAssignment (g h : Grant) : Bool :=
  g.resource == h.resource && g.grantee == h.grantee && g.role == h.role

inductive MembershipRole
  | admin | member
deriving DecidableEq

def MembershipRole.tag : MembershipRole → String
  | admin => "admin"
  | member => "member"

def MembershipRole.parse : String → Except ValidationError MembershipRole
  | "admin" => .ok admin
  | "member" => .ok member
  | word => .error (.unknown .membershipRole word)

structure Membership where
  group : Uuid
  user : Uuid
  role : MembershipRole
deriving DecidableEq

/-- A membership as it is stored. -/
structure MembershipRecord where
  membership : Membership
  joinedAt : Instant
deriving DecidableEq

end DriveAccess
