/-!
Inputs that are refused before any data is read.
-/
namespace DriveAccess

/-- The closed sets of words that requests and stored rows use. -/
inductive Vocabulary
  | permission | role | resourceType | granteeType | subjectType | objectType | relation
  | membershipRole
deriving DecidableEq

def Vocabulary.all : List Vocabulary :=
  [.permission, .role, .resourceType, .granteeType, .subjectType, .objectType, .relation,
    .membershipRole]

def Vocabulary.describe : Vocabulary → String
  | permission => "permission"
  | role => "role"
  | resourceType => "resource type"
  | granteeType => "grantee type"
  | subjectType => "subject type"
  | objectType => "object type"
  | relation => "relation"
  | membershipRole => "membership role"

/-- The name under which a word outside the vocabulary is reported. -/
def Vocabulary.errorName : Vocabulary → String
  | permission => "InvalidPermission"
  | role => "InvalidRole"
  | resourceType => "InvalidResourceType"
  | granteeType => "InvalidGranteeType"
  | subjectType => "InvalidSubjectType"
  | objectType => "InvalidObjectType"
  | relation => "InvalidRelation"
  | membershipRole => "InvalidMembershipRole"

inductive ValidationError
  | unknown (vocabulary : Vocabulary) (word : String)
  | ownerNotGrantable
  | selfGrant
deriving DecidableEq

def ValidationError.name : ValidationError → String
  | unknown v _ => v.errorName
  | ownerNotGrantable => "OwnerNotGrantable"
  | selfGrant => "SelfGrant"

def ValidationError.message : ValidationError → String
  | unknown v word => s!"invalid {v.describe}: '{word}'"
  | ownerNotGrantable =>
    "the owner role cannot be granted or revoked; transfer ownership instead"
  | selfGrant => "cannot grant a role to yourself"

end DriveAccess
