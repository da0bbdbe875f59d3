import DriveAccess.Access.Error
/-!
What commands put on record.
-/
namespace DriveAccess

inductive AuditEvent
  | grantCreated (tenant : Uuid) (grant : Grant)
  | grantRevoked (tenant : Uuid) (grant : Grant) (user : Uuid)
  | folderMoved (tenant folder : Uuid) (newParent : Option Uuid) (user : Uuid) (subtreeSize : Nat)
  | ownershipTransferred (tenant : Uuid) (resource : Resource) (previous new : Uuid)
  | accessDenied (tenant : Uuid) (denial : Denial)
deriving DecidableEq

inductive AuditLevel
  | info | warn
deriving DecidableEq

def AuditLevel.name : AuditLevel → String
  | info => "INFO"
  | warn => "WARN"

inductive AuditValue
  | text (s : String)
  | number (n : Nat)
deriving DecidableEq

namespace AuditEvent

def level : AuditEvent → AuditLevel
  | accessDenied _ _ => .warn
  | _ => .info

def name : AuditEvent → String
  | grantCreated _ _ => "grant_created"
  | grantRevoked _ _ _ => "grant_revoked"
  | folderMoved _ _ _ _ _ => "folder_moved"
  | ownershipTransferred _ _ _ _ => "ownership_transferred"
  | accessDenied _ _ => "access_denied"

def message : AuditEvent → String
  | grantCreated _ _ => "permission granted"
  | grantRevoked _ _ _ => "permission revoked"
  | folderMoved _ _ _ _ _ => "folder moved"
  | ownershipTransferred _ _ _ _ => "ownership transferred"
  | accessDenied _ _ => "access denied"

def tenant : AuditEvent → Uuid
  | grantCreated t _ | grantRevoked t _ _ | folderMoved t _ _ _ _
  | ownershipTransferred t _ _ _ | accessDenied t _ => t

private def ofGrant (g : Grant) : List (String × AuditValue) :=
  [("grant_id", .text (toString g.id)), ("resource", .text (toString g.resource)),
    ("grantee", .text (toString g.grantee)), ("role", .text g.role.tag)]

/-- The fields of an event beside its name, its message and the tenant. -/
def details : AuditEvent → List (String × AuditValue)
  | grantCreated _ g => ofGrant g ++ [("granted_by", .text (toString g.grantedBy))]
  | grantRevoked _ g user => ofGrant g ++ [("revoked_by", .text (toString user))]
  | folderMoved _ folder newParent user size =>
    [("folder_id", .text (toString folder)),
      ("new_parent_id", .text ((newParent.map toString).getD "")),
      ("moved_by", .text (toString user)), ("subtree_size", .number size)]
  | ownershipTransferred _ resource previous new =>
    [("resource", .text (toString resource)), ("previous_owner", .text (toString previous)),
      ("new_owner", .text (toString new))]
  | accessDenied _ d =>
    [("user_id", .text (toString d.user)), ("resource", .text (toString d.resource)),
      ("action", .text d.deed.describe)]

def fields (e : AuditEvent) : List (String × AuditValue) :=
  [("event", .text e.name), ("tenant_id", .text (toString e.tenant))] ++ e.details ++
    [("message", .text e.message)]

end AuditEvent

end DriveAccess
