import DriveAccess.Permission
/-!
The four access roles, ordered by what they allow.
-/
namespace DriveAccess

inductive Role
  | viewer | contributor | contentManager | owner
deriving DecidableEq

namespace Role

def all : List Role := [viewer, contributor, contentManager, owner]

def level : Role → Nat
  | viewer => 1
  | contributor => 2
  | contentManager => 3
  | owner => 4

instance : Ord Role := ⟨fun r s => compare r.level s.level⟩

def tag : Role → String
  | viewer => "viewer"
  | contributor => "contributor"
  | contentManager => "content_manager"
  | owner => "owner"

instance : ToString Role := ⟨tag⟩

def parse : String → Except ValidationError Role
  | "viewer" => .ok viewer
  | "contributor" => .ok contributor
  | "content_manager" => .ok contentManager
  | "owner" => .ok owner
  | word => .error (.unknown .role word)

def includes (r target : Role) : Bool := decide (target.level ≤ r.level)

/-- A role grants only roles strictly below it, and nobody grants `owner`. -/
def canGrant (r target : Role) : Bool := target ≠ owner && decide (target.level < r.level)

/-- What each role adds to the one below it. -/
def tier : Role → List Permission
  | viewer => [.fileRead, .fileDownload, .folderRead]
  | contributor => [.fileWrite, .folderWrite, .folderCreate, .folderMoveIn]
  | contentManager =>
    [.fileDelete, .fileShare, .fileMove, .folderDelete, .folderShare, .folderMoveOut]
  | owner => [.manageAccess]

def permissions (r : Role) : PermissionSet :=
  .ofList ((all.filter r.includes).flatMap tier)

def hasPermission (r : Role) (p : Permission) : Bool := r.permissions.contains p

/-- Roles that may be stored in a grant; ownership is a tuple instead. -/
def storable : List Role := [viewer, contributor, contentManager]

def grantable (r : Role) : List Role := storable.filter r.canGrant

def max (r s : Role) : Role := if r.level ≤ s.level then s else r

/-- The higher of two roles, no role being the lowest. -/
def higher : Option Role → Option Role → Option Role
  | none, s => s
  | r, none => r
  | some r, some s => some (r.max s)

def highest (roles : List Role) : Option Role :=
  roles.foldl (fun best r => higher best (some r)) none

end Role

end DriveAccess
