import DriveAccess.Dialogue
import DriveAccess.Folder
import DriveAccess.Grant
/-!
Who may do what: ownership, grants to users and groups, and what the parent chain passes down.
-/
namespace DriveAccess

/-- What the resolver reads. -/
inductive Lookup
  | groupsOf (user : Uuid)
  | holds (tuple : Tuple)
  | rolesGranted (resource : Resource) (kind : GranteeKind) (grantees : List Uuid)
  | parentOf (resource : Resource)
deriving DecidableEq

@[reducible] def Lookup.Reply : Lookup → Type
  | groupsOf _ => List Uuid
  | holds _ => Bool
  | rolesGranted _ _ _ => List Role
  | parentOf _ => Option Resource

inductive ResolveError
  | maxDepthExceeded (limit : Nat)
  | storage (message : String)
deriving DecidableEq

def ResolveError.name : ResolveError → String
  | maxDepthExceeded _ => "MaxDepthExceeded"
  | storage _ => "StorageError"

def ResolveError.message : ResolveError → String
  | maxDepthExceeded limit => s!"max depth exceeded: {limit}"
  | storage message => s!"storage error: {message}"

abbrev Resolution := Dialogue Lookup Lookup.Reply ResolveError

namespace Resolver

/-- Parent hops followed by default: a file in the deepest folder is that far from its root. -/
def defaultMaxDepth : Nat := maxFolderDepth + 1

def groupsOf (user : Uuid) : Resolution (List Uuid) := .query (Lookup.groupsOf user)

def holds (t : Tuple) : Resolution Bool := .query (Lookup.holds t)

def rolesGranted (r : Resource) (kind : GranteeKind) (grantees : List Uuid) :
    Resolution (List Role) := .query (Lookup.rolesGranted r kind grantees)

def parentOf (r : Resource) : Resolution (Option Resource) := .query (Lookup.parentOf r)

def isOwner (user : Uuid) (r : Resource) : Resolution Bool := holds (.owner user r.object)

/-- The roles granted on the resource itself to the user and to the user's groups. -/
def directRoles (user : Uuid) (groups : List Uuid) (r : Resource) : Resolution (List Role) := do
  let own ← rolesGranted r .user [user]
  if groups.isEmpty then
    return own
  return own ++ (← rolesGranted r .group groups)

def unionOf (roles : List Role) : PermissionSet :=
  roles.foldl (fun held r => held ∪ r.permissions) ∅

/-- The permissions found so far, joined with those held on a resource and along the parent chain,
of which so many visits are left. Ownership at any level gives all of them. -/
def permissionsOn (limit : Nat) (user : Uuid) (groups : List Uuid) :
    Nat → PermissionSet → Resource → Resolution PermissionSet
  | 0, _, _ => .fail (.maxDepthExceeded limit)
  | visits + 1, found, r => do
    if ← isOwner user r then
      return Role.owner.permissions
    let held := found ∪ unionOf (← directRoles user groups r)
    match ← parentOf r with
    | none => return held
    | some p => permissionsOn limit user groups visits held p

/-- The highest of the role found so far and those held on a resource and along the parent chain,
of which so many visits are left. -/
def roleOn (limit : Nat) (user : Uuid) (groups : List Uuid) :
    Nat → Option Role → Resource → Resolution (Option Role)
  | 0, _, _ => .fail (.maxDepthExceeded limit)
  | visits + 1, found, r => do
    if ← isOwner user r then
      return some .owner
    let held := Role.higher found (Role.highest (← directRoles user groups r))
    match ← parentOf r with
    | none => return held
    | some p => roleOn limit user groups visits held p

/-- `limit` hops along the parent chain allow one visit more. -/
def collectPermissions (limit : Nat) (user : Uuid) (r : Resource) : Resolution PermissionSet := do
  let groups ← groupsOf user
  permissionsOn limit user groups (limit + 1) ∅ r

def effectiveRole (limit : Nat) (user : Uuid) (r : Resource) : Resolution (Option Role) := do
  let groups ← groupsOf user
  roleOn limit user groups (limit + 1) none r

def hasPermission (limit : Nat) (user : Uuid) (r : Resource) (p : Permission) :
    Resolution Bool := do
  return (← collectPermissions limit user r).contains p

def canGrantRole (limit : Nat) (user : Uuid) (r : Resource) (target : Role) :
    Resolution Bool := do
  return (← effectiveRole limit user r).any (·.canGrant target)

end Resolver

/-- Finite data that the resolver may be asked about. -/
structure AccessData where
  tuples : List Tuple
  grants : List (Resource × Grantee × Role)
  /-- Groups and their members. -/
  memberships : List (Uuid × Uuid)

namespace AccessData

def parentOf (d : AccessData) (r : Resource) : Option Resource :=
  (d.tuples.find? fun t => t.relation == .parent && t.object == r.object).bind
    fun t => Resource.ofSubject? t.subject

def rolesGranted (d : AccessData) (r : Resource) (kind : GranteeKind) (grantees : List Uuid) :
    List Role :=
  (d.grants.filter fun (resource, grantee, _) =>
    resource == r && grantee.kind == kind && grantees.contains grantee.id).map (·.2.2)

def groupsOf (d : AccessData) (user : Uuid) : List Uuid :=
  (d.memberships.filter fun (_, member) => member == user).map (·.1)

def reply (d : AccessData) : (l : Lookup) → l.Reply
  | .groupsOf user => d.groupsOf user
  | .holds t => d.tuples.contains t
  | .rolesGranted r kind grantees => d.rolesGranted r kind grantees
  | .parentOf r => d.parentOf r

/-- Data that never refuses and never changes. -/
def answer (d : AccessData) : Dialogue.Answerer Lookup Lookup.Reply ResolveError Unit :=
  fun l s => (.ok (d.reply l), s)

end AccessData

end DriveAccess
