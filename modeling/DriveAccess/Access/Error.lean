import DriveAccess.Resolver
import DriveAccess.Storage.Error
/-!
Why a command fails.
-/
namespace DriveAccess

/-- What somebody asked for without the authority. -/
inductive Deed
  | use (permission : Permission)
  | transferOwnership
  | moveToRoot
  | grant (role : Role)
  | revoke (role : Role)
deriving DecidableEq

def Deed.describe : Deed → String
  | use p => p.tag
  | transferOwnership => "transfer ownership"
  | moveToRoot => "move to root"
  | grant role => s!"grant:{role}"
  | revoke role => s!"revoke:{role}"

structure Denial where
  user : Uuid
  resource : Resource
  deed : Deed
deriving DecidableEq

def Denial.message (d : Denial) : String :=
  match d.deed with
  | .use p => s!"user {d.user} lacks {p} on {d.resource}"
  | .transferOwnership | .moveToRoot =>
    s!"only the owner of {d.resource} may {d.deed.describe}"
  | .grant role => s!"user {d.user} may not grant {role} on {d.resource}"
  | .revoke role => s!"user {d.user} may not revoke {role} on {d.resource}"

/-- What is in the way of a command. -/
inductive Clash
  | duplicate (item : Item)
  | alreadyHolds (grantee : Grantee) (role : Role) (resource : Resource)
  | alreadyOwns (user : Uuid) (resource : Resource)
  | alreadyRegistered (file : Uuid)
deriving DecidableEq

def Clash.message : Clash → String
  | duplicate item => item.describe
  | alreadyHolds grantee role resource => s!"{grantee} already holds {role} on {resource}"
  | alreadyOwns user resource => s!"{user} already owns {resource}"
  | alreadyRegistered file => s!"file {file} is already registered"

/-- What a command looked for in vain. -/
inductive Missing
  | item (item : Item)
  | resource (resource : Resource)
  | grant (id : Uuid)
  | membership (user group : Uuid)
deriving DecidableEq

def Missing.message : Missing → String
  | item i => i.describe
  | resource r => s!"resource {r}"
  | grant id => s!"grant {id}"
  | membership user group => s!"membership of {user} in group {group}"

inductive AccessError
  | validation (error : ValidationError)
  | forbidden (denial : Denial)
  | conflict (clash : Clash)
  | notFound (missing : Missing)
  | circularMove (folder target : Uuid)
  | maxDepthExceeded (depth max : Nat)
  | resolve (error : ResolveError)
  | storage (error : StorageError)
deriving DecidableEq

/-- The classes of failures that callers tell apart. -/
inductive ErrorKind
  | validation | forbidden | conflict | notFound | circularMove | maxDepthExceeded
  | infrastructure
deriving DecidableEq

def ErrorKind.name : ErrorKind → String
  | validation => "Validation"
  | forbidden => "Forbidden"
  | conflict => "Conflict"
  | notFound => "NotFound"
  | circularMove => "CircularMove"
  | maxDepthExceeded => "MaxDepthExceeded"
  | infrastructure => "Infrastructure"

namespace AccessError

def kind : AccessError → ErrorKind
  | validation _ => .validation
  | forbidden _ => .forbidden
  | conflict _ => .conflict
  | notFound _ => .notFound
  | circularMove _ _ => .circularMove
  | maxDepthExceeded _ _ => .maxDepthExceeded
  | resolve _ | storage _ => .infrastructure

/-- Only failures of the infrastructure are named more finely than by their kind. -/
def name (e : AccessError) : String :=
  match e with
  | resolve _ => "Resolve"
  | storage _ => "Storage"
  | e => e.kind.name

def message : AccessError → String
  | validation e => s!"validation error: {e.message}"
  | forbidden d => s!"forbidden: {d.message}"
  | conflict c => s!"conflict: {c.message}"
  | notFound m => s!"not found: {m.message}"
  | circularMove folder target => s!"cannot move folder {folder} under {target}: circular move"
  | maxDepthExceeded depth max => s!"folder depth {depth} exceeds maximum of {max}"
  | resolve e => s!"resolve error: {e.message}"
  | storage e => s!"storage error: {e.message}"

/-- Duplicates and missing rows concern the caller; all else is a matter of the storage. -/
def ofStorage : StorageError → AccessError
  | .duplicate item => conflict (.duplicate item)
  | .notFound item => notFound (.item item)
  | e => storage e

def ofHierarchy : HierarchyError → AccessError
  | .circularMove folder target => circularMove folder target
  | .maxDepthExceeded depth max => maxDepthExceeded depth max

end AccessError

end DriveAccess
