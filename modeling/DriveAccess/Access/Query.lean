import DriveAccess.Access.Program
import DriveAccess.Closure.Violation
/-!
Commands that only read.
-/
namespace DriveAccess.Program

def checkAccess (c : Context) (user : Uuid) (r : Resource) (p : Permission) : Program Bool :=
  resolve (Resolver.hasPermission c.maxDepth user r p)

def collectPermissions (c : Context) (user : Uuid) (r : Resource) : Program PermissionSet :=
  resolve (Resolver.collectPermissions c.maxDepth user r)

def effectiveRole (c : Context) (user : Uuid) (r : Resource) : Program (Option Role) :=
  resolve (Resolver.effectiveRole c.maxDepth user r)

def canGrantRole (c : Context) (user : Uuid) (r : Resource) (role : Role) : Program Bool :=
  resolve (Resolver.canGrantRole c.maxDepth user r role)

/-- The permission to hand out links to a resource. -/
def sharePermission (r : Resource) : Permission :=
  match r.kind with
  | .file => .fileShare
  | .folder => .folderShare

def authorizeShare (c : Context) (user : Uuid) (r : Resource) : Program Unit :=
  requirePermission c user r (sharePermission r)

/-- The folder that a resource lies in; a folder counts as lying in itself. -/
def containingFolder (r : Resource) : Program (Option Uuid) :=
  match r.kind with
  | .folder => return some r.id
  | .file => do
    let parent : Option Subject ← request (.findParent r.object)
    return (parent.filter (·.kind == .folder)).map (·.id)

/-- Whether a resource is the folder or lies anywhere below it. -/
def isInSubtree (folder : Uuid) (r : Resource) : Program Bool := do
  let below : List Uuid ← request (.findDescendants folder)
  return (← containingFolder r).any below.contains

def listGrants (r : Resource) : Program (List Grant) := request (.findGrantsFor r)

def verifyHierarchy : Program (List Violation) := do
  let folders : List Folder ← request .listFolders
  let paths : List FolderPath ← request .listPaths
  return verifyClosure folders paths

end DriveAccess.Program
