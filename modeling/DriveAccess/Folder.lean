import DriveAccess.Resource
/-!
Folders, and the limits on their depth.
-/
namespace DriveAccess

/-- A root folder has depth 0. -/
def maxFolderDepth : Nat := 20

structure Folder where
  id : Uuid
  name : String
  parent : Option Uuid
  owner : Uuid
  depth : Nat
  createdAt : Instant
  updatedAt : Instant
deriving DecidableEq

inductive HierarchyError
  | circularMove (folder target : Uuid)
  | maxDepthExceeded (depth max : Nat)
deriving DecidableEq

def HierarchyError.name : HierarchyError → String
  | circularMove _ _ => "CircularMove"
  | maxDepthExceeded _ _ => "MaxDepthExceeded"

def HierarchyError.message : HierarchyError → String
  | circularMove folder target =>
    s!"cannot move folder {folder} under {target}: target is inside the folder's own subtree"
  | maxDepthExceeded depth max => s!"folder depth {depth} exceeds maximum of {max}"

namespace Folder

def newRoot (stamp : Stamp) (name : String) (owner : Uuid) : Folder :=
  { id := stamp.id, name, parent := none, owner, depth := 0
    createdAt := stamp.time, updatedAt := stamp.time }

def newChild (stamp : Stamp) (name : String) (owner : Uuid) (parent : Folder) :
    Except HierarchyError Folder :=
  if maxFolderDepth < parent.depth + 1 then
    .error (.maxDepthExceeded (parent.depth + 1) maxFolderDepth)
  else
    .ok { newRoot stamp name owner with parent := some parent.id, depth := parent.depth + 1 }

def resource (f : Folder) : Resource := .folder f.id

def isRoot (f : Folder) : Bool := f.parent.isNone

/-- The depth after a move. The descendants and the height are those of the subtree that moves. -/
def validateMove (f : Folder) (newParent : Option Folder) (descendants : List Uuid)
    (height : Nat) : Except HierarchyError Nat :=
  let depth := match newParent with
    | none => 0
    | some p => p.depth + 1
  match newParent.filter fun p => p.id == f.id || descendants.contains p.id with
  | some p => .error (.circularMove f.id p.id)
  | none =>
    if maxFolderDepth < depth + height then
      .error (.maxDepthExceeded (depth + height) maxFolderDepth)
    else .ok depth

end Folder

end DriveAccess
