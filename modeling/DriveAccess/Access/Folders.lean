import DriveAccess.Access.Program
/-!
Commands that create, move and delete folders. Each first takes the lock on the hierarchy.
-/
namespace DriveAccess

/-- What the deletion of a folder takes away. -/
structure DeletedSubtree where
  folders : List Uuid
  files : List Uuid
deriving DecidableEq

namespace Program

def createRelationship (t : Tuple) : Program Unit := do
  let _ ← request (.createRelationship t)

/-- The new folder, and the closure rows of its parent. -/
def placeFolder (c : Context) (owner : Uuid) (name : String) :
    Option Uuid → Program (Folder × List FolderPath)
  | none => return (.newRoot c.stamp name owner, [])
  | some parentId => do
    let parent ← requireFolder parentId
    requirePermission c owner parent.resource .folderCreate
    let folder ← ofHierarchy (Folder.newChild c.stamp name owner parent)
    let parentPaths : List FolderPath ← request (.findAncestorPaths parentId)
    return (folder, parentPaths)

def createFolder (c : Context) (owner : Uuid) (name : String) (parent : Option Uuid) :
    Program Folder := do
  request .lockHierarchy
  let (folder, parentPaths) ← placeFolder c owner name parent
  request (.createFolder folder)
  request (.insertPaths (ancestorPaths folder.id parentPaths))
  createRelationship (.owner folder.owner folder.resource.object)
  match folder.parent with
  | none => return folder
  | some parentId =>
    createRelationship (.parent (.folder parentId) folder.resource.object)
    return folder

def requireNewParent : Option Uuid → Program (Option Folder)
  | none => return none
  | some id => return some (← requireFolder id)

/-- Moving out of a folder and into another one need a permission each; only the owner may move a
folder to the root. -/
def requireMove (c : Context) (actor : Uuid) (folder : Folder) (newParent : Option Folder) :
    Program Unit := do
  requirePermission c actor folder.resource .folderMoveOut
  match newParent with
  | some p => requirePermission c actor p.resource .folderMoveIn
  | none => requireOwner c actor folder.resource .moveToRoot

def newParentPaths : Option Folder → Program (List FolderPath)
  | none => return []
  | some p => request (.findAncestorPaths p.id)

def moveFolder (c : Context) (actor id : Uuid) (newParentId : Option Uuid) :
    Program Folder := do
  request .lockHierarchy
  let folder ← requireFolder id
  let newParent ← requireNewParent newParentId
  requireMove c actor folder newParent
  let descendants : List Uuid ← request (.findDescendants id)
  let subtree : List FolderPath ← request (.findSubtree id)
  let depth ← ofHierarchy (folder.validateMove newParent descendants (subtreeHeight subtree))
  let upper ← newParentPaths newParent
  request (.moveSubtree id upper)
  request (.setFolderParent id newParentId)
  request (.setFolderDepths (subtree.map fun p => (p.descendant, depth + p.length)))
  request (.setParent folder.resource.object (newParentId.map Subject.folder))
  record (.folderMoved c.tenant id newParentId actor subtree.length)
  requireFolder id

/-- The files that lie directly in one of the folders, folder by folder. -/
def filesIn : List Uuid → Program (List Uuid)
  | [] => return []
  | folder :: rest => do
    let children : List Object ← request (.findObjects (.folder folder) .parent)
    let files := (children.filter (·.kind == .file)).map (·.id)
    return files ++ (← filesIn rest)

/-- Removes what is attached to files. -/
def detachFiles : List Uuid → Program Unit
  | [] => return
  | file :: rest => do
    let _ ← request (.deleteByObject (.file file))
    let _ ← request (.deleteGrantsFor (.file file))
    detachFiles rest

/-- Removes what is attached to folders, and the edges to what lies in them. -/
def detachFolders : List Uuid → Program Unit
  | [] => return
  | folder :: rest => do
    let _ ← request (.deleteByObject (.folder folder))
    let _ ← request (.deleteBySubject (.folder folder))
    let _ ← request (.deleteGrantsFor (.folder folder))
    detachFolders rest

/-- Removes a folder, all folders and files below it, and all tuples and grants on them. -/
def deleteFolder (c : Context) (actor id : Uuid) : Program DeletedSubtree := do
  request .lockHierarchy
  let folder ← requireFolder id
  requirePermission c actor folder.resource .folderDelete
  let folders : List Uuid ← request (.findDescendants id)
  let files ← filesIn folders
  detachFiles files
  detachFolders folders
  let _ ← request (.deleteSubtreePaths id)
  let _ ← request (.deleteFolders folders)
  return ⟨folders, files⟩

end Program

end DriveAccess
