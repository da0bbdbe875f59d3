import DriveAccess.Access.Folders
/-!
Commands that register and delete files.
-/
namespace DriveAccess.Program

/-- A file is registered once it has an owner or a parent. -/
def isRegistered (file : Uuid) : Program Bool := do
  let owners : List Subject ← request (.findSubjects .owner (.file file))
  if owners.isEmpty then
    let parent : Option Subject ← request (.findParent (.file file))
    return parent.isSome
  else
    return true

def registerFile (c : Context) (owner file folderId : Uuid) : Program Resource := do
  let folder ← requireFolder folderId
  requirePermission c owner folder.resource .folderWrite
  if ← isRegistered file then
    .fail (.conflict (.alreadyRegistered file))
  else
    createRelationship (.owner owner (.file file))
    createRelationship (.parent folder.resource.subject (.file file))
    return .file file

def deleteFile (c : Context) (actor file : Uuid) : Program Unit := do
  let _ ← requireResource (.file file)
  requirePermission c actor (.file file) .fileDelete
  detachFiles [file]

end DriveAccess.Program
