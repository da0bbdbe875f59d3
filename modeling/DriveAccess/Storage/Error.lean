import DriveAccess.Grant
/-!
Refusals of the storage layer.
-/
namespace DriveAccess

/-- What a refusal is about. -/
inductive Item
  | relationship (tuple : Tuple)
  /-- The single owner or parent of an object. -/
  | relationOf (relation : Relation) (object : Object)
  | assignment (role : Role) (grantee : Grantee) (resource : Resource)
  | path (ancestor descendant : Uuid)
  | somePath
  | closureRows (folder : Uuid)
  | folder (id : Uuid)
  | folders (missing total : Nat)
  | membership (user group : Uuid)
  | other (text : String)
deriving DecidableEq

def Item.describe : Item → String
  | relationship t => s!"relationship {t}"
  | relationOf r o => s!"{r} of {o}"
  | assignment role grantee resource => s!"grant of {role} to {grantee} on {resource}"
  | path a d => s!"folder path {a} -> {d}"
  | somePath => "folder path"
  | closureRows f => s!"closure rows of folder {f}"
  | folder id => s!"folder {id}"
  | folders missing total => s!"{missing} of {total} folders"
  | membership user group => s!"membership of user {user} in group {group}"
  | other text => text

inductive StorageError
  | duplicate (item : Item)
  | notFound (item : Item)
  | emptyDeleteFilter
  | serializationConflict
  | internal (text : String)
deriving DecidableEq

def StorageError.name : StorageError → String
  | duplicate _ => "Duplicate"
  | notFound _ => "NotFound"
  | emptyDeleteFilter => "EmptyDeleteFilter"
  | serializationConflict => "SerializationConflict"
  | internal _ => "Internal"

def StorageError.message : StorageError → String
  | duplicate item => s!"duplicate {item.describe}"
  | notFound item => s!"{item.describe} not found"
  | emptyDeleteFilter => "delete filter must have at least one field set"
  | serializationConflict =>
    "serialization conflict: a concurrent session committed first"
  | internal text => s!"internal storage error: {text}"

end DriveAccess
