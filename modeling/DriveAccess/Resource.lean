import DriveAccess.Tuple
/-!
Files and folders, the things that carry grants and inherit access.
-/
namespace DriveAccess

inductive ResourceKind
  | file | folder
deriving DecidableEq

def ResourceKind.tag : ResourceKind → String
  | file => "file"
  | folder => "folder"

def ResourceKind.parse : String → Except ValidationError ResourceKind
  | "file" => .ok file
  | "folder" => .ok folder
  | word => .error (.unknown .resourceType word)

structure Resource where
  kind : ResourceKind
  id : Uuid
deriving DecidableEq

namespace Resource

def file (id : Uuid) : Resource := ⟨.file, id⟩

def folder (id : Uuid) : Resource := ⟨.folder, id⟩

instance : ToString Resource := ⟨fun r => s!"{r.kind.tag}:{r.id}"⟩

def object : Resource → Object
  | ⟨.file, id⟩ => .file id
  | ⟨.folder, id⟩ => .folder id

def subject : Resource → Subject
  | ⟨.file, id⟩ => .file id
  | ⟨.folder, id⟩ => .folder id

/-- Users and groups are subjects that are no resources. -/
def ofSubject? : Subject → Option Resource
  | ⟨.file, id⟩ => some (file id)
  | ⟨.folder, id⟩ => some (folder id)
  | ⟨.user, _⟩ | ⟨.group, _⟩ => none

@[simp] theorem ofSubject?_subject (r : Resource) : ofSubject? r.subject = some r := by
  rcases r with ⟨⟨⟩, id⟩ <;> rfl

end Resource

end DriveAccess
