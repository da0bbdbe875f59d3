import DriveAccess.Closure.Path
import DriveAccess.Sql.Value
/-!
Rows of the stored tables. Each kind of row is written column by column, read back into plain
columns, and checked: its words must belong to their vocabularies and its numbers be natural.
-/
namespace DriveAccess

def corruptRow (e : ValidationError) : StorageError := .internal s!"corrupt row: {e.message}"

def checkWord {α : Type} (parsed : Except ValidationError α) : Except StorageError α :=
  parsed.mapError corruptRow

/-- The 32-bit integer with the same low bits. -/
def toInt4 (n : Nat) : Int32 := Int32.ofNat n

def ofInt4 (n : Int32) : Except StorageError Nat :=
  if n < 0 then .error (.internal s!"corrupt row: negative value {n.toInt}") else .ok n.toInt.toNat

namespace Relationship

structure Columns where
  id : Uuid
  subjectType : String
  subjectId : Uuid
  relation : String
  objectType : String
  objectId : Uuid
  createdAt : Instant

def encode (r : Relationship) : Row :=
  [.id r.id, .text r.tuple.subject.kind.tag, .id r.tuple.subject.id, .text r.tuple.relation.tag,
    .text r.tuple.object.kind.tag, .id r.tuple.object.id, .time r.createdAt]

def Columns.read (row : Row) : Except RowFault Columns := do
  return ⟨← row.id 0, ← row.text 1, ← row.id 2, ← row.text 3, ← row.text 4, ← row.id 5,
    ← row.time 6⟩

def Columns.check (c : Columns) : Except StorageError Relationship := do
  let subjectKind ← checkWord (SubjectKind.parse c.subjectType)
  let relation ← checkWord (Relation.parse c.relation)
  let objectKind ← checkWord (ObjectKind.parse c.objectType)
  return ⟨c.id, ⟨⟨subjectKind, c.subjectId⟩, relation, ⟨objectKind, c.objectId⟩⟩, c.createdAt⟩

end Relationship

namespace Grant

structure Columns where
  id : Uuid
  resourceType : String
  resourceId : Uuid
  granteeType : String
  granteeId : Uuid
  role : String
  grantedBy : Uuid
  grantedAt : Instant

def encode (g : Grant) : Row :=
  [.id g.id, .text g.resource.kind.tag, .id g.resource.id, .text g.grantee.kind.tag,
    .id g.grantee.id, .text g.role.tag, .id g.grantedBy, .time g.grantedAt]

def Columns.read (row : Row) : Except RowFault Columns := do
  return ⟨← row.id 0, ← row.text 1, ← row.id 2, ← row.text 3, ← row.id 4, ← row.text 5,
    ← row.id 6, ← row.time 7⟩

def Columns.check (c : Columns) : Except StorageError Grant := do
  let resourceKind ← checkWord (ResourceKind.parse c.resourceType)
  let granteeKind ← checkWord (GranteeKind.parse c.granteeType)
  let role ← checkWord (Role.parse c.role)
  return ⟨c.id, ⟨resourceKind, c.resourceId⟩, ⟨granteeKind, c.granteeId⟩, role, c.grantedBy,
    c.grantedAt⟩

end Grant

namespace PathRecord

structure Columns where
  ancestor : Uuid
  descendant : Uuid
  length : Int32
  createdAt : Instant

def encode (p : PathRecord) : Row :=
  [.id p.path.ancestor, .id p.path.descendant, .int (toInt4 p.path.length), .time p.createdAt]

def Columns.read (row : Row) : Except RowFault Columns := do
  return ⟨← row.id 0, ← row.id 1, ← row.int 2, ← row.time 3⟩

def Columns.check (c : Columns) : Except StorageError PathRecord := do
  return ⟨⟨c.ancestor, c.descendant, ← ofInt4 c.length⟩, c.createdAt⟩

/-- Several rows at once, as one array for each column. -/
def encodeAll (ps : List PathRecord) : Row :=
  [.ids (ps.map (·.path.ancestor)), .ids (ps.map (·.path.descendant)),
    .ints (ps.map fun p => toInt4 p.path.length), .times (ps.map (·.createdAt))]

end PathRecord

namespace Folder

structure Columns where
  id : Uuid
  name : String
  parent : Option Uuid
  owner : Uuid
  depth : Int32
  createdAt : Instant
  updatedAt : Instant

def encode (f : Folder) : Row :=
  [.id f.id, .text f.name, .optionalId f.parent, .id f.owner, .int (toInt4 f.depth),
    .time f.createdAt, .time f.updatedAt]

def Columns.read (row : Row) : Except RowFault Columns := do
  return ⟨← row.id 0, ← row.text 1, ← row.optionalId 2, ← row.id 3, ← row.int 4, ← row.time 5,
    ← row.time 6⟩

def Columns.check (c : Columns) : Except StorageError Folder := do
  return ⟨c.id, c.name, c.parent, c.owner, ← ofInt4 c.depth, c.createdAt, c.updatedAt⟩

end Folder

namespace MembershipRecord

structure Columns where
  group : Uuid
  user : Uuid
  role : String
  joinedAt : Instant

def encode (m : MembershipRecord) : Row :=
  [.id m.membership.group, .id m.membership.user, .text m.membership.role.tag, .time m.joinedAt]

def Columns.read (row : Row) : Except RowFault Columns := do
  return ⟨← row.id 0, ← row.id 1, ← row.text 2, ← row.time 3⟩

def Columns.check (c : Columns) : Except StorageError MembershipRecord := do
  return ⟨⟨c.group, c.user, ← checkWord (MembershipRole.parse c.role)⟩, c.joinedAt⟩

end MembershipRecord

end DriveAccess
