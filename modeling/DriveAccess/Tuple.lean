import DriveAccess.Uuid
import DriveAccess.Validation
/-!
Relationship tuples `subject#relation@object`: ownership, group membership and parent edges.
-/
namespace DriveAccess

inductive SubjectKind
  | user | group | file | folder
deriving DecidableEq

def SubjectKind.tag : SubjectKind → String
  | user => "user"
  | group => "group"
  | file => "file"
  | folder => "folder"

def SubjectKind.parse : String → Except ValidationError SubjectKind
  | "user" => .ok user
  | "group" => .ok group
  | "file" => .ok file
  | "folder" => .ok folder
  | word => .error (.unknown .subjectType word)

inductive ObjectKind
  | file | folder | group
deriving DecidableEq

def ObjectKind.tag : ObjectKind → String
  | file => "file"
  | folder => "folder"
  | group => "group"

def ObjectKind.parse : String → Except ValidationError ObjectKind
  | "file" => .ok file
  | "folder" => .ok folder
  | "group" => .ok group
  | word => .error (.unknown .objectType word)

inductive Relation
  | owner | member | parent
deriving DecidableEq

def Relation.tag : Relation → String
  | owner => "owner"
  | member => "member"
  | parent => "parent"

instance : ToString Relation := ⟨Relation.tag⟩

def Relation.parse : String → Except ValidationError Relation
  | "owner" => .ok owner
  | "member" => .ok member
  | "parent" => .ok parent
  | word => .error (.unknown .relation word)

/-- An object has at most one owner and at most one parent, and any number of members. -/
def Relation.isSingular : Relation → Bool
  | owner | parent => true
  | member => false

structure Subject where
  kind : SubjectKind
  id : Uuid
deriving DecidableEq

def Subject.user (id : Uuid) : Subject := ⟨.user, id⟩
def Subject.group (id : Uuid) : Subject := ⟨.group, id⟩
def Subject.file (id : Uuid) : Subject := ⟨.file, id⟩
def Subject.folder (id : Uuid) : Subject := ⟨.folder, id⟩

instance : ToString Subject := ⟨fun s => s!"{s.kind.tag}:{s.id}"⟩

structure Object where
  kind : ObjectKind
  id : Uuid
deriving DecidableEq

def Object.file (id : Uuid) : Object := ⟨.file, id⟩
def Object.folder (id : Uuid) : Object := ⟨.folder, id⟩
def Object.group (id : Uuid) : Object := ⟨.group, id⟩

instance : ToString Object := ⟨fun o => s!"{o.kind.tag}:{o.id}"⟩

structure Tuple where
  subject : Subject
  relation : Relation
  object : Object
deriving DecidableEq

namespace Tuple

def owner (user : Uuid) (object : Object) : Tuple := ⟨.user user, .owner, object⟩

def member (user group : Uuid) : Tuple := ⟨.user user, .member, .group group⟩

def parent (parent : Subject) (child : Object) : Tuple := ⟨parent, .parent, child⟩

instance : ToString Tuple := ⟨fun t => s!"{t.subject}#{t.relation}@{t.object}"⟩

end Tuple

/-- A tuple as it is stored. -/
structure Relationship where
  id : Uuid
  tuple : Tuple
  createdAt : Instant
deriving DecidableEq

/-- Selects the tuples that agree with every field that is set. -/
structure TupleFilter where
  subjectKind : Option SubjectKind := none
  subjectId : Option Uuid := none
  relation : Option Relation := none
  objectKind : Option ObjectKind := none
  objectId : Option Uuid := none
deriving DecidableEq

namespace TupleFilter

def ofObject (o : Object) : TupleFilter :=
  { objectKind := some o.kind, objectId := some o.id }

def ofSubject (s : Subject) : TupleFilter :=
  { subjectKind := some s.kind, subjectId := some s.id }

def exact (t : Tuple) : TupleFilter :=
  { subjectKind := some t.subject.kind, subjectId := some t.subject.id
    relation := some t.relation, objectKind := some t.object.kind
    objectId := some t.object.id }

def withRelation (f : TupleFilter) (r : Relation) : TupleFilter := { f with relation := some r }

def isEmpty (f : TupleFilter) : Bool := f == {}

/-- A field that is not set agrees with every value. -/
def agrees {α : Type} [DecidableEq α] : Option α → α → Bool
  | none, _ => true
  | some a, b => a == b

def selects (f : TupleFilter) (t : Tuple) : Bool :=
  agrees f.subjectKind t.subject.kind && agrees f.subjectId t.subject.id &&
    agrees f.relation t.relation && agrees f.objectKind t.object.kind &&
    agrees f.objectId t.object.id

end TupleFilter

end DriveAccess
