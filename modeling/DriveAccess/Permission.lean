import DriveAccess.Validation
/-!
Single actions on files and folders, and sets of them.
-/
namespace DriveAccess

inductive Permission
  | fileRead | fileWrite | fileDelete | fileShare | fileMove | fileDownload
  | folderRead | folderWrite | folderCreate | folderDelete | folderShare
  | folderMoveIn | folderMoveOut
  | manageAccess
deriving DecidableEq

namespace Permission

def all : List Permission :=
  [fileRead, fileWrite, fileDelete, fileShare, fileMove, fileDownload,
    folderRead, folderWrite, folderCreate, folderDelete, folderShare,
    folderMoveIn, folderMoveOut, manageAccess]

theorem mem_all (p : Permission) : p ∈ all := by cases p <;> decide

/-- What a permission acts on. -/
inductive Scope
  | file | folder | manage
deriving DecidableEq

def Scope.tag : Scope → String
  | file => "file"
  | folder => "folder"
  | manage => "manage"

def scope : Permission → Scope
  | fileRead | fileWrite | fileDelete | fileShare | fileMove | fileDownload => .file
  | folderRead | folderWrite | folderCreate | folderDelete | folderShare
  | folderMoveIn | folderMoveOut => .folder
  | manageAccess => .manage

def tag : Permission → String
  | fileRead => "file:read"
  | fileWrite => "file:write"
  | fileDelete => "file:delete"
  | fileShare => "file:share"
  | fileMove => "file:move"
  | fileDownload => "file:download"
  | folderRead => "folder:read"
  | folderWrite => "folder:write"
  | folderCreate => "folder:create"
  | folderDelete => "folder:delete"
  | folderShare => "folder:share"
  | folderMoveIn => "folder:move_in"
  | folderMoveOut => "folder:move_out"
  | manageAccess => "manage:access"

instance : ToString Permission := ⟨tag⟩

def parse (word : String) : Except ValidationError Permission :=
  match all.find? (·.tag == word) with
  | some p => .ok p
  | none => .error (.unknown .permission word)

/-- The place of a permission in `all`, by which permissions are ordered. -/
def index (p : Permission) : Nat := all.idxOf p

instance : Ord Permission := ⟨fun p q => compare p.index q.index⟩

end Permission

/-- A set of permissions, given by its membership test. -/
structure PermissionSet where
  contains : Permission → Bool

namespace PermissionSet

instance : Membership Permission PermissionSet := ⟨fun s p => s.contains p = true⟩

instance (p : Permission) (s : PermissionSet) : Decidable (p ∈ s) :=
  inferInstanceAs (Decidable (s.contains p = true))

@[simp] theorem mem_mk {f : Permission → Bool} {p : Permission} : p ∈ mk f ↔ f p = true := Iff.rfl

@[ext] theorem ext {s t : PermissionSet} (h : ∀ p, p ∈ s ↔ p ∈ t) : s = t := by
  cases s; cases t
  exact congrArg mk (funext fun p => Bool.eq_iff_iff.2 (h p))

def empty : PermissionSet := ⟨fun _ => false⟩

def full : PermissionSet := ⟨fun _ => true⟩

def union (s t : PermissionSet) : PermissionSet := ⟨fun p => s.contains p || t.contains p⟩

def inter (s t : PermissionSet) : PermissionSet := ⟨fun p => s.contains p && t.contains p⟩

instance : EmptyCollection PermissionSet := ⟨empty⟩
instance : Union PermissionSet := ⟨union⟩
instance : Inter PermissionSet := ⟨inter⟩

@[simp] theorem not_mem_empty (p : Permission) : ¬ p ∈ (∅ : PermissionSet) := Bool.false_ne_true

@[simp] theorem mem_full (p : Permission) : p ∈ full := rfl

@[simp] theorem mem_union {s t : PermissionSet} {p : Permission} :
    p ∈ s ∪ t ↔ p ∈ s ∨ p ∈ t := Bool.or_eq_true_iff

@[simp] theorem mem_inter {s t : PermissionSet} {p : Permission} :
    p ∈ s ∩ t ↔ p ∈ s ∧ p ∈ t := Bool.and_eq_true_iff

def insert (s : PermissionSet) (p : Permission) : PermissionSet :=
  ⟨fun q => q == p || s.contains q⟩

def ofList (ps : List Permission) : PermissionSet := ⟨fun p => ps.contains p⟩

@[simp] theorem mem_ofList {ps : List Permission} {p : Permission} : p ∈ ofList ps ↔ p ∈ ps :=
  List.contains_iff_mem

/-- The members in the order of `Permission.all`. -/
def toList (s : PermissionSet) : List Permission := Permission.all.filter s.contains

theorem mem_toList {s : PermissionSet} {p : Permission} : p ∈ s.toList ↔ p ∈ s := by
  simp only [toList, List.mem_filter, Permission.mem_all, true_and]
  exact Iff.rfl

def size (s : PermissionSet) : Nat := s.toList.length

def isEmpty (s : PermissionSet) : Bool := s.toList.isEmpty

def subset (s t : PermissionSet) : Bool := s.toList.all t.contains

def hasAny (s : PermissionSet) (ps : List Permission) : Bool := ps.any s.contains

def hasAll (s : PermissionSet) (ps : List Permission) : Bool := ps.all s.contains

instance : DecidableEq PermissionSet := fun s t =>
  decidable_of_iff (s.toList = t.toList)
    ⟨fun h => ext fun p => by rw [← mem_toList, h, mem_toList], fun h => h ▸ rfl⟩

def render (s : PermissionSet) : String :=
  "[" ++ ", ".intercalate (s.toList.map Permission.tag) ++ "]"

end PermissionSet

end DriveAccess
