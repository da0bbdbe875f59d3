import DriveAccess.Folder
/-!
Rows of the closure table: one for each folder and each of its ancestors, the folder itself
included, with the number of edges between them.
-/
namespace DriveAccess

structure FolderPath where
  ancestor : Uuid
  descendant : Uuid
  length : Nat
deriving DecidableEq

namespace FolderPath

def self (folder : Uuid) : FolderPath := ⟨folder, folder, 0⟩

def isSelf (p : FolderPath) : Bool := p.ancestor == p.descendant

/-- The row of a new child of `p.descendant`. -/
def extend (p : FolderPath) (child : Uuid) : FolderPath := ⟨p.ancestor, child, p.length + 1⟩

/-- A row that ends in the new parent, joined with one that starts at the moved folder. -/
def join (upper lower : FolderPath) : FolderPath :=
  ⟨upper.ancestor, lower.descendant, upper.length + 1 + lower.length⟩

end FolderPath

/-- A closure row as it is stored. -/
structure PathRecord where
  path : FolderPath
  createdAt : Instant
deriving DecidableEq

/-- The rows of a new folder, from those of its parent; a root folder has no parent rows. -/
def ancestorPaths (folder : Uuid) (parentPaths : List FolderPath) : List FolderPath :=
  .self folder :: parentPaths.map (·.extend folder)

/-- The greatest distance in a subtree given by its root's rows. -/
def subtreeHeight (subtree : List FolderPath) : Nat :=
  subtree.foldl (fun height p => Nat.max height p.length) 0

/-- The rows that link each folder of a moved subtree to each ancestor-or-self of its new parent. -/
def attachPaths (subtree newParentPaths : List FolderPath) : List FolderPath :=
  subtree.flatMap fun lower => newParentPaths.map fun upper => upper.join lower

end DriveAccess
