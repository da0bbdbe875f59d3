import DriveAccess.Closure.Path
/-!
Disagreements between a closure table and the tree that the folders' parents describe.
-/
namespace DriveAccess

inductive Violation
  | missingSelf (folder : Uuid)
  | missingPath (ancestor descendant : Uuid) (expected : Nat)
  | wrongLength (ancestor descendant : Uuid) (expected actual : Nat)
  | duplicatePath (ancestor descendant : Uuid)
  | strayPath (ancestor descendant : Uuid)
  | depthMismatch (folder : Uuid) (recorded actual : Nat)
  | unknownParent (folder parent : Uuid)
  | cycle (folder : Uuid)
deriving DecidableEq

def Violation.message : Violation → String
  | missingSelf f => s!"folder {f} has no self-reference row"
  | missingPath a d n => s!"missing path {a} -> {d} (length {n})"
  | wrongLength a d expected actual =>
    s!"path {a} -> {d} has length {actual}, expected {expected}"
  | duplicatePath a d => s!"duplicate path {a} -> {d}"
  | strayPath a d => s!"stray path {a} -> {d}"
  | depthMismatch f recorded actual =>
    s!"folder {f} records depth {recorded} but sits at depth {actual}"
  | unknownParent f p => s!"folder {f} points at unknown parent {p}"
  | cycle f => s!"folder {f} is part of a parent cycle"

/-- How a walk along parents ends. -/
inductive WalkEnd
  | root
  | unknown (parent : Uuid)
  | cycle
deriving DecidableEq

/-- The folders met on the way up, nearest first, and the end of the way. -/
structure Walk where
  met : List Uuid
  stop : WalkEnd

/-- Of several rows with one id the last counts. -/
def folderWithId? (folders : List Folder) (id : Uuid) : Option Folder :=
  folders.reverse.find? (·.id == id)

/-- Follows parents from `current`. Each step meets a listed folder that is not yet in `met`, so
as many steps as there are folders suffice. -/
def walkUp (folders : List Folder) : Nat → List Uuid → Option Uuid → Walk
  | _, met, none => ⟨met, .root⟩
  | 0, met, some _ => ⟨met, .cycle⟩
  | steps + 1, met, some p =>
    match folderWithId? folders p with
    | none => ⟨met, .unknown p⟩
    | some parent =>
      if met.contains p then ⟨met, .cycle⟩
      else walkUp folders steps (met ++ [p]) parent.parent

/-- The walk of a folder starts with the folder itself. -/
def Folder.walk (folders : List Folder) (f : Folder) : Walk :=
  walkUp folders (folders.length + 1) [f.id] f.parent

/-- What is wrong with the parents and the depth of one folder. -/
def Folder.violations (folders : List Folder) (f : Folder) : List Violation :=
  let w := f.walk folders
  match w.stop with
  | .unknown p => [.unknownParent f.id p]
  | .cycle => [.cycle f.id]
  | .root =>
    let depth := w.met.length - 1
    if depth = f.depth then [] else [.depthMismatch f.id f.depth depth]

/-- The rows that a folder should have as descendant. -/
def Folder.expectedPaths (folders : List Folder) (f : Folder) : List FolderPath :=
  (f.walk folders).met.mapIdx fun distance a => ⟨a, f.id, distance⟩

/-- Of several expected rows with one key, listed in the order of the folders, the last counts. -/
def expectedLength? (expected : List FolderPath) (ancestor descendant : Uuid) : Option Nat :=
  (expected.reverse.find? fun p => p.ancestor == ancestor && p.descendant == descendant).map
    (·.length)

def FolderPath.sameKey (p q : FolderPath) : Bool :=
  p.ancestor == q.ancestor && p.descendant == q.descendant

/-- The first row of each key. -/
def firstRows : List FolderPath → List FolderPath
  | [] => []
  | p :: rest => p :: (firstRows rest).filter (!p.sameKey ·)

/-- What is wrong with the rows of one key, given the first of them. -/
def FolderPath.violations (expected rows : List FolderPath) (p : FolderPath) : List Violation :=
  (if 1 < rows.countP (p.sameKey ·) then [.duplicatePath p.ancestor p.descendant] else []) ++
    match expectedLength? expected p.ancestor p.descendant with
    | none => [.strayPath p.ancestor p.descendant]
    | some n =>
      if p.length = n then [] else [.wrongLength p.ancestor p.descendant n p.length]

/-- An expected row without a row of its key. -/
def FolderPath.absence (expected : List FolderPath) (p : FolderPath) : Violation :=
  if p.isSelf then .missingSelf p.ancestor
  else
    .missingPath p.ancestor p.descendant
      ((expectedLength? expected p.ancestor p.descendant).getD p.length)

/-- Every disagreement between closure rows and folders. -/
def verifyClosure (folders : List Folder) (rows : List FolderPath) : List Violation :=
  let expected := folders.flatMap (Folder.expectedPaths folders)
  folders.flatMap (Folder.violations folders) ++
    (firstRows rows).flatMap (FolderPath.violations expected rows) ++
    ((firstRows expected).filter fun p => !rows.any (p.sameKey ·)).map
      (FolderPath.absence expected)

end DriveAccess
