import DriveAccess.Toml.Value
/-!
How headers and dotted keys add to the tables of a document, and which additions are refused.
-/
namespace DriveAccess.Toml

namespace Entries

/-- Puts a new value in place of the one under a key. -/
def put (t : Entries) (key : String) (v : Value) : Entries :=
  t.map fun e => if e.1 == key then (key, v) else e

/-- A change of one table: it sees how the table has come into the document and what it holds. -/
abbrev Change := Origin → Entries → Option Entries

/-- Changes the table that a path leads to, and makes tables on the way that are not there. An
array of tables stands for its last one. A dotted key does not enter tables with headers, and
nothing enters tables in braces. -/
def descend (viaDots : Bool) (change : Change) : List String → Change
  | [], origin, t => change origin t
  | key :: path, _, t =>
    match t.lookup key with
    | none => do
      let origin : Origin := if viaDots then .dotted else .implied
      return t ++ [(key, .table origin (← descend viaDots change path origin []))]
    | some (.table origin child) =>
      if origin = .inline ∨ (viaDots ∧ origin = .header) then none
      else do
        return t.put key (.table origin (← descend viaDots change path origin child))
    | some (.array true items) =>
      match items.getLast? with
      | some (.table origin child) => do
        let last ← descend viaDots change path origin child
        return t.put key (.array true (items.dropLast ++ [.table origin last]))
      | _ => none
    | some _ => none

/-- A key directly in a table must not meet a table made by dots, and a key behind dots must meet
one. No key is set twice. -/
def set (direct : Bool) (key : String) (v : Value) : Change := fun origin t =>
  if (origin == .dotted) = direct ∨ (t.lookup key).isSome then none else some (t ++ [(key, v)])

/-- Sets a dotted key, given by its parts. -/
def setPath (path : List String) (v : Value) : Change :=
  match path.getLast? with
  | none => fun _ _ => none
  | some key => descend true (set path.dropLast.isEmpty key v) path.dropLast

/-- Opens a table by its header. One that was only implied gets its header now. -/
def openTable (key : String) : Change := fun _ t =>
  match t.lookup key with
  | none => some (t ++ [(key, .table .header [])])
  | some (.table .implied child) => some (t.put key (.table .header child))
  | some _ => none

/-- Opens one more table in an array of tables. -/
def openElement (key : String) : Change := fun _ t =>
  match t.lookup key with
  | none => some (t ++ [(key, .array true [.table .header []])])
  | some (.array true items) => some (t.put key (.array true (items ++ [.table .header []])))
  | some _ => none

end Entries

/-- A line of a document that says something. -/
inductive Line
  | pair (path : List String) (value : Value)
  | header (path : List String)
  | elementHeader (path : List String)

/-- The tables so far, and the path of the last header. -/
structure Draft where
  root : Entries := []
  current : List String := []

namespace Draft

/-- Opens the table at a path. -/
def enter (d : Draft) (path : List String) (opening : String → Entries.Change) : Option Draft := do
  let key ← path.getLast?
  let root ← Entries.descend false (opening key) path.dropLast .header d.root
  return ⟨root, path⟩

def add (d : Draft) : Line → Option Draft
  | .pair path v => do
    let root ← Entries.descend false (Entries.setPath path v) d.current .header d.root
    return { d with root }
  | .header path => d.enter path Entries.openTable
  | .elementHeader path => d.enter path Entries.openElement

end Draft

def assemble (lines : List Line) : Option Entries := do
  return (← lines.foldlM Draft.add {}).root

end DriveAccess.Toml
