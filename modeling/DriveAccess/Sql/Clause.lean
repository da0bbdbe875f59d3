import DriveAccess.Sql.Value
/-!
Tuple filters as conditions on columns, with numbered placeholders for the values.
-/
namespace DriveAccess

inductive TupleColumn
  | subjectType | subjectId | relation | objectType | objectId
deriving DecidableEq

def TupleColumn.name : TupleColumn → String
  | subjectType => "subject_type"
  | subjectId => "subject_id"
  | relation => "relation"
  | objectType => "object_type"
  | objectId => "object_id"

/-- That a column equals the value that a placeholder stands for. -/
structure Condition where
  column : TupleColumn
  placeholder : Nat
deriving DecidableEq

structure Clause where
  conditions : List Condition
  params : List Value
deriving DecidableEq

/-- The columns that a filter fixes, and the values they must have. -/
def TupleFilter.fixed (f : TupleFilter) : List (TupleColumn × Value) :=
  (f.subjectKind.map fun k => (.subjectType, .text k.tag)).toList ++
    (f.subjectId.map fun u => (.subjectId, .id u)).toList ++
    (f.relation.map fun r => (.relation, .text r.tag)).toList ++
    (f.objectKind.map fun k => (.objectType, .text k.tag)).toList ++
    (f.objectId.map fun u => (.objectId, .id u)).toList

/-- Placeholders are numbered from `first`. -/
def TupleFilter.clause (f : TupleFilter) (first : Nat) : Clause where
  conditions := f.fixed.mapIdx fun i (column, _) => ⟨column, first + i⟩
  params := f.fixed.map (·.2)

def Clause.text (c : Clause) : String :=
  if c.conditions.isEmpty then "TRUE"
  else " AND ".intercalate (c.conditions.map fun x => s!"{x.column.name} = ${x.placeholder}")

end DriveAccess
