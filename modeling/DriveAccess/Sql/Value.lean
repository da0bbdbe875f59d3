import DriveAccess.Storage.Error
/-!
Values that travel to and from a database server.
-/
namespace DriveAccess

inductive Value
  | null
  | id (u : Uuid)
  | text (s : String)
  | int (n : Int32)
  | time (t : Instant)
  | bool (b : Bool)
  | ids (us : List Uuid)
  | ints (ns : List Int32)
  | times (ts : List Instant)
deriving DecidableEq

namespace Value

def optionalId : Option Uuid → Value
  | none => null
  | some u => id u

/-- The name of a value's type on the server. -/
def typeName : Value → String
  | null => "UNKNOWN"
  | id _ => "UUID"
  | text _ => "TEXT"
  | int _ => "INT4"
  | time _ => "TIMESTAMPTZ"
  | bool _ => "BOOL"
  | ids _ => "UUID[]"
  | ints _ => "INT4[]"
  | times _ => "TIMESTAMPTZ[]"

end Value

abbrev Row := List Value

/-- The type that a query expects in a column. -/
inductive ColumnType
  | id
  | optionalId
  | text
  | int
  | time
  | bool
deriving DecidableEq

namespace ColumnType

/-- The name of the type that the column's values are read as. -/
def readAs : ColumnType → String
  | id => "uuid::Uuid"
  | optionalId => "core::option::Option<uuid::Uuid>"
  | text => "alloc::string::String"
  | int => "i32"
  | time => "chrono::datetime::DateTime<chrono::offset::utc::Utc>"
  | bool => "bool"

/-- The name of the type on the server. It says nothing about `null`. -/
def typeName : ColumnType → String
  | id | optionalId => "UUID"
  | text => "TEXT"
  | int => "INT4"
  | time => "TIMESTAMPTZ"
  | bool => "BOOL"

end ColumnType

/-- Why a row does not have the columns that a query asks for. -/
inductive RowFault
  | absent (column width : Nat)
  | null (column : Nat)
  | mistyped (column : Nat) (expected : ColumnType) (found : String)
deriving DecidableEq

def RowFault.message : RowFault → String
  | absent column width =>
    s!"column index out of bounds: the len is {width}, but the index is {column}"
  | null column =>
    s!"error occurred while decoding column {column}: unexpected null; " ++
      "try decoding as an `Option`"
  | mistyped column expected found =>
    s!"error occurred while decoding column {column}: mismatched types; " ++
      s!"Rust type `{expected.readAs}` (as SQL type `{expected.typeName}`) " ++
      s!"is not compatible with SQL type `{found}`"

namespace Row

def value (row : Row) (column : Nat) : Except RowFault Value :=
  match row[column]? with
  | some v => .ok v
  | none => .error (.absent column row.length)

/-- Why a value is not of the type that is expected in its column. -/
def refuse {α : Type} (column : Nat) (expected : ColumnType) : Value → Except RowFault α
  | .null => .error (.null column)
  | v => .error (.mistyped column expected v.typeName)

def id (row : Row) (column : Nat) : Except RowFault Uuid := do
  match ← row.value column with
  | .id u => return u
  | v => refuse column .id v

def optionalId (row : Row) (column : Nat) : Except RowFault (Option Uuid) := do
  match ← row.value column with
  | .id u => return some u
  | .null => return none
  | v => refuse column .optionalId v

def text (row : Row) (column : Nat) : Except RowFault String := do
  match ← row.value column with
  | .text s => return s
  | v => refuse column .text v

def int (row : Row) (column : Nat) : Except RowFault Int32 := do
  match ← row.value column with
  | .int n => return n
  | v => refuse column .int v

def time (row : Row) (column : Nat) : Except RowFault Instant := do
  match ← row.value column with
  | .time t => return t
  | v => refuse column .time v

def bool (row : Row) (column : Nat) : Except RowFault Bool := do
  match ← row.value column with
  | .bool b => return b
  | v => refuse column .bool v

end Row

end DriveAccess
