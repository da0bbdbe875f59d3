/-!
What a TOML document holds.
-/
namespace DriveAccess.Toml

/-- A finite number in decimal notation. -/
structure Decimal where
  negative : Bool
  mantissa : Nat
  /-- The power of ten that the mantissa is multiplied by. -/
  exponent : Int
deriving DecidableEq

inductive FloatLiteral
  | decimal (d : Decimal)
  | infinity (negative : Bool)
  | notANumber
deriving DecidableEq

structure Date where
  year : Nat
  month : Nat
  day : Nat
deriving DecidableEq

structure Time where
  hour : Nat
  minute : Nat
  second : Nat
  nanosecond : Nat
deriving DecidableEq

/-- A date, a time of day, or both; with both there may be an offset, in minutes. -/
structure Moment where
  date : Option Date
  time : Option Time
  offset : Option Int
deriving DecidableEq

/-- How a table has come into a document, which decides what may be added to it. -/
inductive Origin
  /-- It has a header of its own. -/
  | header
  /-- It is on the way to a table with a header. -/
  | implied
  /-- It is on the way of a dotted key. -/
  | dotted
  /-- It is written in braces. -/
  | inline
deriving DecidableEq

inductive Value
  | text (s : String)
  | integer (n : Int)
  | float (f : FloatLiteral)
  | boolean (b : Bool)
  | moment (m : Moment)
  /-- `ofTables` holds for arrays that grow by headers in double brackets. -/
  | array (ofTables : Bool) (items : List Value)
  | table (origin : Origin) (entries : List (String × Value))

abbrev Entries := List (String × Value)

end DriveAccess.Toml
