import DriveAccess.Toml.Scalar
import DriveAccess.Toml.Tables
/-!
Whole documents.
-/
namespace DriveAccess.Toml

namespace Reader

/-- A dotted key and its value. -/
def pair (value : Reader Value) : Reader (List String × Value) := do
  let path ← key
  char '='
  blanks
  return (path, ← value)

/-- An array may be spread over lines, and a comma may follow its last item. -/
def array (value : Reader Value) : Reader Value := do
  char '['
  let items ← attempt do
    let items ← separated (char ',') do
      gap
      let v ← value
      gap
      return v
    let _ ← attempt (char ',')
    return items
  gap
  char ']'
  return .array false (items.getD [])

def inlineTable (value : Reader Value) : Reader Value := do
  char '\x7b'
  let pairs ← attempt <| separated (char ',') do
    let p ← pair value
    blanks
    return p
  blanks
  char '\x7d'
  let entries ← (pairs.getD []).foldlM (fun t (path, v) => Entries.setPath path v .inline t) []
  return .table .inline entries

/-- A value in which arrays and tables in braces are nested at most so deep. -/
def value : Nat → Reader Value
  | 0 => scalar
  | depth + 1 => scalar <|> array (value depth) <|> inlineTable (value depth)

def pairLine : Reader Line := do
  let (path, v) ← pair (value (nestingLimit - 1))
  return .pair path v

def header : Reader Line := do
  char '['
  let path ← key
  char ']'
  return .header path

def elementHeader : Reader Line := do
  literal "[["
  let path ← key
  literal "]]"
  return .elementHeader path

/-- One line; lines that say nothing are `none`. -/
def line : Reader (Option Line) :=
  (do
    let l ← elementHeader <|> header <|> pairLine
    lineEnd
    return some l) <|>
  (do
    comment
    lineEnd
    return none) <|>
  (do
    newline
    return none)

def byteOrderMark : Char := '\ufeff'

def document : Reader (List Line) := do
  let _ ← attempt (char byteOrderMark)
  blanks
  let lines ← many do
    let l ← line
    blanks
    return l
  atEnd
  return lines.filterMap id

end Reader

/-- The tables of a document, unless it is malformed. -/
def parse (text : String) : Option Entries := do
  let (lines, _) ← Reader.document.run text.toList
  assemble lines

end DriveAccess.Toml
