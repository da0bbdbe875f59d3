import DriveAccess.Sql.Exchange
/-!
A server's replies as lines of text, and what is sent to it as such lines. Fields are separated by
tabs; backslashes escape tabs, line breaks and themselves.
-/
namespace DriveAccess.Transcript

def escapeChar : Char → List Char
  | '\t' => ['\\', 't']
  | '\n' => ['\\', 'n']
  | '\\' => ['\\', '\\']
  | c => [c]

def escape (text : String) : String := String.ofList (text.toList.flatMap escapeChar)

def unescape : List Char → Option (List Char)
  | [] => some []
  | '\\' :: 't' :: rest => (unescape rest).map ('\t' :: ·)
  | '\\' :: 'n' :: rest => (unescape rest).map ('\n' :: ·)
  | '\\' :: '\\' :: rest => (unescape rest).map ('\\' :: ·)
  | '\\' :: _ => none
  | c :: rest => (unescape rest).map (c :: ·)

/-- The field that stands for no value. -/
def nullField : String := "\\N"

/-- A field of a column whose type is given by a letter. -/
def cell? (type : Char) (field : String) : Option Value :=
  if field = nullField then some .null
  else match type with
    | 'u' => (Uuid.parse? field).map .id
    | 's' => (unescape field.toList).map fun cs => .text (String.ofList cs)
    | 'i' => field.toInt?.map fun n => .int (Int32.ofInt n)
    | 't' => field.toInt?.map .time
    | 'b' => (["f", "t"].idxOf? field).map fun i => .bool (i == 1)
    | _ => none

/-- Cuts fields into rows of one cell for each letter. -/
def rows? (types : List Char) : Nat → List String → Option (List Row)
  | _, [] => some []
  | 0, _ => none
  | n + 1, fields =>
    if fields.length < types.length then none
    else do
      let row ← (types.zip fields).mapM fun (type, field) => cell? type field
      return row :: (← rows? types n (fields.drop types.length))

/-- A number of affected rows, a refusal, or rows. -/
def reply? (line : String) : Option (Except Refusal Results) :=
  match line.splitOn "\t" with
  | ["count", n] => n.toNat?.map fun n => .ok ⟨[], n⟩
  | ["error", code, text] =>
    (unescape text.toList).map fun cs => .error ⟨some code, String.ofList cs⟩
  | "rows" :: types :: fields =>
    (rows? types.toList fields.length fields).map fun rows => .ok ⟨rows, rows.length⟩
  | _ => none

def exchange? (lines : List String) : Option Exchange := do
  return { replies := ← lines.mapM reply? }

def fieldsOf : Value → List String
  | .null => [nullField]
  | .id u => [toString u]
  | .text s => [escape s]
  | .int n => [toString n.toInt]
  | .time t => [toString t]
  | .bool b => [if b then "t" else "f"]
  | .ids us => [",".intercalate (us.map toString)]
  | .ints ns => [",".intercalate (ns.map fun n => toString n.toInt)]
  | .times ts => [",".intercalate (ts.map toString)]

def lineOf : Sent → String
  | .boundary b => b.text
  | .statement s => "\t".intercalate (s.text :: s.params.flatMap fieldsOf)

end DriveAccess.Transcript
