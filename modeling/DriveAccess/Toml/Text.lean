import DriveAccess.Digits
import DriveAccess.Toml.Reader
/-!
Quoted texts in their four forms, and keys.
-/
namespace DriveAccess.Toml.Reader

def isBasic (c : Char) : Bool := isPlain c && c != '"' && c != '\\'

def isLiteral (c : Char) : Bool := isPlain c && c != '\''

/-- The number that digits denote. -/
def denoted (radix : Nat) (digits : List Char) : Reader Nat :=
  match number? radix digits with
  | some n => pure n
  | none => failure

/-- A number of exactly so many digits. -/
def fixedNumber (radix width : Nat) : Reader Nat := do
  denoted radix (← (List.replicate width ()).mapM fun _ => satisfying (isDigitIn radix))

/-- The character with a code of so many hexadecimal digits. -/
def codePoint (width : Nat) : Reader Char := do
  let n ← fixedNumber 16 width
  if n.isValidChar then return Char.ofNat n else failure

def escape : Reader Char := do
  char '\\'
  match ← satisfying fun _ => true with
  | 'b' => return '\x08'
  | 'f' => return '\x0c'
  | 'n' => return '\n'
  | 'r' => return '\r'
  | 't' => return '\t'
  | '"' => return '"'
  | '\\' => return '\\'
  | 'u' => codePoint 4
  | 'U' => codePoint 8
  | _ => failure

def basicText : Reader String := do
  char '"'
  let cs ← many (satisfying isBasic <|> escape)
  char '"'
  return String.ofList cs

def literalText : Reader String := do
  char '\''
  let cs ← span isLiteral
  char '\''
  return String.ofList cs

/-- One quote or two, which do not end a text of several lines. -/
def innerQuotes (quote : Char) : Reader (List Char) := fun cs =>
  let run := cs.takeWhile (· == quote)
  if run.length = 1 ∨ run.length = 2 then some (run, cs.drop run.length) else none

/-- The end of a text of several lines. Up to two quotes before the last three belong to the
text. -/
def closingQuotes (quote : Char) : Reader (List Char) := fun cs =>
  let run := cs.takeWhile (· == quote)
  let extra := Nat.min (run.length - 3) 2
  if 3 ≤ run.length then some (List.replicate extra quote, cs.drop (extra + 3)) else none

/-- A backslash at the end of a line takes away all blanks and line breaks up to the next text. -/
def continuation : Reader (List Char) := do
  char '\\'
  blanks
  newline
  let _ ← many (newline <|> (do let _ ← satisfying isBlank))
  return []

def lineBreak : Reader (List Char) := do
  newline
  return ['\n']

def lines (quote : Char) (piece : Reader (List Char)) : Reader String := do
  literal (String.ofList [quote, quote, quote])
  let _ ← attempt newline
  let pieces ← many (piece <|> lineBreak <|> innerQuotes quote)
  let last ← closingQuotes quote
  return String.ofList (pieces.flatten ++ last)

def one (p : Reader Char) : Reader (List Char) := do
  return [← p]

def basicLines : Reader String :=
  lines '"' (one (satisfying isBasic) <|> continuation <|> one escape)

def literalLines : Reader String := lines '\'' (one (satisfying isLiteral))

def text : Reader String := basicLines <|> basicText <|> literalLines <|> literalText

def isBare (c : Char) : Bool := c.isAlphanum || c == '_' || c == '-'

def bareKey : Reader String := do
  let cs ← span isBare
  if cs.isEmpty then failure else return String.ofList cs

def simpleKey : Reader String := basicText <|> literalText <|> bareKey

/-- Depth from which dotted keys and nested values are refused. -/
def nestingLimit : Nat := 80

/-- The parts of a dotted key. -/
def key : Reader (List String) := do
  let parts ← separated (char '.') do
    blanks
    let part ← simpleKey
    blanks
    return part
  if parts.length < nestingLimit then return parts else failure

end DriveAccess.Toml.Reader
