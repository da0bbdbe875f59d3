/-!
Readers of text: each takes what it recognises off the front, or fails and takes nothing.
-/
namespace DriveAccess.Toml

abbrev Reader := StateT (List Char) Option

namespace Reader

variable {α : Type}

def satisfying (test : Char → Bool) : Reader Char
  | c :: rest => if test c then some (c, rest) else none
  | [] => none

def char (c : Char) : Reader Unit := do
  let _ ← satisfying (· == c)

def literal (text : String) : Reader Unit := text.toList.forM char

/-- The longest run of such characters, perhaps an empty one. -/
def span (test : Char → Bool) : Reader (List Char) := fun cs =>
  some (cs.takeWhile test, cs.dropWhile test)

def atEnd : Reader Unit := fun cs => if cs.isEmpty then some ((), []) else none

def attempt (p : Reader α) : Reader (Option α) := (some <$> p) <|> pure none

def manyUpTo (p : Reader α) : Nat → Reader (List α)
  | 0 => pure []
  | n + 1 => (do
    let a ← p
    return a :: (← manyUpTo p n)) <|> pure []

/-- As many as there are. Each takes a character at least, so the text's length bounds them. -/
def many (p : Reader α) : Reader (List α) := do
  manyUpTo p (← get).length

/-- One or more, with a separator between any two. -/
def separated (separator : Reader Unit) (p : Reader α) : Reader (List α) := do
  let first ← p
  return first :: (← many (separator *> p))

def isBlank (c : Char) : Bool := c == ' ' || c == '\t'

def blanks : Reader Unit := do
  let _ ← span isBlank

def newline : Reader Unit := char '\n' <|> literal "\r\n"

/-- Of the control characters only the tab may stand in comments and strings. -/
def isPlain (c : Char) : Bool := c == '\t' || (' ' ≤ c && c != '\x7f')

def comment : Reader Unit := do
  char '#'
  let _ ← span isPlain

def commentIfAny : Reader Unit := do
  let _ ← attempt comment

/-- The rest of a line after what stands on it. -/
def lineEnd : Reader Unit := do
  blanks
  commentIfAny
  newline <|> atEnd

/-- Blanks, comments and line breaks in any number. -/
def gap : Reader Unit := do
  blanks
  let _ ← many do
    commentIfAny
    newline
    blanks

end Reader

end DriveAccess.Toml
