import DriveAccess.Toml.Text
import DriveAccess.Toml.Value
/-!
Values that consist of one word: numbers, truth values, dates and times.
-/
namespace DriveAccess.Toml

namespace Decimal

/-- Numbers from here on are nearer to the double precision infinity than to any finite number. -/
def infinityThreshold : Nat := Nat.pow 2 1024 - Nat.pow 2 970

/-- The threshold has 309 digits, so only numbers of that size need the full comparison. -/
def roundsToInfinity (d : Decimal) : Bool :=
  let places : Int := (Nat.toDigits 10 d.mantissa).length + d.exponent
  d.mantissa != 0 && (decide (309 < places) || (places == 309 &&
    decide (infinityThreshold * Nat.pow 10 (-d.exponent).toNat ≤
      d.mantissa * Nat.pow 10 d.exponent.toNat)))

end Decimal

namespace Reader

/-- Digits, between any two of which there may be one underscore. -/
def digits (radix : Nat) : Reader (List Char) := do
  let first ← satisfying (isDigitIn radix)
  let rest ← many do
    let _ ← attempt (char '_')
    satisfying (isDigitIn radix)
  return first :: rest

/-- Whether a minus sign is there; a plus sign may be. -/
def sign : Reader Bool := do
  match ← attempt (satisfying fun c => c == '-' || c == '+') with
  | some c => return c == '-'
  | none => return false

/-- The digits of a decimal integer. Only zero itself begins with a zero. -/
def decimalDigits : Reader (List Char) :=
  (do char '0'; return ['0']) <|> digits 10

def decimalInteger : Reader Int := do
  let negative ← sign
  let n ← denoted 10 (← decimalDigits)
  return if negative then -n else n

/-- Digits in another radix, behind a prefix. -/
def prefixedInteger (mark : String) (radix : Nat) : Reader Int := do
  literal mark
  return ← denoted radix (← digits radix)

/-- Integers are those of 64 bits. -/
def isInteger (n : Int) : Bool :=
  decide (-9223372036854775808 ≤ n) && decide (n ≤ 9223372036854775807)

def integer : Reader Value := do
  let n ← prefixedInteger "0x" 16 <|> prefixedInteger "0o" 8 <|> prefixedInteger "0b" 2 <|>
    decimalInteger
  if isInteger n then return .integer n else failure

def fraction : Reader (List Char) := do
  char '.'
  digits 10

def exponent : Reader Int := do
  char 'e' <|> char 'E'
  let negative ← sign
  let n ← denoted 10 (← digits 10)
  return if negative then -n else n

/-- A decimal number with a fraction, an exponent or both. -/
def decimal : Reader Decimal := do
  let negative ← sign
  let whole ← decimalDigits
  let part ← attempt fraction
  let power ← match part with
    | none => some <$> exponent
    | some _ => attempt exponent
  let behind := part.getD []
  let mantissa ← denoted 10 (whole ++ behind)
  return ⟨negative, mantissa, power.getD 0 - behind.length⟩

/-- Positive numbers must not be too large for double precision; negative ones may. -/
def decimalFloat : Reader Value := do
  let d ← decimal
  if !d.negative && d.roundsToInfinity then failure else return .float (.decimal d)

def specialFloat : Reader Value := do
  let negative ← sign
  (do literal "inf"; return .float (.infinity negative)) <|>
    (do literal "nan"; return .float .notANumber)

def float : Reader Value := decimalFloat <|> specialFloat

def boolean : Reader Value :=
  (do literal "true"; return .boolean true) <|> (do literal "false"; return .boolean false)

/-- A number of so many digits that lies within bounds. -/
def field (width low high : Nat) : Reader Nat := do
  let n ← fixedNumber 10 width
  if low ≤ n ∧ n ≤ high then return n else failure

def isLeapYear (year : Nat) : Bool := year % 4 == 0 && (year % 100 != 0 || year % 400 == 0)

def daysInMonth (year : Nat) : Nat → Nat
  | 2 => if isLeapYear year then 29 else 28
  | 4 | 6 | 9 | 11 => 30
  | _ => 31

def date : Reader Date := do
  let year ← field 4 0 9999
  char '-'
  let month ← field 2 1 12
  char '-'
  return ⟨year, month, ← field 2 1 (daysInMonth year month)⟩

/-- Billionths of a second; digits beyond the ninth are dropped. -/
def nanoseconds : Reader Nat := do
  char '.'
  let ds ← span (isDigitIn 10)
  if ds.isEmpty then failure
  else denoted 10 ((ds ++ List.replicate 9 '0').take 9)

/-- The second 60 is there for leap seconds. -/
def time : Reader Time := do
  let hour ← field 2 0 23
  char ':'
  let minute ← field 2 0 59
  char ':'
  let second ← field 2 0 60
  return ⟨hour, minute, second, (← attempt nanoseconds).getD 0⟩

def offset : Reader Int := do
  match ← satisfying fun _ => true with
  | 'Z' | 'z' => return 0
  | '+' => size
  | '-' => return -(← size)
  | _ => failure
where
  /-- Hours and minutes. -/
  size : Reader Int := do
    let hours ← field 2 0 23
    char ':'
    return 60 * hours + (← field 2 0 59)

/-- The time that follows a date. -/
def timeOfDay : Reader (Time × Option Int) := do
  char 'T' <|> char 't' <|> char ' '
  let t ← time
  return (t, ← attempt offset)

def dated : Reader Value := do
  let d ← date
  let rest ← attempt timeOfDay
  return .moment ⟨some d, rest.map (·.1), rest.bind (·.2)⟩

def timeOnly : Reader Value := do
  return .moment ⟨none, some (← time), none⟩

def scalar : Reader Value :=
  (Value.text <$> text) <|> dated <|> timeOnly <|> float <|> integer <|> boolean

end Reader

end DriveAccess.Toml
