import DriveAccess.Digits
/-!
Identifiers of 128 bits, written as 32 hexadecimal digits.
-/
namespace DriveAccess

structure Uuid where
  bits : BitVec 128
deriving DecidableEq

namespace Uuid

def ofNat (n : Nat) : Uuid := ⟨BitVec.ofNat 128 n⟩

/-- The identifier that follows when identifiers are drawn by counting. -/
def next (u : Uuid) : Uuid := ⟨u.bits + 1⟩

/-- The first identifier from the given one on that is not used. No more than so many are tried. -/
def unusedFrom (used : List Uuid) : Nat → Uuid → Uuid
  | 0, u => u
  | tries + 1, u => if used.contains u then unusedFrom used tries u.next else u

def unused (used : List Uuid) (u : Uuid) : Uuid := unusedFrom used used.length u

def digits (u : Uuid) : List Char := hexDigits 32 u.bits.toNat

/-- Thirty-two digits without separators. -/
def simple (u : Uuid) : String := String.ofList u.digits

/-- Digits in groups of 8, 4, 4, 4 and 12. -/
def hyphenated (u : Uuid) : String :=
  let d := u.digits
  String.ofList (d.take 8 ++ '-' :: (d.drop 8).take 4 ++ '-' :: (d.drop 12).take 4 ++
    '-' :: (d.drop 16).take 4 ++ '-' :: d.drop 20)

instance : ToString Uuid := ⟨hyphenated⟩

def ofSimple? (text : List Char) : Option Uuid :=
  if text.length = 32 then (number? 16 text).map ofNat else none

def ofHyphenated? (text : List Char) : Option Uuid :=
  if text.length = 36 ∧ text[8]? = some '-' ∧ text[13]? = some '-' ∧ text[18]? = some '-' ∧
      text[23]? = some '-' then
    ofSimple? (text.take 8 ++ (text.drop 9).take 4 ++ (text.drop 14).take 4 ++
      (text.drop 19).take 4 ++ text.drop 24)
  else none

/-- Reads the simple form, the hyphenated form, and the hyphenated form in braces or as a URN.
Upper and lower case are the same, also in what marks a URN. -/
def parse? (text : String) : Option Uuid :=
  let chars := text.toList
  match chars.length with
  | 32 => ofSimple? chars
  | 36 => ofHyphenated? chars
  | 38 =>
    if chars.head? = some '\x7b' ∧ chars.getLast? = some '\x7d' then
      ofHyphenated? (chars.drop 1).dropLast
    else none
  | 45 =>
    if (chars.take 9).map Char.toLower = "urn:uuid:".toList then ofHyphenated? (chars.drop 9)
    else none
  | _ => none

end Uuid

/-- Seconds since the beginning of 1970. -/
abbrev Instant := Int

/-- What a command draws from its surroundings: an identifier not used before, and the time. -/
structure Stamp where
  id : Uuid
  time : Instant
deriving DecidableEq

end DriveAccess
