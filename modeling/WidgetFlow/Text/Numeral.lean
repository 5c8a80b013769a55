import WidgetFlow.Text.Word

/-!
# Numerals

Reading and writing whole numbers in base ten and base sixteen. Resource identifiers are 32-bit
words: a numeral that names one is read as a wider number and keeps its low 32 bits, and the
hexadecimal text of a word is the text of its bit pattern.
-/

namespace WidgetFlow

/-- A resource identifier: a signed 32-bit word. -/
abbrev ResId := Int32

namespace Text

def digitValue? (c : Char) : Option Nat :=
  if isAsciiDigit c then some (c.toNat - '0'.toNat)
  else if 'a' ≤ c && c ≤ 'f' then some (c.toNat - 'a'.toNat + 10)
  else if 'A' ≤ c && c ≤ 'F' then some (c.toNat - 'A'.toNat + 10)
  else none

def natFrom? (base : Nat) (value : Nat) : List Char → Option Nat
  | [] => some value
  | c :: rest =>
    match digitValue? c with
    | some digit => if digit < base then natFrom? base (value * base + digit) rest else none
    | none => none

/-- A non-empty row of digits. -/
def nat? (base : Nat) : List Char → Option Nat
  | [] => none
  | c :: rest => natFrom? base 0 (c :: rest)

/-- An optional sign and a non-empty row of digits. -/
def int? (base : Nat) : List Char → Option Int
  | '-' :: digits => (nat? base digits).map fun n => -(n : Int)
  | '+' :: digits => (nat? base digits).map fun n => (n : Int)
  | digits => (nat? base digits).map fun n => (n : Int)

/-- How many words of the given number of bits there are. -/
def wordCount (bits : Nat) : Nat := Nat.pow 2 bits

/-- A numeral whose value fits in a signed word of the given number of bits. -/
def intWithin? (bits : Nat) (base : Nat) (text : List Char) : Option Int :=
  match int? base text with
  | some value =>
    let bound : Int := wordCount (bits - 1)
    if -bound ≤ value ∧ value < bound then some value else none
  | none => none

/-- The digits of a number in base sixteen. -/
def hexDigits (n : Nat) : List Char := Nat.toDigits 16 n

/-- A word as `0x` and the hexadecimal digits of its bit pattern. -/
def hexWord (value : ResId) : String := String.ofList ('0' :: 'x' :: hexDigits value.toUInt32.toNat)

/-- A whole number in base ten, with a sign if it is negative. -/
def decimal (value : Int) : String := toString value

end Text

end WidgetFlow
