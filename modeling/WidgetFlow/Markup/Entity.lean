import WidgetFlow.Text.Numeral

/-!
# Entities

In markup a character may be written by name or by number between an ampersand and a semicolon.
`unescape?` replaces all such references and fails if one of them means nothing.
-/

namespace WidgetFlow.Markup

open Text

def namedEntity? (name : List Char) : Option Char :=
  if name = "lt".toList then some '<'
  else if name = "gt".toList then some '>'
  else if name = "amp".toList then some '&'
  else if name = "apos".toList then some '\x27'
  else if name = "quot".toList then some '"'
  else none

/-- The character with a number, which is neither zero nor outside the range of characters. -/
def charOfCode? (code : Nat) : Option Char :=
  if code ≠ 0 ∧ (code < 0xd800 ∨ (0xe000 ≤ code ∧ code < 0x110000)) then some (Char.ofNat code)
  else none

/-- The character that a number stands for: at most seven decimal or six hexadecimal digits. -/
def numberedEntity? : List Char → Option Char
  | 'x' :: digits =>
    if digits.length ≤ 6 then (natFrom? 16 0 digits).bind charOfCode? else none
  | digits => if digits.length ≤ 7 then (natFrom? 10 0 digits).bind charOfCode? else none

/-- The character that a reference stands for, from the text between its ends. -/
def entity? : List Char → Option Char
  | '#' :: number => numberedEntity? number
  | name => namedEntity? name

/-- Replaces references in the rest of a text; `reference` holds the characters of an unfinished
one, last first. -/
def unescapeFrom? (reference : Option (List Char)) : List Char → Option (List Char)
  | [] => if reference.isNone then some [] else none
  | c :: rest =>
    match reference with
    | none =>
      if c == '&' then unescapeFrom? (some []) rest else (unescapeFrom? none rest).map (c :: ·)
    | some name =>
      if c == '&' then none
      else if c == ';' then
        match entity? name.reverse with
        | some found => (unescapeFrom? none rest).map (found :: ·)
        | none => none
      else unescapeFrom? (some (c :: name)) rest

def unescape? (text : List Char) : Option (List Char) := unescapeFrom? none text

end WidgetFlow.Markup
