/-!
# Pieces of texts

Cutting a text at a literal, at a separator or at the end of a run of characters. All functions
work on lists of characters, so that what they keep and what they drop is read off the list.
-/

namespace WidgetFlow.Text

/-- The rest of `text` after the literal it begins with, if it begins with it. -/
def dropLiteral? : List Char → List Char → Option (List Char)
  | [], text => some text
  | _ :: _, [] => none
  | want :: literal, c :: text => if want = c then dropLiteral? literal text else none

def after? (literal : String) (text : List Char) : Option (List Char) :=
  dropLiteral? literal.toList text

/-- The text before the last character, if that character is `last`. -/
def beforeLast? (last : Char) : List Char → Option (List Char)
  | [] => none
  | [c] => if c = last then some [] else none
  | c :: rest => (beforeLast? last rest).map (c :: ·)

/-- Whether `part` stands somewhere in `text`. -/
def occursIn (part : List Char) : List Char → Bool
  | [] => part.isEmpty
  | c :: text => part.isPrefixOf (c :: text) || occursIn part text

/-- The pieces of a text between the occurrences of a separator; there is always at least one. -/
def splitOn (separator : Char) : List Char → List (List Char)
  | [] => [[]]
  | c :: text =>
    match splitOn separator text with
    | [] => [[]]
    | piece :: pieces =>
      if c = separator then [] :: piece :: pieces else (c :: piece) :: pieces

/-- Replaces the pair `first`, `second` by `new` from left to right, without overlap. -/
def replacePair (first second new : Char) : List Char → List Char
  | a :: b :: text =>
    if a = first ∧ b = second then new :: replacePair first second new text
    else a :: replacePair first second new (b :: text)
  | text => text

/-- The longest run of characters in a class at the beginning, if it is not empty, and what follows. -/
def run1? (inClass : Char → Bool) (text : List Char) : Option (List Char × List Char) :=
  match text.takeWhile inClass with
  | [] => none
  | c :: run => some (c :: run, text.dropWhile inClass)

def joinWith (separator : String) (pieces : List String) : String :=
  String.intercalate separator pieces

/-- A text split at line ends; a final line end gives a last empty line. -/
def lines (text : String) : List String := (splitOn '\n' text.toList).map String.ofList

end WidgetFlow.Text
