/-!
# Blank characters

Statements, types and values are read with the blanks around them removed. A blank is any
character that Unicode counts as white space, not only the ASCII ones.
-/

namespace WidgetFlow.Text

/-- Whether a code point lies in one of the given ranges, both ends included. -/
def inRanges (ranges : List (Nat × Nat)) (code : Nat) : Bool :=
  ranges.any fun range => range.1 ≤ code && code ≤ range.2

/-- The ranges of a long table, which is given by the lengths of runs of code points. The first run
begins at `code` and is outside, the second one is a range, and so on by turns. -/
def rangesOf (code : Nat) : List Nat → List (Nat × Nat)
  | outside :: inside :: rest =>
    (code + outside, code + outside + inside - 1) :: rangesOf (code + outside + inside) rest
  | _ => []

def blankRanges : List (Nat × Nat) :=
  [(0x9, 0xd), (0x20, 0x20), (0x85, 0x85), (0xa0, 0xa0), (0x1680, 0x1680), (0x2000, 0x200a),
   (0x2028, 0x2029), (0x202f, 0x202f), (0x205f, 0x205f), (0x3000, 0x3000)]

/-- A white space character. -/
def isBlank (c : Char) : Bool := inRanges blankRanges c.toNat

def trimStart (text : List Char) : List Char := text.dropWhile isBlank

def dropEndWhile (drop : Char → Bool) (text : List Char) : List Char :=
  (text.reverse.dropWhile drop).reverse

def trim (text : List Char) : List Char := dropEndWhile isBlank (trimStart text)

end WidgetFlow.Text
