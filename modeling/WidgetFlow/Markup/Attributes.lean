import WidgetFlow.Markup.Entity
import WidgetFlow.Ordered

/-!
# Attributes

The attributes in the text of a tag after its name. What cannot be read is passed over: a key
without a value, a value without quotes, and a key that stood before. A missing closing quote ends
the attributes.
-/

namespace WidgetFlow.Markup

def isSpace (c : Char) : Bool := c == ' ' || c == '\r' || c == '\n' || c == '\t'

/-- The attributes of an element: keys and values in ascending order of the keys. -/
abbrev Attributes := List (String × String)

def Attributes.get? (attrs : Attributes) (key : String) : Option String := attrs.lookup key

/-- The value of a key with the platform's namespace before it, or else of the bare key. -/
def Attributes.android? (attrs : Attributes) (key : String) : Option String :=
  match attrs.get? ("android:" ++ key) with
  | some value => some value
  | none => attrs.get? key

def skipWord (text : List Char) : List Char := text.dropWhile fun c => !isSpace c

/-- The value that a quoted text stands for: the text itself if it holds a reference that means
nothing. -/
def attributeValue (quoted : List Char) : String := String.ofList ((unescape? quoted).getD quoted)

/-- Reads attributes; `seen` holds the keys so far. -/
def attributesFrom : Nat → List (List Char) → List Char → List (String × String)
  | 0, _, _ => []
  | bound + 1, seen, text =>
    match text.dropWhile isSpace with
    | [] => []
    | first :: rest =>
      let key := first :: rest.takeWhile fun c => c != '=' && !isSpace c
      match (rest.dropWhile fun c => c != '=' && !isSpace c).dropWhile isSpace with
      | '=' :: value =>
        if seen.contains key then attributesFrom bound seen (skipWord ('=' :: value))
        else
          match value.dropWhile isSpace with
          | [] => []
          | quote :: quoted =>
            if quote == '"' || quote == '\x27' then
              match quoted.dropWhile (· != quote) with
              | [] => []
              | _ :: rest =>
                (String.ofList key, attributeValue (quoted.takeWhile (· != quote))) ::
                  attributesFrom bound (key :: seen) rest
            else attributesFrom bound (key :: seen) (skipWord (quote :: quoted))
      | rest => attributesFrom bound seen rest

def attributes (text : List Char) : Attributes :=
  Ordered.sort (·.1) (attributesFrom (text.length + 1) [] text)

end WidgetFlow.Markup
