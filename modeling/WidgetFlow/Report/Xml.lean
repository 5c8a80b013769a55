import WidgetFlow.WindowTree

/-!
# The XML report

Each window, view and handled event is an element on a line of its own, two blanks further in than
the element around it. An element that contains nothing is closed at once.
-/

namespace WidgetFlow.XmlReport

/-- One character of an attribute's value. -/
def escapeChar (c : Char) : List Char :=
  if c = '<' then "&lt;".toList
  else if c = '>' then "&gt;".toList
  else if c = '&' then "&amp;".toList
  else if c = '\x27' then "&apos;".toList
  else if c = '"' then "&quot;".toList
  else [c]

def escape (text : String) : String := String.ofList (text.toList.flatMap escapeChar)

def attr (name value : String) : String := " " ++ name ++ "=\"" ++ escape value ++ "\""

/-- The blanks at the beginning of a line. -/
def indent (depth : Nat) : String := String.ofList (List.replicate (2 * depth) ' ')

def element (depth : Nat) (tag attributes : String) (content : String) : String :=
  indent depth ++ "<" ++ tag ++ attributes ++
    (if content.isEmpty then "/>\n"
     else ">\n" ++ content ++ indent depth ++ "</" ++ tag ++ ">\n")

def event (depth : Nat) (entry : HandledEvent) : String :=
  element depth "EventAndHandler"
    (attr "event" entry.event ++ attr "handler" entry.handler ++
      match entry.realHandler with
      | some handler => attr "realHandler" handler
      | none => "") ""

mutual

def view (depth : Nat) : ViewTree → String
  | ⟨owner, id, idName, views, events⟩ =>
    element depth "View"
      (attr "type" owner ++ attr "id" (Text.decimal id.toInt) ++
        attr "idName" idName)
      (String.join (events.map (event (depth + 1))) ++ allViews (depth + 1) views)

def allViews (depth : Nat) : List ViewTree → String
  | [] => ""
  | tree :: rest => view depth tree ++ allViews depth rest

end

def window (tag : String) (tree : WindowTree) : String :=
  element 1 tag
    (attr "name" tree.name ++
      match tree.creation with
      | some creation =>
        attr "allocStmt" creation.stmt ++ attr "allocMethod" creation.method
      | none => "")
    (allViews 2 tree.views)

def render (tree : AppTree) : String :=
  "<GUIHierarchy" ++ attr "app" tree.app ++ ">\n" ++
    String.join (tree.activities.map (window "Activity")) ++
    String.join (tree.dialogs.map (window "Dialog")) ++ "</GUIHierarchy>\n"

end WidgetFlow.XmlReport
