import WidgetFlow.WindowTree

/-!
# The terminal report

A summary for reading: the windows with their views, the findings, and how many there are of each.
-/

namespace WidgetFlow.TerminalReport

/-- The blanks at the beginning of a line. -/
def indent (depth : Nat) : String := String.ofList (List.replicate (2 * depth) ' ')

def shortName (owner : String) : String :=
  match (Text.splitOn '.' owner.toList).getLast? with
  | some name => String.ofList name
  | none => owner

def eventLine (depth : Nat) (entry : HandledEvent) : String :=
  indent depth ++ "  → " ++ entry.event ++ " " ++ entry.realHandler.getD entry.handler

mutual

def viewLines (depth : Nat) : ViewTree → List String
  | ⟨owner, _, idName, views, events⟩ =>
    (indent depth ++ shortName owner ++ (if idName = "NO_ID" then "" else " #" ++ idName)) ::
      events.map (eventLine depth) ++ allViewLines (depth + 1) views

def allViewLines (depth : Nat) : List ViewTree → List String
  | [] => []
  | view :: rest => viewLines depth view ++ allViewLines depth rest

end

def windowLines (showViews : Bool) (label : String) (tree : WindowTree) : List String :=
  [label ++ " " ++ tree.name ++ " (" ++ toString (ViewTree.viewCountAll tree.views) ++ " views)"] ++
    (match tree.creation with
     | some creation => ["  allocated in " ++ creation.method]
     | none => []) ++
    (if showViews then allViewLines 1 tree.views else []) ++ [""]

def findingLines (findings : List Finding) : List String :=
  if findings.isEmpty then []
  else "Findings:" ::
    findings.map (fun finding => "  " ++ finding.kind.text ++ " " ++ finding.message) ++ [""]

def summaryLines (tree : AppTree) (findings : List Finding) : List String :=
  let violations := (findings.filter fun finding => finding.kind = .violation).length
  [String.ofList (List.replicate 60 '─'),
    "Summary: " ++ toString tree.activities.length ++ " activities, " ++
      toString tree.dialogs.length ++ " dialogs, " ++ toString tree.viewCount ++ " views, " ++
      toString tree.handlerCount ++ " handlers"] ++
    (if 0 < violations then ["⚠ " ++ toString violations ++ " sanity violations recorded"] else []) ++
    (if violations < findings.length then
      [toString (findings.length - violations) ++ " call sites could not be resolved"] else []) ++
    [""]

def lines (showViews : Bool) (tree : AppTree) (findings : List Finding) : List String :=
  ["", "GUI hierarchy of " ++ tree.app, ""] ++
    (if tree.windows.isEmpty then ["No windows found"] else []) ++
    tree.activities.flatMap (windowLines showViews "activity") ++
    tree.dialogs.flatMap (windowLines showViews "dialog") ++
    findingLines findings ++ summaryLines tree findings

def render (showViews : Bool) (tree : AppTree) (findings : List Finding) : String :=
  String.join ((lines showViews tree findings).map (· ++ "\n"))

end WidgetFlow.TerminalReport
