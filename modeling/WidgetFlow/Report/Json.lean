import WidgetFlow.Data.Printer
import WidgetFlow.WindowTree

/-!
# The JSON report

The windows, the findings and a summary of both as data.
-/

namespace WidgetFlow

def Datum.count (number : Nat) : Datum := .int number

def Datum.member? (name : String) : Option Datum → List (String × Datum)
  | some value => [(name, value)]
  | none => []

def HandledEvent.datum (entry : HandledEvent) : Datum :=
  .record ([("event", .str entry.event), ("handler", .str entry.handler)] ++
    Datum.member? "real_handler" (entry.realHandler.map .str))

mutual

def ViewTree.datum : ViewTree → Datum
  | ⟨owner, id, idName, views, events⟩ =>
    .record [("type", .str owner), ("id", .int id.toInt), ("id_name", .str idName),
      ("views", .list (ViewTree.data views)), ("events", .list (events.map HandledEvent.datum))]

def ViewTree.data : List ViewTree → List Datum
  | [] => []
  | view :: rest => view.datum :: ViewTree.data rest

end

def Creation.datum (creation : Creation) : Datum :=
  .record [("method", .str creation.method), ("stmt", .str creation.stmt),
    ("index", .count creation.index)]

def WindowTree.datum (tree : WindowTree) : Datum :=
  .record ([("name", .str tree.name)] ++
    Datum.member? "alloc" (tree.creation.map Creation.datum) ++
    [("views", .list (ViewTree.data tree.views))])

/-- The windows of an application as data. -/
def AppTree.datum (tree : AppTree) : Datum :=
  .record [("app", .str tree.app), ("activities", .list (tree.activities.map WindowTree.datum)),
    ("dialogs", .list (tree.dialogs.map WindowTree.datum))]

def Finding.datum (finding : Finding) : Datum :=
  .record [("kind", .str finding.kind.text), ("message", .str finding.message)]

namespace JsonReport

def summary (tree : AppTree) (findings : List Finding) : Datum :=
  let violations := (findings.filter fun finding => finding.kind = .violation).length
  .record [("activities", .count tree.activities.length), ("dialogs", .count tree.dialogs.length),
    ("views", .count tree.viewCount), ("handlers", .count tree.handlerCount),
    ("violations", .count violations), ("gaps", .count (findings.length - violations))]

def datum (tree : AppTree) (findings : List Finding) : Datum :=
  .record [("version", .str "1.0"), ("hierarchy", tree.datum),
    ("findings", .list (findings.map Finding.datum)), ("summary", summary tree findings)]

def render (tree : AppTree) (findings : List Finding) : String := (datum tree findings).print

end JsonReport

end WidgetFlow
