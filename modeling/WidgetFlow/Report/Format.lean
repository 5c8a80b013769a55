import WidgetFlow.Report.Json
import WidgetFlow.Report.Terminal
import WidgetFlow.Report.Xml

/-!
# Formats of reports

A report is printed for reading, as XML or as JSON. The latter two can also go to a file.
-/

namespace WidgetFlow

/-- A format of reports. -/
inductive ReportFormat where
  | terminal
  | xml
  | json
  deriving DecidableEq, Repr, Inhabited

namespace ReportFormat

def text : ReportFormat → String
  | terminal => "terminal"
  | xml => "xml"
  | json => "json"

def all : List ReportFormat := [terminal, xml, json]

/-- The format with a name, whatever the case of its letters. -/
def parse? (name : String) : Option ReportFormat := all.find? fun format => format.text = name.toLower

/-- The text of a report as it is written to a file. A report for reading never is. -/
def fileText? (format : ReportFormat) (tree : AppTree) (findings : List Finding) : Option String :=
  match format with
  | terminal => none
  | xml => some (XmlReport.render tree)
  | json => some (JsonReport.render tree findings)

def printed (format : ReportFormat) (tree : AppTree) (findings : List Finding) : String :=
  match format with
  | terminal => TerminalReport.render true tree findings
  | xml => XmlReport.render tree
  | json => JsonReport.render tree findings ++ "\n"

end ReportFormat

end WidgetFlow
