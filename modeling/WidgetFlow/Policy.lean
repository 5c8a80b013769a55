import WidgetFlow.Program.Stmt.Reader

/-!
# Errors, findings and the policy

An analysis can stop with an `AnalysisError` or go on and record a `Finding`. The policy decides:
under the fatal severity a violation is an error, otherwise it is recorded and the fact that
caused it is dropped. A gap, which is a call whose arguments could not be resolved, never stops
the analysis.
-/

namespace WidgetFlow

/-- Why an analysis stops. -/
inductive AnalysisError where
  | sanity (detail : String)
  | selfContainment (node : String)
  | dispatch (subsig owner : String)
  | unknownWidget (id : ResId)
  | missingResource (kind : String) (id : ResId)
  | unknownLocal (name method : String)
  | statement (text : String) (fault : StmtFault)
  | model (detail : String)
  /-- A resource file does not have the right form. -/
  | resource (path : String)
  /-- A resource file cannot be read. -/
  | unreadable (path : String)
  deriving DecidableEq, Repr, Inhabited

def AnalysisError.message : AnalysisError → String
  | .sanity detail => "sanity check failed: " ++ detail
  | .selfContainment node => "node " ++ node ++ " cannot contain itself"
  | .dispatch subsig owner => "no dispatch target for `" ++ subsig ++ "` on `" ++ owner ++ "`"
  | .unknownWidget id => "unknown widget id " ++ Text.decimal id.toInt ++ " during inflation"
  | .missingResource kind id => "no " ++ kind ++ " resource with id " ++ Text.hexWord id
  | .unknownLocal name method => "local `" ++ name ++ "` has no known type in " ++ method
  | .statement text fault => "cannot parse statement `" ++ text ++ "`: " ++ fault.reason
  | .model detail => "invalid program model: " ++ detail
  | .resource path => "resource error in " ++ path
  | .unreadable path => "cannot read " ++ path

/-- How violations are treated. -/
inductive Severity where
  | fatal
  | warn
  deriving DecidableEq, Repr, Inhabited

/-- What a finding tells. -/
inductive FindingKind where
  /-- A check that failed and was passed over. -/
  | violation
  /-- A call whose arguments could not be resolved. -/
  | gap
  deriving DecidableEq, Repr, Inhabited

def FindingKind.text : FindingKind → String
  | .violation => "violation"
  | .gap => "gap"

/-- Something worth telling that did not stop the analysis. -/
structure Finding where
  kind : FindingKind
  message : String
  deriving DecidableEq, Repr, Inhabited

/-- How to treat violations, and what has been found so far, oldest first. -/
structure Policy where
  severity : Severity := .warn
  findings : Array Finding := #[]
  deriving Repr, Inhabited

namespace Policy

def record (policy : Policy) (kind : FindingKind) (message : String) : Policy :=
  { policy with findings := policy.findings.push { kind, message } }

/-- Reports a gap, which never fails. -/
def gap (policy : Policy) (message : String) : Policy := policy.record .gap message

/-- Reports an error: it stops the analysis if violations are fatal, and otherwise its text is
recorded. -/
def fail (policy : Policy) (error : AnalysisError) : Except AnalysisError Policy :=
  match policy.severity with
  | .fatal => .error error
  | .warn => .ok (policy.record .violation error.message)

/-- Reports a violation, which is a sanity error if violations are fatal. -/
def violation (policy : Policy) (message : String) : Except AnalysisError Policy :=
  match policy.severity with
  | .fatal => .error (.sanity message)
  | .warn => .ok (policy.record .violation message)

def violations (policy : Policy) : Nat :=
  (policy.findings.filter fun finding => finding.kind = .violation).size

end Policy

end WidgetFlow
