import SavedState.Element
import SavedState.Vocabulary

/-!
What is reported about fields and declaring types instead of failing.
-/

namespace SavedState

inductive Severity where
  | error
  | warning
  | note
deriving DecidableEq, Repr

namespace Severity

def word : Severity → String
  | error => "error"
  | warning => "warning"
  | note => "note"

def vocabulary : Vocabulary Severity :=
  ⟨"severity", [error, warning, note].map fun s => (s.word, s), ""⟩

/-- Errors are the gravest and come first. -/
def rank : Severity → Nat
  | error => 0
  | warning => 1
  | note => 2

end Severity

inductive Subject where
  | element (enclosing : DeclaringType) (name : String)
  | type (declaring : DeclaringType)
deriving DecidableEq, Repr

namespace Subject

def ofElement (e : Element) : Subject := element e.enclosing e.name

def declaring : Subject → DeclaringType
  | element enclosing _ => enclosing
  | type declaring => declaring

def render : Subject → String
  | element enclosing name => enclosing.fieldKey name
  | type declaring => declaring.qualified

end Subject

structure Diagnostic where
  severity : Severity
  subject : Subject
  message : String
deriving DecidableEq, Repr

namespace Diagnostic

def isError (d : Diagnostic) : Bool := d.severity == .error

def render (d : Diagnostic) : String :=
  d.severity.word ++ ": " ++ d.subject.render ++ ": " ++ d.message

def count (severity : Severity) (ds : List Diagnostic) : Nat :=
  ds.countP fun d => d.severity == severity

theorem count_append (severity : Severity) (ds es : List Diagnostic) :
    count severity (ds ++ es) = count severity ds + count severity es :=
  List.countP_append

end Diagnostic

/-- The errors and the warnings so far, among the diagnostics that have been passed on. -/
structure Counting where
  errors : Nat
  warnings : Nat
  passedOn : List Diagnostic
deriving DecidableEq, Repr

namespace Counting

def fresh : Counting := ⟨0, 0, []⟩

/-- Counts a diagnostic and passes it on. -/
def report (c : Counting) (d : Diagnostic) : Counting :=
  match d.severity with
  | .error => { c with errors := c.errors + 1, passedOn := c.passedOn ++ [d] }
  | .warning => { c with warnings := c.warnings + 1, passedOn := c.passedOn ++ [d] }
  | .note => { c with passedOn := c.passedOn ++ [d] }

def reportAll (c : Counting) (ds : List Diagnostic) : Counting := ds.foldl report c

theorem report_eq (c : Counting) (d : Diagnostic) :
    c.report d = ⟨c.errors + Diagnostic.count .error [d],
      c.warnings + Diagnostic.count .warning [d], c.passedOn ++ [d]⟩ := by
  obtain ⟨severity, subject, message⟩ := d
  cases severity <;> rfl

/-- What is counted on the way is what can be counted in the end. -/
theorem reportAll_eq (c : Counting) (ds : List Diagnostic) :
    c.reportAll ds = ⟨c.errors + Diagnostic.count .error ds,
      c.warnings + Diagnostic.count .warning ds, c.passedOn ++ ds⟩ := by
  induction ds generalizing c with
  | nil => simp [reportAll, Diagnostic.count]
  | cons d ds ih =>
    have hsplit : d :: ds = [d] ++ ds := rfl
    change (c.report d).reportAll ds = _
    rw [ih, report_eq, hsplit, Diagnostic.count_append, Diagnostic.count_append]
    simp only [Nat.add_assoc, List.append_assoc]

end Counting

end SavedState
