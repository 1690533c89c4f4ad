/-
Render.Diagnostic -- compiler diagnostics, as a caller reads them
-/
import Mathlib.Tactic

namespace TypstMcp.Render

set_option autoImplicit false

inductive Severity
  | error
  | warning
  deriving DecidableEq, Repr

/-- One error or warning, at a place in the caller's own source. -/
structure Diagnostic where
  severity : Severity
  file : Option String
  line : Option Nat
  col : Option Nat
  message : String
  hints : List String
  deriving DecidableEq, Repr

/-- A diagnostic that is not tied to any source location. -/
def Diagnostic.bare (severity : Severity) (message : String) : Diagnostic :=
  ⟨severity, none, none, none, message, []⟩

def isError (diagnostic : Diagnostic) : Bool := diagnostic.severity = .error

end TypstMcp.Render
