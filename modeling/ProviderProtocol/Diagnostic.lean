import ProviderProtocol.Error
/-!
# Diagnostics

What an operation reports beside its result: an error, which stops it, or a warning, each with a summary and
optionally a detail and the path of the attribute concerned.

The wire form has no absent detail (it is empty), a severity number (2 is a warning, any other number an error) and a
wire path.  Reading it back drops an empty detail and a path that addresses the root.
-/
namespace ProviderProtocol

inductive Severity
  | error
  | warning
  deriving DecidableEq

structure Diagnostic where
  severity : Severity
  summary : String
  detail : Option String
  path : Option Path

namespace Diagnostic

def error (summary : String) (detail : Option String) : Diagnostic := ⟨.error, summary, detail, none⟩

def warning (summary : String) (detail : Option String) : Diagnostic := ⟨.warning, summary, detail, none⟩

def ofError (summary : String) (e : ProviderError) : Diagnostic := error summary (some e.text)

def isError (d : Diagnostic) : Bool := d.severity == .error

def text (d : Diagnostic) : String :=
  (if d.isError then "error: " else "warning: ") ++ d.summary
    ++ (match d.path with | some p => " (at " ++ p.text ++ ")" | none => "")
    ++ (match d.detail with | some t => ": " ++ t | none => "")

end Diagnostic

def hasErrors (ds : List Diagnostic) : Bool := ds.any Diagnostic.isError

/-! ## Wire form -/

namespace Severity

def number : Severity → Int
  | .error   => 1
  | .warning => 2

end Severity

structure WireDiagnostic where
  severity : Int
  summary : String
  detail : String
  path : Option Path.Wire

namespace Diagnostic

def toWire (d : Diagnostic) : WireDiagnostic where
  severity := d.severity.number
  summary := d.summary
  detail := d.detail.getD ""
  path := d.path.map Path.toWire

def ofWire (w : WireDiagnostic) : Diagnostic where
  severity := if w.severity = 2 then .warning else .error
  summary := w.summary
  detail := if w.detail = "" then none else some w.detail
  path := (w.path.map Path.ofWire).filter (!·.isEmpty)

end Diagnostic

end ProviderProtocol
