import ProviderProtocol.Diagnostic
/-!
# Assertions on diagnostics

Checks for tests of a provider.  A check that fails says what it expected and shows the errors that were reported;
warnings never count.
-/
namespace ProviderProtocol

/-- Does the pattern occur somewhere in the text? -/
def occursIn (pattern : List Char) : List Char → Bool
  | []      => pattern.isEmpty
  | c :: cs => pattern.isPrefixOf (c :: cs) || occursIn pattern cs

def errorsOf (ds : List Diagnostic) : List Diagnostic := ds.filter Diagnostic.isError

def Diagnostic.mentions (pattern : String) (d : Diagnostic) : Bool :=
  occursIn pattern.toList d.summary.toList ||
    match d.detail with
    | some text => occursIn pattern.toList text.toList
    | none      => false

inductive Expectation
  | noErrors
  | someError
  | errorMentioning (pattern : String)

namespace Expectation

def holds : Expectation → List Diagnostic → Bool
  | .noErrors, ds                => (errorsOf ds).isEmpty
  | .someError, ds               => hasErrors ds
  | .errorMentioning pattern, ds => (errorsOf ds).any (·.mentions pattern)

/-- What is said of diagnostics that do not meet the expectation. -/
def complaint (ds : List Diagnostic) : Expectation → String
  | .noErrors                =>
    "Expected no errors, but got " ++ toString (errorsOf ds).length ++ " error(s): "
      ++ Text.quoteAll ((errorsOf ds).map Diagnostic.text)
  | .someError               => "Expected at least one error, but got none"
  | .errorMentioning pattern =>
    "Expected an error containing '" ++ pattern ++ "', but no matching error found. Errors: "
      ++ Text.quoteAll ((errorsOf ds).map Diagnostic.text)

def check (e : Expectation) (ds : List Diagnostic) : Except String Unit :=
  if e.holds ds then .ok () else .error (e.complaint ds)

end Expectation

end ProviderProtocol
