import AuthorizedCalls.DeclId
import AuthorizedCalls.Span

namespace AuthorizedCalls

/-- The rule that a diagnostic reports a violation of. -/
inductive DiagnosticKind
  | qualifierConflict
  | importNotAuthorized
  | missingAuthorization
  | ambiguousAuthorizer
  | unknownAuthorizer
  | unresolvedDeclaration
  | authIdentifierUnavailable
deriving DecidableEq

namespace DiagnosticKind

def code : DiagnosticKind → String
  | qualifierConflict => "qualifier-conflict"
  | importNotAuthorized => "import-not-authorized"
  | missingAuthorization => "missing-authorization"
  | ambiguousAuthorizer => "ambiguous-authorizer"
  | unknownAuthorizer => "unknown-authorizer"
  | unresolvedDeclaration => "unresolved-declaration"
  | authIdentifierUnavailable => "auth-identifier-unavailable"

def all : List DiagnosticKind :=
  [qualifierConflict, importNotAuthorized, missingAuthorization, ambiguousAuthorizer,
    unknownAuthorizer, unresolvedDeclaration, authIdentifierUnavailable]

theorem mem_all (k : DiagnosticKind) : k ∈ all := by
  cases k <;> decide

end DiagnosticKind

structure Diagnostic where
  kind : DiagnosticKind
  /-- The declaration that the violation is charged to, where there is one. -/
  declaration : Option DeclId := none
  location : Span
  message : String
deriving DecidableEq

namespace Diagnostic

def text (d : Diagnostic) : String :=
  s!"error[{d.kind.code}]: {d.location.text}: {d.message}"

end Diagnostic

/-- Diagnostics in the order in which they were reported or sorted. -/
abbrev Diagnostics := List Diagnostic

namespace Diagnostics

def report (ds : Diagnostics) (d : Diagnostic) : Diagnostics :=
  ds ++ [d]

def extend (ds more : Diagnostics) : Diagnostics :=
  ds ++ more

/-- Orders by location; at one location the order of reporting stays. -/
def sortByLocation (ds : Diagnostics) : Diagnostics :=
  ds.mergeSort fun a b => a.location.notAfter b.location

def countKind (ds : Diagnostics) (kind : DiagnosticKind) : Nat :=
  ds.countP (·.kind = kind)

def kinds (ds : Diagnostics) : List DiagnosticKind :=
  ds.map Diagnostic.kind

theorem perm_sortByLocation (ds : Diagnostics) : ds.sortByLocation.Perm ds :=
  List.mergeSort_perm _ _

end Diagnostics

end AuthorizedCalls
