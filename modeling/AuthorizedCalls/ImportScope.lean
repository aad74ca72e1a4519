import AuthorizedCalls.Diagnostic
import AuthorizedCalls.Table

namespace AuthorizedCalls

inductive ImportViolation
  | unknownContract (contract : String)
  | otherMode (contract : String) (first : ImportMode) (firstSpan : Span)
  | plainImport (contract : String)
deriving DecidableEq

namespace ImportViolation

def kind : ImportViolation → DiagnosticKind
  | unknownContract _ => .unresolvedDeclaration
  | otherMode .. => .qualifierConflict
  | plainImport _ => .importNotAuthorized

def contract : ImportViolation → String
  | unknownContract contract | otherMode contract .. | plainImport contract => contract

def message : ImportViolation → String
  | unknownContract contract => s!"import of unknown contract `{contract}`"
  | otherMode contract first span =>
    s!"`{contract}` is already imported in {first.text} mode at {span.text}"
  | plainImport contract =>
    s!"contract `{contract}` is declared auth and must be imported with `import auth`"

def diagnostic (v : ImportViolation) (span : Span) : Diagnostic :=
  ⟨v.kind, some (.contract v.contract), span, v.message⟩

end ImportViolation

structure ImportBinding where
  contract : String
  mode : ImportMode
  declared : Access
  /-- Whether anything is reachable through the binding. -/
  usable : Bool
  span : Span
deriving DecidableEq

namespace ImportBinding

/-- Whether calls through the binding carry the authorization prefix unwritten. -/
def impliesAuthorization (b : ImportBinding) : Bool :=
  b.usable && b.mode == .authorized

end ImportBinding

abbrev ImportScope := SortedMap ImportBinding

namespace ImportScope

def bind (table : Table) (state : ImportScope × Diagnostics) (i : Import) :
    ImportScope × Diagnostics :=
  let (scope, diagnostics) := state
  let report (v : ImportViolation) := diagnostics.report (v.diagnostic i.span)
  if table.isRejected (.contract i.contract) then state
  else
    match table.contract? i.contract with
    | none => (scope, report (.unknownContract i.contract))
    | some entry =>
      match scope.find? i.contract with
      | some first =>
        if first.mode = i.mode then state
        else (scope, report (.otherMode i.contract first.mode first.span))
      | none =>
        let usable := !(entry.qualifier.isAuth && i.mode == .plain)
        let binding := ⟨i.contract, i.mode, entry.qualifier, usable, i.span⟩
        (scope.insert i.contract binding,
          if usable then diagnostics else report (.plainImport i.contract))

def ofImports (table : Table) (imports : List Import) : ImportScope × Diagnostics :=
  imports.foldl (bind table) (.empty, [])

end ImportScope

end AuthorizedCalls
