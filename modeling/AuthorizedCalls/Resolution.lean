import AuthorizedCalls.Conformance
import AuthorizedCalls.Diagnostic
import AuthorizedCalls.Table

/-!
Resolution of the declarations of a batch into the table that units are checked against. The
qualifier of a contract and those of its functions are recorded each on its own; a declaration
that breaks a rule is rejected, never settled in favour of one reading. First every declaration
is registered, then the targets of conformance are looked up, then cycles are rejected, and at
last every declaration that stands is compared with the interfaces above it.
-/

namespace AuthorizedCalls

inductive DeclarationViolation
  | redeclared (kind : DeclKind) (name : String)
  | redeclaredFunction (id : DeclId)
  | severalQualifiers (id : DeclId) (written : List Access)
  /-- A function that is not `auth` reads the authorization identifier. -/
  | authRead (id : DeclId) (qualifier : Access)
  | notAnInterface (name target : String) (kind : DeclKind)
  | unknownInterface (name target : String)
  | cyclic (name : String) (members : List String)
  | conflict (implementation : DeclId) (declared : Access) (interface : DeclId) (required : Access)
deriving DecidableEq

namespace DeclarationViolation

def kind : DeclarationViolation → DiagnosticKind
  | redeclared .. | redeclaredFunction .. | severalQualifiers .. | conflict .. =>
    .qualifierConflict
  | authRead .. => .authIdentifierUnavailable
  | notAnInterface .. | unknownInterface .. | cyclic .. => .unresolvedDeclaration

def subject : DeclarationViolation → DeclId
  | redeclared _ name | notAnInterface name .. | unknownInterface name _ | cyclic name _ =>
    .contract name
  | redeclaredFunction id | severalQualifiers id _ | authRead id _ | conflict id .. => id

def message : DeclarationViolation → String
  | redeclared kind name => s!"{kind.text} `{name}` is declared more than once"
  | redeclaredFunction id => s!"function `{id.text}` is declared more than once"
  | severalQualifiers id written =>
    let list := String.intercalate ", " (written.map Access.text)
    s!"`{id.text}` carries more than one access qualifier ({list})"
  | authRead id qualifier =>
    s!"`{id.text}` reads the authorization identifier but is declared {qualifier.text}; " ++
      "only auth functions receive it"
  | notAnInterface name target kind =>
    s!"`{name}` conforms to `{target}`, which is a {kind.text}, not an interface"
  | unknownInterface name target => s!"`{name}` conforms to unknown interface `{target}`"
  | cyclic name members =>
    let cycle := String.intercalate " -> " members
    s!"interface `{name}` takes part in a conformance cycle ({cycle})"
  | conflict implementation declared interface required =>
    s!"`{implementation.text}` is declared {declared.text} but interface `{interface.text}` " ++
      s!"requires {required.text}"

def diagnostic (v : DeclarationViolation) (span : Span) : Diagnostic :=
  ⟨v.kind, some v.subject, span, v.message⟩

end DeclarationViolation

structure Resolution where
  table : Table := {}
  diagnostics : Diagnostics := []

namespace Resolution

def report (r : Resolution) (v : DeclarationViolation) (span : Span) : Resolution :=
  { r with diagnostics := r.diagnostics.report (v.diagnostic span) }

def refuse (r : Resolution) (v : DeclarationViolation) (span : Span) : Resolution :=
  { r.report v span with table := r.table.reject v.subject }

def registerMember (d : Declaration) (r : Resolution) (f : Member) : Resolution :=
  let id := DeclId.member d.name f.name
  match Access.effective f.qualifiers with
  | none =>
    { r.report (.severalQualifiers id f.qualifiers) f.span with
      table := r.table.markRejected id }
  | some qualifier =>
    let r := if f.readsAuth && !qualifier.isAuth then r.report (.authRead id qualifier) f.span else r
    let table := if qualifier.isAuth then r.table.setLowered (.ofMember id f) else r.table
    { r with table := table.setEntry id ⟨.function, qualifier, d.address, f.span⟩ }

/-- Registers functions in written order; `seen` holds the names of earlier ones. -/
def registerMembers (d : Declaration) (seen : List String) : List Member → Resolution → Resolution
  | [], r => r
  | f :: rest, r =>
    if f.name ∈ seen then
      registerMembers d seen rest (r.report (.redeclaredFunction (.member d.name f.name)) f.span)
    else
      registerMembers d (f.name :: seen) rest (registerMember d r f)

/-- Registers the first declaration of its name. With several qualifiers it is rejected and its
functions are left alone. -/
def registerDeclaration (r : Resolution) (d : Declaration) : Resolution :=
  match Access.effective d.qualifiers with
  | none =>
    { r.report (.severalQualifiers d.id d.qualifiers) d.span with
      table := r.table.markRejected d.id }
  | some qualifier =>
    registerMembers d [] d.functions
      { r with table := r.table.setEntry d.id ⟨.ofDeclKind d.kind, qualifier, d.address, d.span⟩ }

/-- Registers declarations in written order; `seen` holds the names of earlier ones. -/
def register (seen : List String) : Declarations → Resolution → Resolution
  | [], r => r
  | d :: rest, r =>
    if d.name ∈ seen then
      register seen rest (r.report (.redeclared d.kind d.name) d.span)
    else
      register (d.name :: seen) rest (r.registerDeclaration d)

/-- Refuses a declaration for a target that is no declared interface. -/
def checkTarget (ds : Declarations) (d : Declaration) (r : Resolution) (target : String) :
    Resolution :=
  match ds.named? target with
  | none => r.refuse (.unknownInterface d.name target) d.span
  | some parent =>
    if parent.isInterface then r
    else r.refuse (.notAnInterface d.name target parent.kind) d.span

def checkTargets (ds : Declarations) (r : Resolution) (d : Declaration) : Resolution :=
  d.conforms.foldl (checkTarget ds d) r

def refuseCycle (ds : Declarations) (r : Resolution) (members : List String) : Resolution :=
  (members.filterMap ds.named?).foldl (fun r d => r.refuse (.cyclic d.name members) d.span) r

/-- The qualifiers of a function in an interface and in its implementation, where both stand, one
of them is `auth` and the policy does not accept the pair. -/
def conflict? (table : Table) (policy : Policy) (interface implementation : DeclId) :
    Option (Access × Access) :=
  match table.qualifier? interface, table.qualifier? implementation with
  | some required, some declared =>
    if (required.isAuth || declared.isAuth) && !policy.accepts required declared then
      some (required, declared)
    else none
  | _, _ => none

/-- Compares a function of an interface with the one of its name in a declaration, which is
rejected at its own place where it conflicts. -/
def compareMember (policy : Policy) (d interface : Declaration) (r : Resolution) (f : Member) :
    Resolution :=
  let required := DeclId.member interface.name f.name
  let implemented := DeclId.member d.name f.name
  match conflict? r.table policy required implemented with
  | none => r
  | some (expected, actual) =>
    let span := ((r.table.get? implemented).map Entry.span).getD d.span
    r.refuse (.conflict implemented actual required expected) span

def compareWith (policy : Policy) (d : Declaration) (r : Resolution) (interface : Declaration) :
    Resolution :=
  if r.table.isRejected interface.id then r
  else interface.functions.foldl (compareMember policy d interface) r

def compareAll (ds : Declarations) (policy : Policy) (r : Resolution) (d : Declaration) :
    Resolution :=
  if r.table.isRejected d.id then r
  else ((ds.above d.name).filterMap ds.named?).foldl (compareWith policy d) r

end Resolution

namespace Declarations

def registered (ds : Declarations) : Resolution :=
  .register [] ds {}

def targeted (ds : Declarations) : Resolution :=
  ds.canonical.foldl (Resolution.checkTargets ds) ds.registered

def acyclic (ds : Declarations) : Resolution :=
  ds.cycles.foldl (Resolution.refuseCycle ds) ds.targeted

/-- Resolves the declarations of a batch. Diagnostics are in the order in which they arise. -/
def resolve (ds : Declarations) (policy : Policy) : Resolution :=
  ds.canonical.foldl (Resolution.compareAll ds policy) ds.acyclic

end Declarations

end AuthorizedCalls
