import AuthorizedCalls.Diagnostic
import AuthorizedCalls.Program
import AuthorizedCalls.Token

namespace AuthorizedCalls

inductive AuthorizerError
  | noneDeclared
  | ambiguous (names : List String)
  | unknown (name : String)
deriving DecidableEq

structure AuthorizerScope where
  names : List String := []
deriving DecidableEq

namespace AuthorizerScope

def contains (s : AuthorizerScope) (name : String) : Bool :=
  s.names.contains name

def resolveBare (s : AuthorizerScope) : Except AuthorizerError Token :=
  match s.names with
  | [] => .error .noneDeclared
  | [only] => .ok (.authorizer only 1 0)
  | several => .error (.ambiguous several)

def resolveNamed (s : AuthorizerScope) (name : String) : Except AuthorizerError Token :=
  match s.names.finIdxOf? name with
  | some position => .ok (.authorizer name s.names.length position)
  | none => .error (.unknown name)

def resolve (s : AuthorizerScope) : AuthPrefix → Except AuthorizerError Token
  | .bare => s.resolveBare
  | .named name => s.resolveNamed name

def ofParams (params : List AuthorizerParam) : AuthorizerScope :=
  ⟨params.map AuthorizerParam.name⟩

def redeclared (p : AuthorizerParam) : Diagnostic :=
  ⟨.qualifierConflict, none, p.span,
    s!"authorizer parameter `{p.name}` is declared more than once"⟩

/-- One diagnostic for every parameter whose name stands earlier in the list; `seen` holds the
names before it. -/
def duplicates (seen : List String) : List AuthorizerParam → Diagnostics
  | [] => []
  | p :: rest =>
    if p.name ∈ seen then redeclared p :: duplicates seen rest
    else duplicates (p.name :: seen) rest

end AuthorizerScope

end AuthorizedCalls
