import AuthorizedCalls.Access
import AuthorizedCalls.Address
import AuthorizedCalls.DeclId
import AuthorizedCalls.Span

namespace AuthorizedCalls

inductive DeclKind
  | contract
  | interface
deriving DecidableEq

namespace DeclKind

def text : DeclKind → String
  | contract => "contract"
  | interface => "interface"

end DeclKind

structure Param where
  name : String
  type : String
deriving DecidableEq

structure Member where
  name : String
  qualifiers : List Access := []
  params : List Param := []
  /-- Whether the body or a condition reads the authorization identifier. -/
  readsAuth : Bool := false
  span : Span := {}
deriving DecidableEq

structure Declaration where
  kind : DeclKind
  name : String
  /-- The account that the declaration is deployed to. -/
  address : Address
  qualifiers : List Access := []
  /-- The interfaces that a contract conforms to or an interface extends. -/
  conforms : List String := []
  functions : List Member := []
  span : Span := {}
deriving DecidableEq

namespace Declaration

def id (d : Declaration) : DeclId :=
  .contract d.name

def isInterface (d : Declaration) : Bool :=
  d.kind == .interface

end Declaration

structure AuthorizerParam where
  name : String
  span : Span := {}
deriving DecidableEq

inductive UnitKind
  /-- Code of the named contract or interface. -/
  | contract (name : String)
  /-- A transaction; its authorizers are the parameters of `prepare` in order. -/
  | transaction (authorizers : List AuthorizerParam)
  | script
deriving DecidableEq

structure Import where
  contract : String
  mode : ImportMode := .plain
  span : Span := {}
deriving DecidableEq

inductive AuthPrefix
  | bare
  | named (authorizer : String)
deriving DecidableEq

namespace AuthPrefix

def text : AuthPrefix → String
  | bare => "auth"
  | named authorizer => authorizer

end AuthPrefix

inductive Phase
  | body
  /-- The only phase in which authorizers are in scope. -/
  | prepare
  | execute
  | condition
deriving DecidableEq

namespace Phase

def text : Phase → String
  | body => "body"
  | prepare => "prepare"
  | execute => "execute"
  | condition => "pre/post condition"

end Phase

structure Call where
  contract : String
  member : String
  authPrefix : Option AuthPrefix := none
  phase : Phase := .body
  /-- The enclosing function, where the call is made from the code of a contract. -/
  function : Option String := none
  span : Span := {}
deriving DecidableEq

namespace Call

def callee (c : Call) : DeclId :=
  .member c.contract c.member

end Call

structure CompilationUnit where
  name : String
  kind : UnitKind
  imports : List Import := []
  calls : List Call := []
deriving DecidableEq

namespace CompilationUnit

def ownContract? (u : CompilationUnit) : Option String :=
  match u.kind with
  | .contract name => some name
  | _ => none

end CompilationUnit

structure Batch where
  declarations : List Declaration := []
  units : List CompilationUnit := []
deriving DecidableEq

structure CheckConfig where
  policy : Policy := .exact
  /-- Whether the units are shared out among several workers. -/
  parallel : Bool := true
deriving DecidableEq

end AuthorizedCalls
