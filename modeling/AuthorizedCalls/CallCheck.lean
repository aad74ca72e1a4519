import AuthorizedCalls.AuthorizerScope
import AuthorizedCalls.ImportScope

/-!
The decision on a call. A call on a rejected declaration, or in a rejected function, is skipped.
Otherwise the contract must be known and, unless it is the calling contract itself, be imported
in a way that makes it reachable. A callee that is not `auth` needs no token. A contract that
calls itself authorizes the call; any other call takes its token from the prefix that is written,
or else from the one that an authorized import implies, and the prefix is resolved in the code
that the call stands in.
-/

namespace AuthorizedCalls

inductive AuthSource
  | none
  | contractSelf
  | authorizerName (name : String)
deriving DecidableEq

namespace AuthSource

def ofToken : Token → AuthSource
  | .contract .. => contractSelf
  | .authorizer name .. => authorizerName name

end AuthSource

inductive TokenOrigin
  | sameContract
  | explicitPrefix
  | authorizedImport
deriving DecidableEq

namespace TokenOrigin

def name : TokenOrigin → String
  | sameContract => "same_contract"
  | explicitPrefix => "explicit_prefix"
  | authorizedImport => "authorized_import"

end TokenOrigin

inductive Refusal
  | unknownContract (contract : String)
  | notImported (contract : String)
  /-- The contract is `auth` and its import is plain. -/
  | plainImport (callee : DeclId) (contract : String)
  | unknownMember (contract member : String)
  /-- An `auth` callee without a prefix, written or implied. -/
  | noPrefix (callee : DeclId) (contract : String)
  | namedInContract (authorizer : String)
  /-- A declared authorizer named outside `prepare`. -/
  | outOfPhase (authorizer : String) (phase : Phase)
  /-- A bare prefix in a transaction outside `prepare`. -/
  | noSourceInPhase (callee : DeclId) (phase : Phase)
  | noSourceInScript (callee : DeclId)
  | notInScope (authorizer : String)
  /-- The prefix names no authorizer in `prepare`. -/
  | unresolved (callee : DeclId) (error : AuthorizerError)
deriving DecidableEq

namespace Refusal

def kind : Refusal → DiagnosticKind
  | unknownContract _ | notImported _ | unknownMember .. => .unresolvedDeclaration
  | plainImport .. => .importNotAuthorized
  | noPrefix .. | noSourceInPhase .. | noSourceInScript _ | unresolved _ .noneDeclared =>
    .missingAuthorization
  | unresolved _ (.ambiguous _) => .ambiguousAuthorizer
  | namedInContract _ | outOfPhase .. | notInScope _ | unresolved _ (.unknown _) =>
    .unknownAuthorizer

def message : Refusal → String
  | unknownContract contract => s!"unknown contract `{contract}`"
  | notImported contract => s!"`{contract}` is not imported here"
  | plainImport callee contract =>
    s!"`{callee.text}` is reached through a plain import of auth contract `{contract}`"
  | unknownMember contract member => s!"`{contract}` has no member `{member}`"
  | noPrefix callee contract =>
    s!"call to auth function `{callee.text}` needs an authorization prefix or " ++
      s!"`import auth {contract}`"
  | namedInContract authorizer =>
    s!"`{authorizer}` is not an authorizer; contract code authorizes with the bare `auth` prefix"
  | outOfPhase authorizer phase =>
    s!"authorizer `{authorizer}` is only in scope in prepare, not in {phase.text}"
  | noSourceInPhase callee phase =>
    s!"no authorization source for `{callee.text}` in {phase.text}; " ++
      "authorizers are only in scope in prepare"
  | noSourceInScript callee => s!"scripts have no authorization source for `{callee.text}`"
  | notInScope authorizer => s!"`{authorizer}` is not an authorizer in scope"
  | unresolved callee .noneDeclared =>
    s!"transaction declares no authorizer to authorize `{callee.text}`"
  | unresolved callee (.ambiguous names) =>
    let list := String.intercalate ", " names
    s!"bare `auth` is ambiguous with {names.length} authorizers ({list}); " ++
      s!"name one of them to call `{callee.text}`"
  | unresolved _ (.unknown name) => s!"`{name}` is not a parameter of prepare"

end Refusal

inductive Verdict
  /-- The callee is not `auth` and takes no hidden argument. -/
  | unqualified
  /-- The token is passed as the hidden first argument. -/
  | authorized (token : Token) (origin : TokenOrigin)
  | rejected (refusal : Refusal)
  /-- The callee or the calling function was rejected before. -/
  | skipped
deriving DecidableEq

/-- A verdict, and what was learnt about the call on the way to it. -/
structure Judgement where
  /-- The qualifier of the callee, once it is found. -/
  calleeQualifier : Option Access := none
  impliedPrefix : Bool := false
  verdict : Verdict
deriving DecidableEq

/-- What a report says about a call. A rejection is given by its kind; the text stands in the
diagnostic. -/
inductive CallAnnotation
  | unqualified
  | authorized (token : Token) (origin : TokenOrigin)
  | rejected (kind : DiagnosticKind)
  | skipped
deriving DecidableEq

namespace Verdict

def annotation : Verdict → CallAnnotation
  | unqualified => .unqualified
  | authorized token origin => .authorized token origin
  | rejected refusal => .rejected refusal.kind
  | skipped => .skipped

def authSource : Verdict → AuthSource
  | authorized token _ => .ofToken token
  | _ => .none

def refusal? : Verdict → Option Refusal
  | rejected refusal => some refusal
  | _ => none

end Verdict

structure CallSite where
  callee : DeclId
  calleeQualifier : Option Access
  hasAuthPrefix : Bool
  authSource : AuthSource
deriving DecidableEq

structure AnnotatedCall where
  site : CallSite
  location : Span
  annotation : CallAnnotation
deriving DecidableEq

namespace AnnotatedCall

def token? (c : AnnotatedCall) : Option Token :=
  match c.annotation with
  | .authorized token _ => some token
  | _ => none

def isRejected (c : AnnotatedCall) : Bool :=
  match c.annotation with
  | .rejected _ => true
  | _ => false

def ofJudgement (call : Call) (j : Judgement) : AnnotatedCall where
  site :=
    { callee := call.callee
      calleeQualifier := j.calleeQualifier
      hasAuthPrefix := call.authPrefix.isSome || j.impliedPrefix
      authSource := j.verdict.authSource }
  location := call.span
  annotation := j.verdict.annotation

def skipped (call : Call) : AnnotatedCall :=
  ofJudgement call { verdict := .skipped }

end AnnotatedCall

inductive Caller
  | contract (name : String) (address : Address)
  | transaction (authorizers : AuthorizerScope)
  | script
deriving DecidableEq

namespace Caller

/-- The code that a unit holds, seen from its calls; none for a contract without an entry. -/
def ofUnit? (table : Table) (authorizers : AuthorizerScope) : UnitKind → Option Caller
  | .contract name => (table.contract? name).map fun entry => contract name entry.address
  | .transaction _ => some (transaction authorizers)
  | .script => some script

def isContract (caller : Caller) (name : String) : Bool :=
  match caller with
  | contract own _ => own == name
  | _ => false

def inRejectedFunction (caller : Caller) (table : Table) (call : Call) : Bool :=
  match caller, call.function with
  | contract own _, some function => table.isRejected (.member own function)
  | _, _ => false

def resolvePrefix (caller : Caller) (phase : Phase) (callee : DeclId) (written : AuthPrefix) :
    Except Refusal Token :=
  match caller, written with
  | contract name address, .bare => .ok (.contract name address)
  | contract .., .named authorizer => .error (.namedInContract authorizer)
  | transaction authorizers, written =>
    if phase = .prepare then
      match authorizers.resolve written with
      | .ok token => .ok token
      | .error e => .error (.unresolved callee e)
    else
      match written with
      | .bare => .error (.noSourceInPhase callee phase)
      | .named authorizer =>
        if authorizers.contains authorizer then .error (.outOfPhase authorizer phase)
        else .error (.notInScope authorizer)
  | script, .bare => .error (.noSourceInScript callee)
  | script, .named authorizer => .error (.notInScope authorizer)

end Caller

structure CallContext where
  table : Table
  imports : ImportScope
  caller : Caller

namespace CallContext

def ofUnit? (table : Table) (imports : ImportScope) (authorizers : AuthorizerScope)
    (u : CompilationUnit) : Option CallContext :=
  (Caller.ofUnit? table authorizers u.kind).map fun caller => ⟨table, imports, caller⟩

/-- How the contract of a call is reached: from inside, or through a binding that is usable. -/
inductive Route
  | own (address : Address)
  | imported (binding : ImportBinding)

def reach (ctx : CallContext) (call : Call) : Except Refusal Route :=
  match ctx.table.contract? call.contract with
  | none => .error (.unknownContract call.contract)
  | some entry =>
    if ctx.caller.isContract call.contract then .ok (.own entry.address)
    else
      match ctx.imports.find? call.contract with
      | none => .error (.notImported call.contract)
      | some binding =>
        if binding.usable then .ok (.imported binding)
        else .error (.plainImport call.callee call.contract)

/-- The prefix of a call that is not on the calling contract: the written one wins over the one
that the binding implies. -/
def prefixOf (call : Call) (binding : ImportBinding) : Option (AuthPrefix × TokenOrigin) :=
  match call.authPrefix with
  | some written => some (written, .explicitPrefix)
  | none => if binding.impliesAuthorization then some (.bare, .authorizedImport) else none

def authorizeCall (ctx : CallContext) (call : Call) : Route → Verdict
  | .own address => .authorized (.contract call.contract address) .sameContract
  | .imported binding =>
    match prefixOf call binding with
    | none => .rejected (.noPrefix call.callee call.contract)
    | some (written, origin) =>
      match ctx.caller.resolvePrefix call.phase call.callee written with
      | .ok token => .authorized token origin
      | .error refusal => .rejected refusal

/-- Whether the way to an `auth` callee implies a prefix that is not written. -/
def impliesPrefix (call : Call) : Route → Bool
  | .own _ => false
  | .imported binding => call.authPrefix.isNone && binding.impliesAuthorization

def judge (ctx : CallContext) (call : Call) : Judgement :=
  if ctx.table.isRejected call.callee || ctx.caller.inRejectedFunction ctx.table call then
    { verdict := .skipped }
  else
    match ctx.reach call with
    | .error refusal => { verdict := .rejected refusal }
    | .ok route =>
      match ctx.table.qualifier? call.callee with
      | none => { verdict := .rejected (.unknownMember call.contract call.member) }
      | some .auth =>
        { calleeQualifier := some .auth
          impliedPrefix := impliesPrefix call route
          verdict := ctx.authorizeCall call route }
      | some qualifier => { calleeQualifier := some qualifier, verdict := .unqualified }

def check (ctx : CallContext) (call : Call) : AnnotatedCall × Option Diagnostic :=
  let j := ctx.judge call
  (.ofJudgement call j, j.verdict.refusal?.map fun refusal =>
    ⟨refusal.kind, some call.callee, call.span, refusal.message⟩)

end CallContext

end AuthorizedCalls
