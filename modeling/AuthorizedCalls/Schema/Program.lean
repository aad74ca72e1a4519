import AuthorizedCalls.Json.Reader
import AuthorizedCalls.Json.Value
import AuthorizedCalls.Program

namespace AuthorizedCalls

open Json (Value Reader)

namespace Access

def reader : Reader Access :=
  .names [("all", all), ("account", account), ("self", self), ("auth", auth)]

def toJson (a : Access) : Value :=
  .string a.keyword

end Access

namespace ImportMode

def reader : Reader ImportMode :=
  .names [("plain", plain), ("auth", authorized), ("authorized", authorized)]

def toJson : ImportMode → Value
  | plain => .string "plain"
  | authorized => .string "authorized"

end ImportMode

namespace Policy

def reader : Reader Policy :=
  .names [("exact", exact), ("allow-stricter", allowStricter)]

def toJson (p : Policy) : Value :=
  .string p.name

end Policy

namespace Address

def reader : Reader Address :=
  Reader.address

def toJson (a : Address) : Value :=
  .string a.toHex

end Address

namespace DeclId

/-- Reads any string; what stands in a document is not checked. -/
def reader : Reader DeclId :=
  Reader.map mk .string

def toJson (id : DeclId) : Value :=
  .string id.text

end DeclId

namespace Span

def reader : Reader Span :=
  .record "Span"
    (.cons (.optional "file" .string "")
      (.cons (.optional "line" .word32 0)
        (.cons (.optional "column" .word32 0) .nil)))
    mk

def toJson (s : Span) : Value :=
  .object [("file", .string s.file), ("line", .number s.line.toNat),
    ("column", .number s.column.toNat)]

end Span

namespace DeclKind

def reader : Reader DeclKind :=
  .names [("contract", contract), ("interface", interface)]

def toJson (k : DeclKind) : Value :=
  .string k.text

end DeclKind

namespace Param

def reader : Reader Param :=
  .record "Param" (.cons (.required "name" .string) (.cons (.required "type" .string) .nil)) mk

def toJson (p : Param) : Value :=
  .object [("name", .string p.name), ("type", .string p.type)]

end Param

namespace Member

def reader : Reader Member :=
  .record "FunctionDecl"
    (.cons (.required "name" .string)
      (.cons (.optional "qualifiers" (.list Access.reader) [])
        (.cons (.optional "params" (.list Param.reader) [])
          (.cons (.optional "reads_auth" .bool false)
            (.cons (.optional "span" Span.reader {}) .nil)))))
    mk

def toJson (f : Member) : Value :=
  .object [("name", .string f.name), ("qualifiers", .array (f.qualifiers.map Access.toJson)),
    ("params", .array (f.params.map Param.toJson)), ("reads_auth", .bool f.readsAuth),
    ("span", f.span.toJson)]

end Member

namespace Declaration

def reader : Reader Declaration :=
  .record "Declaration"
    (.cons (.required "kind" DeclKind.reader)
      (.cons (.required "name" .string)
        (.cons (.required "address" Address.reader)
          (.cons (.optional "qualifiers" (.list Access.reader) [])
            (.cons (.optional "conforms" (.list .string) [])
              (.cons (.optional "functions" (.list Member.reader) [])
                (.cons (.optional "span" Span.reader {}) .nil)))))))
    mk

def toJson (d : Declaration) : Value :=
  .object [("kind", d.kind.toJson), ("name", .string d.name), ("address", d.address.toJson),
    ("qualifiers", .array (d.qualifiers.map Access.toJson)),
    ("conforms", .array (d.conforms.map .string)),
    ("functions", .array (d.functions.map Member.toJson)), ("span", d.span.toJson)]

end Declaration

namespace AuthorizerParam

def reader : Reader AuthorizerParam :=
  .record "AuthorizerParam"
    (.cons (.required "name" .string) (.cons (.optional "span" Span.reader {}) .nil)) mk

def toJson (p : AuthorizerParam) : Value :=
  .object [("name", .string p.name), ("span", p.span.toJson)]

end AuthorizerParam

namespace UnitKind

def reader : Reader UnitKind :=
  .tagged "UnitKind" "type" [
    ("contract",
      .record "UnitKind::Contract" (.cons (.required "contract" .string) .nil) contract),
    ("transaction",
      .record "UnitKind::Transaction"
        (.cons (.optional "authorizers" (.list AuthorizerParam.reader) []) .nil) transaction),
    ("script", .record "UnitKind::Script" .nil script)]

def toJson : UnitKind → Value
  | contract name => .object [("type", .string "contract"), ("contract", .string name)]
  | transaction authorizers =>
    .object [("type", .string "transaction"),
      ("authorizers", .array (authorizers.map AuthorizerParam.toJson))]
  | script => .object [("type", .string "script")]

end UnitKind

namespace Import

def reader : Reader Import :=
  .record "ImportDecl"
    (.cons (.required "contract" .string)
      (.cons (.optional "mode" ImportMode.reader .plain)
        (.cons (.optional "span" Span.reader {}) .nil)))
    mk

def toJson (i : Import) : Value :=
  .object [("contract", .string i.contract), ("mode", i.mode.toJson), ("span", i.span.toJson)]

end Import

namespace AuthPrefix

def reader : Reader AuthPrefix :=
  .choice [("bare", .bare bare), ("named", .content (Reader.map named .string))]

def toJson : AuthPrefix → Value
  | bare => .string "bare"
  | named authorizer => .object [("named", .string authorizer)]

end AuthPrefix

namespace Phase

def name : Phase → String
  | body => "body"
  | prepare => "prepare"
  | execute => "execute"
  | condition => "condition"

def reader : Reader Phase :=
  .names ([body, prepare, execute, condition].map fun p => (p.name, p))

def toJson (p : Phase) : Value :=
  .string p.name

end Phase

namespace Call

def reader : Reader Call :=
  .record "CallExpr"
    (.cons (.required "contract" .string)
      (.cons (.required "member" .string)
        (.cons (.optional "prefix" (.nullable AuthPrefix.reader) none)
          (.cons (.optional "phase" Phase.reader .body)
            (.cons (.optional "function" (.nullable .string) none)
              (.cons (.optional "span" Span.reader {}) .nil))))))
    mk

def toJson (c : Call) : Value :=
  .object [("contract", .string c.contract), ("member", .string c.member),
    ("prefix", (c.authPrefix.map AuthPrefix.toJson).getD .null), ("phase", c.phase.toJson),
    ("function", (c.function.map Value.string).getD .null), ("span", c.span.toJson)]

end Call

namespace CompilationUnit

def reader : Reader CompilationUnit :=
  .record "CompilationUnit"
    (.cons (.required "name" .string)
      (.cons (.required "kind" UnitKind.reader)
        (.cons (.optional "imports" (.list Import.reader) [])
          (.cons (.optional "calls" (.list Call.reader) []) .nil))))
    mk

def toJson (u : CompilationUnit) : Value :=
  .object [("name", .string u.name), ("kind", u.kind.toJson),
    ("imports", .array (u.imports.map Import.toJson)),
    ("calls", .array (u.calls.map Call.toJson))]

end CompilationUnit

namespace Batch

def reader : Reader Batch :=
  .record "Batch"
    (.cons (.optional "declarations" (.list Declaration.reader) [])
      (.cons (.optional "units" (.list CompilationUnit.reader) []) .nil))
    mk

def toJson (b : Batch) : Value :=
  .object [("declarations", .array (b.declarations.map Declaration.toJson)),
    ("units", .array (b.units.map CompilationUnit.toJson))]

end Batch

namespace CheckConfig

def reader : Reader CheckConfig :=
  .record "CheckConfig"
    (.cons (.optional "policy" Policy.reader .exact) (.cons (.optional "parallel" .bool true) .nil))
    mk

def toJson (c : CheckConfig) : Value :=
  .object [("policy", c.policy.toJson), ("parallel", .bool c.parallel)]

end CheckConfig

end AuthorizedCalls
