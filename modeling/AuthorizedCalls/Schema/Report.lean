import AuthorizedCalls.Digest.Sha3
import AuthorizedCalls.Report
import AuthorizedCalls.Schema.Diagnostic

namespace AuthorizedCalls

open Json (Value)

/-- A value that may be absent and is then `null`. -/
def optionToJson {α : Type} (toJson : α → Value) : Option α → Value
  | none => .null
  | some v => toJson v

namespace Entry

def toJson (e : Entry) : Value :=
  .object [("kind", .string e.kind.name), ("qualifier", e.qualifier.toJson),
    ("address", e.address.toJson), ("span", e.span.toJson)]

end Entry

namespace LoweredSignature

def toJson (s : LoweredSignature) : Value :=
  .object [("function", s.function.toJson), ("params", .array (s.params.map Param.toJson))]

end LoweredSignature

namespace SortedMap

def toJson {β : Type} (m : SortedMap β) (value : β → Value) : Value :=
  .object (m.entries.map fun e => (e.1, value e.2))

end SortedMap

namespace Table

def toJson (t : Table) : Value :=
  .object [("entries", t.entries.toJson Entry.toJson),
    ("rejected", .array (t.rejected.keys.map .string)),
    ("lowered", t.lowered.toJson LoweredSignature.toJson)]

end Table

namespace ImportBinding

def toJson (b : ImportBinding) : Value :=
  .object [("contract", .string b.contract), ("mode", b.mode.toJson),
    ("declared", b.declared.toJson), ("usable", .bool b.usable), ("span", b.span.toJson)]

end ImportBinding

namespace Token

def toJson : Token → Value
  | contract name address =>
    .object [("source", .string "contract"), ("contract", .string name),
      ("address", address.toJson)]
  | authorizer name count position =>
    .object [("source", .string "authorizer"), ("name", .string name),
      ("index", .number position), ("of", .number count)]

end Token

namespace AuthSource

def toJson : AuthSource → Value
  | none => .object [("kind", .string "none")]
  | contractSelf => .object [("kind", .string "contract_self")]
  | authorizerName name => .object [("kind", .string "authorizer_name"), ("name", .string name)]

end AuthSource

namespace CallSite

def toJson (s : CallSite) : Value :=
  .object [("callee", s.callee.toJson),
    ("callee_qualifier", optionToJson Access.toJson s.calleeQualifier),
    ("has_auth_prefix", .bool s.hasAuthPrefix), ("auth_source", s.authSource.toJson)]

end CallSite

namespace CallAnnotation

def toJson : CallAnnotation → Value
  | unqualified => .object [("status", .string "unqualified")]
  | authorized token origin =>
    .object [("status", .string "authorized"), ("token", token.toJson),
      ("origin", .string origin.name)]
  | rejected kind => .object [("status", .string "rejected"), ("diagnostic", kind.toJson)]
  | skipped => .object [("status", .string "skipped")]

end CallAnnotation

namespace AnnotatedCall

def toJson (c : AnnotatedCall) : Value :=
  .object [("site", c.site.toJson), ("location", c.location.toJson),
    ("annotation", c.annotation.toJson)]

end AnnotatedCall

namespace UnitReport

def toJson (r : UnitReport) : Value :=
  .object [("unit", .string r.unit), ("imports", .array (r.imports.map ImportBinding.toJson)),
    ("calls", .array (r.calls.map AnnotatedCall.toJson)),
    ("diagnostics", r.diagnostics.toJson)]

end UnitReport

namespace CheckReport

def toJson (r : CheckReport) : Value :=
  .object [("declarations", r.declarations.toJson),
    ("units", .array (r.units.map UnitReport.toJson))]

/-- The digest of the compact text of a report. -/
def digest (r : CheckReport) : String :=
  Digest.Sha3.hex r.toJson.compact

end CheckReport

end AuthorizedCalls
