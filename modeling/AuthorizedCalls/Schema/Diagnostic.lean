import AuthorizedCalls.Diagnostic
import AuthorizedCalls.Schema.Program

namespace AuthorizedCalls

open Json (Value Reader)

namespace DiagnosticKind

def reader : Reader DiagnosticKind :=
  .names (all.map fun k => (k.code, k))

def toJson (k : DiagnosticKind) : Value :=
  .string k.code

end DiagnosticKind

namespace Diagnostic

def reader : Reader Diagnostic :=
  .record "Diagnostic"
    (.cons (.required "kind" DiagnosticKind.reader)
      (.cons (.optional "declaration" (.nullable DeclId.reader) none)
        (.cons (.required "location" Span.reader)
          (.cons (.required "message" .string) .nil))))
    mk

def toJson (d : Diagnostic) : Value :=
  .object (("kind", d.kind.toJson) ::
    ((d.declaration.map fun id => ("declaration", id.toJson)).toList ++
      [("location", d.location.toJson), ("message", .string d.message)]))

end Diagnostic

namespace Diagnostics

def reader : Reader Diagnostics :=
  .list Diagnostic.reader

def toJson (ds : Diagnostics) : Value :=
  .array (ds.map Diagnostic.toJson)

end Diagnostics

end AuthorizedCalls
