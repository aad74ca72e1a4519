import AuthorizedCalls.Schema.Program

namespace AuthorizedCalls

inductive LoadError
  | unreadable
  | malformed (fault : Json.Fault)

def load {α : Type} (read : String → Except Json.Fault α) : Option String → Except LoadError α
  | none => .error .unreadable
  | some text => (read text).mapError .malformed

namespace Batch

def ofText (text : String) : Except Json.Fault Batch :=
  Json.Reader.read reader text

def misfitMessage (m : Json.Misfit) : String :=
  "batch parse error: " ++ m.message

end Batch

namespace CheckConfig

def ofText (text : String) : Except Json.Fault CheckConfig :=
  Json.Reader.read reader text

/-- The message where the configuration was to be loaded from a file. -/
def misfitMessage (m : Json.Misfit) : String :=
  "serialization error: " ++ m.message

end CheckConfig

end AuthorizedCalls
