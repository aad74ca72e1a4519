import AuthorizedCalls.Check
import AuthorizedCalls.Load
import AuthorizedCalls.Schema.Report

namespace AuthorizedCalls.CommandLine

inductive Command
  | check (sequential json : Bool)
  | table
deriving DecidableEq

structure Invocation where
  command : Command
  batch : String
  config : Option String := none
  policy : Option Policy := none
  verbosity : Nat := 0
deriving DecidableEq

structure Arguments where
  batch : Option String := none
  config : Option String := none
  policy : Option Policy := none
  sequential : Bool := false
  json : Bool := false
  verbosity : Nat := 0

namespace Arguments

def setBatch (a : Arguments) (file : String) : Option Arguments :=
  if a.batch.isSome || file.isEmpty then none else some { a with batch := file }

def setConfig (a : Arguments) (file : String) : Option Arguments :=
  if a.config.isSome || file.isEmpty then none else some { a with config := file }

def setPolicy (a : Arguments) (name : String) : Option Arguments :=
  if a.policy.isSome then none
  else (Policy.ofName? name).map fun policy => { a with policy := some policy }

def setSequential (a : Arguments) : Option Arguments :=
  if a.sequential then none else some { a with sequential := true }

def setJson (a : Arguments) : Option Arguments :=
  if a.json then none else some { a with json := true }

def setter? : String → Option (Arguments → String → Option Arguments)
  | "--config" => some setConfig
  | "--policy" => some setPolicy
  | _ => none

end Arguments

/-- How often `-v` is given by one argument, where the argument is nothing else. -/
def verbosity? (arg : String) : Option Nat :=
  if arg = "--verbose" then some 1
  else
    match arg.toList with
    | '-' :: 'v' :: rest => if rest.all (· = 'v') then some (rest.length + 1) else none
    | _ => none

def isValue (arg : String) : Bool :=
  arg = "-" || arg.toList.head? ≠ some '-'

def attached? (arg : String) : Option (String × String) :=
  match arg.toList.span (· ≠ '=') with
  | (name, _ :: value) => some (String.ofList name, String.ofList value)
  | (_, []) => none

/-- Reads the arguments behind the name of a command. After `--` all are values. -/
def arguments (isCheck : Bool) (a : Arguments) : List String → Option Arguments
  | [] => some a
  | "--" :: rest => rest.foldlM Arguments.setBatch a
  | arg :: rest =>
    if isValue arg then do
      arguments isCheck (← a.setBatch arg) rest
    else if isCheck && arg = "--sequential" then do
      arguments isCheck (← a.setSequential) rest
    else if isCheck && arg = "--json" then do
      arguments isCheck (← a.setJson) rest
    else
      match verbosity? arg, attached? arg, rest with
      | some n, _, rest => arguments isCheck { a with verbosity := a.verbosity + n } rest
      | none, some (name, value), rest => do
        let set ← Arguments.setter? name
        arguments isCheck (← set a value) rest
      | none, none, value :: rest => do
        let set ← Arguments.setter? arg
        if isValue value then arguments isCheck (← set a value) rest else none
      | none, none, [] => none

def Invocation.ofArguments? (isCheck : Bool) (a : Arguments) : Option Invocation := do
  let batch ← a.batch
  let command := if isCheck then .check a.sequential a.json else .table
  some ⟨command, batch, a.config, a.policy, a.verbosity⟩

def parseFrom? (verbosity : Nat) : List String → Option Invocation
  | [] => none
  | "check" :: rest => do
    Invocation.ofArguments? true (← arguments true { verbosity } rest)
  | "table" :: rest => do
    Invocation.ofArguments? false (← arguments false { verbosity } rest)
  | arg :: rest => do
    parseFrom? (verbosity + (← verbosity? arg)) rest

/-- Reads a command line; none is a usage error. -/
def parse? (args : List String) : Option Invocation :=
  parseFrom? 0 args

inductive Failure
  | configUnreadable
  | configMalformed (fault : Json.Fault)
  | batchUnreadable
  | batchMalformed (fault : Json.Fault)
  | rejected (count : Nat)
  | usage

namespace Failure

def ofConfig : LoadError → Failure
  | .unreadable => configUnreadable
  | .malformed fault => configMalformed fault

def ofBatch : LoadError → Failure
  | .unreadable => batchUnreadable
  | .malformed fault => batchMalformed fault

def exitCode : Failure → Nat
  | usage => 2
  | _ => 1

def message : Failure → String
  | configUnreadable => "the configuration could not be read"
  | configMalformed (.misfit m) => CheckConfig.misfitMessage m
  | configMalformed (.flaw _) => "the configuration is not in JSON"
  | batchUnreadable => "the batch could not be read"
  | batchMalformed (.misfit m) => Batch.misfitMessage m
  | batchMalformed (.flaw _) => "the batch is not in JSON"
  | rejected count => s!"{count} diagnostic(s) reported"
  | usage =>
    "usage: [-v] check BATCH [--config FILE] [--policy exact|allow-stricter] [--sequential] " ++
      "[--json]\n       [-v] table BATCH [--config FILE] [--policy exact|allow-stricter]"

end Failure

structure Outcome where
  output : String := ""
  failure : Option Failure := none

namespace Outcome

def exitCode (o : Outcome) : Nat :=
  (o.failure.map Failure.exitCode).getD 0

end Outcome

namespace Invocation

def files (i : Invocation) : List String :=
  i.config.toList ++ [i.batch]

/-- The configuration: that of the file if one is named, then what the command line overrides. -/
def checkConfig (i : Invocation) (content : String → Option String) :
    Except LoadError CheckConfig := do
  let config ←
    match i.config with
    | some file => load CheckConfig.ofText (content file)
    | none => .ok {}
  let config := { config with policy := i.policy.getD config.policy }
  match i.command with
  | .check true _ => .ok { config with parallel := false }
  | _ => .ok config

def reportText (r : CheckReport) : String :=
  String.join (r.diagnostics.map fun d => d.text ++ "\n") ++
    s!"checked {r.units.length} units: {r.diagnosticCount} diagnostic(s)\n"

def reportJson (r : CheckReport) : Json.Value :=
  .object [("accepted", .bool r.isAccepted), ("digest", .string r.digest), ("report", r.toJson)]

def tableJson (c : Checker) : Json.Value :=
  .object [("table", c.table.toJson), ("diagnostics", c.declarations.toJson)]

def answer (command : Command) (config : CheckConfig) (batch : Batch) : Outcome :=
  match command with
  | .table => { output := (tableJson (.ofDeclarations batch.declarations config)).pretty ++ "\n" }
  | .check _ json =>
    let report := batch.check config
    { output := if json then (reportJson report).pretty ++ "\n" else reportText report
      failure := if report.isAccepted then none else some (.rejected report.diagnosticCount) }

/-- Runs a command, given the content of every file that can be read. The configuration comes
before the batch. -/
def run (i : Invocation) (content : String → Option String) : Outcome :=
  match i.checkConfig content with
  | .error e => { failure := some (.ofConfig e) }
  | .ok config =>
    match load Batch.ofText (content i.batch) with
    | .error e => { failure := some (.ofBatch e) }
    | .ok batch => answer i.command config batch

end Invocation

def run (args : List String) (content : String → Option String) : Outcome :=
  match parse? args with
  | none => { failure := some .usage }
  | some i => i.run content

end AuthorizedCalls.CommandLine
