import AuthorizedCalls.Chunks
import AuthorizedCalls.Report
import AuthorizedCalls.Resolution

/-!
The check of a batch. The declarations are resolved once; every unit is then checked against the
finished table alone, so units can be shared out among workers, and the reports stay in the order
of the units however they are shared out (`checkUnits_eq_map`).
-/

namespace AuthorizedCalls

namespace CompilationUnit

def unknownContract (u : CompilationUnit) (contract : String) : Diagnostic :=
  ⟨.unresolvedDeclaration, some (.contract contract), ⟨u.name, 0, 0⟩,
    s!"unit `{u.name}` holds code of unknown contract `{contract}`"⟩

/-- The parameters of `prepare`; other code has none. -/
def authorizerParams (u : CompilationUnit) : List AuthorizerParam :=
  match u.kind with
  | .transaction params => params
  | _ => []

/-- The check of the calls of a unit. Where the own contract has no entry all are skipped, with a
diagnostic unless its rejection was reported. -/
def checkCalls (u : CompilationUnit) (table : Table) (imports : ImportScope) :
    List AnnotatedCall × Diagnostics :=
  match CallContext.ofUnit? table imports (.ofParams u.authorizerParams) u with
  | some ctx =>
    let checked := u.calls.map ctx.check
    (checked.map (·.1), checked.filterMap (·.2))
  | none =>
    let unreported := u.ownContract?.filter fun name => !table.isRejected (.contract name)
    (u.calls.map AnnotatedCall.skipped, (unreported.map u.unknownContract).toList)

def check (u : CompilationUnit) (table : Table) : UnitReport :=
  let (imports, importDiagnostics) := ImportScope.ofImports table u.imports
  let duplicates := AuthorizerScope.duplicates [] u.authorizerParams
  let (calls, callDiagnostics) := u.checkCalls table imports
  { unit := u.name
    imports := imports.values
    calls := calls
    diagnostics :=
      Diagnostics.sortByLocation (importDiagnostics ++ duplicates ++ callDiagnostics) }

end CompilationUnit

structure Checker where
  table : Table
  declarations : Diagnostics
  config : CheckConfig

namespace Checker

def ofDeclarations (ds : Declarations) (config : CheckConfig) : Checker :=
  let resolved := ds.resolve config.policy
  ⟨resolved.table, Diagnostics.sortByLocation resolved.diagnostics, config⟩

def checkUnit (c : Checker) (u : CompilationUnit) : UnitReport :=
  u.check c.table

def chunkSize (units workers : Nat) : Nat :=
  (units + workers - 1) / workers

/-- Checks units with at most so many workers. Each takes one run of units, of equal size but for
the last; the reports are put together in the order of the runs. -/
def checkUnits (c : Checker) (maxWorkers : Nat) (units : List CompilationUnit) :
    List UnitReport :=
  let workers := min maxWorkers units.length
  if c.config.parallel && 2 ≤ workers then
    (chunks (chunkSize units.length workers) units).flatMap fun run => run.map c.checkUnit
  else
    units.map c.checkUnit

theorem checkUnits_eq_map (c : Checker) (maxWorkers : Nat) (units : List CompilationUnit) :
    c.checkUnits maxWorkers units = units.map c.checkUnit := by
  simp only [checkUnits]
  split
  · rw [List.flatMap_def, ← List.map_flatten, flatten_chunks]
  · rfl

def defaultWorkers : Nat := 4

def check (c : Checker) (units : List CompilationUnit) : CheckReport :=
  ⟨c.declarations, c.checkUnits defaultWorkers units⟩

end Checker

namespace Batch

def check (b : Batch) (config : CheckConfig) : CheckReport :=
  (Checker.ofDeclarations b.declarations config).check b.units

end Batch

end AuthorizedCalls
