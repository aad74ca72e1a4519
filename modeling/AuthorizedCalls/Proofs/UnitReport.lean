import AuthorizedCalls.Check
import AuthorizedCalls.Proofs.CallDecision
import AuthorizedCalls.Proofs.ImportBinding

namespace AuthorizedCalls

namespace Caller

variable {table : Table} {u : CompilationUnit} {caller : Caller}

theorem ofUnit?_eq_contract_iff {scope : AuthorizerScope} {own : String} {address : Address} :
    ofUnit? table scope u.kind = some (.contract own address) ↔
      u.ownContract? = some own ∧
        ∃ entry, table.contract? own = some entry ∧ entry.address = address := by
  rw [CompilationUnit.ownContract?]
  cases u.kind with
  | contract name =>
      simp only [ofUnit?, Option.map_eq_some_iff, contract.injEq, Option.some.injEq]
      constructor
      · rintro ⟨entry, hentry, rfl, rfl⟩
        exact ⟨rfl, entry, hentry, rfl⟩
      · rintro ⟨rfl, entry, hentry, rfl⟩
        exact ⟨entry, hentry, rfl, rfl⟩
  | transaction params => simp [ofUnit?]
  | script => simp [ofUnit?]

end Caller

namespace CompilationUnit

def bindings (u : CompilationUnit) (table : Table) : ImportScope :=
  (ImportScope.ofImports table u.imports).1

/-- What the calls of the unit are judged against; none where the own contract has no entry. -/
def context? (u : CompilationUnit) (table : Table) : Option CallContext :=
  CallContext.ofUnit? table (u.bindings table) (.ofParams u.authorizerParams) u

def verdict (u : CompilationUnit) (table : Table) (c : Call) : Verdict :=
  match u.context? table with
  | some ctx => (ctx.judge c).verdict
  | none => .skipped

def outcome (u : CompilationUnit) (table : Table) (c : Call) : CallAnnotation :=
  Verdict.annotation (u.verdict table c)

variable {u : CompilationUnit} {table : Table} {ctx : CallContext}

theorem calls_check (u : CompilationUnit) (table : Table) :
    (u.check table).calls.map AnnotatedCall.annotation = u.calls.map (u.outcome table) := by
  have hcontext : CallContext.ofUnit? table (ImportScope.ofImports table u.imports).1
      (.ofParams u.authorizerParams) u = u.context? table := rfl
  unfold outcome
  simp only [check, checkCalls, verdict, hcontext]
  cases u.context? table with
  | none =>
      rw [List.map_map]
      rfl
  | some ctx =>
      rw [List.map_map, List.map_map]
      rfl

theorem perm_diagnostics_check (u : CompilationUnit) (table : Table) :
    (u.check table).diagnostics.Perm ((ImportScope.ofImports table u.imports).2 ++
      AuthorizerScope.duplicates [] u.authorizerParams ++
        (u.checkCalls table (u.bindings table)).2) :=
  Diagnostics.perm_sortByLocation _

theorem context?_eq_some_iff :
    u.context? table = some ctx ↔
      ∃ caller, Caller.ofUnit? table (.ofParams u.authorizerParams) u.kind = some caller ∧
        ctx = ⟨table, u.bindings table, caller⟩ := by
  rw [context?, CallContext.ofUnit?, Option.map_eq_some_iff]
  constructor
  · rintro ⟨caller, hcaller, rfl⟩
    exact ⟨caller, hcaller, rfl⟩
  · rintro ⟨caller, hcaller, rfl⟩
    exact ⟨caller, hcaller, rfl⟩

theorem context?_isSome_iff :
    (u.context? table).isSome ↔
      ∀ own, u.ownContract? = some own → (table.contract? own).isSome := by
  rw [context?, CallContext.ofUnit?, Option.isSome_map, ownContract?]
  cases u.kind <;> simp [Caller.ofUnit?]

theorem table_of_context? (hctx : u.context? table = some ctx) : ctx.table = table := by
  obtain ⟨caller, -, rfl⟩ := context?_eq_some_iff.mp hctx
  rfl

theorem exists_own_entry (hresolved : (u.context? table).isSome) {own : String}
    (hown : u.ownContract? = some own) : ∃ entry, table.contract? own = some entry :=
  Option.isSome_iff_exists.mp (context?_isSome_iff.mp hresolved own hown)

theorem isContract_caller (hctx : u.context? table = some ctx) (name : String) :
    ctx.caller.isContract name = true ↔ u.ownContract? = some name := by
  obtain ⟨caller, hcaller, rfl⟩ := context?_eq_some_iff.mp hctx
  rw [Caller.isContract_iff]
  constructor
  · rintro ⟨address, hcontract⟩
    dsimp only at hcontract
    rw [hcontract] at hcaller
    exact (Caller.ofUnit?_eq_contract_iff.mp hcaller).1
  · intro hown
    obtain ⟨entry, hentry⟩ := exists_own_entry (Option.isSome_of_eq_some hctx) hown
    have hcontract : Caller.ofUnit? table (.ofParams u.authorizerParams) u.kind =
        some (.contract name entry.address) :=
      Caller.ofUnit?_eq_contract_iff.mpr ⟨hown, entry, hentry, rfl⟩
    rw [hcaller, Option.some.injEq] at hcontract
    exact ⟨entry.address, hcontract⟩

/-- The callee or the enclosing function of the own contract was rejected. -/
def Rejected (u : CompilationUnit) (table : Table) (c : Call) : Prop :=
  table.isRejected c.callee = true ∨
    ∃ own function, u.ownContract? = some own ∧ c.function = some function ∧
      table.isRejected (.member own function) = true

theorem skips_iff (hctx : u.context? table = some ctx) (c : Call) :
    ctx.skips c = true ↔ u.Rejected table c := by
  obtain ⟨caller, hcaller, rfl⟩ := context?_eq_some_iff.mp hctx
  rw [CallContext.skips, Bool.or_eq_true, Caller.inRejectedFunction_iff, Rejected]
  apply or_congr_right
  constructor
  · rintro ⟨own, address, function, hcontract, hfunction, hrejected⟩
    dsimp only at hcontract
    rw [hcontract] at hcaller
    exact ⟨own, function, (Caller.ofUnit?_eq_contract_iff.mp hcaller).1, hfunction, hrejected⟩
  · rintro ⟨own, function, hown, hfunction, hrejected⟩
    obtain ⟨address, hcontract⟩ := Caller.isContract_iff.mp ((isContract_caller hctx own).mpr hown)
    exact ⟨own, address, function, hcontract, hfunction, hrejected⟩

end CompilationUnit

namespace CheckReport

/-- What the report says of a call, by the places of its unit and of the call in it. -/
def outcome? (r : CheckReport) (unit call : Nat) : Option CallAnnotation :=
  (r.units[unit]?).bind fun report => (report.calls[call]?).map AnnotatedCall.annotation

end CheckReport

def Batch.table (b : Batch) (config : CheckConfig) : Table :=
  (Declarations.resolve b.declarations config.policy).table

theorem Batch.units_check (b : Batch) (config : CheckConfig) :
    (b.check config).units = b.units.map fun u => u.check (b.table config) :=
  Checker.checkUnits_eq_map _ _ _

theorem Batch.check_eq (b : Batch) (config : CheckConfig) :
    b.check config =
      ⟨Diagnostics.sortByLocation (Declarations.resolve b.declarations config.policy).diagnostics,
        b.units.map fun u => u.check (b.table config)⟩ := by
  rw [← units_check]
  rfl

theorem Batch.getElem?_units_check {b : Batch} {u : CompilationUnit} {i : Nat}
    (hu : b.units[i]? = some u) (config : CheckConfig) :
    (b.check config).units[i]? = some (u.check (b.table config)) := by
  rw [units_check, List.getElem?_map, hu, Option.map_some]

theorem Batch.outcome?_check {b : Batch} {u : CompilationUnit} {c : Call} {i j : Nat}
    (hu : b.units[i]? = some u) (hc : u.calls[j]? = some c) (config : CheckConfig) :
    (b.check config).outcome? i j = some (u.outcome (b.table config) c) := by
  rw [CheckReport.outcome?, getElem?_units_check hu, Option.bind_some, ← List.getElem?_map,
    CompilationUnit.calls_check, List.getElem?_map, hc, Option.map_some]

end AuthorizedCalls
