import AuthorizedCalls.Proofs.LocationOrder
import AuthorizedCalls.Proofs.UnknownImports
import Mathlib.Data.List.Basic

namespace AuthorizedCalls

namespace AuthorizerScope

/-- The parameters whose name an earlier one bears. -/
def repeated (params : List AuthorizerParam) : List AuthorizerParam :=
  (params.zipIdx.filter fun (p, position) =>
    p.name ∈ (params.take position).map AuthorizerParam.name).map Prod.fst

theorem duplicates_eq_of_seen {seen : List String} (before : List AuthorizerParam)
    (hseen : ∀ name, name ∈ seen ↔ name ∈ before.map AuthorizerParam.name)
    (params : List AuthorizerParam) :
    duplicates seen params = (((params.zipIdx before.length).filter fun (p, position) =>
      p.name ∈ ((before ++ params).take position).map AuthorizerParam.name).map Prod.fst).map
        redeclared := by
  induction params generalizing seen before with
  | nil => rfl
  | cons p rest ih =>
      have hsplit : before ++ p :: rest = (before ++ [p]) ++ rest := by simp
      have hhead : p.name ∈ ((before ++ p :: rest).take before.length).map AuthorizerParam.name ↔
          p.name ∈ seen := by
        rw [List.take_left, hseen]
      have hlength : (before ++ [p]).length = before.length + 1 := List.length_append
      rw [duplicates, List.zipIdx_cons, List.filter_cons]
      simp only [hhead, decide_eq_true_eq]
      split
      · next hrepeated =>
          have hsame : ∀ name, name ∈ seen ↔ name ∈ (before ++ [p]).map AuthorizerParam.name := by
            intro name
            rw [List.map_append, List.mem_append, ← hseen]
            simp only [List.map_cons, List.map_nil, List.mem_singleton, iff_self_or]
            rintro rfl
            exact hrepeated
          rw [ih _ hsame, hlength, hsplit]
          rfl
      · have hmore : ∀ name, name ∈ p.name :: seen ↔
            name ∈ (before ++ [p]).map AuthorizerParam.name := by
          intro name
          rw [List.map_append, List.mem_append, ← hseen, List.mem_cons]
          simp [or_comm]
        rw [ih _ hmore, hlength, hsplit]

theorem duplicates_eq (params : List AuthorizerParam) :
    duplicates [] params = (repeated params).map redeclared :=
  duplicates_eq_of_seen [] (by simp) params

end AuthorizerScope

/-- What a diagnostic says besides its message: the rule, the declaration and the place. -/
structure Charge where
  kind : DiagnosticKind
  declaration : Option DeclId
  location : Span
deriving DecidableEq

def Diagnostic.charge (d : Diagnostic) : Charge :=
  ⟨d.kind, d.declaration, d.location⟩

def AnnotatedCall.charge? (a : AnnotatedCall) : Option Charge :=
  match a.annotation with
  | .rejected kind => some ⟨kind, some a.site.callee, a.location⟩
  | _ => none

namespace CompilationUnit

variable {u : CompilationUnit} {table : Table}

/-- The judgement on a call of the unit; where the own contract has no entry the call is
skipped. -/
def judgement (u : CompilationUnit) (table : Table) (c : Call) : Judgement :=
  match u.context? table with
  | some ctx => ctx.judge c
  | none => { verdict := .skipped }

def finding? (u : CompilationUnit) (table : Table) (c : Call) : Option Diagnostic :=
  (u.judgement table c).verdict.refusal?.map fun refusal =>
    ⟨refusal.kind, some c.callee, c.span, refusal.message⟩

/-- The own contract, if nothing is known of it. -/
def unknownOwn? (u : CompilationUnit) (table : Table) : Option String :=
  u.ownContract?.filter fun own => table.Unknown own

/-- What a unit is found to violate, in the order of the passes. -/
def findings (u : CompilationUnit) (table : Table) : Diagnostics :=
  (ImportScope.ofImports table u.imports).2 ++
    (AuthorizerScope.repeated u.authorizerParams).map AuthorizerScope.redeclared ++
    ((u.unknownOwn? table).map u.unknownContract).toList ++ u.calls.filterMap (u.finding? table)

theorem context?_eq_none_iff :
    u.context? table = none ↔ ∃ own, u.ownContract? = some own ∧ table.contract? own = none := by
  rw [← Option.not_isSome_iff_eq_none, context?_isSome_iff]
  simp only [not_forall, exists_prop, Option.not_isSome_iff_eq_none]

theorem checkCalls_eq (u : CompilationUnit) (table : Table) :
    u.checkCalls table (u.bindings table) =
      (u.calls.map fun c => .ofJudgement c (u.judgement table c),
        ((u.unknownOwn? table).map u.unknownContract).toList ++
          u.calls.filterMap (u.finding? table)) := by
  have hcontext : CallContext.ofUnit? table (u.bindings table) (.ofParams u.authorizerParams) u =
      u.context? table := rfl
  rw [checkCalls, hcontext]
  cases hctx : u.context? table with
  | some ctx =>
      -- The own contract has an entry, so it is not reported as unknown.
      have hknown : u.unknownOwn? table = none := by
        rw [unknownOwn?, Option.filter_eq_none_iff]
        intro own hown
        obtain ⟨entry, hentry⟩ := exists_own_entry (Option.isSome_of_eq_some hctx) hown
        simp [Table.Unknown, hentry]
      have hfinding : u.finding? table = fun c => (ctx.check c).2 := by
        funext c
        simp only [finding?, judgement, hctx]
        rfl
      simp only [hknown, hfinding, judgement, hctx, List.map_map, List.filterMap_map]
      rfl
  | none =>
      have hunknown : (u.ownContract?.filter fun own => !table.isRejected (.contract own)) =
          u.unknownOwn? table := by
        obtain ⟨own, hown, hnone⟩ := context?_eq_none_iff.mp hctx
        simp [unknownOwn?, hown, Table.Unknown, hnone, Option.filter_some]
      have hnone : u.calls.filterMap (u.finding? table) = [] := by
        rw [List.filterMap_eq_nil_iff]
        intro c _
        simp only [finding?, judgement, hctx, Verdict.refusal?, Option.map_none]
      simp only [hunknown, hnone, judgement, hctx, List.append_nil]
      rfl

theorem diagnostics_check (u : CompilationUnit) (table : Table) :
    (u.check table).diagnostics = Diagnostics.sortByLocation (u.findings table) := by
  have hbindings : (ImportScope.ofImports table u.imports).1 = u.bindings table := rfl
  simp only [check, hbindings, checkCalls_eq, AuthorizerScope.duplicates_eq, findings,
    List.append_assoc]

theorem calls_check_eq (u : CompilationUnit) (table : Table) :
    (u.check table).calls = u.calls.map fun c => .ofJudgement c (u.judgement table c) :=
  congrArg Prod.fst (checkCalls_eq u table)

theorem charge_finding? (c : Call) :
    (u.finding? table c).map Diagnostic.charge =
      (AnnotatedCall.ofJudgement c (u.judgement table c)).charge? := by
  rw [finding?, AnnotatedCall.ofJudgement, AnnotatedCall.charge?]
  cases (u.judgement table c).verdict <;> rfl

/-- A report answers for every call of a unit and for every violation in it, once each. -/
structure Accounts (u : CompilationUnit) (table : Table) (report : UnitReport) : Prop where
  calls : report.calls.map (fun a => (a.site.callee, a.location)) =
    u.calls.map fun c => (c.callee, c.span)
  /-- Behind what is found before the calls stands one diagnostic for each rejected call. -/
  diagnostics : ∃ rejections : Diagnostics,
    rejections.map Diagnostic.charge = report.calls.filterMap AnnotatedCall.charge? ∧
      report.diagnostics.Sorts
        ((ImportScope.ofImports table u.imports).2 ++
          (AuthorizerScope.repeated u.authorizerParams).map AuthorizerScope.redeclared ++
          ((u.unknownOwn? table).map u.unknownContract).toList ++ rejections)

theorem accounts_check (u : CompilationUnit) (table : Table) :
    u.Accounts table (u.check table) := by
  constructor
  case calls =>
    rw [calls_check_eq, List.map_map]
    rfl
  case diagnostics =>
    refine ⟨u.calls.filterMap (u.finding? table), ?_, ?_⟩
    · rw [calls_check_eq, List.map_filterMap, List.filterMap_map]
      exact List.filterMap_congr fun c _ => charge_finding? c
    · rw [diagnostics_check]
      exact Diagnostics.sorts_sortByLocation _

end CompilationUnit

end AuthorizedCalls
