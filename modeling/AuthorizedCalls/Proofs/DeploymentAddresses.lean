import AuthorizedCalls.Proofs.Redeployment
import AuthorizedCalls.Proofs.TokenSynthesis
import AuthorizedCalls.Proofs.UnitFindings

namespace AuthorizedCalls

section Redeployed

variable (g : Address → Address)

def Batch.redeployed (b : Batch) : Batch :=
  { b with declarations := Declarations.redeployed g b.declarations }

/-- The account of a contract is moved; that of an authorizer is known only at submission. -/
def Token.redeployed : Token → Token
  | contract name address => contract name (g address)
  | authorizer name count position => authorizer name count position

def CallAnnotation.redeployed : CallAnnotation → CallAnnotation
  | authorized token origin => authorized (token.redeployed g) origin
  | other => other

def AnnotatedCall.redeployed (a : AnnotatedCall) : AnnotatedCall :=
  { a with annotation := a.annotation.redeployed g }

def UnitReport.redeployed (r : UnitReport) : UnitReport :=
  { r with calls := r.calls.map (AnnotatedCall.redeployed g) }

def CheckReport.redeployed (r : CheckReport) : CheckReport :=
  { r with units := r.units.map (UnitReport.redeployed g) }

def Verdict.redeployed : Verdict → Verdict
  | authorized token origin => authorized (token.redeployed g) origin
  | other => other

def Judgement.redeployed (j : Judgement) : Judgement :=
  { j with verdict := j.verdict.redeployed g }

def Caller.redeployed : Caller → Caller
  | contract name address => contract name (g address)
  | other => other

def CallContext.redeployed (ctx : CallContext) : CallContext :=
  { ctx with table := ctx.table.redeployed g, caller := ctx.caller.redeployed g }

def CallContext.Route.redeployed : Route → Route
  | own address => own (g address)
  | imported binding => imported binding

end Redeployed

variable {g : Address → Address}

theorem ImportScope.ofImports_redeployed (table : Table) (imports : List Import) :
    ofImports (table.redeployed g) imports = ofImports table imports := by
  refine List.foldl_ext _ _ _ fun state i _ => ?_
  rw [bind, bind, Table.contract?_redeployed]
  split
  · next hrejected => rw [if_pos (by exact hrejected)]
  · next hstands =>
      rw [if_neg (by exact hstands)]
      cases table.contract? i.contract <;> rfl

theorem AuthorizerScope.resolve_redeployed (scope : AuthorizerScope) (written : AuthPrefix) :
    (scope.resolve written).map (Token.redeployed g) = scope.resolve written := by
  cases written with
  | bare =>
      rw [resolve, resolveBare]
      split <;> rfl
  | named name =>
      rw [resolve, resolveNamed]
      split <;> rfl

namespace Caller

theorem isContract_redeployed (caller : Caller) (name : String) :
    (caller.redeployed g).isContract name = caller.isContract name := by
  cases caller <;> rfl

theorem inRejectedFunction_redeployed (caller : Caller) (table : Table) (c : Call) :
    (caller.redeployed g).inRejectedFunction (table.redeployed g) c =
      caller.inRejectedFunction table c := by
  cases caller with
  | contract own address => cases hfunction : c.function <;> simp only [redeployed,
      inRejectedFunction, hfunction, Table.isRejected_redeployed]
  | transaction authorizers => rfl
  | script => rfl

theorem resolvePrefix_redeployed (caller : Caller) (phase : Phase) (callee : DeclId)
    (written : AuthPrefix) :
    (caller.redeployed g).resolvePrefix phase callee written =
      (caller.resolvePrefix phase callee written).map (Token.redeployed g) := by
  cases caller with
  | contract own address => cases written <;> rfl
  | transaction authorizers =>
      have hsame : (transaction authorizers).redeployed g = transaction authorizers := rfl
      have htoken := authorizers.resolve_redeployed (g := g) written
      rw [hsame]
      simp only [resolvePrefix]
      split
      · cases hresolve : authorizers.resolve written with
        | ok token =>
            rw [hresolve] at htoken
            exact congrArg Except.ok (Except.ok.inj htoken).symm
        | error e => rfl
      · cases written with
        | bare => rfl
        | named authorizer =>
            dsimp only
            split <;> rfl
  | script => cases written <;> rfl

end Caller

namespace CallContext

theorem reach_redeployed (ctx : CallContext) (c : Call) :
    (ctx.redeployed g).reach c = (ctx.reach c).map (Route.redeployed g) := by
  simp only [reach, redeployed, Table.contract?_redeployed, Caller.isContract_redeployed]
  cases ctx.table.contract? c.contract with
  | none => rfl
  | some entry =>
      dsimp only [Option.map_some]
      split
      · rfl
      · cases ctx.imports.find? c.contract with
        | none => rfl
        | some binding =>
            dsimp only
            split <;> rfl

theorem authorizeCall_redeployed (ctx : CallContext) (c : Call) (route : Route) :
    (ctx.redeployed g).authorizeCall c (route.redeployed g) =
      (ctx.authorizeCall c route).redeployed g := by
  cases route with
  | own address => rfl
  | imported binding =>
      simp only [authorizeCall, Route.redeployed, redeployed, Caller.resolvePrefix_redeployed]
      cases prefixOf c binding with
      | none => rfl
      | some found =>
          dsimp only
          cases ctx.caller.resolvePrefix c.phase c.callee found.1 <;> rfl

theorem impliesPrefix_redeployed (c : Call) (route : Route) :
    impliesPrefix c (route.redeployed g) = impliesPrefix c route := by
  cases route <;> rfl

theorem judge_redeployed (ctx : CallContext) (c : Call) :
    (ctx.redeployed g).judge c = (ctx.judge c).redeployed g := by
  have hskips : ((ctx.redeployed g).table.isRejected c.callee ||
      (ctx.redeployed g).caller.inRejectedFunction (ctx.redeployed g).table c) =
        (ctx.table.isRejected c.callee || ctx.caller.inRejectedFunction ctx.table c) := by
    simp only [redeployed, Table.isRejected_redeployed, Caller.inRejectedFunction_redeployed]
  have hqualifier : (ctx.redeployed g).table.qualifier? c.callee =
      ctx.table.qualifier? c.callee := ctx.table.qualifier?_redeployed _
  rw [judge, judge, hskips, hqualifier, reach_redeployed]
  split
  · rfl
  · cases ctx.reach c with
    | error refusal => rfl
    | ok route =>
        dsimp only [Except.map]
        rw [authorizeCall_redeployed, impliesPrefix_redeployed]
        split <;> rfl

end CallContext

theorem AnnotatedCall.ofJudgement_redeployed (c : Call) (j : Judgement) :
    ofJudgement c (j.redeployed g) = (ofJudgement c j).redeployed g := by
  obtain ⟨qualifier, implied, verdict⟩ := j
  cases verdict with
  | authorized token origin => cases token <;> rfl
  | _ => rfl

namespace CompilationUnit

variable (u : CompilationUnit) (table : Table)

theorem context?_redeployed :
    u.context? (table.redeployed g) = (u.context? table).map (CallContext.redeployed g) := by
  have hbindings : u.bindings (table.redeployed g) = u.bindings table :=
    congrArg Prod.fst (ImportScope.ofImports_redeployed table u.imports)
  rw [context?, context?, hbindings, CallContext.ofUnit?, CallContext.ofUnit?, Option.map_map]
  cases u.kind with
  | contract own =>
      simp only [Caller.ofUnit?, Table.contract?_redeployed, Option.map_map]
      rfl
  | transaction params => rfl
  | script => rfl

theorem judgement_redeployed (c : Call) :
    u.judgement (table.redeployed g) c = (u.judgement table c).redeployed g := by
  rw [judgement, judgement, context?_redeployed]
  cases u.context? table with
  | none => rfl
  | some ctx => exact ctx.judge_redeployed c

theorem finding?_redeployed (c : Call) :
    u.finding? (table.redeployed g) c = u.finding? table c := by
  rw [finding?, finding?, judgement_redeployed, Judgement.redeployed]
  cases (u.judgement table c).verdict <;> rfl

theorem findings_redeployed : u.findings (table.redeployed g) = u.findings table := by
  have hunknown (own : String) : (table.redeployed g).Unknown own ↔ table.Unknown own := by
    rw [Table.Unknown, Table.contract?_redeployed, Option.map_eq_none_iff]
    rfl
  have hown : u.unknownOwn? (table.redeployed g) = u.unknownOwn? table := by
    simp only [unknownOwn?, hunknown]
  have hcalls : u.finding? (table.redeployed g) = u.finding? table :=
    funext (u.finding?_redeployed table)
  rw [findings, findings, ImportScope.ofImports_redeployed, hown, hcalls]

theorem report_redeployed : u.check (table.redeployed g) = (u.check table).redeployed g := by
  have hcalls : (u.check (table.redeployed g)).calls =
      (u.check table).calls.map (AnnotatedCall.redeployed g) := by
    rw [calls_check_eq, calls_check_eq, List.map_map]
    apply List.map_congr_left
    intro c _
    rw [judgement_redeployed]
    exact AnnotatedCall.ofJudgement_redeployed c _
  have hdiagnostics : (u.check (table.redeployed g)).diagnostics = (u.check table).diagnostics := by
    rw [diagnostics_check, diagnostics_check, findings_redeployed]
  have himports : (u.check (table.redeployed g)).imports = (u.check table).imports :=
    congrArg (fun bound => bound.1.values) (ImportScope.ofImports_redeployed table u.imports)
  rw [UnitReport.redeployed, ← hcalls, ← hdiagnostics, ← himports]
  rfl

theorem Issues.ownContract? {c : Call} {token : Token}
    (h : u.Issues table c token .sameContract) : u.ownContract? = some c.contract := by
  cases h with
  | same hown hentry => exact hown
  | granted hother hprefixed hgrants => cases hprefixed

end CompilationUnit

namespace Batch

theorem table_redeployed (b : Batch) (config : CheckConfig) :
    (b.redeployed g).table config = (b.table config).redeployed g := by
  rw [table, redeployed, Declarations.resolve_redeployed]
  rfl

/-- A report on contracts that are deployed elsewhere differs in the accounts of tokens alone, and
no call is taken for one of the own contract because the accounts are the same. -/
theorem check_redeployed (g : Address → Address) (b : Batch) (config : CheckConfig) :
    (b.redeployed g).check config = (b.check config).redeployed g ∧
      ∀ i j u c token, b.units[i]? = some u → u.calls[j]? = some c →
        ((b.redeployed g).check config).outcome? i j = some (.authorized token .sameContract) →
          u.ownContract? = some c.contract := by
  constructor
  · have hresolve : Declarations.resolve (b.redeployed g).declarations config.policy =
        (Declarations.resolve b.declarations config.policy).redeployed g :=
      Declarations.resolve_redeployed b.declarations config.policy
    have hunits : ((b.redeployed g).units.map fun u => u.check ((b.redeployed g).table config)) =
        (b.units.map fun u => u.check (b.table config)).map (UnitReport.redeployed g) := by
      rw [List.map_map, table_redeployed]
      exact List.map_congr_left fun u _ => u.report_redeployed (b.table config)
    rw [check_eq, check_eq, hresolve, hunits]
    rfl
  · intro i j u c token hu hc houtcome
    have hu : (b.redeployed g).units[i]? = some u := hu
    rw [outcome?_check hu hc, Option.some.injEq, CompilationUnit.outcome,
      Verdict.annotation_eq_authorized_iff] at houtcome
    exact (CompilationUnit.issues_of_verdict houtcome).ownContract?

end Batch

end AuthorizedCalls
