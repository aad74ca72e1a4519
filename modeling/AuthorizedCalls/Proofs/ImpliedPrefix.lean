import AuthorizedCalls.Proofs.ImportFindings
import AuthorizedCalls.Proofs.UnitFindings
import Mathlib.Computability.Primrec.List
import Mathlib.Computability.TuringMachine.StackTuringMachine
import Mathlib.Data.List.Permutation

namespace AuthorizedCalls

def Import.madePlain (contract : String) (i : Import) : Import :=
  if i.contract = contract then { i with mode := .plain } else i

/-- A call on the contract without a prefix, which an authorized import may imply. -/
def Call.Unprefixed (contract : String) (c : Call) : Prop :=
  c.contract = contract ∧ c.authPrefix = none

instance (contract : String) (c : Call) : Decidable (c.Unprefixed contract) :=
  inferInstanceAs (Decidable (_ ∧ _))

def Call.spelledOut (contract : String) (c : Call) : Call :=
  if c.Unprefixed contract then { c with authPrefix := some .bare } else c

/-- The unit with plain imports of the contract and the prefix on its calls written out. -/
def CompilationUnit.spelledOut (contract : String) (u : CompilationUnit) : CompilationUnit :=
  { u with
    imports := u.imports.map (.madePlain contract)
    calls := u.calls.map (.spelledOut contract) }

def TokenOrigin.spelledOut : TokenOrigin → TokenOrigin
  | authorizedImport => explicitPrefix
  | other => other

def CallAnnotation.spelledOut : CallAnnotation → CallAnnotation
  | authorized token origin => .authorized token origin.spelledOut
  | other => other

/-- What is said of a call once its prefix is written out: it has one, and a token that came from
the import comes from the prefix. -/
def AnnotatedCall.spelledOut (a : AnnotatedCall) : AnnotatedCall :=
  { a with
    site := { a.site with hasAuthPrefix := true }
    annotation := a.annotation.spelledOut }

def Verdict.spelledOut : Verdict → Verdict
  | authorized token origin => .authorized token origin.spelledOut
  | other => other

def Judgement.spelledOut (j : Judgement) : Judgement :=
  { j with impliedPrefix := false, verdict := j.verdict.spelledOut }

def ImportBinding.madePlain (contract : String) (b : ImportBinding) : ImportBinding :=
  if b.contract = contract then { b with mode := .plain } else b

def CallContext.Route.madePlain (contract : String) : Route → Route
  | own address => .own address
  | imported binding => .imported (binding.madePlain contract)

def Import.Authorized (contract : String) (imports : List Import) : Prop :=
  ∀ i ∈ imports, i.contract = contract → i.mode = .authorized

/-- The contract has an entry that is not `auth`, and its imports are all authorized. -/
structure CompilationUnit.Impliable (u : CompilationUnit) (table : Table) (contract : String) :
    Prop where
  entry : ∃ entry, table.contract? contract = some entry ∧ entry.qualifier ≠ .auth
  imports : Import.Authorized contract u.imports

@[simp] theorem Import.contract_madePlain (contract : String) (i : Import) :
    (i.madePlain contract).contract = i.contract := by
  rw [madePlain]
  split <;> rfl

@[simp] theorem Import.span_madePlain (contract : String) (i : Import) :
    (i.madePlain contract).span = i.span := by
  rw [madePlain]
  split <;> rfl

@[simp] theorem ImportBinding.usable_madePlain (contract : String) (b : ImportBinding) :
    (b.madePlain contract).usable = b.usable := by
  rw [madePlain]
  split <;> rfl

theorem Import.find?_map_madePlain (imports : List Import) (contract name : String) :
    ((imports.map (madePlain contract)).find? fun i => i.contract = name) =
      (imports.find? fun i => i.contract = name).map (madePlain contract) := by
  simp only [List.find?_map, Function.comp_def, Import.contract_madePlain]

section Imports

variable {table : Table} {contract : String}
  (hauth : ∀ entry, table.contract? contract = some entry → entry.qualifier ≠ .auth)

include hauth

theorem Import.bindingOf_madePlain {i : Import} {entry : Entry}
    (hentry : table.contract? i.contract = some entry) :
    (i.madePlain contract).bindingOf entry = (i.bindingOf entry).madePlain contract := by
  by_cases hname : i.contract = contract
  · have hopen : entry.qualifier.isAuth = false :=
      Bool.eq_false_iff.mpr (mt Access.isAuth_iff.mp (hauth entry (hname ▸ hentry)))
    simp [madePlain, ImportBinding.madePlain, bindingOf, hname, hopen]
  · simp [madePlain, ImportBinding.madePlain, bindingOf, hname]

theorem Import.binding?_madePlain (i : Import) :
    (i.madePlain contract).binding? table = (i.binding? table).map (.madePlain contract) := by
  rw [binding?, binding?, contract_madePlain]
  split
  · rfl
  · cases hentry : table.contract? i.contract with
    | none => rfl
    | some entry => exact congrArg some (bindingOf_madePlain hauth hentry)

theorem ImportScope.find?_ofImports_madePlain (imports : List Import) (name : String) :
    (ofImports table (imports.map (.madePlain contract))).1.find? name =
      ((ofImports table imports).1.find? name).map (.madePlain contract) :=
  find?_ofImports_map (Import.contract_madePlain contract) (Import.binding?_madePlain hauth)
    imports name

theorem Import.finding?_madePlain {i : Import} {before : List Import}
    (himports : Authorized contract (i :: before)) :
    (i.madePlain contract).finding? table (before.map (.madePlain contract)) =
      i.finding? table before := by
  rw [finding?, finding?, span_madePlain, violation?, violation?, contract_madePlain,
    find?_map_madePlain]
  congr 1
  split
  · rfl
  · cases hentry : table.contract? i.contract with
    | none => rfl
    | some entry =>
        cases hfirst : before.find? fun j => j.contract = i.contract with
        | none =>
            dsimp only [Option.map_none]
            rw [bindingOf_madePlain hauth hentry, ImportBinding.usable_madePlain]
        | some first =>
            have hname : first.contract = i.contract := by simpa using List.find?_some hfirst
            dsimp only [Option.map_some]
            by_cases hcontract : i.contract = contract
            · -- Neither the old modes differ nor the new ones.
              have hi := himports i List.mem_cons_self hcontract
              have hf := himports first
                (List.mem_cons_of_mem _ (List.mem_of_find?_eq_some hfirst))
                (hname.trans hcontract)
              simp [madePlain, hname, hcontract, hi, hf]
            · simp [madePlain, hname, hcontract]

theorem ImportScope.findings_madePlain (before rest : List Import)
    (himports : Import.Authorized contract (before ++ rest)) :
    findings table (before.map (.madePlain contract)) (rest.map (.madePlain contract)) =
      findings table before rest := by
  induction rest generalizing before with
  | nil => rfl
  | cons i rest ih =>
      have hnext : Import.Authorized contract (before ++ [i] ++ rest) := by
        rw [List.append_assoc]
        exact himports
      have hhead : Import.Authorized contract (i :: before) := by
        intro j hj
        apply himports j
        simp only [List.mem_cons, List.mem_append] at hj ⊢
        exact hj.elim (fun h => .inr (.inl h)) .inl
      have hmap : before.map (Import.madePlain contract) ++ [i.madePlain contract] =
          (before ++ [i]).map (.madePlain contract) := by
        rw [List.map_append, List.map_singleton]
      rw [List.map_cons, findings, findings, Import.finding?_madePlain hauth hhead, hmap,
        ih _ hnext]

end Imports

section Calls

variable {contract : String} {c : Call}

theorem Call.spelledOut_of_unprefixed (h : c.Unprefixed contract) :
    c.spelledOut contract = { c with authPrefix := some .bare } :=
  if_pos h

theorem Call.spelledOut_of_not_unprefixed (h : ¬ c.Unprefixed contract) :
    c.spelledOut contract = c :=
  if_neg h

@[simp] theorem Call.contract_spelledOut (contract : String) (c : Call) :
    (c.spelledOut contract).contract = c.contract := by
  rw [spelledOut]
  split <;> rfl

@[simp] theorem Call.member_spelledOut (contract : String) (c : Call) :
    (c.spelledOut contract).member = c.member := by
  rw [spelledOut]
  split <;> rfl

@[simp] theorem Call.callee_spelledOut (contract : String) (c : Call) :
    (c.spelledOut contract).callee = c.callee := by
  rw [callee, contract_spelledOut, member_spelledOut, callee]

@[simp] theorem Call.function_spelledOut (contract : String) (c : Call) :
    (c.spelledOut contract).function = c.function := by
  rw [spelledOut]
  split <;> rfl

@[simp] theorem Call.span_spelledOut (contract : String) (c : Call) :
    (c.spelledOut contract).span = c.span := by
  rw [spelledOut]
  split <;> rfl

theorem Caller.inRejectedFunction_spelledOut (caller : Caller) (table : Table) (contract : String)
    (c : Call) : caller.inRejectedFunction table (c.spelledOut contract) =
      caller.inRejectedFunction table c := by
  simp only [inRejectedFunction, Call.function_spelledOut]

namespace CallContext

variable {ctx : CallContext} {imports : ImportScope}
  (himports : ∀ name, imports.find? name = (ctx.imports.find? name).map (.madePlain contract))
  (hnamed : ∀ name binding, ctx.imports.find? name = some binding → binding.contract = name)
  (hmode : ∀ binding, ctx.imports.find? contract = some binding → binding.mode = .authorized)

include himports in
theorem reach_spelledOut (c : Call) :
    reach { ctx with imports } (c.spelledOut contract) =
      (ctx.reach c).map (Route.madePlain contract) := by
  simp only [reach, Call.contract_spelledOut, Call.callee_spelledOut, himports]
  cases ctx.table.contract? c.contract with
  | none => rfl
  | some entry =>
      dsimp only
      split
      · rfl
      · cases ctx.imports.find? c.contract with
        | none => rfl
        | some binding =>
            dsimp only [Option.map_some]
            rw [ImportBinding.usable_madePlain]
            split <;> rfl

include hnamed in
theorem prefixOf_madePlain (hprefixed : ¬ c.Unprefixed contract) {binding : ImportBinding}
    (hbinding : ctx.imports.find? c.contract = some binding) :
    prefixOf c (binding.madePlain contract) = prefixOf c binding := by
  cases hprefix : c.authPrefix with
  | some written => simp only [prefixOf, hprefix]
  | none =>
      have hother : binding.contract ≠ contract := by
        rw [hnamed _ _ hbinding]
        exact fun hname => hprefixed ⟨hname, hprefix⟩
      rw [ImportBinding.madePlain, if_neg hother]

include hnamed in
theorem authorizeCall_madePlain (hprefixed : ¬ c.Unprefixed contract) {route : Route}
    (hreach : ctx.reach c = .ok route) :
    authorizeCall { ctx with imports } c (route.madePlain contract) =
      ctx.authorizeCall c route := by
  cases reach_eq_iff.mp hreach with
  | own => rfl
  | imported _ _ hbinding _ =>
      simp only [authorizeCall, Route.madePlain, prefixOf_madePlain hnamed hprefixed hbinding]

include hmode in
theorem authorizeCall_spelledOut (hunprefixed : c.Unprefixed contract) {route : Route}
    (hreach : ctx.reach c = .ok route) :
    authorizeCall { ctx with imports } (c.spelledOut contract) (route.madePlain contract) =
      (ctx.authorizeCall c route).spelledOut := by
  rw [Call.spelledOut_of_unprefixed hunprefixed]
  obtain ⟨rfl, hnone⟩ := hunprefixed
  cases reach_eq_iff.mp hreach with
  | own => rfl
  | @imported _ binding _ _ hbinding husable =>
      have himplied : prefixOf c binding = some (.bare, .authorizedImport) := by
        simp [prefixOf, hnone, ImportBinding.impliesAuthorization, husable, hmode _ hbinding]
      have hwritten : prefixOf { c with authPrefix := some .bare }
          (binding.madePlain c.contract) = some (.bare, .explicitPrefix) := rfl
      have hcallee : ({ c with authPrefix := some .bare } : Call).callee = c.callee := rfl
      rw [Route.madePlain, authorizeCall, authorizeCall, himplied, hwritten]
      dsimp only
      rw [hcallee]
      cases ctx.caller.resolvePrefix c.phase c.callee .bare <;> rfl

include hnamed in
theorem impliesPrefix_madePlain (hprefixed : ¬ c.Unprefixed contract) {route : Route}
    (hreach : ctx.reach c = .ok route) :
    impliesPrefix c (route.madePlain contract) = impliesPrefix c route := by
  cases reach_eq_iff.mp hreach with
  | own => rfl
  | @imported _ binding _ _ hbinding _ =>
      cases hprefix : c.authPrefix with
      | some written => simp [impliesPrefix, Route.madePlain, hprefix]
      | none =>
          have hother : binding.contract ≠ contract := by
            rw [hnamed _ _ hbinding]
            exact fun hname => hprefixed ⟨hname, hprefix⟩
          rw [Route.madePlain, ImportBinding.madePlain, if_neg hother]

theorem impliesPrefix_spelledOut (hunprefixed : c.Unprefixed contract) (route : Route) :
    impliesPrefix (c.spelledOut contract) route = false := by
  rw [Call.spelledOut_of_unprefixed hunprefixed]
  cases route <;> rfl

include himports hmode in
/-- A call is judged by its prefix as it was by the import that implied it. -/
theorem judge_spelledOut (hunprefixed : c.Unprefixed contract) :
    judge { ctx with imports } (c.spelledOut contract) = (ctx.judge c).spelledOut := by
  rw [judge, judge, reach_spelledOut himports]
  simp only [Call.callee_spelledOut, Caller.inRejectedFunction_spelledOut,
    Call.contract_spelledOut, Call.member_spelledOut]
  split
  · rfl
  · cases hreach : ctx.reach c with
    | error refusal => rfl
    | ok route =>
        dsimp only [Except.map]
        split
        · rfl
        · rw [authorizeCall_spelledOut hmode hunprefixed hreach,
            impliesPrefix_spelledOut hunprefixed]
          rfl
        · rfl

include himports hnamed in
theorem judge_madePlain (hprefixed : ¬ c.Unprefixed contract) :
    judge { ctx with imports } c = ctx.judge c := by
  have hreach' := reach_spelledOut himports c
  rw [Call.spelledOut_of_not_unprefixed hprefixed] at hreach'
  rw [judge, judge, hreach']
  dsimp only
  split
  · rfl
  · cases hreach : ctx.reach c with
    | error refusal => rfl
    | ok route =>
        dsimp only [Except.map]
        rw [authorizeCall_madePlain hnamed hprefixed hreach,
          impliesPrefix_madePlain hnamed hprefixed hreach]

end CallContext

end Calls

theorem Verdict.refusal?_spelledOut (v : Verdict) : v.spelledOut.refusal? = v.refusal? := by
  cases v <;> rfl

theorem AnnotatedCall.ofJudgement_spelledOut {contract : String} {c : Call}
    (hunprefixed : c.Unprefixed contract) (j : Judgement) :
    ofJudgement (c.spelledOut contract) j.spelledOut = (ofJudgement c j).spelledOut := by
  rw [Call.spelledOut_of_unprefixed hunprefixed]
  obtain ⟨qualifier, implied, verdict⟩ := j
  cases verdict with
  | authorized token origin => cases origin <;> rfl
  | _ => rfl

namespace CompilationUnit

variable {u : CompilationUnit} {table : Table} {contract : String}

theorem context?_spelledOut (u : CompilationUnit) (table : Table) (contract : String) :
    (u.spelledOut contract).context? table =
      (u.context? table).map fun ctx =>
        { ctx with imports := (u.spelledOut contract).bindings table } := by
  rw [context?, context?, CallContext.ofUnit?, CallContext.ofUnit?, Option.map_map]
  rfl

theorem imports_of_context? {ctx : CallContext} (hctx : u.context? table = some ctx) :
    ctx.imports = u.bindings table := by
  obtain ⟨caller, -, rfl⟩ := context?_eq_some_iff.mp hctx
  rfl

theorem Impliable.not_auth (h : u.Impliable table contract) {entry : Entry}
    (hentry : table.contract? contract = some entry) : entry.qualifier ≠ .auth := by
  obtain ⟨other, hother, hopen⟩ := h.entry
  rw [hentry, Option.some.injEq] at hother
  exact hother ▸ hopen

theorem Impliable.judgement (h : u.Impliable table contract) (c : Call) :
    (u.spelledOut contract).judgement table (c.spelledOut contract) =
      if c.Unprefixed contract then (u.judgement table c).spelledOut else u.judgement table c := by
  have himports : ∀ name, ((u.spelledOut contract).bindings table).find? name =
      ((u.bindings table).find? name).map (.madePlain contract) :=
    ImportScope.find?_ofImports_madePlain (fun _ => h.not_auth) u.imports
  have hnamed : ∀ name binding, (u.bindings table).find? name = some binding →
      binding.contract = name :=
    fun name binding hbinding => (ImportScope.exists_import_of_find? hbinding).1
  have hmode : ∀ binding, (u.bindings table).find? contract = some binding →
      binding.mode = .authorized := by
    intro binding hbinding
    obtain ⟨-, i, hi, hname, hmode⟩ := ImportScope.exists_import_of_find? hbinding
    exact hmode.trans (h.imports i hi hname)
  rw [CompilationUnit.judgement, CompilationUnit.judgement, context?_spelledOut]
  cases hctx : u.context? table with
  | none =>
      dsimp only [Option.map_none]
      split <;> rfl
  | some ctx =>
      rw [← imports_of_context? hctx] at himports hnamed hmode
      dsimp only [Option.map_some]
      split
      · next hunprefixed => exact CallContext.judge_spelledOut himports hmode hunprefixed
      · next hprefixed =>
          rw [Call.spelledOut_of_not_unprefixed hprefixed]
          exact CallContext.judge_madePlain himports hnamed hprefixed

theorem Impliable.finding? (h : u.Impliable table contract) (c : Call) :
    (u.spelledOut contract).finding? table (c.spelledOut contract) = u.finding? table c := by
  have hrefusal : Verdict.refusal? ((u.spelledOut contract).judgement table
      (c.spelledOut contract)).verdict = Verdict.refusal? (u.judgement table c).verdict := by
    rw [h.judgement]
    split
    · exact Verdict.refusal?_spelledOut _
    · rfl
  simp only [CompilationUnit.finding?, hrefusal, Call.callee_spelledOut, Call.span_spelledOut]

theorem Impliable.findings (h : u.Impliable table contract) :
    (u.spelledOut contract).findings table = u.findings table := by
  have himports : (ImportScope.ofImports table (u.spelledOut contract).imports).2 =
      (ImportScope.ofImports table u.imports).2 := by
    rw [ImportScope.diagnostics_ofImports, ImportScope.diagnostics_ofImports]
    exact ImportScope.findings_madePlain (fun _ => h.not_auth) [] _ h.imports
  have hcalls : (u.spelledOut contract).calls.filterMap ((u.spelledOut contract).finding? table) =
      u.calls.filterMap (u.finding? table) := by
    rw [CompilationUnit.spelledOut, List.filterMap_map]
    exact List.filterMap_congr fun c _ => h.finding? c
  rw [CompilationUnit.findings, CompilationUnit.findings, himports, hcalls]
  rfl

/-- Where the imports of a contract imply a prefix, writing it out changes no diagnostic, and no
annotation but for where the token is said to come from. -/
theorem check_spelledOut (h : u.Impliable table contract) :
    ((u.spelledOut contract).check table).diagnostics = (u.check table).diagnostics ∧
      ((u.spelledOut contract).check table).calls =
        List.zipWith (fun c a => if c.Unprefixed contract then a.spelledOut else a) u.calls
          (u.check table).calls := by
  constructor
  · rw [diagnostics_check, diagnostics_check, h.findings]
  · rw [calls_check_eq, calls_check_eq, List.zipWith_map_right, List.zipWith_self, spelledOut,
      List.map_map]
    apply List.map_congr_left
    intro c _
    have hjudgement := h.judgement c
    rw [spelledOut] at hjudgement
    dsimp only [Function.comp]
    rw [hjudgement]
    split
    · next hunprefixed => exact AnnotatedCall.ofJudgement_spelledOut hunprefixed _
    · next hprefixed => rw [Call.spelledOut_of_not_unprefixed hprefixed]

end CompilationUnit

/-- A transaction that joins the vault, sweeps it as its owner, and tries to join once more where
no account authorizes it. -/
def visitingUnit : CompilationUnit where
  name := "visit"
  kind := .transaction [{ name := "owner" }]
  imports := [{ contract := "Vault", mode := .authorized }]
  calls :=
    [{ contract := "Vault", member := "join", phase := .prepare },
     { contract := "Vault", member := "sweep", authPrefix := some (.named "owner"),
       phase := .prepare },
     { contract := "Vault", member := "join", phase := .execute }]

def visitedTable : Table :=
  Batch.table {
    declarations :=
      [{ kind := .contract, name := "Vault", address := .ofNat 2,
         functions :=
           [{ name := "join", qualifiers := [.auth] },
            { name := "sweep", qualifiers := [.auth] }] }] } {}

theorem visitingUnit_spelledOut :
    visitingUnit.Impliable visitedTable "Vault" ∧
      (visitingUnit.check visitedTable).calls.map AnnotatedCall.annotation =
        [.authorized (.authorizer "owner" 1 0) .authorizedImport,
         .authorized (.authorizer "owner" 1 0) .explicitPrefix,
         .rejected .missingAuthorization] ∧
      ((visitingUnit.spelledOut "Vault").check visitedTable).diagnostics =
        (visitingUnit.check visitedTable).diagnostics ∧
      ((visitingUnit.spelledOut "Vault").check visitedTable).calls.map AnnotatedCall.annotation =
        [.authorized (.authorizer "owner" 1 0) .explicitPrefix,
         .authorized (.authorizer "owner" 1 0) .explicitPrefix,
         .rejected .missingAuthorization] := by
  have himpliable : visitingUnit.Impliable visitedTable "Vault" := by
    have hentry : visitedTable.contract? "Vault" = some ⟨.contract, .all, .ofNat 2, {}⟩ := by cbv
    refine ⟨⟨_, hentry, by decide⟩, ?_⟩
    unfold Import.Authorized
    decide
  obtain ⟨hdiagnostics, hcalls⟩ := CompilationUnit.check_spelledOut himpliable
  refine ⟨himpliable, ?_, hdiagnostics, ?_⟩
  · rw [CompilationUnit.calls_check_eq]
    cbv
  · rw [hcalls, CompilationUnit.calls_check_eq]
    cbv

end AuthorizedCalls
