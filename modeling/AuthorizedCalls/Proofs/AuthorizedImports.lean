import AuthorizedCalls.Proofs.ImportFindings
import AuthorizedCalls.Proofs.UnitFindings
import Mathlib.Data.List.Forall2

namespace AuthorizedCalls

def Import.madeAuthorized (i : Import) : Import :=
  { i with mode := .authorized }

def ImportBinding.madeAuthorized (b : ImportBinding) : ImportBinding :=
  { b with mode := .authorized, usable := true }

def CompilationUnit.madeAuthorized (u : CompilationUnit) : CompilationUnit :=
  { u with imports := u.imports.map .madeAuthorized }

/-- What authorized imports may change about an annotated call: nothing unless it is rejected, and
it stays rejected unless the rejection is for the import or for a missing prefix. -/
structure AnnotatedCall.MayPass (a a' : AnnotatedCall) : Prop where
  kept : a.isRejected = false → a' = a
  passed : a.isRejected = true → a'.isRejected = false →
    a.annotation = .rejected .importNotAuthorized ∨ a.annotation = .rejected .missingAuthorization

theorem AnnotatedCall.MayPass.refl (a : AnnotatedCall) : a.MayPass a where
  kept _ := rfl
  passed h h' := absurd (h.symm.trans h') nofun

namespace Import

variable {table : Table}

theorem bindingOf_madeAuthorized (i : Import) (entry : Entry) :
    i.madeAuthorized.bindingOf entry = (i.bindingOf entry).madeAuthorized := by
  simp [madeAuthorized, ImportBinding.madeAuthorized, bindingOf]

theorem binding?_madeAuthorized (i : Import) :
    i.madeAuthorized.binding? table = (i.binding? table).map .madeAuthorized := by
  have hbinding : i.madeAuthorized.bindingOf = ImportBinding.madeAuthorized ∘ i.bindingOf :=
    funext (bindingOf_madeAuthorized i)
  rw [binding?, binding?, hbinding]
  change (if table.isRejected (.contract i.contract) then none else _) = _
  split
  · rfl
  · rw [Option.map_map]
    rfl

/-- Of what can be wrong with an import, only that its contract is unknown does not go away. -/
theorem finding?_madeAuthorized (i : Import) (before : List Import) :
    i.madeAuthorized.finding? table (before.map .madeAuthorized) =
      (i.finding? table before).filter fun d => d.kind = .unresolvedDeclaration := by
  have hfirst : ((before.map madeAuthorized).find? fun j => j.contract = i.contract) =
      (before.find? fun j => j.contract = i.contract).map madeAuthorized := by
    rw [List.find?_map]
    rfl
  have hcontract : i.madeAuthorized.contract = i.contract := rfl
  have hspan : i.madeAuthorized.span = i.span := rfl
  rw [finding?, finding?, violation?, violation?, hcontract, hspan, hfirst]
  split
  · rfl
  · cases hentry : table.contract? i.contract with
    | none => rfl
    | some entry =>
        cases before.find? fun j => j.contract = i.contract with
        | none =>
            have husable : (i.madeAuthorized.bindingOf entry).usable = true := by
              rw [bindingOf_madeAuthorized]
              rfl
            dsimp only [Option.map_none]
            rw [if_pos husable]
            split <;> rfl
        | some first =>
            -- Two authorized imports have the same mode.
            have hmode : first.madeAuthorized.mode = i.madeAuthorized.mode := rfl
            dsimp only [Option.map_some]
            rw [if_pos hmode]
            split <;> rfl

end Import

namespace ImportScope

variable {table : Table}

theorem find?_ofImports_madeAuthorized (imports : List Import) (name : String) :
    (ofImports table (imports.map .madeAuthorized)).1.find? name =
      ((ofImports table imports).1.find? name).map .madeAuthorized :=
  find?_ofImports_map (f := Import.madeAuthorized) (fun _ => rfl) Import.binding?_madeAuthorized
    imports name

theorem findings_madeAuthorized (before rest : List Import) :
    findings table (before.map .madeAuthorized) (rest.map .madeAuthorized) =
      (findings table before rest).filter fun d => d.kind = .unresolvedDeclaration := by
  induction rest generalizing before with
  | nil => rfl
  | cons i rest ih =>
      have hnext : before.map Import.madeAuthorized ++ [i.madeAuthorized] =
          (before ++ [i]).map .madeAuthorized := by
        rw [List.map_append, List.map_singleton]
      rw [List.map_cons, findings, findings, hnext, ih, Import.finding?_madeAuthorized,
        List.filter_append]
      congr 1
      exact Option.toList_filter

theorem diagnostics_ofImports_madeAuthorized (imports : List Import) :
    (ofImports table (imports.map .madeAuthorized)).2 =
      (ofImports table imports).2.filter fun d => d.kind = .unresolvedDeclaration := by
  rw [diagnostics_ofImports, diagnostics_ofImports]
  exact findings_madeAuthorized [] imports

end ImportScope

namespace CallContext

variable {ctx : CallContext} {imports : ImportScope}
  (himports : ∀ name, imports.find? name = (ctx.imports.find? name).map .madeAuthorized)

def Route.madeAuthorized : Route → Route
  | own address => .own address
  | imported binding => .imported binding.madeAuthorized

include himports in
theorem reach_madeAuthorized_of_ok {c : Call} {route : Route} (h : ctx.reach c = .ok route) :
    reach { ctx with imports } c = .ok route.madeAuthorized := by
  cases reach_eq_iff.mp h with
  | own hentry hown => exact reach_eq_iff.mpr (.own hentry hown)
  | imported hentry hother hbinding husable =>
      refine reach_eq_iff.mpr (.imported hentry hother ?_ rfl)
      rw [himports, hbinding, Option.map_some]

include himports in
theorem reach_madeAuthorized_of_error {c : Call} {refusal : Refusal}
    (h : ctx.reach c = .error refusal) (hkind : refusal.kind ≠ .importNotAuthorized) :
    reach { ctx with imports } c = .error refusal := by
  cases reach_eq_iff.mp h with
  | unknownContract hentry => exact reach_eq_iff.mpr (.unknownContract hentry)
  | notImported hentry hother hbinding =>
      refine reach_eq_iff.mpr (.notImported hentry hother ?_)
      rw [himports, hbinding, Option.map_none]
  | plainImport => exact absurd rfl hkind

theorem prefixOf_madeAuthorized {c : Call} {binding : ImportBinding}
    {pair : AuthPrefix × TokenOrigin} (h : prefixOf c binding = some pair) :
    prefixOf c binding.madeAuthorized = some pair := by
  obtain ⟨written, origin⟩ := pair
  rw [prefixOf_eq_some_iff] at h ⊢
  exact h.imp_right fun ⟨hnone, _, hbare⟩ => ⟨hnone, rfl, hbare⟩

theorem impliesPrefix_madeAuthorized {c : Call} {binding : ImportBinding}
    {pair : AuthPrefix × TokenOrigin} (h : prefixOf c binding = some pair) :
    impliesPrefix c (.imported binding.madeAuthorized) = impliesPrefix c (.imported binding) := by
  obtain ⟨written, origin⟩ := pair
  rcases prefixOf_eq_some_iff.mp h with ⟨hwritten, -⟩ | ⟨hnone, himplies, -⟩
  · simp only [impliesPrefix, hwritten, Option.isNone_some, Bool.false_and]
  · simp only [impliesPrefix, himplies]
    rfl

theorem authorizeCall_madeAuthorized (ctx : CallContext) (imports : ImportScope) (c : Call)
    (route : Route) :
    (authorizeCall { ctx with imports } c route.madeAuthorized = ctx.authorizeCall c route ∧
        impliesPrefix c route.madeAuthorized = impliesPrefix c route) ∨
      ctx.authorizeCall c route = .rejected (.noPrefix c.callee c.contract) := by
  cases route with
  | own address => exact .inl ⟨rfl, rfl⟩
  | imported binding =>
      cases hprefix : prefixOf c binding with
      | none =>
          right
          rw [authorizeCall, hprefix]
      | some pair =>
          left
          refine ⟨?_, impliesPrefix_madeAuthorized hprefix⟩
          rw [Route.madeAuthorized, authorizeCall, authorizeCall, hprefix,
            prefixOf_madeAuthorized hprefix]

include himports in
theorem judge_madeAuthorized (c : Call) :
    judge { ctx with imports } c = ctx.judge c ∨
      ∃ refusal, (ctx.judge c).verdict = .rejected refusal ∧
        (refusal.kind = .importNotAuthorized ∨ refusal.kind = .missingAuthorization) := by
  have hjudges := judges_judge ctx c
  generalize ctx.judge c = j at hjudges ⊢
  cases hjudges with
  | skipped hskips => exact .inl (judge_eq_iff.mpr (.skipped hskips))
  | @unreached refusal hskips hreach =>
      by_cases hkind : refusal.kind = .importNotAuthorized
      · exact .inr ⟨refusal, rfl, .inl hkind⟩
      · have hreach' := reach_madeAuthorized_of_error himports hreach hkind
        exact .inl (judge_eq_iff.mpr (.unreached hskips hreach'))
  | unknownMember hskips hreach hqualifier =>
      have hreach' := reach_madeAuthorized_of_ok himports hreach
      exact .inl (judge_eq_iff.mpr (.unknownMember hskips hreach' hqualifier))
  | unqualified hskips hreach hqualifier hother =>
      have hreach' := reach_madeAuthorized_of_ok himports hreach
      exact .inl (judge_eq_iff.mpr (.unqualified hskips hreach' hqualifier hother))
  | @auth route hskips hreach hqualifier =>
      have hreach' := reach_madeAuthorized_of_ok himports hreach
      rcases authorizeCall_madeAuthorized ctx imports c route with ⟨hverdict, himplies⟩ | hnone
      · rw [← hverdict, ← himplies]
        exact .inl (judge_eq_iff.mpr (.auth hskips hreach' hqualifier))
      · exact .inr ⟨_, hnone, .inr rfl⟩

end CallContext

namespace CompilationUnit

variable {u : CompilationUnit} {table : Table}

theorem judgement_madeAuthorized (u : CompilationUnit) (table : Table) (c : Call) :
    u.madeAuthorized.judgement table c = u.judgement table c ∨
      ∃ refusal, (u.judgement table c).verdict = .rejected refusal ∧
        (refusal.kind = .importNotAuthorized ∨ refusal.kind = .missingAuthorization) := by
  have hcontext : u.madeAuthorized.context? table =
      (u.context? table).map fun ctx =>
        { ctx with imports := u.madeAuthorized.bindings table } := by
    rw [context?, context?, CallContext.ofUnit?, CallContext.ofUnit?, Option.map_map]
    rfl
  rw [judgement, judgement, hcontext]
  cases hctx : u.context? table with
  | none => exact .inl rfl
  | some ctx =>
      have himports : ctx.imports = u.bindings table := by
        obtain ⟨caller, -, rfl⟩ := context?_eq_some_iff.mp hctx
        rfl
      refine CallContext.judge_madeAuthorized (fun name => ?_) c
      rw [himports]
      exact ImportScope.find?_ofImports_madeAuthorized u.imports name

theorem mayPass_madeAuthorized (u : CompilationUnit) (table : Table) (c : Call) :
    (AnnotatedCall.ofJudgement c (u.judgement table c)).MayPass
      (.ofJudgement c (u.madeAuthorized.judgement table c)) := by
  rcases judgement_madeAuthorized u table c with hsame | ⟨refusal, hverdict, hkind⟩
  · rw [hsame]
    exact .refl _
  · have hrejected : AnnotatedCall.annotation (.ofJudgement c (u.judgement table c)) =
        .rejected refusal.kind := by
      rw [AnnotatedCall.ofJudgement, hverdict]
      rfl
    constructor
    · intro haccepted
      rw [AnnotatedCall.isRejected, hrejected] at haccepted
      contradiction
    · intro _ _
      rw [hrejected]
      exact hkind.imp (congrArg _) (congrArg _)

/-- Every call of the unit that is not rejected keeps its annotation when all imports are made
authorized, and what is still wrong with the imports is that they name unknown contracts. -/
theorem check_madeAuthorized (u : CompilationUnit) (table : Table) :
    List.Forall₂ AnnotatedCall.MayPass (u.check table).calls
        (u.madeAuthorized.check table).calls ∧
      (ImportScope.ofImports table u.madeAuthorized.imports).2 =
        (ImportScope.ofImports table u.imports).2.filter fun d =>
          d.kind = .unresolvedDeclaration := by
  constructor
  · rw [calls_check_eq, calls_check_eq]
    refine List.forall₂_map_left_iff.mpr (List.forall₂_map_right_iff.mpr ?_)
    exact List.forall₂_same.mpr fun c _ => mayPass_madeAuthorized u table c
  · exact ImportScope.diagnostics_ofImports_madeAuthorized u.imports

end CompilationUnit

end AuthorizedCalls
