import AuthorizedCalls.CallCheck

namespace AuthorizedCalls

/-- The rules that are broken where no source of authorization is found. -/
def DiagnosticKind.IsOfSource (k : DiagnosticKind) : Prop :=
  k = .missingAuthorization ∨ k = .ambiguousAuthorizer ∨ k = .unknownAuthorizer

theorem DiagnosticKind.IsOfSource.ne_importNotAuthorized {k : DiagnosticKind}
    (h : k.IsOfSource) : k ≠ .importNotAuthorized := by
  rcases h with rfl | rfl | rfl <;> decide

namespace Refusal

theorem kind_eq_importNotAuthorized_iff {r : Refusal} :
    r.kind = .importNotAuthorized ↔ ∃ callee contract, r = .plainImport callee contract := by
  constructor
  · intro h
    cases r with
    | plainImport callee contract => exact ⟨callee, contract, rfl⟩
    | unresolved callee e => cases e <;> contradiction
    | _ => contradiction
  · rintro ⟨callee, contract, rfl⟩
    rfl

end Refusal

namespace Verdict

theorem annotation_eq_unqualified_iff {v : Verdict} :
    v.annotation = .unqualified ↔ v = .unqualified := by
  cases v <;> simp [Verdict.annotation]

theorem annotation_eq_authorized_iff {v : Verdict} {token : Token} {origin : TokenOrigin} :
    v.annotation = .authorized token origin ↔ v = .authorized token origin := by
  cases v <;> simp [Verdict.annotation]

theorem annotation_eq_skipped_iff {v : Verdict} : v.annotation = .skipped ↔ v = .skipped := by
  cases v <;> simp [Verdict.annotation]

end Verdict

namespace Caller

theorem isContract_iff {caller : Caller} {name : String} :
    caller.isContract name = true ↔ ∃ address, caller = .contract name address := by
  cases caller <;> simp [isContract]

theorem inRejectedFunction_iff {caller : Caller} {table : Table} {call : Call} :
    caller.inRejectedFunction table call = true ↔
      ∃ own address function, caller = .contract own address ∧ call.function = some function ∧
        table.isRejected (.member own function) = true := by
  cases caller <;> cases hfunction : call.function <;> simp [inRejectedFunction, hfunction]

theorem resolvePrefix_contract_eq_ok_iff {name : String} {address : Address} {phase : Phase}
    {callee : DeclId} {written : AuthPrefix} {token : Token} :
    (contract name address).resolvePrefix phase callee written = .ok token ↔
      written = .bare ∧ token = .contract name address := by
  cases written <;> simp [resolvePrefix, eq_comm]

theorem resolvePrefix_transaction_eq_ok_iff {authorizers : AuthorizerScope} {phase : Phase}
    {callee : DeclId} {written : AuthPrefix} {token : Token} :
    (transaction authorizers).resolvePrefix phase callee written = .ok token ↔
      phase = .prepare ∧ authorizers.resolve written = .ok token := by
  simp only [resolvePrefix]
  split
  · next hphase =>
      cases authorizers.resolve written <;> simp [hphase]
  · next hphase =>
      cases written with
      | bare => simp [hphase]
      | named authorizer =>
          dsimp only
          split <;> simp [hphase]

theorem resolvePrefix_script_ne_ok {phase : Phase} {callee : DeclId} {written : AuthPrefix}
    {token : Token} : script.resolvePrefix phase callee written ≠ .ok token := by
  cases written <;> simp [resolvePrefix]

theorem isOfSource_of_resolvePrefix_eq_error {caller : Caller} {phase : Phase} {callee : DeclId}
    {written : AuthPrefix} {refusal : Refusal}
    (h : caller.resolvePrefix phase callee written = .error refusal) :
    refusal.kind.IsOfSource := by
  cases caller with
  | contract name address =>
      cases written with
      | bare => contradiction
      | named authorizer =>
          cases h
          exact .inr (.inr rfl)
  | transaction authorizers =>
      simp only [resolvePrefix] at h
      split at h
      · split at h
        · contradiction
        · next e _ =>
            cases h
            cases e with
            | noneDeclared => exact .inl rfl
            | ambiguous names => exact .inr (.inl rfl)
            | unknown name => exact .inr (.inr rfl)
      · cases written with
        | bare =>
            cases h
            exact .inl rfl
        | named authorizer =>
            dsimp only at h
            split at h <;> cases h <;> exact .inr (.inr rfl)
  | script =>
      cases written with
      | bare =>
          cases h
          exact .inl rfl
      | named authorizer =>
          cases h
          exact .inr (.inr rfl)

end Caller

namespace CallContext

variable {ctx : CallContext} {call : Call}

/-- Whether a call is passed over: its callee or the function it stands in was rejected. -/
def skips (ctx : CallContext) (call : Call) : Bool :=
  ctx.table.isRejected call.callee || ctx.caller.inRejectedFunction ctx.table call

/-- The exits of the decision and the verdict at each. -/
inductive Decides (ctx : CallContext) (call : Call) : Verdict → Prop
  | skipped (hskips : ctx.skips call = true) : Decides ctx call .skipped
  | unreached {refusal : Refusal} (hskips : ctx.skips call = false)
      (hreach : ctx.reach call = .error refusal) : Decides ctx call (.rejected refusal)
  | unknownMember {route : Route} (hskips : ctx.skips call = false)
      (hreach : ctx.reach call = .ok route)
      (hqualifier : ctx.table.qualifier? call.callee = none) :
      Decides ctx call (.rejected (.unknownMember call.contract call.member))
  | unqualified {route : Route} {qualifier : Access} (hskips : ctx.skips call = false)
      (hreach : ctx.reach call = .ok route)
      (hqualifier : ctx.table.qualifier? call.callee = some qualifier)
      (hother : qualifier ≠ .auth) : Decides ctx call .unqualified
  | auth {route : Route} (hskips : ctx.skips call = false)
      (hreach : ctx.reach call = .ok route)
      (hqualifier : ctx.table.qualifier? call.callee = some .auth) :
      Decides ctx call (ctx.authorizeCall call route)

/-- The exits of the decision and all that is said of the call at each. -/
inductive Judges (ctx : CallContext) (call : Call) : Judgement → Prop
  | skipped (hskips : ctx.skips call = true) : Judges ctx call { verdict := .skipped }
  | unreached {refusal : Refusal} (hskips : ctx.skips call = false)
      (hreach : ctx.reach call = .error refusal) :
      Judges ctx call { verdict := .rejected refusal }
  | unknownMember {route : Route} (hskips : ctx.skips call = false)
      (hreach : ctx.reach call = .ok route)
      (hqualifier : ctx.table.qualifier? call.callee = none) :
      Judges ctx call { verdict := .rejected (.unknownMember call.contract call.member) }
  | unqualified {route : Route} {qualifier : Access} (hskips : ctx.skips call = false)
      (hreach : ctx.reach call = .ok route)
      (hqualifier : ctx.table.qualifier? call.callee = some qualifier)
      (hother : qualifier ≠ .auth) :
      Judges ctx call { calleeQualifier := some qualifier, verdict := .unqualified }
  | auth {route : Route} (hskips : ctx.skips call = false)
      (hreach : ctx.reach call = .ok route)
      (hqualifier : ctx.table.qualifier? call.callee = some .auth) :
      Judges ctx call
        { calleeQualifier := some .auth
          impliedPrefix := impliesPrefix call route
          verdict := ctx.authorizeCall call route }

theorem judges_judge (ctx : CallContext) (call : Call) : ctx.Judges call (ctx.judge call) := by
  rw [judge]
  split
  · next hskips => exact .skipped hskips
  · next hskips =>
      rw [Bool.not_eq_true] at hskips
      split
      · next refusal hreach => exact .unreached hskips hreach
      · next route hreach =>
          split
          · next hqualifier => exact .unknownMember hskips hreach hqualifier
          · next hqualifier => exact .auth hskips hreach hqualifier
          · next qualifier hother hqualifier =>
              refine .unqualified hskips hreach hqualifier ?_
              rintro rfl
              exact hother rfl

theorem Judges.unique {j j' : Judgement} (h : ctx.Judges call j) (h' : ctx.Judges call j') :
    j = j' := by
  cases h <;> cases h' <;> simp_all

theorem judge_eq_iff {j : Judgement} : ctx.judge call = j ↔ ctx.Judges call j := by
  constructor
  · rintro rfl
    exact judges_judge ctx call
  · intro h
    exact (judges_judge ctx call).unique h

theorem Judges.decides {j : Judgement} (h : ctx.Judges call j) : ctx.Decides call j.verdict := by
  cases h with
  | skipped hskips => exact .skipped hskips
  | unreached hskips hreach => exact .unreached hskips hreach
  | unknownMember hskips hreach hqualifier => exact .unknownMember hskips hreach hqualifier
  | unqualified hskips hreach hqualifier hother =>
      exact .unqualified hskips hreach hqualifier hother
  | auth hskips hreach hqualifier => exact .auth hskips hreach hqualifier

theorem decides_verdict_judge (ctx : CallContext) (call : Call) :
    ctx.Decides call (ctx.judge call).verdict :=
  (judges_judge ctx call).decides

theorem Decides.unique {v v' : Verdict} (h : ctx.Decides call v) (h' : ctx.Decides call v') :
    v = v' := by
  cases h <;> cases h' <;> simp_all

theorem verdict_judge_eq_iff {v : Verdict} :
    (ctx.judge call).verdict = v ↔ ctx.Decides call v := by
  constructor
  · rintro rfl
    exact decides_verdict_judge ctx call
  · intro h
    exact (decides_verdict_judge ctx call).unique h

/-- The ways to the contract of a call, and why there may be none. -/
inductive Reaches (ctx : CallContext) (call : Call) : Except Refusal Route → Prop
  | unknownContract (hentry : ctx.table.contract? call.contract = none) :
      Reaches ctx call (.error (.unknownContract call.contract))
  | own {entry : Entry} (hentry : ctx.table.contract? call.contract = some entry)
      (hown : ctx.caller.isContract call.contract = true) :
      Reaches ctx call (.ok (.own entry.address))
  | notImported {entry : Entry} (hentry : ctx.table.contract? call.contract = some entry)
      (hother : ctx.caller.isContract call.contract = false)
      (hbinding : ctx.imports.find? call.contract = none) :
      Reaches ctx call (.error (.notImported call.contract))
  | imported {entry : Entry} {binding : ImportBinding}
      (hentry : ctx.table.contract? call.contract = some entry)
      (hother : ctx.caller.isContract call.contract = false)
      (hbinding : ctx.imports.find? call.contract = some binding)
      (husable : binding.usable = true) : Reaches ctx call (.ok (.imported binding))
  | plainImport {entry : Entry} {binding : ImportBinding}
      (hentry : ctx.table.contract? call.contract = some entry)
      (hother : ctx.caller.isContract call.contract = false)
      (hbinding : ctx.imports.find? call.contract = some binding)
      (husable : binding.usable = false) :
      Reaches ctx call (.error (.plainImport call.callee call.contract))

theorem reaches_reach (ctx : CallContext) (call : Call) :
    ctx.Reaches call (ctx.reach call) := by
  rw [reach]
  split
  · next hentry => exact .unknownContract hentry
  · next entry hentry =>
      split
      · next hown => exact .own hentry hown
      · next hother =>
          rw [Bool.not_eq_true] at hother
          split
          · next hbinding => exact .notImported hentry hother hbinding
          · next binding hbinding =>
              split
              · next husable => exact .imported hentry hother hbinding husable
              · next husable =>
                  rw [Bool.not_eq_true] at husable
                  exact .plainImport hentry hother hbinding husable

theorem Reaches.unique {r r' : Except Refusal Route} (h : ctx.Reaches call r)
    (h' : ctx.Reaches call r') : r = r' := by
  cases h <;> cases h' <;> simp_all

theorem reach_eq_iff {r : Except Refusal Route} : ctx.reach call = r ↔ ctx.Reaches call r := by
  constructor
  · rintro rfl
    exact reaches_reach ctx call
  · intro h
    exact (reaches_reach ctx call).unique h

theorem prefixOf_eq_some_iff {binding : ImportBinding} {written : AuthPrefix}
    {origin : TokenOrigin} :
    prefixOf call binding = some (written, origin) ↔
      (call.authPrefix = some written ∧ origin = .explicitPrefix) ∨
        (call.authPrefix = none ∧ binding.impliesAuthorization = true ∧ written = .bare ∧
          origin = .authorizedImport) := by
  rw [prefixOf]
  cases call.authPrefix with
  | some explicit =>
      constructor
      · intro h
        cases h
        exact .inl ⟨rfl, rfl⟩
      · rintro (⟨h, rfl⟩ | ⟨h, -⟩)
        · cases h
          rfl
        · contradiction
  | none =>
      constructor
      · intro h
        dsimp only at h
        split at h
        · next himplies =>
            cases h
            exact .inr ⟨rfl, himplies, rfl, rfl⟩
        · contradiction
      · rintro (⟨h, -⟩ | ⟨-, himplies, rfl, rfl⟩)
        · contradiction
        · simp [himplies]

/-- A call of an `auth` function is authorized, or refused for want of a source. -/
theorem authorizeCall_cases (ctx : CallContext) (call : Call) (route : Route) :
    (∃ token origin, ctx.authorizeCall call route = .authorized token origin) ∨
      ∃ refusal, ctx.authorizeCall call route = .rejected refusal ∧ refusal.kind.IsOfSource := by
  cases route with
  | own address => exact .inl ⟨_, _, rfl⟩
  | imported binding =>
      rw [authorizeCall]
      cases prefixOf call binding with
      | none => exact .inr ⟨_, rfl, .inl rfl⟩
      | some pair =>
          obtain ⟨written, origin⟩ := pair
          dsimp only
          cases hresolve : ctx.caller.resolvePrefix call.phase call.callee written with
          | ok token => exact .inl ⟨token, origin, rfl⟩
          | error refusal =>
              exact .inr ⟨refusal, rfl, Caller.isOfSource_of_resolvePrefix_eq_error hresolve⟩

theorem authorizeCall_ne (ctx : CallContext) (call : Call) (route : Route) :
    ctx.authorizeCall call route ≠ .unqualified ∧ ctx.authorizeCall call route ≠ .skipped := by
  rcases authorizeCall_cases ctx call route with ⟨token, origin, hv⟩ | ⟨refusal, hv, -⟩
  · simp [hv]
  · simp [hv]

theorem authorizeCall_imported_eq_authorized_iff {binding : ImportBinding} {token : Token}
    {origin : TokenOrigin} :
    ctx.authorizeCall call (.imported binding) = .authorized token origin ↔
      ∃ written, prefixOf call binding = some (written, origin) ∧
        ctx.caller.resolvePrefix call.phase call.callee written = .ok token := by
  rw [authorizeCall]
  cases prefixOf call binding with
  | none => simp
  | some pair =>
      obtain ⟨written, origin'⟩ := pair
      dsimp only
      cases hresolve : ctx.caller.resolvePrefix call.phase call.callee written with
      | ok token' =>
          constructor
          · intro h
            cases h
            exact ⟨written, rfl, hresolve⟩
          · rintro ⟨_, h, htoken⟩
            cases h
            rw [hresolve] at htoken
            cases htoken
            rfl
      | error refusal =>
          constructor
          · intro h
            contradiction
          · rintro ⟨_, h, htoken⟩
            cases h
            rw [hresolve] at htoken
            contradiction

theorem verdict_judge_eq_authorized_iff {token : Token} {origin : TokenOrigin} :
    (ctx.judge call).verdict = .authorized token origin ↔
      ctx.skips call = false ∧ ctx.table.qualifier? call.callee = some .auth ∧
        ∃ route, ctx.reach call = .ok route ∧
          ctx.authorizeCall call route = .authorized token origin := by
  constructor
  · intro h
    have hdecides := decides_verdict_judge ctx call
    generalize (ctx.judge call).verdict = v at h hdecides
    cases hdecides with
    | auth hskips hreach hqualifier => exact ⟨hskips, hqualifier, _, hreach, h⟩
    | _ => contradiction
  · rintro ⟨hskips, hqualifier, route, hreach, hauthorize⟩
    exact verdict_judge_eq_iff.mpr (hauthorize ▸ .auth hskips hreach hqualifier)

theorem qualifier?_of_verdict_eq_unqualified (h : (ctx.judge call).verdict = .unqualified) :
    ∃ qualifier, ctx.table.qualifier? call.callee = some qualifier ∧ qualifier ≠ .auth := by
  have hdecides := decides_verdict_judge ctx call
  generalize (ctx.judge call).verdict = v at h hdecides
  cases hdecides with
  | unqualified hskips hreach hqualifier hother => exact ⟨_, hqualifier, hother⟩
  | auth => exact absurd h (authorizeCall_ne ctx call _).1
  | _ => contradiction

theorem verdict_judge_eq_skipped_iff :
    (ctx.judge call).verdict = .skipped ↔ ctx.skips call = true := by
  constructor
  · intro h
    have hdecides := decides_verdict_judge ctx call
    generalize (ctx.judge call).verdict = v at h hdecides
    cases hdecides with
    | skipped hskips => exact hskips
    | auth => exact absurd h (authorizeCall_ne ctx call _).2
    | _ => contradiction
  · intro h
    exact verdict_judge_eq_iff.mpr (.skipped h)

theorem annotation_judge_eq_importNotAuthorized_iff :
    Verdict.annotation (ctx.judge call).verdict = .rejected .importNotAuthorized ↔
      ctx.skips call = false ∧
        ctx.reach call = .error (.plainImport call.callee call.contract) := by
  constructor
  · intro h
    have hdecides := decides_verdict_judge ctx call
    generalize (ctx.judge call).verdict = v at h hdecides
    cases hdecides with
    | unreached hskips hreach =>
        rw [Verdict.annotation, CallAnnotation.rejected.injEq,
          Refusal.kind_eq_importNotAuthorized_iff] at h
        obtain ⟨callee, contract, rfl⟩ := h
        have hreaches := reach_eq_iff.mp hreach
        cases hreaches
        exact ⟨hskips, hreach⟩
    | auth hskips hreach hqualifier =>
        rcases authorizeCall_cases ctx call _ with ⟨token, origin, hv⟩ | ⟨refusal, hv, hkind⟩
        · rw [hv] at h
          contradiction
        · rw [hv, Verdict.annotation, CallAnnotation.rejected.injEq] at h
          exact absurd h hkind.ne_importNotAuthorized
    | unknownMember =>
        rw [Verdict.annotation, Refusal.kind] at h
        cases h
    | _ => contradiction
  · rintro ⟨hskips, hreach⟩
    rw [verdict_judge_eq_iff.mpr (.unreached hskips hreach)]
    rfl

end CallContext

end AuthorizedCalls
