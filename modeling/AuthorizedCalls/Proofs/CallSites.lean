import AuthorizedCalls.Proofs.UnitFindings
import Mathlib.Data.List.Forall2

namespace AuthorizedCalls

/-- The rules that are broken where the callee is not reached. -/
def DiagnosticKind.IsOfReach (k : DiagnosticKind) : Prop :=
  k = .importNotAuthorized ∨ k = .unresolvedDeclaration

theorem DiagnosticKind.IsOfReach.not_isOfSource {k : DiagnosticKind} (h : k.IsOfReach) :
    ¬ k.IsOfSource := by
  rcases h with rfl | rfl <;> rintro (h | h | h) <;> contradiction

/-- The qualifiers that may be known of a callee beside each verdict. -/
inductive Verdict.Exits : Option Access → Verdict → Prop
  | skipped : Exits none .skipped
  | unreached {refusal : Refusal} (hkind : refusal.kind.IsOfReach) :
      Exits none (.rejected refusal)
  | unqualified {qualifier : Access} (hother : qualifier ≠ .auth) :
      Exits (some qualifier) .unqualified
  | authorized (token : Token) (origin : TokenOrigin) :
      Exits (some .auth) (.authorized token origin)
  | unsourced {refusal : Refusal} (hkind : refusal.kind.IsOfSource) :
      Exits (some .auth) (.rejected refusal)

namespace Verdict

variable {v : Verdict} {qualifier : Option Access}

theorem authSource_eq_contractSelf_iff :
    v.authSource = .contractSelf ↔
      ∃ name address origin, v.annotation = .authorized (.contract name address) origin := by
  cases v with
  | authorized token origin => cases token <;> simp [authSource, annotation, AuthSource.ofToken]
  | _ => simp [authSource, annotation]

theorem authSource_eq_authorizerName_iff {name : String} :
    v.authSource = .authorizerName name ↔
      ∃ count position origin,
        v.annotation = .authorized (.authorizer name count position) origin := by
  cases v with
  | authorized token origin =>
      cases token with
      | contract own address => simp [authSource, annotation, AuthSource.ofToken]
      | authorizer other count position =>
          simp only [authSource, annotation, AuthSource.ofToken, AuthSource.authorizerName.injEq,
            CallAnnotation.authorized.injEq, Token.authorizer.injEq]
          constructor
          · rintro rfl
            exact ⟨count, position, origin, ⟨rfl, rfl, .rfl⟩, rfl⟩
          · rintro ⟨_, _, _, ⟨rfl, -⟩, -⟩
            rfl
  | _ => simp [authSource, annotation]

theorem authSource_eq_none_iff :
    v.authSource = .none ↔ ¬ ∃ token origin, v.annotation = .authorized token origin := by
  cases v with
  | authorized token origin => cases token <;> simp [authSource, annotation, AuthSource.ofToken]
  | _ => simp [authSource, annotation]

namespace Exits

theorem eq_auth_iff (h : v.Exits qualifier) :
    qualifier = some .auth ↔
      (∃ token origin, v.annotation = .authorized token origin) ∨
        ∃ kind : DiagnosticKind, kind.IsOfSource ∧ v.annotation = .rejected kind := by
  cases h with
  | skipped => simp [Verdict.annotation]
  | unreached hkind => simp [Verdict.annotation, hkind.not_isOfSource]
  | unqualified hother => simp [Verdict.annotation, hother]
  | authorized token origin => simp [Verdict.annotation]
  | unsourced hkind => simp [Verdict.annotation, hkind]

theorem eq_other_iff (h : v.Exits qualifier) :
    (∃ other, other ≠ .auth ∧ qualifier = some other) ↔ v.annotation = .unqualified := by
  cases h with
  | unqualified hother => simp [Verdict.annotation, hother]
  | _ => simp [Verdict.annotation]

theorem eq_none_iff (h : v.Exits qualifier) :
    qualifier = none ↔ v.annotation = .skipped ∨
      ∃ kind : DiagnosticKind, kind.IsOfReach ∧ v.annotation = .rejected kind := by
  cases h with
  | @unsourced refusal hkind =>
      have hreach : ¬ refusal.kind.IsOfReach := fun h => h.not_isOfSource hkind
      simp [Verdict.annotation, hreach]
  | unreached hkind => simp [Verdict.annotation, hkind]
  | _ => simp [Verdict.annotation]

theorem kind_of_rejected (h : v.Exits qualifier) {kind : DiagnosticKind}
    (hrejected : v.annotation = .rejected kind) : kind.IsOfReach ∨ kind.IsOfSource := by
  cases h with
  | unreached hkind =>
      cases hrejected
      exact .inl hkind
  | unsourced hkind =>
      cases hrejected
      exact .inr hkind
  | _ => contradiction

end Exits

end Verdict

namespace CallContext

variable {ctx : CallContext} {call : Call}

theorem isOfReach_of_reach_eq_error {refusal : Refusal} (h : ctx.reach call = .error refusal) :
    refusal.kind.IsOfReach := by
  cases reach_eq_iff.mp h with
  | unknownContract => exact .inr rfl
  | notImported => exact .inr rfl
  | plainImport => exact .inl rfl

theorem Judges.exits {j : Judgement} (h : ctx.Judges call j) :
    j.verdict.Exits j.calleeQualifier := by
  cases h with
  | skipped => exact .skipped
  | unreached _ hreach => exact .unreached (isOfReach_of_reach_eq_error hreach)
  | unknownMember => exact .unreached (.inr rfl)
  | unqualified _ _ _ hother => exact .unqualified hother
  | @auth route =>
      dsimp only
      rcases authorizeCall_cases ctx call route with ⟨token, origin, hv⟩ | ⟨refusal, hv, hkind⟩
      · rw [hv]
        exact .authorized token origin
      · rw [hv]
        exact .unsourced hkind

theorem Judges.qualifier? {j : Judgement} (h : ctx.Judges call j) {qualifier : Access}
    (hqualifier : j.calleeQualifier = some qualifier) :
    ctx.table.qualifier? call.callee = some qualifier := by
  cases h with
  | unqualified _ _ hfound => exact hfound.trans hqualifier
  | auth _ _ hfound => exact hfound.trans hqualifier
  | _ => contradiction

/-- Behind the way to an `auth` callee a prefix is implied, unless it is written, by a binding
that implies one; the own contract is not reached through a binding. -/
theorem impliesPrefix_iff {route : Route} (hreach : ctx.reach call = .ok route) :
    (call.authPrefix.isSome || impliesPrefix call route) = true ↔
      call.authPrefix.isSome = true ∨ ctx.caller.isContract call.contract = false ∧
        ∃ binding, ctx.imports.find? call.contract = some binding ∧
          binding.impliesAuthorization = true := by
  cases reach_eq_iff.mp hreach with
  | own _ hown => simp [impliesPrefix, hown]
  | imported _ hother hbinding =>
      cases hprefix : call.authPrefix <;> simp [impliesPrefix, hprefix, hother, hbinding]

theorem Judges.hasPrefix_iff {j : Judgement} (h : ctx.Judges call j) :
    (call.authPrefix.isSome || j.impliedPrefix) = true ↔
      call.authPrefix.isSome = true ∨ j.calleeQualifier = some .auth ∧
        ctx.caller.isContract call.contract = false ∧
          ∃ binding, ctx.imports.find? call.contract = some binding ∧
            binding.impliesAuthorization = true := by
  cases h with
  | unqualified _ _ _ hother => simp [hother]
  | auth _ hreach => simpa using impliesPrefix_iff hreach
  | _ => simp

end CallContext

namespace CompilationUnit

/-- The site of an annotated call says of the call what the annotation says. -/
structure Agrees (u : CompilationUnit) (table : Table) (c : Call) (a : AnnotatedCall) :
    Prop where
  contractSelf : a.site.authSource = .contractSelf ↔
    ∃ name address origin, a.annotation = .authorized (.contract name address) origin
  authorizerName : ∀ name, a.site.authSource = .authorizerName name ↔
    ∃ count position origin, a.annotation = .authorized (.authorizer name count position) origin
  noSource : a.site.authSource = .none ↔ ¬ ∃ token origin, a.annotation = .authorized token origin
  qualifier : ∀ qualifier, a.site.calleeQualifier = some qualifier →
    table.qualifier? c.callee = some qualifier
  authQualifier : a.site.calleeQualifier = some .auth ↔
    (∃ token origin, a.annotation = .authorized token origin) ∨
      a.annotation = .rejected .missingAuthorization ∨
      a.annotation = .rejected .ambiguousAuthorizer ∨
      a.annotation = .rejected .unknownAuthorizer
  otherQualifier : (∃ other, other ≠ .auth ∧ a.site.calleeQualifier = some other) ↔
    a.annotation = .unqualified
  noQualifier : a.site.calleeQualifier = none ↔
    a.annotation = .skipped ∨ a.annotation = .rejected .importNotAuthorized ∨
      a.annotation = .rejected .unresolvedDeclaration
  /-- A prefix is written, or the binding of another contract implies one for an `auth` callee,
  whatever becomes of it. -/
  hasAuthPrefix : a.site.hasAuthPrefix = true ↔
    c.authPrefix.isSome = true ∨ a.site.calleeQualifier = some .auth ∧
      u.ownContract? ≠ some c.contract ∧
        ∃ binding, (u.bindings table).find? c.contract = some binding ∧
          binding.impliesAuthorization = true
  otherRules : a.annotation ≠ .rejected .qualifierConflict ∧
    a.annotation ≠ .rejected .authIdentifierUnavailable

variable {u : CompilationUnit} {table : Table}

theorem agrees_ofJudgement {c : Call} {j : Judgement}
    (hexits : j.verdict.Exits j.calleeQualifier)
    (hqualifier : ∀ qualifier, j.calleeQualifier = some qualifier →
      table.qualifier? c.callee = some qualifier)
    (hprefixed : (c.authPrefix.isSome || j.impliedPrefix) = true ↔
      c.authPrefix.isSome = true ∨ j.calleeQualifier = some .auth ∧
        u.ownContract? ≠ some c.contract ∧
          ∃ binding, (u.bindings table).find? c.contract = some binding ∧
            binding.impliesAuthorization = true) :
    u.Agrees table c (.ofJudgement c j) where
  contractSelf := Verdict.authSource_eq_contractSelf_iff
  authorizerName _ := Verdict.authSource_eq_authorizerName_iff
  noSource := Verdict.authSource_eq_none_iff
  qualifier := hqualifier
  authQualifier := by
    have hiff := hexits.eq_auth_iff
    simp only [DiagnosticKind.IsOfSource, or_and_right, exists_or, exists_eq_left] at hiff
    exact hiff
  otherQualifier := hexits.eq_other_iff
  noQualifier := by
    have hiff := hexits.eq_none_iff
    simp only [DiagnosticKind.IsOfReach, or_and_right, exists_or, exists_eq_left] at hiff
    exact hiff
  hasAuthPrefix := hprefixed
  otherRules := by
    constructor <;> intro hrejected <;>
      rcases hexits.kind_of_rejected hrejected with (h | h) | (h | h | h) <;> contradiction

theorem agrees_judgement (u : CompilationUnit) (table : Table) (c : Call) :
    u.Agrees table c (.ofJudgement c (u.judgement table c)) := by
  rw [judgement]
  cases hctx : u.context? table with
  | none => exact agrees_ofJudgement .skipped (fun _ h => absurd h (by simp)) (by simp)
  | some ctx =>
      have hown := isContract_caller hctx c.contract
      have hjudges := ctx.judges_judge c
      obtain ⟨caller, -, rfl⟩ := context?_eq_some_iff.mp hctx
      refine agrees_ofJudgement hjudges.exits (fun _ => hjudges.qualifier?) ?_
      rw [ne_eq, ← hown, Bool.not_eq_true]
      exact hjudges.hasPrefix_iff

/-- The sites of a report agree with the annotations, call by call. -/
theorem agrees_check (u : CompilationUnit) (table : Table) :
    List.Forall₂ (u.Agrees table) u.calls (u.check table).calls := by
  rw [calls_check_eq]
  exact List.forall₂_map_right_iff.mpr (List.forall₂_same.mpr fun c _ => agrees_judgement u table c)

end CompilationUnit

end AuthorizedCalls
