import AuthorizedCalls.Proofs.FirstDeclarations
import AuthorizedCalls.Proofs.RegistrationFindings
import AuthorizedCalls.Proofs.ViolationTexts
import Mathlib.Algebra.Ring.Nat

namespace AuthorizedCalls

theorem Declaration.not_isRedeclaration_of_mem_memberFindings {d : Declaration} {f : Member}
    {x : Finding} (hx : x ∈ d.memberFindings f) : x.violation.isRedeclaration = false := by
  simp only [memberFindings] at hx
  split at hx
  · rw [List.mem_singleton] at hx
    rw [hx]
    rfl
  · split at hx
    · rw [List.mem_singleton] at hx
      rw [hx]
      rfl
    · contradiction

namespace Resolution

/-- The table is the same, and what is reported is the same but for so many declarations or
functions that are declared more than once. -/
structure Sheds (n : Nat) (r r' : Resolution) : Prop where
  table : r.table = r'.table
  diagnostics : r'.diagnostics = r.diagnostics.filter fun x => !x.isRedeclaration
  count : r.diagnostics.countP Diagnostic.isRedeclaration = n

namespace Sheds

variable {n : Nat} {r r' : Resolution}

theorem refl : Sheds 0 {} {} where
  table := rfl
  diagnostics := rfl
  count := rfl

theorem keep (h : Sheds n r r') {s s' : Resolution} (htable : s.table = s'.table)
    (xs : List Finding) (hs : s.diagnostics = r.diagnostics ++ xs.map Finding.diagnostic)
    (hs' : s'.diagnostics = r'.diagnostics ++ xs.map Finding.diagnostic)
    (hxs : ∀ x ∈ xs, x.violation.isRedeclaration = false) : Sheds n s s' := by
  have hnone : ∀ x ∈ xs.map Finding.diagnostic, Diagnostic.isRedeclaration x = false := by
    intro _ hx
    obtain ⟨x, hmem, rfl⟩ := List.mem_map.mp hx
    rw [Finding.diagnostic, DeclarationViolation.isRedeclaration_diagnostic, hxs x hmem]
  refine ⟨htable, ?_, ?_⟩
  · rw [hs, hs', List.filter_append, ← h.diagnostics, List.filter_eq_self.mpr]
    simpa using hnone
  · rw [hs, List.countP_append, h.count, List.countP_eq_zero.mpr, Nat.add_zero]
    simpa using hnone

theorem report_left (h : Sheds n r r') {v : DeclarationViolation}
    (hv : v.isRedeclaration = true) (span : Span) : Sheds (n + 1) (r.report v span) r' := by
  have hdiagnostic := (v.isRedeclaration_diagnostic span).trans hv
  refine ⟨h.table, ?_, ?_⟩
  · rw [report, Diagnostics.report, List.filter_append, ← h.diagnostics]
    simp [hdiagnostic]
  · rw [report, Diagnostics.report, List.countP_append, h.count]
    simp [hdiagnostic]

theorem refuse (h : Sheds n r r') {v : DeclarationViolation} (hv : v.isRedeclaration = false)
    (span : Span) : Sheds n (r.refuse v span) (r'.refuse v span) := by
  have htable : (r.refuse v span).table = (r'.refuse v span).table :=
    congrArg (Table.reject · v.subject) h.table
  exact h.keep htable [⟨v, span⟩] rfl rfl (by simpa using hv)

theorem foldl {α : Type} {step : Resolution → α → Resolution}
    (hstep : ∀ {r r'}, Sheds n r r' → ∀ x, Sheds n (step r x) (step r' x)) (xs : List α)
    (h : Sheds n r r') : Sheds n (xs.foldl step r) (xs.foldl step r') := by
  induction xs generalizing r r' with
  | nil => exact h
  | cons x rest ih => exact ih (hstep h x)

section Conformance

variable {ds : Declarations} {policy : Policy}

theorem checkTarget (h : Sheds n r r') (d : Declaration) (target : String) :
    Sheds n (Resolution.checkTarget ds d r target) (Resolution.checkTarget ds d r' target) := by
  rw [Resolution.checkTarget, Resolution.checkTarget]
  split
  · exact h.refuse (by rfl) _
  · split
    · exact h
    · exact h.refuse (by rfl) _

theorem refuseCycle (h : Sheds n r r') (members : List String) :
    Sheds n (Resolution.refuseCycle ds r members) (Resolution.refuseCycle ds r' members) :=
  foldl (fun h d => h.refuse (v := .cyclic d.name members) rfl d.span) _ h

theorem compareMember (h : Sheds n r r') (d interface : Declaration) (f : Member) :
    Sheds n (Resolution.compareMember policy d interface r f)
      (Resolution.compareMember policy d interface r' f) := by
  simp only [Resolution.compareMember, ← h.table]
  cases conflict? r.table policy (.member interface.name f.name) (.member d.name f.name) with
  | none => exact h
  | some pair => exact h.refuse (by rfl) _

theorem compareWith (h : Sheds n r r') (d interface : Declaration) :
    Sheds n (Resolution.compareWith policy d r interface)
      (Resolution.compareWith policy d r' interface) := by
  rw [Resolution.compareWith, Resolution.compareWith, ← h.table]
  split
  · exact h
  · exact foldl (fun h f => h.compareMember d interface f) _ h

theorem compareAll (h : Sheds n r r') (d : Declaration) :
    Sheds n (Resolution.compareAll ds policy r d) (Resolution.compareAll ds policy r' d) := by
  rw [Resolution.compareAll, Resolution.compareAll, ← h.table]
  split
  · exact h
  · exact foldl (fun h i => h.compareWith d i) _ h

theorem conform (h : Sheds n r r') :
    Sheds n (Resolution.conform ds policy r) (Resolution.conform ds policy r') := by
  have htargeted : Sheds n (ds.canonical.foldl (checkTargets ds) r)
      (ds.canonical.foldl (checkTargets ds) r') :=
    foldl (fun h d => foldl (fun h target => h.checkTarget d target) d.conforms h) _ h
  have hacyclic : Sheds n (ds.cycles.foldl (Resolution.refuseCycle ds) _)
      (ds.cycles.foldl (Resolution.refuseCycle ds) _) :=
    foldl (fun h members => h.refuseCycle members) _ htargeted
  exact foldl (fun h d => h.compareAll d) ds.canonical hacyclic

end Conformance

section Registration

theorem registerMember (h : Sheds n r r') (d : Declaration) (f : Member) :
    Sheds n (Resolution.registerMember d r f) (Resolution.registerMember d r' f) := by
  have htable :
      (Resolution.registerMember d r f).table = (Resolution.registerMember d r' f).table := by
    simp only [Resolution.registerMember]
    cases Access.effective f.qualifiers with
    | none => simp only [h.table]
    | some qualifier => simp only [apply_ite Resolution.table, report, h.table]
  exact h.keep htable _ (diagnostics_registerMember d r f) (diagnostics_registerMember d r' f)
    fun _ => Declaration.not_isRedeclaration_of_mem_memberFindings

theorem foldByName {α : Type} {key : α → String}
    {first later first' later' : Resolution → α → Resolution} {weight : α → Nat}
    (hfirst : ∀ {n r r'}, Sheds n r r' → ∀ x, Sheds (n + weight x) (first r x) (first' r' x))
    (hlater : ∀ {n r r'}, Sheds n r r' → ∀ x, Sheds (n + 1) (later r x) r')
    (h : Sheds n r r') (seen : List String) (xs : List α) :
    Sheds (n + (xs.length - (unseen key seen xs).length) + ((unseen key seen xs).map weight).sum)
      (AuthorizedCalls.foldByName key first later seen xs r)
      (AuthorizedCalls.foldByName key first' later' seen (unseen key seen xs) r') := by
  induction xs generalizing seen n r r' with
  | nil => exact h
  | cons x rest ih =>
      have hlength := length_unseen_le key seen rest
      rw [AuthorizedCalls.foldByName, unseen, List.length_cons]
      split
      · have hrest := ih (hlater h x) seen
        rw [Nat.succ_sub hlength, ← Nat.succ_add_eq_add_succ]
        exact hrest
      · next hnew =>
          rw [AuthorizedCalls.foldByName, if_neg hnew, List.map_cons, List.sum_cons,
            List.length_cons, Nat.add_sub_add_right, ← Nat.add_assoc, Nat.add_right_comm n]
          exact ih (hfirst h x) (key x :: seen)

theorem registerMembers (h : Sheds n r r') (d : Declaration) (seen : List String)
    (fs : List Member) :
    Sheds (n + (fs.length - (unseen Member.name seen fs).length))
      (Resolution.registerMembers d seen fs r)
      (Resolution.registerMembers d seen (unseen Member.name seen fs) r') := by
  have hnothing : ((unseen Member.name seen fs).map fun _ => 0).sum = 0 := by simp
  rw [registerMembers_eq, registerMembers_eq, ← Nat.add_zero (n + _), ← hnothing]
  refine h.foldByName ?_ ?_ seen fs
  · exact fun h f => h.registerMember d f
  · exact fun h f => h.report_left (v := .redeclaredFunction (.member d.name f.name)) rfl f.span

theorem registerDeclaration (h : Sheds n r r') (d : Declaration) :
    Sheds (n + d.laterFunctions) (r.registerDeclaration d) (r'.registerDeclaration d.firsts) := by
  have hsome : (Access.effective d.qualifiers).isSome ↔ d.qualifiers.length ≤ 1 :=
    Access.effective_isSome_iff
  have hfirsts : d.firsts.qualifiers = d.qualifiers := rfl
  rw [Resolution.registerDeclaration, Resolution.registerDeclaration, hfirsts]
  cases heffective : Access.effective d.qualifiers with
  | none =>
      rw [heffective] at hsome
      have hlater : d.laterFunctions = 0 := if_neg (mt hsome.mpr (by decide))
      have htable := congrArg (Table.markRejected · d.id) h.table
      rw [hlater]
      exact h.keep htable [⟨.severalQualifiers d.id d.qualifiers, d.span⟩] rfl rfl
        (by simp [DeclarationViolation.isRedeclaration])
  | some qualifier =>
      rw [heffective] at hsome
      have hlater : d.laterFunctions = d.functions.length - d.firsts.functions.length :=
        if_pos (hsome.mp rfl)
      let entry : Entry := ⟨.ofDeclKind d.kind, qualifier, d.address, d.span⟩
      have hentry : Sheds n { r with table := r.table.setEntry d.id entry }
          { r' with table := r'.table.setEntry d.id entry } :=
        { h with table := congrArg (Table.setEntry · d.id entry) h.table }
      have hmembers := hentry.registerMembers d [] d.functions
      rw [unseen_nil, ← registerMembers_firsts d [] (firstsBy _ _)] at hmembers
      rw [hlater]
      exact hmembers

theorem register (h : Sheds n r r') (seen : List String) (ds : Declarations) :
    Sheds (n + (ds.length - (unseen Declaration.name seen ds).length) +
        ((unseen Declaration.name seen ds).map Declaration.laterFunctions).sum)
      (Resolution.register seen ds r)
      (Resolution.register seen ((unseen Declaration.name seen ds).map Declaration.firsts) r') := by
  rw [register_eq, register_eq, foldByName_map]
  refine h.foldByName ?_ ?_ seen ds
  · exact fun h d => h.registerDeclaration d
  · exact fun h d => h.report_left (v := .redeclared d.kind d.name) rfl d.span

end Registration

theorem resolve (ds : Declarations) (policy : Policy) :
    Sheds (ds.length - ds.canonical.length + (ds.canonical.map Declaration.laterFunctions).sum)
      (ds.resolve policy) (ds.firsts.resolve policy) := by
  have hregistered := refl.register [] ds
  rw [unseen_nil, Nat.zero_add] at hregistered
  have hpasses : Sheds _ (Resolution.conform ds policy ds.registered)
      (Resolution.conform ds policy ds.firsts.registered) := hregistered.conform
  rw [← conform_firsts ds.firsts.registered] at hpasses
  exact hpasses

end Sheds

end Resolution

namespace Declarations

/-- What is declared again is reported, once for each declaration that comes later than another of
its name and once for each function in the first declaration of a name that comes later than
another of its name, and that is all it does: but for these reports the resolution is that of the
declarations without them. -/
theorem resolve_firsts (ds : Declarations) (policy : Policy) :
    (ds.firsts.resolve policy).table = (ds.resolve policy).table ∧
      (ds.firsts.resolve policy).diagnostics =
        ((ds.resolve policy).diagnostics.filter fun x => !x.isRedeclaration) ∧
      (ds.resolve policy).diagnostics.countP Diagnostic.isRedeclaration =
        ds.length - ds.canonical.length + (ds.canonical.map Declaration.laterFunctions).sum := by
  have hsheds := Resolution.Sheds.resolve ds policy
  exact ⟨hsheds.table.symm, hsheds.diagnostics, hsheds.count⟩

/-- A later contract does not take the place of an earlier one that is rejected. -/
example :
    let ds : Declarations :=
      [{ kind := .contract, name := "Vault", address := .ofNat 1, qualifiers := [.auth, .self] },
       { kind := .contract, name := "Vault", address := .ofNat 2,
         functions := [{ name := "look" }] }]
    (ds.resolve .exact).table.get? (.member "Vault" "look") = none ∧
      (ds.resolve .exact).diagnostics.map Diagnostic.isRedeclaration = [false, true] := by
  constructor <;> cbv

end Declarations

end AuthorizedCalls
