import AuthorizedCalls.Proofs.ConflictFindings
import AuthorizedCalls.Proofs.ViolationTexts

namespace AuthorizedCalls

/-- What a finding is about, as far as its text is picked out by it. -/
def Finding.Picks (x : Finding) (cycle conflict : Bool) : Prop :=
  x.violation.isCycle = cycle ∧ x.violation.isConflict = conflict

/-- Of findings that a text picks out alike all diagnostics are picked out, or none. -/
theorem Finding.filter_map_diagnostic {p : Diagnostic → Bool} {q : DeclarationViolation → Bool}
    (hpq : ∀ v span, p (v.diagnostic span) = q v) {picked : Bool} {xs : List Finding}
    (hxs : ∀ x ∈ xs, q x.violation = picked) :
    (xs.map Finding.diagnostic).filter p = if picked then xs.map Finding.diagnostic else [] := by
  have hall : ∀ x ∈ xs.map Finding.diagnostic, p x = picked := by
    rw [List.forall_mem_map]
    exact fun x hx => (hpq x.violation x.span).trans (hxs x hx)
  cases picked with
  | true => exact List.filter_eq_self.mpr hall
  | false => exact List.filter_eq_nil_iff.mpr fun x hx => by simp [hall x hx]

theorem Finding.filter_of_picks {cycle conflict : Bool} {xs : List Finding}
    (h : ∀ x ∈ xs, x.Picks cycle conflict) :
    (xs.map Finding.diagnostic).filter Diagnostic.isCycle =
        (if cycle then xs.map Finding.diagnostic else []) ∧
      (xs.map Finding.diagnostic).filter Diagnostic.isConflict =
        if conflict then xs.map Finding.diagnostic else [] :=
  ⟨filter_map_diagnostic DeclarationViolation.isCycle_diagnostic fun x hx => (h x hx).1,
    filter_map_diagnostic DeclarationViolation.isConflict_diagnostic fun x hx => (h x hx).2⟩

theorem Declaration.picks_of_mem_findings {d : Declaration} :
    ∀ x ∈ d.findings, x.Picks false false := by
  have hmembers : ∀ f, ∀ x ∈ d.memberFindings f, x.Picks false false := by
    intro f x hx
    simp only [memberFindings] at hx
    split at hx
    · obtain rfl := List.mem_singleton.mp hx
      exact ⟨rfl, rfl⟩
    · split at hx
      · obtain rfl := List.mem_singleton.mp hx
        exact ⟨rfl, rfl⟩
      · contradiction
  intro x hx
  rw [findings] at hx
  split at hx
  · obtain rfl := List.mem_singleton.mp hx
    exact ⟨rfl, rfl⟩
  · exact forall_mem_findingsByName hmembers (fun _ => ⟨rfl, rfl⟩) x hx

namespace Declarations

variable {ds : Declarations} {policy : Policy}

theorem picks_of_mem_registrationFindings :
    ∀ x ∈ ds.registrationFindings, x.Picks false false :=
  forall_mem_findingsByName (fun _ => Declaration.picks_of_mem_findings) fun _ => ⟨rfl, rfl⟩

theorem picks_of_mem_targetFindings {d : Declaration} {x : Finding}
    (hx : x ∈ ds.targetFindings d) : x.Picks false false := by
  obtain ⟨target, -, hx⟩ := List.mem_flatMap.mp hx
  rw [Option.mem_toList, targetFinding?] at hx
  split at hx
  · obtain rfl := Option.some.inj hx
    exact ⟨rfl, rfl⟩
  · split at hx
    · contradiction
    · obtain rfl := Option.some.inj hx
      exact ⟨rfl, rfl⟩

theorem picks_of_mem_earlierFindings :
    ∀ x ∈ ds.registrationFindings ++ ds.canonical.flatMap ds.targetFindings,
      x.Picks false false := by
  rw [List.forall_mem_append]
  refine ⟨picks_of_mem_registrationFindings, fun x hx => ?_⟩
  obtain ⟨d, -, hx⟩ := List.mem_flatMap.mp hx
  exact picks_of_mem_targetFindings hx

theorem picks_of_mem_cycleFindings :
    ∀ x ∈ ds.cycles.flatMap ds.cycleFindings, x.Picks true false := by
  intro x hx
  obtain ⟨members, -, hx⟩ := List.mem_flatMap.mp hx
  obtain ⟨d, -, rfl⟩ := List.mem_map.mp hx
  exact ⟨rfl, rfl⟩

end Declarations

namespace Resolution

variable {policy : Policy}

theorem picks_of_conflictFinding? {d : Declaration} {t : Table} {p : Declaration × Member}
    {x : Finding} (h : conflictFinding? policy d t p = some x) : x.Picks false true := by
  obtain ⟨pair, -, rfl⟩ := Option.map_eq_some_iff.mp h
  exact ⟨rfl, rfl⟩

theorem exists_refuseAll_foldl {α : Type} {p : Finding → Prop}
    {step : Resolution → α → Resolution}
    (hstep : ∀ r x, ∃ findings, step r x = r.refuseAll findings ∧ ∀ y ∈ findings, p y)
    (xs : List α) (r : Resolution) :
    ∃ findings, xs.foldl step r = r.refuseAll findings ∧ ∀ y ∈ findings, p y := by
  induction xs generalizing r with
  | nil => exact ⟨[], rfl, by simp⟩
  | cons x rest ih =>
      obtain ⟨first, hfirst, hp⟩ := hstep r x
      obtain ⟨others, hothers, hp'⟩ := ih (r.refuseAll first)
      refine ⟨first ++ others, ?_, List.forall_mem_append.mpr ⟨hp, hp'⟩⟩
      rw [List.foldl_cons, hfirst, hothers, refuseAll_append]

theorem exists_refuseAll_compareWith (policy : Policy) (d : Declaration) (r : Resolution)
    (interface : Declaration) :
    ∃ findings, compareWith policy d r interface = r.refuseAll findings ∧
      ∀ x ∈ findings, ∃ t p, conflictFinding? policy d t p = some x := by
  have hmember : ∀ r f, ∃ findings, compareMember policy d interface r f = r.refuseAll findings ∧
      ∀ x ∈ findings, ∃ t p, conflictFinding? policy d t p = some x := by
    intro r f
    refine ⟨_, compareMember_eq policy d interface r f, fun x hx => ?_⟩
    exact ⟨r.table, (interface, f), Option.mem_toList.mp hx⟩
  rw [compareWith]
  split
  · exact ⟨[], rfl, by simp⟩
  · exact exists_refuseAll_foldl hmember _ r

/-- Comparisons report conflicts and nothing else, also where identifiers are ambiguous. -/
theorem exists_refuseAll_compareAll (ds : Declarations) (policy : Policy) (r : Resolution)
    (d : Declaration) :
    ∃ findings, compareAll ds policy r d = r.refuseAll findings ∧
      ∀ x ∈ findings, x.Picks false true := by
  rw [compareAll]
  split
  · exact ⟨[], rfl, by simp⟩
  · obtain ⟨findings, hrefused, hfound⟩ :=
      exists_refuseAll_foldl (exists_refuseAll_compareWith policy d) _ r
    refine ⟨findings, hrefused, fun x hx => ?_⟩
    obtain ⟨t, p, hx⟩ := hfound x hx
    exact picks_of_conflictFinding? hx

end Resolution

namespace Declarations

open Resolution

variable {ds : Declarations}

theorem diagnostics_acyclic (ds : Declarations) :
    ds.acyclic.diagnostics =
      (ds.registrationFindings ++ ds.canonical.flatMap ds.targetFindings ++
        ds.cycles.flatMap ds.cycleFindings).map Finding.diagnostic := by
  rw [acyclic_eq, diagnostics_refuseAll, diagnostics_registered, ← List.map_append,
    conformanceFindings, List.append_assoc]

theorem filter_isCycle_resolve (ds : Declarations) (policy : Policy) :
    (ds.resolve policy).diagnostics.filter Diagnostic.isCycle =
      (ds.cycles.flatMap ds.cycleFindings).map Finding.diagnostic := by
  obtain ⟨conflicts, hresolve, hconflicts⟩ :=
    exists_refuseAll_foldl (exists_refuseAll_compareAll ds policy) ds.canonical ds.acyclic
  rw [resolve, hresolve, diagnostics_refuseAll, diagnostics_acyclic, List.map_append,
    List.filter_append, List.filter_append,
    (Finding.filter_of_picks picks_of_mem_earlierFindings).1,
    (Finding.filter_of_picks picks_of_mem_cycleFindings).1,
    (Finding.filter_of_picks hconflicts).1]
  simp

/-- What is reported of conflicts is what is found in the comparisons. -/
theorem filter_isConflict_resolve (hds : ds.Dotless) (policy : Policy) :
    (ds.resolve policy).diagnostics.filter Diagnostic.isConflict =
      (ds.comparisonFindings policy).map Finding.diagnostic := by
  have hcomparisons : ∀ x ∈ ds.comparisonFindings policy, x.Picks false true := by
    intro x hx
    obtain ⟨d, -, hx⟩ := List.mem_flatMap.mp hx
    obtain ⟨p, -, hx⟩ := List.mem_filterMap.mp (mem_of_mem_firstsBy hx)
    exact picks_of_conflictFinding? hx
  rw [diagnostics_resolve hds, conformanceFindings, ← List.append_assoc, List.map_append,
    List.map_append, List.filter_append, List.filter_append,
    (Finding.filter_of_picks picks_of_mem_earlierFindings).2,
    (Finding.filter_of_picks picks_of_mem_cycleFindings).2,
    (Finding.filter_of_picks hcomparisons).2]
  simp

end Declarations

end AuthorizedCalls
