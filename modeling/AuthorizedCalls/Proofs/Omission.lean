import AuthorizedCalls.Proofs.ConflictFindings
import AuthorizedCalls.Proofs.Cycles

namespace AuthorizedCalls.Declarations

def without (ds : Declarations) (name : String) : Declarations :=
  ds.filter fun d => d.name ≠ name

/-- No declaration of another name has the name among its targets. -/
def Untargeted (ds : Declarations) (name : String) : Prop :=
  ∀ d ∈ ds, d.name ≠ name → name ∉ d.conforms

variable {ds : Declarations} {name other : String}

theorem Dotless.without (hds : ds.Dotless) (name : String) : (ds.without name).Dotless :=
  fun d hd => hds d (List.mem_of_mem_filter hd)

theorem named?_without (hne : other ≠ name) : (ds.without name).named? other = ds.named? other := by
  rw [named?, named?, without, List.find?_filter]
  congr 1
  funext d
  by_cases hname : d.name = other
  · simp [hname, hne]
  · simp [hname]

theorem named?_without_self : (ds.without name).named? name = none := by
  rw [named?, without, List.find?_filter, List.find?_eq_none]
  simp

theorem canonical_without :
    (ds.without name).canonical = ds.canonical.filter fun d => d.name ≠ name :=
  firstsBy_filter Declaration.name name ds

theorem names_without : (ds.without name).names = ds.names.filter (· ≠ name) := by
  rw [names, names, canonical_without, List.filter_map]
  rfl

section Conformance

theorem Untargeted.ne_of_extends (h : ds.Untargeted name) (hne : other ≠ name) {target : String}
    (hextends : ds.Extends other target) : target ≠ name := by
  rintro rfl
  obtain ⟨d, -, hd, htarget, -⟩ := hextends
  obtain ⟨hmem, rfl⟩ := mem_of_named? hd
  exact h d hmem hne htarget

theorem Untargeted.ne_of_conformsTo (h : ds.Untargeted name) (hne : other ≠ name)
    {target : String} (hconforms : ds.ConformsTo other target) : target ≠ name := by
  induction hconforms with
  | single hstep => exact h.ne_of_extends hne hstep
  | tail _ hstep ih => exact h.ne_of_extends ih hstep

theorem parents_without (h : ds.Untargeted name) (hne : other ≠ name) :
    (ds.without name).parents other = ds.parents other := by
  rw [parents, parents, named?_without hne]
  cases hd : ds.named? other with
  | none => rfl
  | some d =>
      obtain ⟨hmem, rfl⟩ := mem_of_named? hd
      apply List.filter_congr
      intro target htarget
      have htarget : target ≠ name := by
        rintro rfl
        exact h d hmem hne htarget
      rw [declaresInterface, declaresInterface, named?_without htarget]

theorem walk_filter {next next' : String → List String}
    (hnext : ∀ other, other ≠ name → next' other = next other ∧ name ∉ next other)
    {unvisited stack : List String} (hstack : name ∉ stack) :
    walk next' (unvisited.filter (· ≠ name)) stack = walk next unvisited stack := by
  -- The name is never on the stack, so it makes no difference that it is unvisited on one side.
  fun_induction walk next unvisited stack with
  | case1 => rw [walk]
  | case2 unvisited first stack hmem ih =>
      rw [List.mem_cons, not_or] at hstack
      obtain ⟨hsame, hleft⟩ := hnext first (Ne.symm hstack.1)
      have hmem' : first ∈ unvisited.filter (· ≠ name) :=
        List.mem_filter.mpr ⟨hmem, by simpa using Ne.symm hstack.1⟩
      rw [walk, if_pos hmem', hsame, List.erase_filter, ih]
      rw [List.mem_append, not_or]
      exact ⟨hleft, hstack.2⟩
  | case3 unvisited first stack hmem ih =>
      rw [List.mem_cons, not_or] at hstack
      rw [walk, if_neg (mt List.mem_of_mem_filter hmem), ih hstack.2]

variable (h : ds.Untargeted name)

include h

theorem not_mem_parents (hne : other ≠ name) : name ∉ ds.parents other := by
  rw [mem_parents_iff]
  intro hextends
  exact h.ne_of_extends hne hextends rfl

theorem above_without (hne : other ≠ name) : (ds.without name).above other = ds.above other := by
  rw [above, above, parents_without h hne, names_without, List.erase_filter]
  exact walk_filter (fun _ hne => ⟨parents_without h hne, not_mem_parents h hne⟩)
    (not_mem_parents h hne)

theorem reachable_without (hne : other ≠ name) :
    (ds.without name).reachable other = ds.reachable other := by
  rw [reachable, reachable, parents_without h hne, names_without]
  exact walk_filter (fun _ hne => ⟨parents_without h hne, not_mem_parents h hne⟩)
    (not_mem_parents h hne)

theorem onCycle_without :
    (ds.without name).onCycle = ds.onCycle.filter fun r => r.1 ≠ name := by
  have hreach : ((ds.without name).names.map fun other =>
      (other, (ds.without name).reachable other)) =
        (ds.names.map fun other => (other, ds.reachable other)).filter fun r => r.1 ≠ name := by
    rw [names_without, List.filter_map]
    apply List.map_congr_left
    intro other hother
    rw [reachable_without h (by simpa using (List.mem_filter.mp hother).2)]
  apply List.Perm.eq_of_pairwise _ (pairwise_onCycle _) (ds.pairwise_onCycle.filter _)
  · rw [onCycle, onCycle, hreach, List.filter_comm]
    exact (List.mergeSort_perm _ _).trans ((List.mergeSort_perm _ _).symm.filter _)
  · intro a b ha hb hab hba
    have hsame : a.1 = b.1 := String.le_antisymm hab hba
    obtain ⟨hb, hne⟩ := List.mem_filter.mp hb
    refine Prod.ext hsame ?_
    rw [(mem_onCycle_iff.mp ha).1, (mem_onCycle_iff.mp hb).1, hsame,
      reachable_without h (by simpa using hne)]

theorem not_mem_cycleOf {r : String × List String} (hr : r ∈ ds.onCycle) (hne : r.1 ≠ name) :
    name ∉ ds.cycleOf r := by
  rw [mem_cycleOf_iff hr]
  rintro ⟨hto, -⟩
  exact h.ne_of_conformsTo hne hto rfl

theorem cycleOf_without {r : String × List String} (hr : r ∈ ds.onCycle) (hne : r.1 ≠ name) :
    (ds.without name).cycleOf r = ds.cycleOf r := by
  rw [cycleOf, cycleOf, onCycle_without h, List.filter_filter]
  congr 1
  apply List.filter_congr
  intro s hs
  by_cases hsame : s.1 = name
  · have hunreached : name ∉ r.2 := by
      rw [(mem_onCycle_iff.mp hr).1, mem_reachable_iff]
      intro hto
      exact h.ne_of_conformsTo hne hto rfl
    simp [hsame, hunreached]
  · simp [hsame]

theorem cycles_without :
    (ds.without name).cycles = ds.cycles.filter fun members => name ∉ members := by
  have hgroup : ∀ (least : Prop) [Decidable least] (group : List String),
      (if least then some group else none).filter (fun members => decide (name ∉ members)) =
        if least ∧ name ∉ group then some group else none := by
    intro least _ group
    by_cases hleast : least
    · simp [hleast, Option.filter_some]
    · simp [hleast]
  rw [cycles_eq, cycles_eq, onCycle_without h, List.filterMap_filter, List.filter_filterMap]
  apply List.filterMap_congr
  intro r hr
  rw [hgroup]
  by_cases hname : r.1 = name
  · have hmem : name ∈ ds.cycleOf r := by
      rw [mem_cycleOf_iff hr, ← hname]
      exact ⟨(mem_onCycle_iff.mp hr).2, (mem_onCycle_iff.mp hr).2⟩
    simp [hname, hmem]
  · simp [hname, cycleOf_without h hr hname, not_mem_cycleOf h hr hname]

theorem eq_of_mem_cycles {members : List String} (hmembers : members ∈ ds.cycles)
    (hname : name ∈ members) (hother : other ∈ members) : other = name := by
  rw [cycles_eq] at hmembers
  obtain ⟨r, hr, hcycle⟩ := List.mem_filterMap.mp hmembers
  split at hcycle
  · cases hcycle
    by_contra hne
    have hto := ((mem_cycleOf_iff hr).mp hother).2
    have hback := ((mem_cycleOf_iff hr).mp hname).1
    exact h.ne_of_conformsTo hne (Relation.TransGen.trans hto hback) rfl
  · contradiction

end Conformance

end AuthorizedCalls.Declarations
