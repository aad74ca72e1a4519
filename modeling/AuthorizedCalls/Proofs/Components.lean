import AuthorizedCalls.Proofs.Cycles
import Mathlib.Data.List.Lex
import Mathlib.Data.List.Perm.Basic
import Mathlib.Order.Minimal

namespace AuthorizedCalls

section Classes

variable {α : Type} [DecidableEq α] {all : List α} {same : α → α → Bool}

def classOf (all : List α) (same : α → α → Bool) (x : α) : List α :=
  all.filter (same x)

/-- The classes, each listed under its first item. -/
def classes (all : List α) (same : α → α → Bool) : List (List α) :=
  all.filterMap fun x =>
    if (classOf all same x).head? = some x then some (classOf all same x) else none

theorem mem_classes_iff {members : List α} :
    members ∈ classes all same ↔
      ∃ x ∈ all, members = classOf all same x ∧ members.head? = some x := by
  simp only [classes, List.mem_filterMap, Option.ite_none_right_eq_some, Option.some.injEq]
  refine exists_congr fun x => and_congr_right fun _ => ?_
  constructor
  · rintro ⟨hhead, rfl⟩
    exact ⟨rfl, hhead⟩
  · rintro ⟨rfl, hhead⟩
    exact ⟨hhead, rfl⟩

/-- Every item is in one class, as each class is listed under its first item alone. -/
theorem flatten_classes_perm (hnodup : all.Nodup) (hself : ∀ x ∈ all, same x x = true)
    (hclass : ∀ x ∈ all, ∀ y ∈ classOf all same x, classOf all same y = classOf all same x) :
    (classes all same).flatten.Perm all := by
  have hdistinct : (classes all same).flatten.Nodup := by
    rw [List.nodup_flatten]
    constructor
    · intro members hmembers
      obtain ⟨x, -, rfl, -⟩ := mem_classes_iff.mp hmembers
      exact hnodup.filter _
    · rw [classes, List.pairwise_filterMap]
      refine hnodup.imp_of_mem fun {a b} ha hb hne => ?_
      intro members hmembers others hothers x hx hx'
      rw [Option.ite_none_right_eq_some, Option.some.injEq] at hmembers hothers
      obtain ⟨hhead, rfl⟩ := hmembers
      obtain ⟨hhead', rfl⟩ := hothers
      rw [← hclass a ha x hx, hclass b hb x hx', hhead', Option.some.injEq] at hhead
      exact hne hhead.symm
  rw [List.perm_ext_iff_of_nodup hdistinct hnodup]
  intro x
  rw [List.mem_flatten]
  constructor
  · rintro ⟨members, hmembers, hx⟩
    obtain ⟨first, -, rfl, -⟩ := mem_classes_iff.mp hmembers
    exact List.mem_of_mem_filter hx
  · intro hx
    have hmem : x ∈ classOf all same x := List.mem_filter.mpr ⟨hx, hself x hx⟩
    obtain ⟨first, hfirst⟩ := Option.isSome_iff_exists.mp
      (List.isSome_head?.mpr (List.ne_nil_of_mem hmem))
    have hsame := hclass x hx first (List.mem_of_head? hfirst)
    have hmember := List.mem_of_mem_filter (List.mem_of_head? hfirst)
    exact ⟨_, mem_classes_iff.mpr ⟨first, hmember, hsame.symm, hfirst⟩, hmem⟩

end Classes

namespace Declarations

open Relation (ReflTransGen TransGen)

/-- Declared names that all reach each other, in any number of steps. -/
def MutuallyReaching (ds : Declarations) (names : Set String) : Prop :=
  ∀ a ∈ names, a ∈ ds.names ∧ ∀ b ∈ names, ReflTransGen ds.Extends a b

/-- The members of a cycle in ascending order. -/
structure IsCycle (ds : Declarations) (members : List String) : Prop where
  ascending : members.Pairwise (· < ·)
  maximal : Maximal ds.MutuallyReaching {name | name ∈ members}
  /-- Some chain of one or more steps leads back to where it begins. -/
  returns : ∃ name ∈ members, ds.ConformsTo name name

def component (ds : Declarations) (name : String) : Set String :=
  {other | other ∈ ds.names ∧ ReflTransGen ds.Extends name other ∧
    ReflTransGen ds.Extends other name}

variable {ds : Declarations} {name other : String}

theorem mutuallyReaching_component (name : String) : ds.MutuallyReaching (ds.component name) := by
  rintro a ⟨ha, -, hback⟩
  refine ⟨ha, ?_⟩
  rintro b ⟨-, hto, -⟩
  exact hback.trans hto

/-- A largest set of names that reach each other is the component of each of them. -/
theorem eq_component_of_maximal {names : Set String} (h : Maximal ds.MutuallyReaching names)
    (hname : name ∈ names) : names = ds.component name := by
  have hsub : names ⊆ ds.component name := fun other hother =>
    ⟨(h.prop other hother).1, (h.prop name hname).2 other hother,
      (h.prop other hother).2 name hname⟩
  exact hsub.antisymm (h.le_of_ge (mutuallyReaching_component name) hsub)

theorem maximal_component (hname : name ∈ ds.names) :
    Maximal ds.MutuallyReaching (ds.component name) := by
  refine ⟨mutuallyReaching_component name, ?_⟩
  intro names hnames hsub other hother
  have hself : name ∈ names := hsub ⟨hname, .refl, .refl⟩
  exact ⟨(hnames other hother).1, (hnames name hself).2 other hother,
    (hnames other hother).2 name hself⟩

theorem conformsTo_of_mem_component (h : other ∈ ds.component name) (hne : other ≠ name) :
    ds.ConformsTo name other ∧ ds.ConformsTo other name := by
  obtain ⟨-, hto, hback⟩ := h
  exact ⟨(Relation.reflTransGen_iff_eq_or_transGen.mp hto).resolve_left hne,
    (Relation.reflTransGen_iff_eq_or_transGen.mp hback).resolve_left hne.symm⟩

theorem mem_component_iff (hself : ds.ConformsTo name name) :
    other ∈ ds.component name ↔ ds.ConformsTo name other ∧ ds.ConformsTo other name := by
  constructor
  · intro h
    by_cases hsame : other = name
    · subst hsame
      exact ⟨hself, hself⟩
    · exact conformsTo_of_mem_component h hsame
  · rintro ⟨hto, hback⟩
    obtain ⟨d, hd⟩ := hback.exists_declaration
    exact ⟨mem_names_of_named? hd, hto.to_reflTransGen, hback.to_reflTransGen⟩

theorem pairwise_lt_onCycle (ds : Declarations) : ds.onCycle.Pairwise fun a b => a.1 < b.1 := by
  have hnodup : (ds.onCycle.map Prod.fst).Nodup := by
    have hreach : ((ds.names.map fun name => (name, ds.reachable name)).map Prod.fst).Nodup := by
      rw [List.map_map]
      exact (List.map_id ds.names).symm ▸ ds.nodup_names
    have hperm := List.mergeSort_perm
      ((ds.names.map fun name => (name, ds.reachable name)).filter fun r => r.1 ∈ r.2)
      fun a b => !decide (b.1 < a.1)
    exact (hperm.map Prod.fst).nodup_iff.mpr (hreach.sublist (List.filter_sublist.map _))
  have hne := List.pairwise_map.mp hnodup
  exact (ds.pairwise_onCycle.and hne).imp fun h => Std.lt_of_le_of_ne h.1 h.2

theorem exists_of_mem_cycles {members : List String} (h : members ∈ ds.cycles) :
    ∃ r ∈ ds.onCycle, members = ds.cycleOf r ∧ members.head? = some r.1 := by
  rw [cycles_eq, List.mem_filterMap] at h
  obtain ⟨r, hr, hmembers⟩ := h
  split at hmembers
  · next hleast =>
      obtain rfl := Option.some.inj hmembers
      exact ⟨r, hr, rfl, hleast⟩
  · contradiction

theorem isCycle_of_mem_cycles {members : List String} (h : members ∈ ds.cycles) :
    ds.IsCycle members := by
  obtain ⟨r, hr, rfl, -⟩ := exists_of_mem_cycles h
  obtain ⟨-, hself⟩ := mem_onCycle_iff.mp hr
  have hset : {name | name ∈ ds.cycleOf r} = ds.component r.1 := by
    ext name
    exact (mem_cycleOf_iff hr).trans (mem_component_iff hself).symm
  obtain ⟨d, hd⟩ := hself.exists_declaration
  constructor
  case ascending =>
    rw [cycleOf, List.pairwise_map]
    exact ds.pairwise_lt_onCycle.filter _
  case maximal =>
    rw [hset]
    exact maximal_component (mem_names_of_named? hd)
  case returns => exact ⟨r.1, (mem_cycleOf_iff hr).mpr ⟨hself, hself⟩, hself⟩

theorem nodup_of_ascending {xs : List String} (h : xs.Pairwise (· < ·)) : xs.Nodup :=
  h.imp fun {a b} hlt => by
    rintro rfl
    exact String.lt_irrefl a hlt

theorem eq_of_ascending {xs ys : List String} (hxs : xs.Pairwise (· < ·))
    (hys : ys.Pairwise (· < ·)) (h : ∀ x, x ∈ xs ↔ x ∈ ys) : xs = ys := by
  have hperm : xs.Perm ys :=
    (List.perm_ext_iff_of_nodup (nodup_of_ascending hxs) (nodup_of_ascending hys)).mpr h
  exact hperm.eq_of_pairwise (fun a b _ _ hab hba => absurd hba (String.lt_asymm hab)) hxs hys

theorem IsCycle.eq_of_mem {members group : List String} (h : ds.IsCycle members)
    (hgroup : ds.IsCycle group) (hname : name ∈ members) (hname' : name ∈ group) :
    members = group := by
  apply eq_of_ascending h.ascending hgroup.ascending
  intro other
  have hset := (eq_component_of_maximal h.maximal hname).trans
    (eq_component_of_maximal hgroup.maximal hname').symm
  exact Set.ext_iff.mp hset other

/-- The cycles that are listed are all there are. -/
theorem mem_cycles_iff {members : List String} : members ∈ ds.cycles ↔ ds.IsCycle members := by
  constructor
  · exact isCycle_of_mem_cycles
  · intro h
    obtain ⟨name, hname, hself⟩ := h.returns
    obtain ⟨group, hgroup, hname'⟩ := exists_mem_cycles_iff.mpr hself
    rw [h.eq_of_mem (isCycle_of_mem_cycles hgroup) hname hname']
    exact hgroup

theorem lex_of_head?_lt {xs ys : List String} {x y : String} (hx : xs.head? = some x)
    (hy : ys.head? = some y) (h : x < y) : List.Lex (· < ·) xs ys := by
  obtain ⟨xs, rfl⟩ := List.head?_eq_some_iff.mp hx
  obtain ⟨ys, rfl⟩ := List.head?_eq_some_iff.mp hy
  exact .rel h

theorem pairwise_cycles (ds : Declarations) : ds.cycles.Pairwise (List.Lex (· < ·)) := by
  rw [cycles_eq, List.pairwise_filterMap]
  refine ds.pairwise_lt_onCycle.imp fun {r s} hlt => ?_
  intro group hgroup group' hgroup'
  rw [Option.ite_none_right_eq_some] at hgroup hgroup'
  obtain ⟨hleast, hgroup⟩ := hgroup
  obtain ⟨hleast', hgroup'⟩ := hgroup'
  rw [← Option.some.inj hgroup, ← Option.some.inj hgroup']
  exact lex_of_head?_lt hleast hleast' hlt

/-- The strongly connected components of conformance, listed in any order, as are their members. -/
structure ListsComponents (ds : Declarations) (components : List (List String)) : Prop where
  all : components.flatten.Perm ds.names
  exact : ∀ members ∈ components, ∀ name ∈ members, {other | other ∈ members} = ds.component name

/-- A component with several members, or whose only member is among its own parents. -/
def isCyclic (ds : Declarations) (members : List String) : Bool :=
  1 < members.length || members.head?.any fun name => name ∈ ds.parents name

theorem exists_mem_of_isCyclic {members : List String} (h : ds.isCyclic members = true) :
    ∃ name, name ∈ members := by
  apply List.exists_mem_of_ne_nil
  rintro rfl
  simp [isCyclic] at h

def cyclesAmong (ds : Declarations) (components : List (List String)) : List (List String) :=
  ((components.filter ds.isCyclic).map fun members =>
      members.mergeSort fun a b => !decide (b < a)).mergeSort
    fun a b => !decide (List.Lex (· < ·) b a)

section Listing

/-- Each of the two names reaches the other, if they are not the same. -/
def connected (ds : Declarations) (name other : String) : Bool :=
  other = name || (other ∈ ds.reachable name && name ∈ ds.reachable other)

def componentOf (ds : Declarations) (name : String) : List String :=
  ds.names.filter (ds.connected name)

def components (ds : Declarations) : List (List String) :=
  ds.names.filterMap fun name =>
    if (ds.componentOf name).head? = some name then some (ds.componentOf name) else none

theorem connected_iff (hother : other ∈ ds.names) :
    ds.connected name other = true ↔ other ∈ ds.component name := by
  rw [connected, Bool.or_eq_true, Bool.and_eq_true, decide_eq_true_eq, decide_eq_true_eq,
    decide_eq_true_eq, mem_reachable_iff, mem_reachable_iff]
  constructor
  · rintro (rfl | ⟨hto, hback⟩)
    · exact ⟨hother, .refl, .refl⟩
    · exact ⟨hother, hto.to_reflTransGen, hback.to_reflTransGen⟩
  · intro h
    by_cases hsame : other = name
    · exact .inl hsame
    · exact .inr (conformsTo_of_mem_component h hsame)

theorem mem_componentOf_iff : other ∈ ds.componentOf name ↔ other ∈ ds.component name := by
  rw [componentOf, List.mem_filter]
  constructor
  · rintro ⟨hother, hconnected⟩
    exact (connected_iff hother).mp hconnected
  · intro h
    exact ⟨h.1, (connected_iff h.1).mpr h⟩

theorem componentOf_eq_of_mem (hname : name ∈ ds.names) (h : other ∈ ds.component name) :
    ds.componentOf other = ds.componentOf name := by
  have hcomponent := eq_component_of_maximal (maximal_component hname) h
  apply List.filter_congr
  intro x hx
  rw [Bool.eq_iff_iff, connected_iff hx, connected_iff hx, hcomponent]

theorem listsComponents_components (ds : Declarations) : ds.ListsComponents ds.components where
  all := by
    refine flatten_classes_perm ds.nodup_names (fun name hname => ?_) fun name hname other hother =>
      componentOf_eq_of_mem hname (mem_componentOf_iff.mp hother)
    exact (connected_iff hname).mpr ⟨hname, .refl, .refl⟩
  exact members hmembers name hname := by
    obtain ⟨first, hfirst, rfl, -⟩ := mem_classes_iff.mp hmembers
    have hname : name ∈ ds.component first := mem_componentOf_iff.mp hname
    rw [← eq_component_of_maximal (maximal_component hfirst) hname]
    exact Set.ext fun other => mem_componentOf_iff

end Listing

section Components

variable {components : List (List String)} (h : ds.ListsComponents components)

include h

theorem ListsComponents.nodup {members : List String} (hmembers : members ∈ components) :
    members.Nodup :=
  (List.nodup_flatten.mp (h.all.nodup_iff.mpr ds.nodup_names)).1 members hmembers

theorem ListsComponents.ascending_mergeSort {members : List String}
    (hmembers : members ∈ components) :
    (members.mergeSort fun a b => !decide (b < a)).Pairwise (· < ·) := by
  have hsorted : (members.mergeSort fun a b => !decide (b < a)).Pairwise fun a b => a ≤ b := by
    apply pairwise_mergeSort_not fun a b : String => a < b
    · exact fun a b c hab hbc => String.le_trans hab hbc
    · exact fun a b => String.le_total a b
  have hnodup : (members.mergeSort fun a b => !decide (b < a)).Nodup :=
    (List.mergeSort_perm _ _).nodup_iff.mpr (h.nodup hmembers)
  exact (hsorted.and hnodup).imp fun hab => Std.lt_of_le_of_ne hab.1 hab.2

theorem ListsComponents.isCyclic_iff {members : List String} (hmembers : members ∈ components)
    (hname : name ∈ members) : ds.isCyclic members = true ↔ ds.ConformsTo name name := by
  have hset := h.exact members hmembers name hname
  have hnodup := h.nodup hmembers
  rcases members with _ | ⟨first, _ | ⟨second, rest⟩⟩
  · contradiction
  · obtain rfl := List.mem_singleton.mp hname
    have hloop : ds.isCyclic [name] = true ↔ ds.Extends name name := by
      simp [isCyclic, mem_parents_iff]
    rw [hloop]
    constructor
    · exact .single
    · intro hself
      obtain ⟨next, hstep, hrest⟩ := TransGen.head'_iff.mp hself
      obtain ⟨i, hi, -⟩ := ConformsTo.exists_interface (.single hstep)
      -- A chain from the name to itself does not leave its component.
      have hnext : next ∈ ds.component name := ⟨mem_names_of_named? hi, .single hstep, hrest⟩
      rw [← hset] at hnext
      obtain rfl := List.mem_singleton.mp hnext
      exact hstep
  · have hseveral : ds.isCyclic (first :: second :: rest) = true := by simp [isCyclic]
    obtain ⟨other, hother, hne⟩ : ∃ other ∈ first :: second :: rest, other ≠ name := by
      by_cases hfirst : first = name
      · have hsecond : first ≠ second := fun heq => by simp [heq] at hnodup
        exact ⟨second, by simp, hfirst ▸ hsecond.symm⟩
      · exact ⟨first, by simp, hfirst⟩
    have hmem : other ∈ ds.component name := hset ▸ hother
    obtain ⟨hto, hback⟩ := conformsTo_of_mem_component hmem hne
    exact iff_of_true hseveral (hto.trans hback)

theorem ListsComponents.mem_cyclesAmong_iff {group : List String} :
    group ∈ ds.cyclesAmong components ↔ ds.IsCycle group := by
  have hsort (members : List String) (name : String) :
      name ∈ (members.mergeSort fun a b => !decide (b < a)) ↔ name ∈ members :=
    (List.mergeSort_perm _ _).mem_iff
  rw [cyclesAmong, List.mem_mergeSort, List.mem_map]
  simp only [List.mem_filter]
  constructor
  · rintro ⟨members, ⟨hmembers, hcyclic⟩, rfl⟩
    obtain ⟨name, hname⟩ := exists_mem_of_isCyclic hcyclic
    constructor
    case ascending => exact h.ascending_mergeSort hmembers
    case maximal =>
      simp only [hsort]
      rw [h.exact members hmembers name hname]
      exact maximal_component (h.all.mem_iff.mp (List.mem_flatten_of_mem hmembers hname))
    case returns =>
      exact ⟨name, (hsort members name).mpr hname, (h.isCyclic_iff hmembers hname).mp hcyclic⟩
  · intro hgroup
    obtain ⟨name, hname, hself⟩ := hgroup.returns
    have hcomponent := eq_component_of_maximal hgroup.maximal hname
    obtain ⟨members, hmembers, hname'⟩ :=
      List.mem_flatten.mp (h.all.mem_iff.mpr (hgroup.maximal.prop name hname).1)
    refine ⟨members, ⟨hmembers, (h.isCyclic_iff hmembers hname').mpr hself⟩, ?_⟩
    apply eq_of_ascending (h.ascending_mergeSort hmembers) hgroup.ascending
    intro other
    rw [hsort]
    exact Set.ext_iff.mp ((h.exact members hmembers name hname').trans hcomponent.symm) other

theorem ListsComponents.nodup_cyclesAmong : (ds.cyclesAmong components).Nodup := by
  have hdisjoint : components.Pairwise List.Disjoint :=
    (List.nodup_flatten.mp (h.all.nodup_iff.mpr ds.nodup_names)).2
  rw [cyclesAmong, (List.mergeSort_perm _ _).nodup_iff, List.Nodup, List.pairwise_map]
  refine (hdisjoint.filter _).imp_of_mem ?_
  intro members others hmembers hothers hapart heq
  obtain ⟨name, hname⟩ := exists_mem_of_isCyclic (List.mem_filter.mp hmembers).2
  have hname' : name ∈ others := by
    rw [← (List.mergeSort_perm others _).mem_iff, ← heq, (List.mergeSort_perm members _).mem_iff]
    exact hname
  exact hapart hname hname'

/-- Sorting the members and then the cycles leaves nothing of the order of the search. -/
theorem ListsComponents.cyclesAmong_eq_cycles : ds.cyclesAmong components = ds.cycles := by
  have hcycles : ds.cycles.Nodup := by
    refine ds.pairwise_cycles.imp fun {xs ys} hlt => ?_
    rintro rfl
    exact List.lt_irrefl xs hlt
  have hperm : (ds.cyclesAmong components).Perm ds.cycles := by
    rw [List.perm_ext_iff_of_nodup h.nodup_cyclesAmong hcycles]
    exact fun group => h.mem_cyclesAmong_iff.trans mem_cycles_iff.symm
  have hsorted : (ds.cyclesAmong components).Pairwise
      fun xs ys => ¬ List.Lex (· < ·) ys xs := by
    apply pairwise_mergeSort_not fun xs ys : List String => List.Lex (· < ·) xs ys
    · exact fun xs ys zs hxy hyz => List.le_trans hxy hyz
    · exact fun xs ys => List.le_total xs ys
  have hstrict : ds.cycles.Pairwise fun xs ys => ¬ List.Lex (· < ·) ys xs :=
    ds.pairwise_cycles.imp fun hlt => List.lt_asymm hlt
  exact hperm.eq_of_pairwise (fun xs ys _ _ hxy hyx => List.le_antisymm hxy hyx) hsorted hstrict

end Components

end Declarations

end AuthorizedCalls
