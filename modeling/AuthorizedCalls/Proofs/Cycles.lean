import AuthorizedCalls.Proofs.Traversal

namespace AuthorizedCalls.Declarations

theorem pairwise_mergeSort_not {α : Type} (lt : α → α → Prop) [DecidableRel lt]
    (htrans : ∀ a b c, ¬ lt b a → ¬ lt c b → ¬ lt c a) (htotal : ∀ a b, ¬ lt b a ∨ ¬ lt a b)
    (xs : List α) :
    (xs.mergeSort fun a b => !decide (lt b a)).Pairwise fun a b => ¬ lt b a := by
  have hsorted : (xs.mergeSort fun a b => !decide (lt b a)).Pairwise
      fun a b => (!decide (lt b a)) = true := by
    apply List.pairwise_mergeSort
    · intro a b c hab hbc
      rw [Bool.not_eq_true', decide_eq_false_iff_not] at hab hbc ⊢
      exact htrans a b c hab hbc
    · intro a b
      rw [Bool.or_eq_true, Bool.not_eq_true', decide_eq_false_iff_not, Bool.not_eq_true',
        decide_eq_false_iff_not]
      exact htotal a b
  exact hsorted.imp fun h => by simpa using h

theorem mem_reachable_iff {ds : Declarations} {name target : String} :
    target ∈ ds.reachable name ↔ ds.ConformsTo name target := by
  rw [reachable, mem_walk_iff]
  constructor
  · rintro ⟨s, hs, hpath⟩
    exact hpath.conformsTo hs
  · intro h
    obtain ⟨s, hstep, hrest⟩ := Relation.TransGen.head'_iff.mp h
    refine ⟨s, mem_parents_iff.mpr hstep, ?_⟩
    rcases Relation.reflTransGen_iff_eq_or_transGen.mp hrest with rfl | hrest
    · obtain ⟨i, hi, -⟩ := h.exists_interface
      exact .here (mem_names_of_named? hi)
    · exact ConformsTo.path hrest

/-- The names that reach themselves, each with all that it reaches, in ascending order. -/
def onCycle (ds : Declarations) : List (String × List String) :=
  ((ds.names.map fun name => (name, ds.reachable name)).filter fun r => r.1 ∈ r.2).mergeSort
    fun a b => !decide (b.1 < a.1)

/-- The names on a cycle with a name, in ascending order. -/
def cycleOf (ds : Declarations) (r : String × List String) : List String :=
  (ds.onCycle.filter fun other => other.1 ∈ r.2 && r.1 ∈ other.2).map (·.1)

theorem cycles_eq (ds : Declarations) :
    ds.cycles = ds.onCycle.filterMap fun r =>
      if (ds.cycleOf r).head? = some r.1 then some (ds.cycleOf r) else none :=
  rfl

theorem pairwise_onCycle (ds : Declarations) : ds.onCycle.Pairwise fun a b => a.1 ≤ b.1 := by
  rw [onCycle]
  apply pairwise_mergeSort_not fun a b : String × List String => a.1 < b.1
  · exact fun a b c hab hbc => String.le_trans hab hbc
  · exact fun a b => String.le_total a.1 b.1

variable {ds : Declarations}

theorem mem_onCycle_iff {r : String × List String} :
    r ∈ ds.onCycle ↔ r.2 = ds.reachable r.1 ∧ ds.ConformsTo r.1 r.1 := by
  obtain ⟨name, reached⟩ := r
  dsimp only
  rw [onCycle, List.mem_mergeSort, List.mem_filter, List.mem_map]
  constructor
  · rintro ⟨⟨_, -, heq⟩, hself⟩
    cases heq
    exact ⟨rfl, mem_reachable_iff.mp (by simpa using hself)⟩
  · rintro ⟨rfl, hself⟩
    obtain ⟨d, hd⟩ := hself.exists_declaration
    refine ⟨⟨name, mem_names_of_named? hd, rfl⟩, ?_⟩
    simpa using mem_reachable_iff.mpr hself

theorem mem_cycleOf_iff {r : String × List String} (hr : r ∈ ds.onCycle) {name : String} :
    name ∈ ds.cycleOf r ↔ ds.ConformsTo r.1 name ∧ ds.ConformsTo name r.1 := by
  obtain ⟨hreached, -⟩ := mem_onCycle_iff.mp hr
  simp only [cycleOf, List.mem_map, List.mem_filter, Bool.and_eq_true, decide_eq_true_eq, hreached,
    mem_reachable_iff]
  constructor
  · rintro ⟨other, ⟨hother, hto, hback⟩, rfl⟩
    rw [(mem_onCycle_iff.mp hother).1, mem_reachable_iff] at hback
    exact ⟨hto, hback⟩
  · rintro ⟨hto, hback⟩
    have hname : (name, ds.reachable name) ∈ ds.onCycle :=
      mem_onCycle_iff.mpr ⟨rfl, Relation.TransGen.trans hback hto⟩
    exact ⟨_, ⟨hname, hto, mem_reachable_iff.mpr hback⟩, rfl⟩

theorem cycleOf_eq {r s : String × List String} (hr : r ∈ ds.onCycle) (hs : s ∈ ds.onCycle)
    (hto : ds.ConformsTo r.1 s.1) (hback : ds.ConformsTo s.1 r.1) :
    ds.cycleOf r = ds.cycleOf s := by
  rw [cycleOf, cycleOf]
  congr 1
  apply List.filter_congr
  intro other hother
  rw [(mem_onCycle_iff.mp hr).1, (mem_onCycle_iff.mp hs).1, (mem_onCycle_iff.mp hother).1,
    Bool.eq_iff_iff]
  simp only [Bool.and_eq_true, decide_eq_true_eq, mem_reachable_iff]
  constructor
  · rintro ⟨hfrom, hin⟩
    exact ⟨Relation.TransGen.trans hback hfrom, Relation.TransGen.trans hin hto⟩
  · rintro ⟨hfrom, hin⟩
    exact ⟨Relation.TransGen.trans hto hfrom, Relation.TransGen.trans hin hback⟩

theorem exists_mem_cycles_iff {name : String} :
    (∃ members ∈ ds.cycles, name ∈ members) ↔ ds.ConformsTo name name := by
  simp only [cycles_eq, List.mem_filterMap]
  constructor
  · rintro ⟨members, ⟨r, hr, hmembers⟩, hname⟩
    split at hmembers
    · cases hmembers
      obtain ⟨hto, hback⟩ := (mem_cycleOf_iff hr).mp hname
      exact Relation.TransGen.trans hback hto
    · contradiction
  · intro hself
    have hr : (name, ds.reachable name) ∈ ds.onCycle := mem_onCycle_iff.mpr ⟨rfl, hself⟩
    have hname : name ∈ ds.cycleOf (name, ds.reachable name) :=
      (mem_cycleOf_iff hr).mpr ⟨hself, hself⟩
    -- The group is listed under its least member.
    obtain ⟨least, hleast⟩ := Option.isSome_iff_exists.mp
      (List.isSome_head?.mpr (List.ne_nil_of_mem hname))
    obtain ⟨hto, hback⟩ := (mem_cycleOf_iff hr).mp (List.mem_of_head? hleast)
    have hs : (least, ds.reachable least) ∈ ds.onCycle :=
      mem_onCycle_iff.mpr ⟨rfl, Relation.TransGen.trans hback hto⟩
    have hgroup := cycleOf_eq hr hs hto hback
    rw [hgroup] at hname hleast
    exact ⟨_, ⟨_, hs, if_pos hleast⟩, hname⟩

end AuthorizedCalls.Declarations
