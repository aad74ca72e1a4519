import AuthorizedCalls.Proofs.RejectedSet
import AuthorizedCalls.Proofs.Signatures

namespace AuthorizedCalls

theorem Table.ext_lookup {t t' : Table} (hentries : ∀ id, t.get? id = t'.get? id)
    (hrejected : ∀ id, t.rejects id = t'.rejects id)
    (hlowered : ∀ id, t.lowered? id = t'.lowered? id) : t = t' := by
  have hentries' : t.entries = t'.entries := SortedMap.ext_find? fun key => hentries ⟨key⟩
  have hrejected' : t.rejected = t'.rejected := by
    apply SortedMap.ext_find?
    intro key
    have hkey : (t.rejected.find? key).isSome = (t'.rejected.find? key).isSome := hrejected ⟨key⟩
    cases hfind : t.rejected.find? key <;> cases hfind' : t'.rejected.find? key <;>
      simp_all
  have hlowered' : t.lowered = t'.lowered := SortedMap.ext_find? fun key => hlowered ⟨key⟩
  cases t
  cases t'
  simp_all

namespace Declarations

/-- What a traversal visits does not depend on how the unvisited names are listed. -/
theorem walk_eq_of_perm {next : String → List String} {unvisited unvisited' : List String}
    (h : unvisited.Perm unvisited') (stack : List String) :
    walk next unvisited stack = walk next unvisited' stack := by
  fun_induction walk next unvisited stack generalizing unvisited' with
  | case1 => rw [walk]
  | case2 unvisited name stack hmem ih =>
      rw [walk, if_pos (h.mem_iff.mp hmem), ih (h.erase name)]
  | case3 unvisited name stack hmem ih =>
      rw [walk, if_neg (mt h.mem_iff.mpr hmem), ih h]

/-- The same declarations in another order, no two of one name. -/
structure Reorders (ds ds' : Declarations) : Prop where
  perm : ds.Perm ds'
  names : (ds.map Declaration.name).Nodup

namespace Reorders

variable {ds ds' : Declarations}

theorem symm (h : Reorders ds ds') : Reorders ds' ds where
  perm := h.perm.symm
  names := (h.perm.map Declaration.name).nodup h.names

theorem dotless (h : Reorders ds ds') (hds : ds.Dotless) : ds'.Dotless :=
  fun d hd => hds d (h.perm.mem_iff.mpr hd)

theorem named?_eq (h : Reorders ds ds') : ds.named? = ds'.named? := by
  funext name
  apply Option.ext
  intro d
  rw [named?_eq_some_iff h.names, named?_eq_some_iff h.symm.names, h.perm.mem_iff]

theorem canonical_perm (h : Reorders ds ds') : ds.canonical.Perm ds'.canonical := by
  rw [canonical_eq_self h.names, canonical_eq_self h.symm.names]
  exact h.perm

theorem names_perm (h : Reorders ds ds') : ds.names.Perm ds'.names :=
  h.canonical_perm.map Declaration.name

theorem parents_eq (h : Reorders ds ds') : ds.parents = ds'.parents := by
  have hinterface : ds.declaresInterface = ds'.declaresInterface := by
    funext name
    rw [declaresInterface, declaresInterface, h.named?_eq]
  funext name
  rw [parents, parents, h.named?_eq, hinterface]

theorem conformsTo_eq (h : Reorders ds ds') : ds.ConformsTo = ds'.ConformsTo := by
  have hextends : ds.Extends = ds'.Extends := by
    funext name target
    rw [Extends, Extends, h.named?_eq]
  rw [ConformsTo, ConformsTo, hextends]

theorem above_eq (h : Reorders ds ds') : ds.above = ds'.above := by
  funext name
  rw [above, above, h.parents_eq]
  exact walk_eq_of_perm (h.names_perm.erase name) _

theorem reachable_eq (h : Reorders ds ds') : ds.reachable = ds'.reachable := by
  funext name
  rw [reachable, reachable, h.parents_eq]
  exact walk_eq_of_perm h.names_perm _

theorem onCycle_eq (h : Reorders ds ds') : ds.onCycle = ds'.onCycle := by
  apply List.Perm.eq_of_pairwise _ ds.pairwise_onCycle ds'.pairwise_onCycle
  · rw [onCycle, onCycle, h.reachable_eq]
    refine (List.mergeSort_perm _ _).trans (.trans ?_ (List.mergeSort_perm _ _).symm)
    exact (h.names_perm.map _).filter _
  · intro a b ha hb hab hba
    have hname : a.1 = b.1 := String.le_antisymm hab hba
    refine Prod.ext hname ?_
    rw [(mem_onCycle_iff.mp ha).1, (mem_onCycle_iff.mp hb).1, h.reachable_eq, hname]

theorem cycles_eq_cycles (h : Reorders ds ds') : ds.cycles = ds'.cycles := by
  have hcycleOf : ds.cycleOf = ds'.cycleOf := by
    funext r
    rw [cycleOf, cycleOf, h.onCycle_eq]
  rw [cycles_eq, cycles_eq, h.onCycle_eq, hcycleOf]

theorem written?_eq (h : Reorders ds ds') : ds.written? = ds'.written? := by
  funext id
  rw [written?, written?, registers?, registers?, h.named?_eq]

theorem signature?_eq (h : Reorders ds ds') : ds.signature? = ds'.signature? := by
  funext id
  rw [signature?, signature?, h.named?_eq]

theorem table_registered_eq (h : Reorders ds ds') (hds : ds.Dotless) :
    ds.registered.table = ds'.registered.table := by
  apply Table.ext_lookup
  · intro id
    rw [Resolution.get?_registered hds, Resolution.get?_registered (h.dotless hds), h.written?_eq]
  · intro id
    rw [Resolution.rejects_registered hds, Resolution.rejects_registered (h.dotless hds),
      registers?, registers?, h.named?_eq]
  · intro id
    rw [Resolution.lowered?_registered hds, Resolution.lowered?_registered (h.dotless hds),
      h.signature?_eq]

theorem registrationFindings_perm (h : Reorders ds ds') :
    ds.registrationFindings.Perm ds'.registrationFindings := by
  have hflat : ∀ {ds : Declarations}, (ds.map Declaration.name).Nodup →
      ds.registrationFindings = ds.flatMap Declaration.findings :=
    fun hnames => findingsByName_of_nodup (by simp) hnames
  rw [hflat h.names, hflat h.symm.names]
  exact h.perm.flatMap_right _

theorem conformanceFindings_perm (h : Reorders ds ds') :
    ds.conformanceFindings.Perm ds'.conformanceFindings := by
  have htargets : ds.targetFindings = ds'.targetFindings := by
    have htarget : ds.targetFinding? = ds'.targetFinding? := by
      funext d target
      rw [targetFinding?, targetFinding?, h.named?_eq]
    funext d
    rw [targetFindings, targetFindings, htarget]
  have hcycle : ds.cycleFindings = ds'.cycleFindings := by
    funext members
    rw [cycleFindings, cycleFindings, h.named?_eq]
  rw [conformanceFindings, conformanceFindings, htargets, hcycle, h.cycles_eq_cycles]
  exact (h.canonical_perm.flatMap_right _).append_right _

theorem table_acyclic_eq (h : Reorders ds ds') (hds : ds.Dotless) :
    ds.acyclic.table = ds'.acyclic.table := by
  rw [acyclic_eq, acyclic_eq]
  exact Resolution.table_refuseAll_of_perm (h.table_registered_eq hds) h.conformanceFindings_perm

theorem comparisons_eq (h : Reorders ds ds') : ds.comparisons = ds'.comparisons := by
  funext d
  rw [comparisons, comparisons, h.above_eq, h.named?_eq]

theorem malformed_iff (h : Reorders ds ds') {name : String} :
    ds.Malformed name ↔ ds'.Malformed name := by
  rw [Malformed, Malformed, h.named?_eq, h.conformsTo_eq]

theorem qualifierOf?_eq (h : Reorders ds ds') : ds.qualifierOf? = ds'.qualifierOf? := by
  funext name function
  rw [qualifierOf?, qualifierOf?, h.named?_eq]

theorem clashes_iff (h : Reorders ds ds') {policy : Policy} {name interface function : String} :
    ds.Clashes policy name interface function ↔ ds'.Clashes policy name interface function := by
  have hforward : ∀ {ds ds' : Declarations}, Reorders ds ds' →
      ds.Clashes policy name interface function → ds'.Clashes policy name interface function := by
    intro ds ds' h hclashes
    exact {
      stands := mt h.malformed_iff.mpr hclashes.stands
      above := h.conformsTo_eq ▸ hclashes.above
      interfaceStands := mt h.malformed_iff.mpr hclashes.interfaceStands
      qualifiers := h.qualifierOf?_eq ▸ hclashes.qualifiers }
  exact ⟨hforward h, hforward h.symm⟩

end Reorders

end Declarations

end AuthorizedCalls
