import AuthorizedCalls.Proofs.ConformanceSoundness

/-!
Declarations without what is declared again: of the declarations of one name the first, and in it
of the functions of one name the first. Names stand for the same in both lists, so they have the
same interfaces above them and the same cycles, and what follows registration does the same to
any resolution (`conform_firsts`). A comparison walks over later functions of an interface too,
but the first of a name has settled what they could find (`foldl_firstsBy`).
-/

namespace AuthorizedCalls

/-- The declaration without later functions of a name that it declares before. -/
def Declaration.firsts (d : Declaration) : Declaration :=
  { d with functions := firstsBy Member.name d.functions }

/-- How many of its functions are gone through and have a name that it declares before. -/
def Declaration.laterFunctions (d : Declaration) : Nat :=
  if d.qualifiers.length ≤ 1 then d.functions.length - d.firsts.functions.length else 0

namespace Declarations

def firsts (ds : Declarations) : Declarations :=
  ds.canonical.map Declaration.firsts

variable (ds : Declarations)

theorem named?_firsts (name : String) :
    ds.firsts.named? name = (ds.named? name).map Declaration.firsts := by
  rw [named?, firsts, List.find?_map, named?, ← find?_firstsBy]
  rfl

theorem filterMap_named?_firsts (names : List String) :
    names.filterMap ds.firsts.named? = (names.filterMap ds.named?).map Declaration.firsts := by
  rw [List.map_filterMap]
  exact List.filterMap_congr fun name _ => ds.named?_firsts name

theorem canonical_firsts : ds.firsts.canonical = ds.firsts := by
  apply canonical_eq_self
  rw [firsts, List.map_map]
  exact ds.nodup_names

theorem names_firsts : ds.firsts.names = ds.names := by
  rw [names, canonical_firsts, firsts, List.map_map]
  rfl

theorem sameShape_firsts : ds.firsts.SameShape ds where
  names := ds.names_firsts
  shape name := by
    rw [named?_firsts, Option.map_map]
    rfl

theorem above_firsts : ds.firsts.above = ds.above :=
  ds.sameShape_firsts.above_eq

theorem cycles_firsts : ds.firsts.cycles = ds.cycles :=
  ds.sameShape_firsts.cycles_eq

end Declarations

namespace Resolution

variable {ds : Declarations} {policy : Policy}

theorem checkTarget_firsts (d : Declaration) :
    checkTarget ds.firsts d.firsts = checkTarget ds d := by
  funext r target
  rw [checkTarget, checkTarget, ds.named?_firsts]
  cases ds.named? target <;> rfl

theorem refuseCycle_firsts : refuseCycle ds.firsts = refuseCycle ds := by
  funext r members
  rw [refuseCycle, refuseCycle, ds.filterMap_named?_firsts, List.foldl_map]
  rfl

/-- What the first function of a name leaves is not changed by later ones: a conflict takes the
function at fault out of the table, and where there is none there will be none. -/
theorem compareWith_firsts (d interface : Declaration) (r : Resolution) :
    compareWith policy d.firsts r interface.firsts = compareWith policy d r interface := by
  have hfirsts := foldl_firstsBy Member.name
    (fun name (r : Resolution) =>
      conflict? r.table policy (.member interface.name name) (.member d.name name) = none)
    (fun r f hsettled => by simp only [compareMember, hsettled])
    (conflict?_compareMember d interface)
    (fun r f _ => conflict?_eq_none_of_leadsTo (leadsTo_compareMember policy d interface r f))
    interface.functions r
  rw [compareWith, compareWith, ← hfirsts]
  rfl

theorem compareAll_firsts (d : Declaration) (r : Resolution) :
    compareAll ds.firsts policy r d.firsts = compareAll ds policy r d := by
  rw [compareAll, compareAll, ds.above_firsts, ds.filterMap_named?_firsts, List.foldl_map]
  simp only [compareWith_firsts]
  rfl

theorem checkTargets_firsts (d : Declaration) (r : Resolution) :
    checkTargets ds.firsts r d.firsts = checkTargets ds r d := by
  rw [checkTargets, checkTargets, checkTarget_firsts]
  rfl

def conform (ds : Declarations) (policy : Policy) (r : Resolution) : Resolution :=
  ds.canonical.foldl (compareAll ds policy)
    (ds.cycles.foldl (refuseCycle ds) (ds.canonical.foldl (checkTargets ds) r))

theorem conform_firsts (r : Resolution) : conform ds.firsts policy r = conform ds policy r := by
  rw [conform, ds.canonical_firsts, Declarations.firsts, List.foldl_map, List.foldl_map,
    ← Declarations.firsts, ds.cycles_firsts, refuseCycle_firsts]
  simp only [compareAll_firsts, checkTargets_firsts]
  rfl

theorem registerMembers_firsts (d : Declaration) (seen : List String) (fs : List Member)
    (r : Resolution) : registerMembers d.firsts seen fs r = registerMembers d seen fs r := by
  rw [registerMembers_eq, registerMembers_eq]
  rfl

end Resolution

end AuthorizedCalls
