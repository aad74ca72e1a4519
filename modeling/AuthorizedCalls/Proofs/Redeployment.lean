import AuthorizedCalls.Proofs.TableWrites
import AuthorizedCalls.Proofs.Traversal

namespace AuthorizedCalls

namespace SortedMap

variable {α β : Type}

def mapValues (f : α → β) (m : SortedMap α) : SortedMap β where
  entries := m.entries.map fun e => (e.1, f e.2)
  sorted := List.pairwise_map.mpr m.sorted

private theorem lookup_mapValues (f : α → β) (entries : List (String × α)) (key : String) :
    (entries.map fun e => (e.1, f e.2)).lookup key = (entries.lookup key).map f := by
  induction entries with
  | nil => rfl
  | cons e rest ih =>
      obtain ⟨k, value⟩ := e
      simp only [List.map_cons, List.lookup_cons, ih]
      split <;> rfl

theorem find?_mapValues (f : α → β) (m : SortedMap α) (key : String) :
    (m.mapValues f).find? key = (m.find? key).map f :=
  lookup_mapValues f m.entries key

theorem mapValues_insert (f : α → β) (m : SortedMap α) (key : String) (value : α) :
    (m.insert key value).mapValues f = (m.mapValues f).insert key (f value) := by
  apply ext_find?
  intro k
  simp only [find?_mapValues, find?_insert]
  split <;> rfl

theorem mapValues_filterKeys (f : α → β) (m : SortedMap α) (p : String → Bool) :
    (m.filterKeys p).mapValues f = (m.mapValues f).filterKeys p := by
  apply ext_find?
  intro k
  simp only [find?_mapValues, find?_filterKeys]
  split <;> rfl

end SortedMap

section Redeployed

variable (g : Address → Address)

def Declaration.redeployed (d : Declaration) : Declaration :=
  { d with address := g d.address }

def Declarations.redeployed (ds : Declarations) : Declarations :=
  ds.map (Declaration.redeployed g)

def Entry.redeployed (entry : Entry) : Entry :=
  { entry with address := g entry.address }

def Table.redeployed (t : Table) : Table :=
  { t with entries := t.entries.mapValues (Entry.redeployed g) }

def Resolution.redeployed (r : Resolution) : Resolution :=
  { r with table := r.table.redeployed g }

end Redeployed

variable {g : Address → Address}

namespace Declarations

theorem named?_redeployed (ds : Declarations) (name : String) :
    (ds.redeployed g).named? name = (ds.named? name).map (Declaration.redeployed g) := by
  rw [named?, redeployed, List.find?_map]
  rfl

theorem filterMap_named?_redeployed (ds : Declarations) (names : List String) :
    names.filterMap (ds.redeployed g).named? =
      (names.filterMap ds.named?).map (Declaration.redeployed g) := by
  rw [List.map_filterMap]
  exact List.filterMap_congr fun name _ => ds.named?_redeployed name

theorem canonical_redeployed (ds : Declarations) :
    (ds.redeployed g).canonical = ds.canonical.map (Declaration.redeployed g) :=
  firstsBy_map Declaration.name (Declaration.redeployed g) ds

theorem sameShape_redeployed (ds : Declarations) : (ds.redeployed g).SameShape ds where
  names := by
    rw [names, canonical_redeployed, List.map_map]
    rfl
  shape name := by
    rw [named?_redeployed, Option.map_map]
    rfl

end Declarations

namespace Table

theorem get?_redeployed (t : Table) (id : DeclId) :
    (t.redeployed g).get? id = (t.get? id).map (Entry.redeployed g) :=
  SortedMap.find?_mapValues _ _ _

theorem contract?_redeployed (t : Table) (name : String) :
    (t.redeployed g).contract? name = (t.contract? name).map (Entry.redeployed g) :=
  t.get?_redeployed _

theorem qualifier?_redeployed (t : Table) (id : DeclId) :
    (t.redeployed g).qualifier? id = t.qualifier? id := by
  rw [qualifier?, get?_redeployed, Option.map_map]
  rfl

theorem isRejected_redeployed (t : Table) (id : DeclId) :
    (t.redeployed g).isRejected id = t.isRejected id :=
  rfl

theorem setEntry_redeployed (t : Table) (id : DeclId) (entry : Entry) :
    (t.redeployed g).setEntry id (entry.redeployed g) = (t.setEntry id entry).redeployed g := by
  simp only [setEntry, redeployed, SortedMap.mapValues_insert]

theorem reject_redeployed (t : Table) (id : DeclId) :
    (t.redeployed g).reject id = (t.reject id).redeployed g := by
  simp only [reject, markRejected, redeployed, SortedMap.mapValues_filterKeys]

end Table

namespace Resolution

theorem refuse_redeployed (r : Resolution) (v : DeclarationViolation) (span : Span) :
    (r.redeployed g).refuse v span = (r.refuse v span).redeployed g := by
  simp only [refuse, report, redeployed, Table.reject_redeployed]

theorem registerMember_redeployed (d : Declaration) (r : Resolution) (f : Member) :
    registerMember (d.redeployed g) (r.redeployed g) f =
      (registerMember d r f).redeployed g := by
  simp only [registerMember]
  cases Access.effective f.qualifiers with
  | none => rfl
  | some qualifier =>
      simp only [redeployed, ← Table.setEntry_redeployed]
      split <;> split <;> rfl

theorem registerMembers_redeployed (d : Declaration) (seen : List String) (fs : List Member)
    (r : Resolution) :
    registerMembers (d.redeployed g) seen fs (r.redeployed g) =
      (registerMembers d seen fs r).redeployed g := by
  rw [registerMembers_eq, registerMembers_eq]
  refine (apply_foldByName (redeployed g) _ _ ?_ ?_ seen fs r).symm
  · exact fun r f => (registerMember_redeployed d r f).symm
  · exact fun _ _ => rfl

theorem registerDeclaration_redeployed (r : Resolution) (d : Declaration) :
    (r.redeployed g).registerDeclaration (d.redeployed g) =
      (r.registerDeclaration d).redeployed g := by
  simp only [registerDeclaration]
  cases hqualifiers : Access.effective d.qualifiers with
  | none =>
      rw [Declaration.redeployed, hqualifiers]
      rfl
  | some qualifier =>
      simp only [Declaration.redeployed, hqualifiers]
      rw [← Declaration.redeployed, ← registerMembers_redeployed]
      exact congrArg (fun t => registerMembers _ _ _ ⟨t, _⟩)
        (Table.setEntry_redeployed r.table d.id ⟨_, _, _, _⟩)

theorem register_redeployed (seen : List String) (ds : Declarations) (r : Resolution) :
    register seen (ds.redeployed g) (r.redeployed g) = (register seen ds r).redeployed g := by
  rw [register_eq, register_eq, Declarations.redeployed, foldByName_map]
  refine (apply_foldByName (redeployed g) _ _ ?_ ?_ seen ds r).symm
  · exact fun r d => (registerDeclaration_redeployed r d).symm
  · exact fun _ _ => rfl

section Conformance

variable {ds : Declarations} {policy : Policy}

theorem checkTarget_redeployed (d : Declaration) (r : Resolution) (target : String) :
    checkTarget (ds.redeployed g) (d.redeployed g) (r.redeployed g) target =
      (checkTarget ds d r target).redeployed g := by
  rw [checkTarget, checkTarget, ds.named?_redeployed]
  cases ds.named? target with
  | none => exact refuse_redeployed _ _ _
  | some parent =>
      dsimp only [Option.map_some]
      split
      · next hinterface =>
          rw [if_pos (by exact hinterface)]
      · next hcontract =>
          rw [if_neg (by exact hcontract)]
          exact refuse_redeployed _ _ _

theorem checkTargets_redeployed (r : Resolution) (d : Declaration) :
    checkTargets (ds.redeployed g) (r.redeployed g) (d.redeployed g) =
      (checkTargets ds r d).redeployed g :=
  List.foldl_hom (Resolution.redeployed g) (checkTarget_redeployed d)

theorem refuseCycle_redeployed (r : Resolution) (members : List String) :
    refuseCycle (ds.redeployed g) (r.redeployed g) members =
      (refuseCycle ds r members).redeployed g := by
  rw [refuseCycle, ds.filterMap_named?_redeployed, List.foldl_map]
  exact List.foldl_hom (Resolution.redeployed g) fun r d => refuse_redeployed _ _ _

theorem compareMember_redeployed (d interface : Declaration) (r : Resolution) (f : Member) :
    compareMember policy (d.redeployed g) (interface.redeployed g) (r.redeployed g) f =
      (compareMember policy d interface r f).redeployed g := by
  have hspan (id : DeclId) : ((r.redeployed g).table.get? id).map Entry.span =
      (r.table.get? id).map Entry.span := by
    rw [redeployed, Table.get?_redeployed, Option.map_map]
    rfl
  have hconflict (a b : DeclId) :
      conflict? (r.redeployed g).table policy a b = conflict? r.table policy a b := by
    simp only [conflict?, redeployed, Table.qualifier?_redeployed]
  simp only [compareMember, hspan, hconflict, Declaration.redeployed]
  split
  · rfl
  · exact refuse_redeployed _ _ _

theorem compareWith_redeployed (d : Declaration) (r : Resolution) (interface : Declaration) :
    compareWith policy (d.redeployed g) (r.redeployed g) (interface.redeployed g) =
      (compareWith policy d r interface).redeployed g := by
  rw [compareWith, compareWith]
  split
  · next hrejected => rw [if_pos (by exact hrejected)]
  · next hstands =>
      rw [if_neg (by exact hstands)]
      exact List.foldl_hom (Resolution.redeployed g) (compareMember_redeployed d interface)

theorem compareAll_redeployed (r : Resolution) (d : Declaration) :
    compareAll (ds.redeployed g) policy (r.redeployed g) (d.redeployed g) =
      (compareAll ds policy r d).redeployed g := by
  rw [compareAll, compareAll, ds.sameShape_redeployed.above_eq, ds.filterMap_named?_redeployed]
  split
  · next hrejected => rw [if_pos (by exact hrejected)]
  · next hstands =>
      rw [if_neg (by exact hstands), List.foldl_map]
      exact List.foldl_hom (Resolution.redeployed g) (compareWith_redeployed d)

end Conformance

end Resolution

namespace Declarations

open Resolution

theorem acyclic_redeployed (ds : Declarations) :
    (ds.redeployed g).acyclic = ds.acyclic.redeployed g := by
  have htargeted : (ds.redeployed g).targeted = ds.targeted.redeployed g := by
    rw [targeted, canonical_redeployed, List.foldl_map, registered]
    have hregistered : register [] (ds.redeployed g) {} = ds.registered.redeployed g :=
      register_redeployed [] ds {}
    rw [hregistered]
    exact List.foldl_hom (Resolution.redeployed g) checkTargets_redeployed
  rw [acyclic, htargeted, ds.sameShape_redeployed.cycles_eq]
  exact List.foldl_hom (Resolution.redeployed g) refuseCycle_redeployed

/-- Moving the accounts of the declarations moves those of the entries and changes nothing else. -/
theorem resolve_redeployed (ds : Declarations) (policy : Policy) :
    (ds.redeployed g).resolve policy = (ds.resolve policy).redeployed g := by
  rw [resolve, acyclic_redeployed, canonical_redeployed, List.foldl_map]
  exact List.foldl_hom (Resolution.redeployed g) compareAll_redeployed

end Declarations

end AuthorizedCalls
