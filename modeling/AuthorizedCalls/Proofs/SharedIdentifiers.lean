import AuthorizedCalls.Proofs.RejectedSet

/-!
Registration under any names. Contracts and functions are kept under identifiers of one kind, so
where names hold dots two declarations may record something under one identifier, and the later
one wins (`get?_registered_eq_getLast?`). That is the only way in which an `auth` function comes
to have another qualifier (`qualifier?_resolve_of_auth`).
-/

namespace AuthorizedCalls

/-- The entry that a declaration records under an identifier: its own, or that of the first
function of a name which makes up the identifier. -/
def Declaration.recorded? (d : Declaration) (id : DeclId) : Option Entry :=
  if id = d.id then d.entry?
  else if d.entry?.isSome then
    (d.functions.find? fun f => DeclId.member d.name f.name = id).bind d.memberEntry?
  else none

namespace Declaration

variable {d : Declaration}

theorem recorded?_member (hentry : d.entry?.isSome) (name : String) :
    d.recorded? (.member d.name name) = (d.function? name).bind d.memberEntry? := by
  have hne : DeclId.member d.name name ≠ d.id := (DeclId.contract_ne_member d.name name).symm
  simp only [recorded?, if_neg hne, if_pos hentry, DeclId.member_inj_right, function?]

theorem name_eq_of_recorded?_member {c m : String} {entry : Entry}
    (h : d.recorded? (.member c m) = some entry) (hd : Dotless d.name) (hc : Dotless c) :
    d.name = c := by
  rw [recorded?] at h
  split at h
  · next hid => exact absurd hid.symm (DeclId.contract_ne_member_of_dotless hd c m)
  · split at h
    · obtain ⟨f, hf, -⟩ := Option.bind_eq_some_iff.mp h
      have hid : DeclId.member d.name f.name = .member c m := by simpa using List.find?_some hf
      exact ((DeclId.member_inj hd hc).mp hid).1
    · contradiction

end Declaration

namespace Resolution

theorem filterMap_entry_writes (d : Declaration) (id : DeclId) :
    d.writes.filterMap (Observation.entry id).written = (d.recorded? id).toList := by
  by_cases hmember : ∃ name, id = .member d.name name
  · obtain ⟨name, rfl⟩ := hmember
    rw [Observation.filterMap_writes_member]
    cases hentry : d.entry? with
    | none =>
        have hne := (DeclId.contract_ne_member d.name name).symm
        simp [Declaration.recorded?, Declaration.id, hentry, hne]
    | some entry =>
        rw [if_pos Option.isSome_some, Declaration.recorded?_member (by rw [hentry]; rfl)]
        cases hf : d.function? name with
        | none => rfl
        | some f =>
            have hname : f.name = name := by simpa using List.find?_some hf
            subst hname
            rw [Option.toList_some, List.flatMap_singleton, Observation.filterMap_memberWrites,
              Observation.entry_outcome]
            simp only [Observation.entry_signature, Option.bind_fun_none]
            rfl
  · rw [not_exists] at hmember
    rw [Observation.filterMap_writes_of_ne _ hmember, Declaration.recorded?]
    split
    · next hid => rw [hid, Observation.entry_outcome]
    · next hne =>
        have hfind : (d.functions.find? fun f => DeclId.member d.name f.name = id) = none := by
          rw [List.find?_eq_none]
          intro f _
          simpa using Ne.symm (hmember f.name)
        rw [hfind, (Observation.entry id).elsewhere]
        · simp
        · rw [Write.id_outcome]
          exact Ne.symm hne

/-- The last declaration that records something under an identifier wins. -/
theorem get?_registered_eq_getLast? (ds : Declarations) (id : DeclId) :
    ds.registered.table.get? id = (ds.canonical.filterMap fun d => d.recorded? id).getLast? := by
  refine ((Observation.entry id).read_registered ds).trans ?_
  rw [List.filterMap_eq_flatMap_toList]
  simp only [filterMap_entry_writes]

end Resolution

namespace Declarations

open Resolution

variable {ds : Declarations}

/-- What stands under an identifier was recorded by the last declaration that records something
there. -/
theorem exists_recorded?_of_get?_resolve {policy : Policy} {id : DeclId} {entry : Entry}
    (h : (ds.resolve policy).table.get? id = some entry) :
    ∃ e, ds.named? e.name = some e ∧ e.recorded? id = some entry ∧
      ∀ d, ds.named? d.name = some d → (d.recorded? id).isSome →
        d = e ∨ ds.Precedes d.name e.name := by
  have hlast := (leadsTo_resolve ds policy).get?_of_get? h
  rw [get?_registered_eq_getLast?] at hlast
  obtain ⟨_, hrecords⟩ := List.getLast?_eq_some_iff.mp hlast
  obtain ⟨earlier, later, hsplit, -, hlater⟩ := List.filterMap_eq_append_iff.mp hrecords
  obtain ⟨silent, e, after, rfl, -, hentry, hafter⟩ := List.filterMap_eq_cons_iff.mp hlater
  rw [List.filterMap_eq_nil_iff] at hafter
  rw [← List.append_assoc] at hsplit
  have hcanonical : e ∈ ds.canonical := by simp [hsplit]
  refine ⟨e, mem_canonical_iff.mp hcanonical, hentry, ?_⟩
  intro d hd hrecorded
  have hmem := mem_canonical_iff.mpr hd
  rw [hsplit, List.mem_append, List.mem_cons] at hmem
  rcases hmem with hbefore | rfl | hmem
  · exact .inr ((mem_before_iff hsplit).mp hbefore).2
  · exact .inl rfl
  · rw [hafter d hmem] at hrecorded
    contradiction

/-- A function that is written `auth` is `auth` in the resolved table or has no entry, unless a
later declaration records an entry under its identifier. That takes a dot in the name of one of
the two declarations. -/
theorem qualifier?_resolve_of_auth {d : Declaration} {f : Member}
    (hd : ds.named? d.name = some d) (hqualifiers : d.qualifiers.length ≤ 1)
    (hf : d.function? f.name = some f) (hauth : f.qualifiers = [.auth]) (policy : Policy) :
    (ds.resolve policy).table.qualifier? (.member d.name f.name) = none ∨
      (ds.resolve policy).table.qualifier? (.member d.name f.name) = some .auth ∨
      ∃ e entry, ds.named? e.name = some e ∧ ds.Precedes d.name e.name ∧
        e.recorded? (.member d.name f.name) = some entry ∧
        (ds.resolve policy).table.get? (.member d.name f.name) = some entry ∧
        ¬ (AuthorizedCalls.Dotless d.name ∧ AuthorizedCalls.Dotless e.name) := by
  cases hget : (ds.resolve policy).table.get? (.member d.name f.name) with
  | none => exact .inl (by rw [Table.qualifier?, hget]; rfl)
  | some entry =>
      right
      have hentry : d.entry?.isSome := by
        rwa [Declaration.entry?, Option.isSome_map, Access.effective_isSome_iff]
      have hrecorded : d.recorded? (.member d.name f.name) =
          some ⟨.function, .auth, d.address, f.span⟩ := by
        rw [Declaration.recorded?_member hentry, hf, Option.bind_some, Declaration.memberEntry?,
          hauth]
        rfl
      obtain ⟨e, he, hlast, hearlier⟩ := exists_recorded?_of_get?_resolve hget
      rcases hearlier d hd (Option.isSome_of_eq_some hrecorded) with rfl | hprecedes
      · rw [hrecorded, Option.some.injEq] at hlast
        left
        rw [Table.qualifier?, hget, ← hlast]
        rfl
      · refine .inr ⟨e, entry, he, hprecedes, hlast, rfl, ?_⟩
        rintro ⟨hdotless, hother⟩
        rw [Declaration.name_eq_of_recorded?_member hlast hother hdotless] at hprecedes
        exact Nat.lt_irrefl _ hprecedes

/-- A contract with an `auth` function, and one whose name is the identifier of that function. -/
def shadowed : Declarations :=
  [{ kind := .contract, name := "Vault", address := .ofNat 2,
     functions := [{ name := "join", qualifiers := [.auth] }] },
   { kind := .contract, name := "Vault.join", address := .ofNat 3 }]

theorem qualifier?_shadowed :
    (shadowed.resolve .exact).table.qualifier? (.member "Vault" "join") = some .all := by
  cbv

theorem shadowed_join_overwritten :
    ∃ e entry, shadowed.named? e.name = some e ∧ shadowed.Precedes "Vault" e.name ∧
      e.recorded? (.member "Vault" "join") = some entry ∧
      (shadowed.resolve .exact).table.get? (.member "Vault" "join") = some entry := by
  have hvault : shadowed.named? shadowed[0].name = some shadowed[0] := rfl
  have hcases := qualifier?_resolve_of_auth (f := { name := "join", qualifiers := [.auth] })
    hvault (by decide) rfl rfl .exact
  have hname : shadowed[0].name = "Vault" := rfl
  simp only [hname] at hcases
  rw [qualifier?_shadowed] at hcases
  rcases hcases with hnone | hauth | ⟨e, entry, he, hprecedes, hrecorded, hget, -⟩
  · contradiction
  · contradiction
  · exact ⟨e, entry, he, hprecedes, hrecorded, hget⟩

/-- An `auth` function that ends up with the qualifier of a contract. -/
theorem shadowed_join_not_auth :
    ∃ d f, shadowed.named? d.name = some d ∧ d.qualifiers.length ≤ 1 ∧
      d.function? f.name = some f ∧ f.qualifiers = [.auth] ∧
      (shadowed.resolve .exact).table.qualifier? (.member d.name f.name) = some .all :=
  ⟨shadowed[0], { name := "join", qualifiers := [.auth] }, rfl, by decide, rfl, rfl,
    qualifier?_shadowed⟩

end Declarations

end AuthorizedCalls
