import AuthorizedCalls.Proofs.Cycles
import AuthorizedCalls.Proofs.Refusals

namespace AuthorizedCalls

namespace Declarations

open Resolution

/-- The qualifier that is written for a function: for the first of its name in the first
declaration of its name. With several there is none. -/
def qualifierOf? (ds : Declarations) (name function : String) : Option Access :=
  (ds.named? name).bind fun d => (d.function? function).bind fun f => Access.effective f.qualifiers

/-- A declaration with several qualifiers, with a target that is no declared interface, or on a
cycle. -/
def Malformed (ds : Declarations) (name : String) : Prop :=
  ∃ d, ds.named? name = some d ∧
    (2 ≤ d.qualifiers.length ∨
      (∃ target ∈ d.conforms, ¬ ∃ i, ds.named? target = some i ∧ i.kind = .interface) ∨
      ds.ConformsTo name name)

/-- A function carries several qualifiers and its declaration does not. -/
def Ambiguous (ds : Declarations) (name function : String) : Prop :=
  ∃ d f, ds.named? name = some d ∧ d.qualifiers.length ≤ 1 ∧ d.function? function = some f ∧
    2 ≤ f.qualifiers.length

variable {ds : Declarations}

theorem Malformed.exists_declaration {name : String} (h : ds.Malformed name) :
    ∃ d, ds.named? name = some d := by
  obtain ⟨d, hd, -⟩ := h
  exact ⟨d, hd⟩

theorem length_qualifiers_of_not_malformed {name : String} {d : Declaration}
    (hd : ds.named? name = some d) (h : ¬ ds.Malformed name) : d.qualifiers.length ≤ 1 := by
  by_contra hseveral
  exact h ⟨d, hd, .inl (by omega)⟩

theorem qualifierOf?_eq_some_iff {name function : String} {qualifier : Access} :
    ds.qualifierOf? name function = some qualifier ↔
      ∃ d f, ds.named? name = some d ∧ d.function? function = some f ∧
        Access.effective f.qualifiers = some qualifier := by
  simp [qualifierOf?, Option.bind_eq_some_iff]

theorem qualifierOf?_of_ambiguous {name function : String} (h : ds.Ambiguous name function) :
    ds.qualifierOf? name function = none := by
  obtain ⟨d, f, hd, -, hf, hseveral⟩ := h
  simp [qualifierOf?, hd, hf, Access.effective_eq_none_iff.mpr hseveral]

theorem Dotless.of_named? (hds : ds.Dotless) {name : String} {d : Declaration}
    (h : ds.named? name = some d) : AuthorizedCalls.Dotless name := by
  obtain ⟨hmem, hname⟩ := mem_of_named? h
  exact hname ▸ hds d hmem

theorem registers?_contract_eq_reject_iff {name : String} (hname : AuthorizedCalls.Dotless name) :
    ds.registers? (.contract name) = some none ↔
      ∃ d, ds.named? name = some d ∧ 2 ≤ d.qualifiers.length := by
  rw [registers?, DeclId.contractName_contract hname, Option.bind_eq_some_iff]
  refine exists_congr fun d => and_congr_right fun _ => ?_
  rw [Declaration.registers?, DeclId.isMember_contract hname, if_neg Bool.false_ne_true,
    Option.some.injEq, Declaration.entry?, Option.map_eq_none_iff, Access.effective_eq_none_iff]

theorem registers?_member_eq_reject_iff {name function : String}
    (hname : AuthorizedCalls.Dotless name) :
    ds.registers? (.member name function) = some none ↔ ds.Ambiguous name function := by
  rw [registers?, DeclId.contractName_member _ hname, Option.bind_eq_some_iff, Ambiguous]
  constructor
  · rintro ⟨d, hd, hregisters⟩
    rw [Declaration.registers?, if_pos (DeclId.isMember_member name function),
      DeclId.memberName_member _ hname] at hregisters
    split at hregisters
    · next hqualifiers =>
        rw [Declaration.entry?, Option.isSome_map, Access.effective_isSome_iff] at hqualifiers
        obtain ⟨f, hf, hentry⟩ := Option.map_eq_some_iff.mp hregisters
        rw [Declaration.memberEntry?, Option.map_eq_none_iff,
          Access.effective_eq_none_iff] at hentry
        exact ⟨d, f, hd, hqualifiers, hf, hentry⟩
    · contradiction
  · rintro ⟨d, f, hd, hqualifiers, hf, hentry⟩
    have hstands : d.entry?.isSome := by
      rwa [Declaration.entry?, Option.isSome_map, Access.effective_isSome_iff]
    refine ⟨d, hd, ?_⟩
    rw [Declaration.registers?, if_pos (DeclId.isMember_member name function),
      DeclId.memberName_member _ hname, hf, if_pos hstands, Option.map_some,
      Declaration.memberEntry?, Access.effective_eq_none_iff.mpr hentry]
    rfl

theorem registers?_eq_reject_iff (hds : ds.Dotless) {id : DeclId} :
    ds.registers? id = some none ↔
      (∃ d, ds.named? d.name = some d ∧ id = d.id ∧ 2 ≤ d.qualifiers.length) ∨
        ∃ name function, id = .member name function ∧ ds.Ambiguous name function := by
  constructor
  · intro h
    cases hmember : id.isMember with
    | true =>
        rw [DeclId.eq_member_of_isMember hmember,
          registers?_member_eq_reject_iff id.dotless_contractName] at h
        exact .inr ⟨_, _, DeclId.eq_member_of_isMember hmember, h⟩
    | false =>
        have hid := DeclId.eq_contract_of_not_isMember hmember
        rw [hid, registers?_contract_eq_reject_iff id.dotless_contractName] at h
        obtain ⟨d, hd, hqualifiers⟩ := h
        obtain ⟨-, hname⟩ := mem_of_named? hd
        refine .inl ⟨d, hname.symm ▸ hd, ?_, hqualifiers⟩
        rw [Declaration.id, hname]
        exact hid
  · rintro (⟨d, hd, rfl, hqualifiers⟩ | ⟨name, function, rfl, hambiguous⟩)
    · exact (registers?_contract_eq_reject_iff (hds.of_named? hd)).mpr ⟨d, hd, hqualifiers⟩
    · obtain ⟨d, f, hd, hrest⟩ := hambiguous
      exact (registers?_member_eq_reject_iff (hds.of_named? hd)).mpr ⟨d, f, hd, hrest⟩

theorem exists_conformanceFinding_iff {id : DeclId} :
    (∃ x ∈ ds.conformanceFindings, x.subject = id) ↔
      ∃ d, ds.named? d.name = some d ∧ id = d.id ∧
        ((∃ target ∈ d.conforms, ¬ ∃ i, ds.named? target = some i ∧ i.kind = .interface) ∨
          ds.ConformsTo d.name d.name) := by
  simp only [conformanceFindings, List.mem_append, List.mem_flatMap]
  constructor
  · rintro ⟨x, ⟨d, hd, hx⟩ | ⟨members, hmembers, hx⟩, rfl⟩
    · refine ⟨d, mem_canonical_iff.mp hd, subject_of_mem_targetFindings hx, .inl ?_⟩
      have hfound := mt targetFindings_eq_nil_iff.mpr (List.ne_nil_of_mem hx)
      simpa using hfound
    · obtain ⟨d, hd, rfl⟩ := List.mem_map.mp hx
      obtain ⟨name, hname, hnamed⟩ := List.mem_filterMap.mp hd
      obtain ⟨-, rfl⟩ := mem_of_named? hnamed
      exact ⟨d, hnamed, rfl, .inr (exists_mem_cycles_iff.mp ⟨members, hmembers, hname⟩)⟩
  · rintro ⟨d, hd, rfl, htarget | hcycle⟩
    · have hfound : ds.targetFindings d ≠ [] := by
        rw [ne_eq, targetFindings_eq_nil_iff]
        simpa using htarget
      obtain ⟨x, hx⟩ := List.exists_mem_of_ne_nil _ hfound
      exact ⟨x, .inl ⟨d, mem_canonical_iff.mpr hd, hx⟩, subject_of_mem_targetFindings hx⟩
    · obtain ⟨members, hmembers, hname⟩ := exists_mem_cycles_iff.mpr hcycle
      refine ⟨_, .inr ⟨members, hmembers, List.mem_map_of_mem ?_⟩, rfl⟩
      exact List.mem_filterMap.mpr ⟨d.name, hname, hd⟩

theorem rejects_acyclic_iff (hds : ds.Dotless) {id : DeclId} :
    ds.acyclic.table.rejects id = true ↔
      (∃ name, id = .contract name ∧ ds.Malformed name) ∨
        ∃ name function, id = .member name function ∧ ds.Ambiguous name function := by
  rw [acyclic_eq, rejects_refuseAll, exists_conformanceFinding_iff, rejects_registered hds,
    decide_eq_true_eq, registers?_eq_reject_iff hds, ← or_assoc]
  apply or_congr_left
  constructor
  · rintro (⟨d, hd, rfl, hconforms⟩ | ⟨d, hd, rfl, hqualifiers⟩)
    · exact ⟨d.name, rfl, d, hd, .inr hconforms⟩
    · exact ⟨d.name, rfl, d, hd, .inl hqualifiers⟩
  · rintro ⟨name, rfl, d, hd, hmalformed⟩
    obtain ⟨-, rfl⟩ := mem_of_named? hd
    rcases hmalformed with hqualifiers | hconforms
    · exact .inr ⟨d, hd, rfl, hqualifiers⟩
    · exact .inl ⟨d, hd, rfl, hconforms⟩

theorem rejects_acyclic_contract_iff (hds : ds.Dotless) {name : String}
    (hname : AuthorizedCalls.Dotless name) :
    ds.acyclic.table.rejects (.contract name) = true ↔ ds.Malformed name := by
  rw [rejects_acyclic_iff hds]
  constructor
  · rintro (⟨other, hother, hmalformed⟩ | ⟨other, function, hother, -⟩)
    · cases hother
      exact hmalformed
    · exact absurd hother (DeclId.contract_ne_member_of_dotless hname other function)
  · intro hmalformed
    exact .inl ⟨name, rfl, hmalformed⟩

theorem rejects_acyclic_member_iff (hds : ds.Dotless) {name function : String}
    (hname : AuthorizedCalls.Dotless name) :
    ds.acyclic.table.rejects (.member name function) = true ↔ ds.Ambiguous name function := by
  rw [rejects_acyclic_iff hds]
  constructor
  · rintro (⟨other, hother, hmalformed⟩ | ⟨other, function', hother, hambiguous⟩)
    · obtain ⟨d, hd⟩ := hmalformed.exists_declaration
      have hne := DeclId.contract_ne_member_of_dotless (hds.of_named? hd) name function
      exact absurd hother.symm hne
    · obtain ⟨d, f, hd, hrest⟩ := hambiguous
      obtain ⟨rfl, rfl⟩ := (DeclId.member_inj hname (hds.of_named? hd)).mp hother
      exact ⟨d, f, hd, hrest⟩
  · intro hambiguous
    exact .inr ⟨name, function, rfl, hambiguous⟩

/-- In a table that rejects the malformed declarations a function has the qualifier that is
written for it, unless it or its declaration is rejected. -/
theorem qualifier?_member_iff {t : Table} (ht : t.Reflects ds.written?) {name function : String}
    (hname : AuthorizedCalls.Dotless name)
    (hcontract : t.rejects (.contract name) = true ↔ ds.Malformed name) {qualifier : Access} :
    t.qualifier? (.member name function) = some qualifier ↔
      ¬ ds.Malformed name ∧ t.rejects (.member name function) = false ∧
        ds.qualifierOf? name function = some qualifier := by
  rw [← hcontract, Bool.not_eq_true, Table.qualifier?, ht, Table.isRejected_member _ hname,
    qualifierOf?_eq_some_iff]
  constructor
  · intro h
    split at h
    · contradiction
    · next hstands =>
        rw [Bool.not_eq_true, Bool.or_eq_false_iff] at hstands
        obtain ⟨entry, hentry, rfl⟩ := Option.map_eq_some_iff.mp h
        obtain ⟨d, f, hd, hf, -, hmember⟩ :=
          (written?_eq_some_iff (DeclId.isMember_member _ _)).mp hentry
        rw [DeclId.contractName_member _ hname] at hd
        rw [DeclId.memberName_member _ hname] at hf
        obtain ⟨qualifier, hqualifier, rfl⟩ := Option.map_eq_some_iff.mp hmember
        exact ⟨hstands.2, hstands.1, d, f, hd, hf, hqualifier⟩
  · rintro ⟨hstands, hfunction, d, f, hd, hf, hqualifier⟩
    have hentry : d.entry?.isSome := by
      rw [Declaration.entry?, Option.isSome_map, Access.effective_isSome_iff]
      refine length_qualifiers_of_not_malformed hd ?_
      rw [← hcontract, hstands]
      exact Bool.false_ne_true
    have hwritten : ds.written? (.member name function) =
        some ⟨.function, qualifier, d.address, f.span⟩ := by
      rw [written?_eq_some_iff (DeclId.isMember_member _ _), DeclId.contractName_member _ hname,
        DeclId.memberName_member _ hname]
      exact ⟨d, f, hd, hf, hentry, by simp [Declaration.memberEntry?, hqualifier]⟩
    simp [hstands, hfunction, hwritten]

end Declarations

end AuthorizedCalls
