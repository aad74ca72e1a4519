import AuthorizedCalls.Proofs.OmittedFindings
import AuthorizedCalls.Proofs.RejectedSet
import AuthorizedCalls.Proofs.Reordering
import AuthorizedCalls.Proofs.Signatures
import AuthorizedCalls.Proofs.UnitFrame

/-!
A declaration that no other one conforms to stays to itself. What is found about it touches none
of the identifiers of the others (`Table.AgreesApart.reject_left`), and about the others every
pass finds the same with it and without. So the resolution of the others alone is that of all with
the part of the one declaration struck out (`resolve_without`).
-/

namespace AuthorizedCalls

/-- The diagnostic is charged to a declaration of this name or to one of its functions. -/
def Diagnostic.concerns (x : Diagnostic) (name : String) : Bool :=
  x.declaration.any fun id => id.contractName = name

def Diagnostics.without (diagnostics : Diagnostics) (name : String) : Diagnostics :=
  diagnostics.filter fun x => !x.concerns name

def Table.without (t : Table) (name : String) : Table where
  entries := t.entries.filterKeys fun key => (DeclId.mk key).contractName ≠ name
  rejected := t.rejected.filterKeys fun key => (DeclId.mk key).contractName ≠ name
  lowered := t.lowered.filterKeys fun key => (DeclId.mk key).contractName ≠ name

def Resolution.without (r : Resolution) (name : String) : Resolution where
  table := r.table.without name
  diagnostics := r.diagnostics.without name

namespace Table

theorem get?_without (t : Table) (name : String) (id : DeclId) :
    (t.without name).get? id = if id.contractName = name then none else t.get? id := by
  rw [get?, without, SortedMap.find?_filterKeys]
  by_cases hid : id.contractName = name <;> simp [hid, get?]

theorem rejects_without (t : Table) (name : String) (id : DeclId) :
    (t.without name).rejects id = if id.contractName = name then false else t.rejects id := by
  rw [rejects, without, SortedMap.contains, SortedMap.find?_filterKeys]
  by_cases hid : id.contractName = name <;> simp [hid, rejects, SortedMap.contains]

theorem lowered?_without (t : Table) (name : String) (id : DeclId) :
    (t.without name).lowered? id = if id.contractName = name then none else t.lowered? id := by
  rw [lowered?, without, SortedMap.find?_filterKeys]
  by_cases hid : id.contractName = name <;> simp [hid, lowered?]

/-- Two tables say the same of every identifier but those of one declaration and its functions. -/
structure AgreesApart (t t' : Table) (name : String) : Prop where
  get? : ∀ id, id.contractName ≠ name → t.get? id = t'.get? id
  rejects : ∀ id, id.contractName ≠ name → t.rejects id = t'.rejects id
  lowered? : ∀ id, id.contractName ≠ name → t.lowered? id = t'.lowered? id

namespace AgreesApart

variable {t t' : Table} {name : String}

theorem isRejected (h : t.AgreesApart t' name) {id : DeclId} (hid : id.contractName ≠ name) :
    t.isRejected id = t'.isRejected id := by
  have hcontract : (DeclId.contract id.contractName).contractName ≠ name := by
    rw [DeclId.contractName_contract id.dotless_contractName]
    exact hid
  rw [isRejected_eq, isRejected_eq, h.rejects id hid, h.rejects _ hcontract]

theorem reject (h : t.AgreesApart t' name) (id : DeclId) :
    (t.reject id).AgreesApart (t'.reject id) name where
  get? other hother := by rw [get?_reject, get?_reject, h.get? other hother]
  rejects other hother := by rw [rejects_reject, rejects_reject, h.rejects other hother]
  lowered? other hother := by rw [lowered?_reject, lowered?_reject, h.lowered? other hother]

theorem reject_left (h : t.AgreesApart t' name) {id : DeclId} (hid : id.contractName = name) :
    (t.reject id).AgreesApart t' name := by
  have hother : ∀ {other : DeclId}, other.contractName ≠ name → other ≠ id := by
    rintro other hne rfl
    exact hne hid
  have hdrops : ∀ {other : DeclId}, other.contractName ≠ name →
      dropsWith id other.text = false := by
    intro other hne
    have hcontract : DeclId.contract other.contractName ≠ id := by
      apply hother
      rw [DeclId.contractName_contract other.dotless_contractName]
      exact hne
    simp [dropsWith_eq, hother hne, hcontract]
  constructor
  · intro other hne
    rw [get?_reject, hdrops hne, if_neg Bool.false_ne_true, h.get? other hne]
  · intro other hne
    rw [rejects_reject, decide_eq_false (hother hne), Bool.false_or, h.rejects other hne]
  · intro other hne
    rw [lowered?_reject, hdrops hne, if_neg Bool.false_ne_true, h.lowered? other hne]

theorem foldl_reject (h : t.AgreesApart t' name) (xs : List Finding) :
    ((xs.map Finding.subject).foldl Table.reject t).AgreesApart
      (((xs.filter fun x => !x.concerns name).map Finding.subject).foldl Table.reject t') name := by
  induction xs generalizing t t' with
  | nil => exact h
  | cons x rest ih =>
      cases hx : x.concerns name with
      | true =>
          rw [List.filter_cons_of_neg (by simp [hx])]
          exact ih (h.reject_left (of_decide_eq_true hx))
      | false =>
          rw [List.filter_cons_of_pos (by simp [hx])]
          exact ih (h.reject x.subject)

theorem without_eq (h : t.AgreesApart t' name)
    (hnone : ∀ id : DeclId, id.contractName = name →
      t'.get? id = none ∧ t'.rejects id = false ∧ t'.lowered? id = none) :
    t.without name = t' := by
  apply ext_lookup
  · intro id
    rw [get?_without]
    split
    · next hid => exact (hnone id hid).1.symm
    · next hid => exact h.get? id hid
  · intro id
    rw [rejects_without]
    split
    · next hid => exact (hnone id hid).2.1.symm
    · next hid => exact h.rejects id hid
  · intro id
    rw [lowered?_without]
    split
    · next hid => exact (hnone id hid).2.2.symm
    · next hid => exact h.lowered? id hid

end AgreesApart

end Table

namespace Resolution

variable {r r' : Resolution} {name : String} {ds : Declarations} {policy : Policy}

/-- One resolution is another with the part of one declaration struck out. -/
structure RestrictsTo (r r' : Resolution) (name : String) : Prop where
  table : r.table.AgreesApart r'.table name
  diagnostics : r.diagnostics.without name = r'.diagnostics

theorem without_map_diagnostic (xs : List Finding) :
    Diagnostics.without (xs.map Finding.diagnostic) name =
      (xs.filter fun x => !x.concerns name).map Finding.diagnostic := by
  rw [Diagnostics.without, List.filter_map]
  rfl

theorem RestrictsTo.refuseAll (h : r.RestrictsTo r' name) (xs : List Finding) :
    (r.refuseAll xs).RestrictsTo (r'.refuseAll (xs.filter fun x => !x.concerns name)) name where
  table := by
    rw [table_refuseAll, table_refuseAll]
    exact h.table.foldl_reject xs
  diagnostics := by
    rw [diagnostics_refuseAll, diagnostics_refuseAll, Diagnostics.without, List.filter_append,
      ← h.diagnostics, ← without_map_diagnostic]
    rfl

theorem registered_restrictsTo (hds : ds.Dotless) (name : String) :
    ds.registered.RestrictsTo (ds.without name).registered name where
  table := by
    have hregisters : ∀ {id : DeclId}, id.contractName ≠ name →
        ds.registers? id = (ds.without name).registers? id := by
      intro id hid
      rw [Declarations.registers?, Declarations.registers?, Declarations.named?_without hid]
    constructor
    · intro id hid
      rw [get?_registered hds, get?_registered (hds.without name), Declarations.written?,
        Declarations.written?, hregisters hid]
    · intro id hid
      rw [rejects_registered hds, rejects_registered (hds.without name), hregisters hid]
    · intro id hid
      rw [lowered?_registered hds, lowered?_registered (hds.without name),
        Declarations.signature?, Declarations.signature?, Declarations.named?_without hid]
  diagnostics := by
    rw [diagnostics_registered, diagnostics_registered, without_map_diagnostic,
      Declarations.registrationFindings_without hds]

theorem acyclic_restrictsTo (hds : ds.Dotless) (h : ds.Untargeted name) :
    ds.acyclic.RestrictsTo (ds.without name).acyclic name := by
  -- The findings do not depend on the table, so one list of refusals stands for both passes.
  rw [Declarations.acyclic_eq, Declarations.acyclic_eq,
    Declarations.conformanceFindings_without hds h]
  exact (registered_restrictsTo hds name).refuseAll ds.conformanceFindings

theorem conflictFindings_without (hds : ds.Dotless) (h : ds.Untargeted name) {t t' : Table}
    (ht : t.AgreesApart t' name) {d : Declaration} (hd : d ∈ ds) (hne : d.name ≠ name) :
    (ds.without name).conflictFindings policy t' d = ds.conflictFindings policy t d := by
  have hmember : ∀ {e : Declaration}, e ∈ ds → e.name ≠ name → ∀ function,
      t.get? (.member e.name function) = t'.get? (.member e.name function) := by
    intro e he hne function
    apply ht.get?
    rw [DeclId.contractName_member function (hds e he)]
    exact hne
  rw [Declarations.conflictFindings, Declarations.conflictFindings,
    Declarations.comparisons_without h hne]
  congr 1
  apply List.filterMap_congr
  intro p hp
  obtain ⟨hconforms, -, hnamed, -⟩ := Declarations.mem_comparisons_iff.mp hp
  have hinterface := hmember (Declarations.mem_of_named? hnamed).1
    (h.ne_of_conformsTo hne hconforms) p.2.name
  simp only [conflictFinding?, conflict?, Table.qualifier?, hinterface, hmember hd hne p.2.name]

theorem filter_concerns_conflictFindings (hds : ds.Dotless) (name : String) (t : Table)
    {d : Declaration} (hd : d ∈ ds) :
    (ds.conflictFindings policy t d).filter (fun x => !x.concerns name) =
      if d.name ≠ name then ds.conflictFindings policy t d else [] := by
  have hconcerns : ∀ x ∈ ds.conflictFindings policy t d,
      x.concerns name = !decide (d.name ≠ name) := by
    intro x hx
    obtain ⟨p, -, hid, -⟩ := Declarations.exists_conflictFinding_iff.mp ⟨x, hx, rfl⟩
    simp [Finding.concerns, hid, DeclId.contractName_member _ (hds d hd)]
  rw [filter_concerns_eq hconcerns]
  simp only [decide_eq_true_eq]

theorem RestrictsTo.compareAll_left (hds : ds.Dotless) (hr : r.table.Reflects ds.written?)
    (hrestricts : r.RestrictsTo r' name) {d : Declaration} (hd : d ∈ ds.canonical)
    (hname : d.name = name) : (compareAll ds policy r d).RestrictsTo r' name := by
  have hrefuse := hrestricts.refuseAll (ds.conflictFindings policy r.table d)
  rw [filter_concerns_conflictFindings hds name _ (mem_of_mem_firstsBy hd),
    if_neg (not_not.mpr hname)] at hrefuse
  rw [Declarations.compareAll_eq hds hd hr]
  exact hrefuse

theorem RestrictsTo.compareAll (hds : ds.Dotless) (h : ds.Untargeted name)
    (hr : r.table.Reflects ds.written?) (hr' : r'.table.Reflects (ds.without name).written?)
    (hrestricts : r.RestrictsTo r' name) {d : Declaration} (hd : d ∈ ds.canonical)
    (hname : d.name ≠ name) :
    (compareAll ds policy r d).RestrictsTo (compareAll (ds.without name) policy r' d) name := by
  have hmem := mem_of_mem_firstsBy hd
  have hd' : d ∈ (ds.without name).canonical := by
    rw [Declarations.canonical_without]
    exact List.mem_filter.mpr ⟨hd, decide_eq_true hname⟩
  have hrefuse := hrestricts.refuseAll (ds.conflictFindings policy r.table d)
  rw [filter_concerns_conflictFindings hds name _ hmem, if_pos hname] at hrefuse
  rw [Declarations.compareAll_eq hds hd hr, Declarations.compareAll_eq (hds.without name) hd' hr',
    conflictFindings_without hds h hrestricts.table hmem hname]
  exact hrefuse

theorem RestrictsTo.foldl_compareAll (hds : ds.Dotless) (h : ds.Untargeted name)
    {xs : List Declaration} (hxs : ∀ d ∈ xs, d ∈ ds.canonical)
    (hr : r.table.Reflects ds.written?) (hr' : r'.table.Reflects (ds.without name).written?)
    (hrestricts : r.RestrictsTo r' name) :
    (xs.foldl (Resolution.compareAll ds policy) r).RestrictsTo
      ((xs.filter fun d => d.name ≠ name).foldl
        (Resolution.compareAll (ds.without name) policy) r') name := by
  -- Along the declarations still to be compared; the tables on both sides go on to hold what is
  -- written, which is what lets a turn be read as a list of refusals.
  induction xs generalizing r r' with
  | nil => exact hrestricts
  | cons d rest ih =>
      obtain ⟨hd, hrest⟩ := List.forall_mem_cons.mp hxs
      have hreflects := (leadsTo_compareAll ds policy r d).reflects hr
      rw [List.foldl_cons]
      by_cases hname : d.name = name
      · rw [List.filter_cons_of_neg (by simp [hname])]
        exact ih hrest hreflects hr' (hrestricts.compareAll_left hds hr hd hname)
      · rw [List.filter_cons_of_pos (by simp [hname]), List.foldl_cons]
        exact ih hrest hreflects ((leadsTo_compareAll _ policy r' d).reflects hr')
          (hrestricts.compareAll hds h hr hr' hd hname)

theorem resolve_restrictsTo (hds : ds.Dotless) (h : ds.Untargeted name) (policy : Policy) :
    (ds.resolve policy).RestrictsTo ((ds.without name).resolve policy) name := by
  rw [Declarations.resolve, Declarations.resolve, Declarations.canonical_without]
  exact (acyclic_restrictsTo hds h).foldl_compareAll hds h (fun _ hd => hd)
    (reflects_acyclic hds) (reflects_acyclic (hds.without name))

theorem resolve_eq_of_named?_eq_none (hds : ds.Dotless) (hnone : ds.named? name = none)
    {id : DeclId} (hid : id.contractName = name) :
    (ds.resolve policy).table.get? id = none ∧ (ds.resolve policy).table.rejects id = false ∧
      (ds.resolve policy).table.lowered? id = none := by
  subst hid
  refine ⟨?_, ?_, ?_⟩
  · rw [reflects_resolve hds policy id, Declarations.written?, Declarations.registers?, hnone]
    split <;> rfl
  · rw [← Bool.not_eq_true]
    intro hrejects
    obtain ⟨d, hd⟩ := Declarations.exists_declaration_of_rejects hds hrejects
    rw [hnone] at hd
    contradiction
  · rw [lowersAs_resolve hds policy id, Declarations.signature?, hnone]
    split <;> rfl

end Resolution

namespace Declarations

/-- Resolution without a name that no other declaration conforms to is resolution with it, less
what concerns the name. -/
theorem resolve_without {ds : Declarations} {name : String} (hds : ds.Dotless)
    (h : ds.Untargeted name) (policy : Policy) :
    (ds.resolve policy).without name = (ds.without name).resolve policy := by
  have hrestricts := Resolution.resolve_restrictsTo hds h policy
  have htable : (ds.resolve policy).table.without name =
      ((ds.without name).resolve policy).table :=
    hrestricts.table.without_eq fun id hid =>
      Resolution.resolve_eq_of_named?_eq_none (hds.without name) named?_without_self hid
  rw [Resolution.without, htable, hrestricts.diagnostics]

/-- A declaration whose name none of the others bears or conforms to. -/
structure Unrelated (ds : Declarations) (d : Declaration) : Prop where
  name : ∀ e ∈ ds, e.name ≠ d.name
  conforms : ∀ e ∈ ds, d.name ∉ e.conforms

variable {before after : Declarations} {d : Declaration}

theorem Unrelated.without_insert (h : Unrelated (before ++ after) d) :
    without (before ++ d :: after) d.name = before ++ after := by
  have hother : (before ++ after).filter (fun e => e.name ≠ d.name) = before ++ after := by
    rw [List.filter_eq_self]
    intro e he
    simpa using h.name e he
  rw [without, List.filter_append, List.filter_cons_of_neg (by simp), ← List.filter_append, hother]

theorem Unrelated.untargeted (h : Unrelated (before ++ after) d) :
    Untargeted (before ++ d :: after) d.name := by
  intro e he hne
  apply h.conforms
  simp only [List.mem_append, List.mem_cons] at he ⊢
  rcases he with he | rfl | he
  · exact .inl he
  · exact absurd rfl hne
  · exact .inr he

end Declarations

open Declarations in
/-- An unrelated declaration, wherever it stands and whatever is wrong with it, changes neither
what is resolved of the others nor the report on a unit that does not mention it. -/
theorem Batch.check_insert_unrelated {before after : Declarations} {d : Declaration}
    (hds : Declarations.Dotless (before ++ d :: after)) (h : Unrelated (before ++ after) d)
    (units : List CompilationUnit) (config : CheckConfig) :
    (resolve (before ++ d :: after) config.policy).without d.name =
        resolve (before ++ after) config.policy ∧
      ∀ (i : Nat) (u : CompilationUnit), units[i]? = some u → ¬ u.Mentions d.name →
        ∃ report, (Batch.check ⟨before ++ d :: after, units⟩ config).units[i]? = some report ∧
          (Batch.check ⟨before ++ after, units⟩ config).units[i]? = some report := by
  have hrestricts := Resolution.resolve_restrictsTo hds h.untargeted config.policy
  have hresolve := resolve_without hds h.untargeted config.policy
  rw [h.without_insert] at hrestricts hresolve
  refine ⟨hresolve, fun i u hu hmentions => ?_⟩
  have hcheck : u.check (Batch.table ⟨before ++ d :: after, units⟩ config) =
      u.check (Batch.table ⟨before ++ after, units⟩ config) := by
    apply CompilationUnit.check_congr
    rintro name hname id rfl
    have hid : id.contractName ≠ d.name := by
      intro heq
      exact hmentions (heq ▸ hname)
    exact ⟨hrestricts.table.get? id hid, hrestricts.table.isRejected hid⟩
  exact ⟨_, getElem?_units_check hu config, hcheck ▸ getElem?_units_check hu config⟩

/-- An interface that conforms to itself, to something unknown and to an interface that it
conflicts with. -/
def rogue : Declaration where
  kind := .interface
  name := "Rogue"
  address := .ofNat 3
  conforms := ["Rogue", "Nowhere", "Stakeable"]
  functions := [{ name := "join" }, { name := "join" }]

def joiningUnit : CompilationUnit where
  name := "join"
  kind := .transaction [{ name := "signer" }]
  imports := [{ contract := "Vault", mode := .authorized }]
  calls := [{ contract := "Vault", member := "join", phase := .prepare }]

open Declarations in
theorem rogue_insert_unrelated :
    Declarations.Dotless (contested.take 2 ++ rogue :: contested.drop 2) ∧
      Unrelated (contested.take 2 ++ contested.drop 2) rogue ∧
      (resolve (contested.take 2 ++ rogue :: contested.drop 2) .exact).without "Rogue" =
        resolve contested .exact ∧
      ¬ joiningUnit.Mentions "Rogue" ∧
      ∃ report,
        (Batch.check ⟨contested.take 2 ++ rogue :: contested.drop 2, [joiningUnit]⟩ {}).units[0]? =
            some report ∧
          (Batch.check ⟨contested, [joiningUnit]⟩ {}).units[0]? = some report := by
  have hdotless : Declarations.Dotless (contested.take 2 ++ rogue :: contested.drop 2) := by decide
  have hunrelated : Unrelated (contested.take 2 ++ contested.drop 2) rogue :=
    ⟨by decide, by decide⟩
  have hmentions : ¬ joiningUnit.Mentions "Rogue" := by
    rintro (⟨hi, hname⟩ | ⟨hc, hname⟩ | ⟨hown, -⟩)
    · cases List.mem_singleton.mp hi
      revert hname
      decide
    · cases List.mem_singleton.mp hc
      revert hname
      decide
    · contradiction
  obtain ⟨hresolve, hunits⟩ :=
    Batch.check_insert_unrelated hdotless hunrelated [joiningUnit] {}
  exact ⟨hdotless, hunrelated, hresolve, hmentions, hunits 0 joiningUnit rfl hmentions⟩

end AuthorizedCalls
