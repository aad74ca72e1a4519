import AuthorizedCalls.Proofs.ImportFindings
import AuthorizedCalls.Proofs.UnknownImports

namespace AuthorizedCalls

structure Table.Importable (t : Table) (contract : String) (entry : Entry) : Prop where
  stands : t.isRejected (.contract contract) = false
  recorded : t.contract? contract = some entry

/-- What is wrong with an import that stands behind others. -/
inductive Import.Violates (table : Table) (before : List Import) (i : Import) :
    ImportViolation → Prop
  | unknown : table.Unknown i.contract → Violates table before i (.unknownContract i.contract)
  | plain {entry : Entry} :
      table.Importable i.contract entry → entry.qualifier = .auth → i.mode = .plain →
      (∀ j ∈ before, j.contract ≠ i.contract) →
      Violates table before i (.plainImport i.contract)
  | mode {entry : Entry} {first : Import} :
      table.Importable i.contract entry →
      (before.find? fun j => j.contract = i.contract) = some first → first.mode ≠ i.mode →
      Violates table before i (.otherMode i.contract first.mode first.span)

theorem Import.violation?_eq_some_iff {table : Table} {before : List Import} {i : Import}
    {v : ImportViolation} :
    i.violation? table before = some v ↔ i.Violates table before v := by
  rw [violation?]
  constructor
  · intro h
    split at h
    · contradiction
    · next hrejected =>
        have hstands : table.isRejected (.contract i.contract) = false := by simpa using hrejected
        split at h
        · next hentry =>
            obtain rfl := Option.some.inj h
            exact .unknown ⟨hstands, hentry⟩
        · next entry first hentry hfirst =>
            split at h
            · contradiction
            · next hmode =>
                obtain rfl := Option.some.inj h
                exact .mode ⟨hstands, hentry⟩ hfirst hmode
        · next entry hentry hnone =>
            split at h
            · contradiction
            · next husable =>
                obtain rfl := Option.some.inj h
                rw [Bool.not_eq_true, usable_bindingOf_eq_false_iff] at husable
                exact .plain ⟨hstands, hentry⟩ husable.1 husable.2
                  (by simpa using List.find?_eq_none.mp hnone)
  · intro h
    cases h with
    | unknown hunknown => simp [hunknown.1, hunknown.2]
    | plain hentry hauth hplain hfirst =>
        have hnone : (before.find? fun j => j.contract = i.contract) = none := by
          simpa [List.find?_eq_none] using hfirst
        have hunusable := usable_bindingOf_eq_false_iff.mpr ⟨hauth, hplain⟩
        simp [hentry.stands, hentry.recorded, hnone, hunusable]
    | mode hentry hfirst hmode => simp [hentry.stands, hentry.recorded, hfirst, hmode]

namespace ImportScope

variable {table : Table}

/-- The diagnostics on imports that stand behind others: in their order, one for each with which
something is wrong. -/
inductive Reports (table : Table) : List Import → List Import → Diagnostics → Prop
  | nil {before : List Import} : Reports table before [] []
  | silent {before rest : List Import} {i : Import} {diagnostics : Diagnostics} :
      (∀ v, ¬ i.Violates table before v) → Reports table (before ++ [i]) rest diagnostics →
      Reports table before (i :: rest) diagnostics
  | violated {before rest : List Import} {i : Import} {v : ImportViolation}
      {diagnostics : Diagnostics} :
      i.Violates table before v → Reports table (before ++ [i]) rest diagnostics →
      Reports table before (i :: rest) (v.diagnostic i.span :: diagnostics)

theorem reports_findings (before rest : List Import) :
    Reports table before rest (findings table before rest) := by
  induction rest generalizing before with
  | nil => exact .nil
  | cons i rest ih =>
      rw [findings, Import.finding?]
      cases hviolation : i.violation? table before with
      | none =>
          refine .silent ?_ (ih _)
          intro v hv
          rw [← Import.violation?_eq_some_iff, hviolation] at hv
          contradiction
      | some v => exact .violated (Import.violation?_eq_some_iff.mp hviolation) (ih _)

theorem Reports.eq_findings {before rest : List Import} {diagnostics : Diagnostics}
    (h : Reports table before rest diagnostics) : diagnostics = findings table before rest := by
  induction h with
  | nil => rfl
  | @silent before rest i _ hsilent _ ih =>
      have hnone : i.violation? table before = none := by
        rw [Option.eq_none_iff_forall_not_mem]
        intro v hv
        exact hsilent v (Import.violation?_eq_some_iff.mp hv)
      rw [findings, Import.finding?, hnone, ih]
      rfl
  | violated hviolates _ ih =>
      rw [findings, Import.finding?, Import.violation?_eq_some_iff.mpr hviolates, ih]
      rfl

theorem reports_iff {imports : List Import} {diagnostics : Diagnostics} :
    Reports table [] imports diagnostics ↔ diagnostics = (ofImports table imports).2 := by
  rw [diagnostics_ofImports]
  constructor
  · exact Reports.eq_findings
  · rintro rfl
    exact reports_findings [] imports

theorem bind_eq_self {state : ImportScope × Diagnostics} {i : Import} {binding : ImportBinding}
    (hbound : state.1.find? i.contract = some binding) (hmode : binding.mode = i.mode)
    {entry : Entry} (hentry : table.Importable i.contract entry) : bind table state i = state := by
  simp [bind, hentry.stands, hentry.recorded, hbound, hmode]

theorem exists_first_of_find? {imports : List Import} {contract : String} {b : ImportBinding}
    (hb : (ofImports table imports).1.find? contract = some b) :
    ∃ first entry, (imports.find? fun i => i.contract = contract) = some first ∧
      table.Importable contract entry ∧
      b = ⟨contract, first.mode, entry.qualifier,
        !(entry.qualifier.isAuth && first.mode == .plain), first.span⟩ := by
  obtain ⟨first, entry, hfirst, hstands, hentry, rfl⟩ := find?_ofImports_eq_some_iff.mp hb
  have hname : first.contract = contract := by simpa using List.find?_some hfirst
  exact ⟨first, entry, hfirst, ⟨hstands, hentry⟩, by rw [Import.bindingOf, hname]⟩

theorem isSome_find?_ofImports_iff {imports : List Import} {contract : String} :
    ((ofImports table imports).1.find? contract).isSome ↔
      (∃ i ∈ imports, i.contract = contract) ∧ ∃ entry, table.Importable contract entry := by
  constructor
  · intro hbound
    obtain ⟨b, hb⟩ := Option.isSome_iff_exists.mp hbound
    obtain ⟨first, entry, hfirst, hentry, -⟩ := exists_first_of_find? hb
    exact ⟨⟨first, List.mem_of_find?_eq_some hfirst, by simpa using List.find?_some hfirst⟩,
      entry, hentry⟩
  · rintro ⟨⟨i, hi, hname⟩, entry, hentry⟩
    have hsome : (imports.find? fun i => i.contract = contract).isSome :=
      List.find?_isSome.mpr ⟨i, hi, by simpa using hname⟩
    obtain ⟨first, hfirst⟩ := Option.isSome_iff_exists.mp hsome
    rw [find?_ofImports_eq_some_iff.mpr
      ⟨first, entry, hfirst, hentry.stands, hentry.recorded, rfl⟩]
    rfl

theorem ofImports_repeated {before after : List Import} {i first : Import}
    (hfirst : (before.find? fun j => j.contract = i.contract) = some first)
    (hmode : i.mode = first.mode) {entry : Entry} (hentry : table.Importable i.contract entry) :
    ofImports table (before ++ i :: after) = ofImports table (before ++ after) := by
  -- What stands before it has bound the contract already, in the mode of the first import.
  have hearlier : (ofImports table before).1.find? i.contract = some (first.bindingOf entry) := by
    rw [find?_ofImports_of_entry hentry.stands hentry.recorded, hfirst, Option.map_some]
  have hskip : bind table (ofImports table before) i = ofImports table before :=
    bind_eq_self hearlier hmode.symm hentry
  rw [ofImports_append, ofImports_append, List.foldl_cons, hskip]

/-- A scope and diagnostics in which of several imports of one contract the first counts. -/
structure FirstCounts (table : Table) (imports : List Import)
    (result : ImportScope × Diagnostics) : Prop where
  isSome_iff : ∀ contract, (result.1.find? contract).isSome ↔
    (∃ i ∈ imports, i.contract = contract) ∧ ∃ entry, table.Importable contract entry
  binding : ∀ contract b, result.1.find? contract = some b →
    ∃ first entry, (imports.find? fun i => i.contract = contract) = some first ∧
      table.Importable contract entry ∧
      b = ⟨contract, first.mode, entry.qualifier,
        !(entry.qualifier.isAuth && first.mode == .plain), first.span⟩
  diagnostics : ∀ ds, Reports table [] imports ds ↔ ds = result.2
  repeated : ∀ before i after first, imports = before ++ i :: after →
    (before.find? fun j => j.contract = i.contract) = some first → i.mode = first.mode →
    (result.1.find? i.contract).isSome → ofImports table (before ++ after) = result

theorem firstCounts_ofImports (table : Table) (imports : List Import) :
    FirstCounts table imports (ofImports table imports) where
  isSome_iff _ := isSome_find?_ofImports_iff
  binding _ _ := exists_first_of_find?
  diagnostics _ := reports_iff
  repeated := by
    rintro before i after first rfl hfirst hmode hbound
    obtain ⟨-, entry, hentry⟩ := isSome_find?_ofImports_iff.mp hbound
    exact (ofImports_repeated hfirst hmode hentry).symm

end ImportScope

end AuthorizedCalls
