import AuthorizedCalls.ImportScope

namespace AuthorizedCalls

namespace Import

def bindingOf (i : Import) (entry : Entry) : ImportBinding :=
  ⟨i.contract, i.mode, entry.qualifier, !(entry.qualifier.isAuth && i.mode == .plain), i.span⟩

/-- The binding that an import makes where nothing is bound yet; none where its contract is
rejected or has no entry. -/
def binding? (i : Import) (table : Table) : Option ImportBinding :=
  if table.isRejected (.contract i.contract) then none
  else (table.contract? i.contract).map i.bindingOf

theorem usable_bindingOf_eq_false_iff {i : Import} {entry : Entry} :
    (i.bindingOf entry).usable = false ↔ entry.qualifier = .auth ∧ i.mode = .plain := by
  simp [bindingOf]

end Import

namespace ImportScope

variable {table : Table}

theorem find?_bind (table : Table) (state : ImportScope × Diagnostics) (i : Import)
    (contract : String) :
    (bind table state i).1.find? contract =
      (state.1.find? contract).or
        (if i.contract = contract then i.binding? table else none) := by
  obtain ⟨scope, diagnostics⟩ := state
  simp only [bind, Import.binding?]
  split
  · simp
  · split
    · next hentry => simp [hentry]
    · next entry hentry =>
        split
        · next first hfirst =>
            have hbound : (scope.find? contract).or
                (if i.contract = contract then some (i.bindingOf entry) else none) =
                  scope.find? contract := by
              by_cases hname : i.contract = contract
              · simp [← hname, hfirst]
              · simp [hname]
            rw [hentry, Option.map_some]
            split <;> exact hbound.symm
        · next hfree =>
            simp only [SortedMap.find?_insert, hentry, Option.map_some]
            by_cases hname : i.contract = contract
            · simp [← hname, hfree, Import.bindingOf]
            · simp [hname, Ne.symm hname]

theorem binding?_eq_none_of_same {i other : Import} (h : i.binding? table = none)
    (hsame : other.contract = i.contract) : other.binding? table = none := by
  rw [Import.binding?] at h ⊢
  rw [hsame]
  split at h
  · next hrejected => rw [if_pos hrejected]
  · next hrejected =>
      rw [if_neg hrejected]
      exact Option.map_eq_none_iff.mpr (Option.map_eq_none_iff.mp h)

theorem find?_foldl_bind (imports : List Import) (state : ImportScope × Diagnostics)
    (contract : String) :
    (imports.foldl (bind table) state).1.find? contract =
      (state.1.find? contract).or
        ((imports.find? fun i => i.contract = contract).bind (·.binding? table)) := by
  induction imports generalizing state with
  | nil => simp
  | cons i rest ih =>
      rw [List.foldl_cons, ih, find?_bind, Option.or_assoc]
      congr 1
      by_cases hname : i.contract = contract
      · rw [if_pos hname]
        simp only [List.find?_cons, hname, decide_true, Option.bind_some]
        cases hbinding : i.binding? table with
        | some binding => rfl
        | none =>
            -- What follows cannot bind either, so the first import decides here too.
            rw [Option.none_or, Option.bind_eq_none_iff]
            intro other hother
            have hsame : other.contract = contract := by simpa using List.find?_some hother
            exact binding?_eq_none_of_same hbinding (hsame.trans hname.symm)
      · simp [hname]

theorem find?_ofImports (table : Table) (imports : List Import) (contract : String) :
    (ofImports table imports).1.find? contract =
      (imports.find? fun i => i.contract = contract).bind (·.binding? table) := by
  rw [ofImports, find?_foldl_bind, SortedMap.find?_empty, Option.none_or]

theorem find?_ofImports_map {f : Import → Import} {g : ImportBinding → ImportBinding}
    (hcontract : ∀ i, (f i).contract = i.contract)
    (hbinding : ∀ i, (f i).binding? table = (i.binding? table).map g) (imports : List Import)
    (contract : String) :
    (ofImports table (imports.map f)).1.find? contract =
      ((ofImports table imports).1.find? contract).map g := by
  have hfirst : ((imports.map f).find? fun i => i.contract = contract) =
      (imports.find? fun i => i.contract = contract).map f := by
    rw [List.find?_map]
    simp only [Function.comp_def, hcontract]
  rw [find?_ofImports, find?_ofImports, hfirst, Option.bind_map, Option.map_bind]
  exact congrArg (Option.bind _) (funext hbinding)

theorem find?_ofImports_eq_some_iff {imports : List Import} {contract : String}
    {binding : ImportBinding} :
    (ofImports table imports).1.find? contract = some binding ↔
      ∃ i entry, (imports.find? fun i => i.contract = contract) = some i ∧
        table.isRejected (.contract contract) = false ∧
        table.contract? contract = some entry ∧ binding = i.bindingOf entry := by
  rw [find?_ofImports, Option.bind_eq_some_iff]
  constructor
  · rintro ⟨i, hi, hbinding⟩
    have hname : i.contract = contract := by simpa using List.find?_some hi
    rw [Import.binding?, hname] at hbinding
    split at hbinding
    · contradiction
    · next hrejected =>
        obtain ⟨entry, hentry, rfl⟩ := Option.map_eq_some_iff.mp hbinding
        exact ⟨i, entry, hi, by simpa using hrejected, hentry, rfl⟩
  · rintro ⟨i, entry, hi, hrejected, hentry, rfl⟩
    have hname : i.contract = contract := by simpa using List.find?_some hi
    exact ⟨i, hi, by simp [Import.binding?, hname, hrejected, hentry]⟩

theorem exists_import_of_find? {imports : List Import} {contract : String}
    {binding : ImportBinding} (h : (ofImports table imports).1.find? contract = some binding) :
    binding.contract = contract ∧
      ∃ i ∈ imports, i.contract = contract ∧ binding.mode = i.mode := by
  obtain ⟨i, entry, hi, -, -, rfl⟩ := find?_ofImports_eq_some_iff.mp h
  have hname : i.contract = contract := by simpa using List.find?_some hi
  exact ⟨hname, i, List.mem_of_find?_eq_some hi, hname, rfl⟩

end ImportScope

end AuthorizedCalls
