import AuthorizedCalls.Proofs.ImportBinding

namespace AuthorizedCalls

/-- What is wrong with an import that stands behind others. -/
def Import.violation? (i : Import) (table : Table) (before : List Import) :
    Option ImportViolation :=
  if table.isRejected (.contract i.contract) then none
  else
    match table.contract? i.contract, before.find? fun j => j.contract = i.contract with
    | none, _ => some (.unknownContract i.contract)
    | some _, some first =>
      if first.mode = i.mode then none else some (.otherMode i.contract first.mode first.span)
    | some entry, none =>
      if (i.bindingOf entry).usable then none else some (.plainImport i.contract)

def Import.finding? (i : Import) (table : Table) (before : List Import) : Option Diagnostic :=
  (i.violation? table before).map fun v => v.diagnostic i.span

namespace ImportScope

variable {table : Table}

def findings (table : Table) (before : List Import) : List Import → Diagnostics
  | [] => []
  | i :: rest => (i.finding? table before).toList ++ findings table (before ++ [i]) rest

theorem ofImports_append (table : Table) (before rest : List Import) :
    ofImports table (before ++ rest) = rest.foldl (bind table) (ofImports table before) :=
  List.foldl_append

theorem find?_ofImports_of_entry {i : Import} {entry : Entry}
    (hstands : table.isRejected (.contract i.contract) = false)
    (hentry : table.contract? i.contract = some entry) (before : List Import) :
    (ofImports table before).1.find? i.contract =
      (before.find? fun j => j.contract = i.contract).map (·.bindingOf entry) := by
  rw [find?_ofImports]
  cases hfirst : before.find? fun j => j.contract = i.contract with
  | none => rfl
  | some first =>
      have hname : first.contract = i.contract := by simpa using List.find?_some hfirst
      simp [Import.binding?, hname, hstands, hentry]

theorem diagnostics_bind (before : List Import) (i : Import) :
    (bind table (ofImports table before) i).2 =
      (ofImports table before).2 ++ (i.finding? table before).toList := by
  rw [bind, Import.finding?, Import.violation?]
  split
  · simp
  · next hrejected =>
      rw [Bool.not_eq_true] at hrejected
      cases hentry : table.contract? i.contract with
      | none => rfl
      | some entry =>
          dsimp only
          rw [find?_ofImports_of_entry hrejected hentry]
          cases before.find? fun j => j.contract = i.contract with
          | none =>
              have husable : (!(entry.qualifier.isAuth && i.mode == .plain)) =
                  (i.bindingOf entry).usable := rfl
              dsimp only [Option.map_none]
              rw [husable]
              cases (i.bindingOf entry).usable <;> simp [Diagnostics.report]
          | some first =>
              dsimp only [Option.map_some, Import.bindingOf]
              split <;> simp [Diagnostics.report]

theorem diagnostics_ofImports_append (before rest : List Import) :
    (ofImports table (before ++ rest)).2 =
      (ofImports table before).2 ++ findings table before rest := by
  induction rest generalizing before with
  | nil => simp [findings]
  | cons i rest ih =>
      have hbind : ofImports table (before ++ [i]) = bind table (ofImports table before) i :=
        ofImports_append table before [i]
      rw [findings, List.append_cons, ih, hbind, diagnostics_bind, List.append_assoc]

theorem diagnostics_ofImports (imports : List Import) :
    (ofImports table imports).2 = findings table [] imports :=
  diagnostics_ofImports_append [] imports

end ImportScope

end AuthorizedCalls
