import AuthorizedCalls.Proofs.Refusals

namespace AuthorizedCalls

section ByName

variable {α : Type} (name : α → String) (first : α → List Finding) (repeated : α → Finding)

/-- The findings in a list of named items; `seen` holds the names of earlier ones. -/
def findingsByName (seen : List String) : List α → List Finding
  | [] => []
  | x :: rest =>
    if name x ∈ seen then repeated x :: findingsByName seen rest
    else first x ++ findingsByName (name x :: seen) rest

variable {name first repeated}

theorem findingsByName_eq_nil_iff {seen : List String} {xs : List α} :
    findingsByName name first repeated seen xs = [] ↔
      (∀ x ∈ xs, name x ∉ seen) ∧ (xs.map name).Nodup ∧ ∀ x ∈ xs, first x = [] := by
  induction xs generalizing seen with
  | nil => simp [findingsByName]
  | cons x rest ih =>
      rw [findingsByName]
      split
      · next hseen => simp [hseen]
      · next hnew =>
          rw [List.append_eq_nil_iff, ih]
          simp only [List.forall_mem_cons, List.map_cons, List.nodup_cons, List.mem_map,
            not_exists, not_and]
          simp only [List.mem_cons, not_or]
          constructor
          · rintro ⟨hx, hseen, hnodup, hrest⟩
            exact ⟨⟨hnew, fun y hy => (hseen y hy).2⟩, ⟨fun y hy => (hseen y hy).1, hnodup⟩,
              hx, hrest⟩
          · rintro ⟨⟨-, hseen⟩, ⟨hfirst, hnodup⟩, hx, hrest⟩
            exact ⟨hx, fun y hy => ⟨hfirst y hy, hseen y hy⟩, hnodup, hrest⟩

theorem findingsByName_of_nodup {seen : List String} {xs : List α}
    (hseen : ∀ x ∈ xs, name x ∉ seen) (hnodup : (xs.map name).Nodup) :
    findingsByName name first repeated seen xs = xs.flatMap first := by
  induction xs generalizing seen with
  | nil => rfl
  | cons x rest ih =>
      rw [List.map_cons, List.nodup_cons] at hnodup
      rw [findingsByName, if_neg (hseen x (by simp)), List.flatMap_cons, ih ?_ hnodup.2]
      intro y hy hmem
      rcases List.mem_cons.mp hmem with heq | hmem
      · exact hnodup.1 (heq ▸ List.mem_map_of_mem hy)
      · exact hseen y (by simp [hy]) hmem

theorem forall_mem_findingsByName {p : Finding → Prop} {seen : List String} {xs : List α}
    (hfirst : ∀ x, ∀ y ∈ first x, p y) (hrepeated : ∀ x, p (repeated x)) :
    ∀ y ∈ findingsByName name first repeated seen xs, p y := by
  induction xs generalizing seen with
  | nil => simp [findingsByName]
  | cons x rest ih =>
      rw [findingsByName]
      split
      · exact List.forall_mem_cons.mpr ⟨hrepeated x, ih⟩
      · exact List.forall_mem_append.mpr ⟨hfirst x, ih⟩

end ByName

namespace Declaration

def memberFindings (d : Declaration) (f : Member) : List Finding :=
  let id := DeclId.member d.name f.name
  match Access.effective f.qualifiers with
  | none => [⟨.severalQualifiers id f.qualifiers, f.span⟩]
  | some qualifier =>
    if f.readsAuth && !qualifier.isAuth then [⟨.authRead id qualifier, f.span⟩] else []

def redeclaredMember (d : Declaration) (f : Member) : Finding :=
  ⟨.redeclaredFunction (.member d.name f.name), f.span⟩

/-- What is wrong with the first declaration of its name: with several qualifiers nothing else is
looked at. -/
def findings (d : Declaration) : List Finding :=
  match Access.effective d.qualifiers with
  | none => [⟨.severalQualifiers d.id d.qualifiers, d.span⟩]
  | some _ => findingsByName Member.name d.memberFindings d.redeclaredMember [] d.functions

def redeclared (d : Declaration) : Finding :=
  ⟨.redeclared d.kind d.name, d.span⟩

theorem memberFindings_eq_nil_iff {d : Declaration} {f : Member} :
    d.memberFindings f = [] ↔
      f.qualifiers.length ≤ 1 ∧ (f.readsAuth = true → f.qualifiers = [.auth]) := by
  rw [memberFindings, ← Access.effective_isSome_iff, ← Access.effective_eq_auth_iff]
  cases Access.effective f.qualifiers with
  | none => simp
  | some qualifier =>
      cases hreads : f.readsAuth <;> simp

theorem findings_eq_nil_iff {d : Declaration} :
    d.findings = [] ↔
      d.qualifiers.length ≤ 1 ∧ (d.functions.map Member.name).Nodup ∧
        ∀ f ∈ d.functions,
          f.qualifiers.length ≤ 1 ∧ (f.readsAuth = true → f.qualifiers = [.auth]) := by
  rw [findings, ← Access.effective_isSome_iff]
  cases Access.effective d.qualifiers with
  | none => simp
  | some qualifier =>
      dsimp only
      rw [findingsByName_eq_nil_iff]
      simp [memberFindings_eq_nil_iff]

end Declaration

namespace Declarations

def registrationFindings (ds : Declarations) : List Finding :=
  findingsByName Declaration.name Declaration.findings Declaration.redeclared [] ds

end Declarations

namespace Resolution

theorem diagnostics_registerMember (d : Declaration) (r : Resolution) (f : Member) :
    (registerMember d r f).diagnostics =
      r.diagnostics ++ (d.memberFindings f).map Finding.diagnostic := by
  simp only [registerMember, Declaration.memberFindings]
  cases Access.effective f.qualifiers with
  | none => rfl
  | some qualifier =>
      dsimp only
      split
      · rfl
      · simp

theorem diagnostics_foldByName {α : Type} {key : α → String}
    {first later : Resolution → α → Resolution} {findings : α → List Finding}
    {repeated : α → Finding}
    (hfirst : ∀ r x, (first r x).diagnostics =
      r.diagnostics ++ (findings x).map Finding.diagnostic)
    (hlater : ∀ r x, (later r x).diagnostics = r.diagnostics ++ [(repeated x).diagnostic])
    (seen : List String) (xs : List α) (r : Resolution) :
    (foldByName key first later seen xs r).diagnostics =
      r.diagnostics ++ (findingsByName key findings repeated seen xs).map Finding.diagnostic := by
  induction xs generalizing seen r with
  | nil => simp [foldByName, findingsByName]
  | cons x rest ih =>
      rw [foldByName, findingsByName]
      split
      · rw [ih, hlater, List.append_assoc, List.singleton_append, List.map_cons]
      · rw [ih, hfirst, List.map_append, List.append_assoc]

theorem diagnostics_registerMembers (d : Declaration) (seen : List String) (fs : List Member)
    (r : Resolution) :
    (registerMembers d seen fs r).diagnostics =
      r.diagnostics ++ (findingsByName Member.name d.memberFindings d.redeclaredMember seen
        fs).map Finding.diagnostic := by
  rw [registerMembers_eq]
  refine diagnostics_foldByName (diagnostics_registerMember d) ?_ seen fs r
  exact fun _ _ => rfl

theorem diagnostics_registerDeclaration (r : Resolution) (d : Declaration) :
    (r.registerDeclaration d).diagnostics =
      r.diagnostics ++ d.findings.map Finding.diagnostic := by
  simp only [registerDeclaration, Declaration.findings]
  cases Access.effective d.qualifiers with
  | none => rfl
  | some qualifier => exact diagnostics_registerMembers d [] d.functions _

theorem diagnostics_register (seen : List String) (ds : Declarations) (r : Resolution) :
    (register seen ds r).diagnostics =
      r.diagnostics ++ (findingsByName Declaration.name Declaration.findings
        Declaration.redeclared seen ds).map Finding.diagnostic := by
  rw [register_eq]
  refine diagnostics_foldByName diagnostics_registerDeclaration ?_ seen ds r
  exact fun _ _ => rfl

theorem diagnostics_registered (ds : Declarations) :
    ds.registered.diagnostics = ds.registrationFindings.map Finding.diagnostic :=
  diagnostics_register [] ds {}

end Resolution

end AuthorizedCalls
