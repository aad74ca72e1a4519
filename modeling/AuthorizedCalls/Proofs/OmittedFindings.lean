import AuthorizedCalls.Proofs.Omission

namespace AuthorizedCalls

/-- The violation is charged to a declaration of this name or to one of its functions. -/
def Finding.concerns (x : Finding) (name : String) : Bool :=
  x.subject.contractName = name

section

variable {α : Type} {name : String}

theorem filter_concerns_eq {xs : List Finding} {other : Bool}
    (h : ∀ x ∈ xs, x.concerns name = !other) :
    xs.filter (fun x => !x.concerns name) = if other then xs else [] := by
  cases other with
  | true =>
      rw [if_pos rfl, List.filter_eq_self]
      intro x hx
      simp [h x hx]
  | false =>
      rw [if_neg Bool.false_ne_true, List.filter_eq_nil_iff]
      intro x hx
      simp [h x hx]

theorem filter_concerns_flatMap {f g : α → List Finding} {other : α → Bool} {xs : List α}
    (hconcerns : ∀ x ∈ xs, ∀ y ∈ f x, y.concerns name = !other x)
    (hsame : ∀ x ∈ xs, other x = true → g x = f x) :
    (xs.flatMap f).filter (fun y => !y.concerns name) = (xs.filter other).flatMap g := by
  induction xs with
  | nil => rfl
  | cons x rest ih =>
      obtain ⟨hx, hrest⟩ := List.forall_mem_cons.mp hconcerns
      obtain ⟨hsame, hsame'⟩ := List.forall_mem_cons.mp hsame
      rw [List.flatMap_cons, List.filter_append, ih hrest hsame', filter_concerns_eq hx]
      cases hother : other x with
      | true =>
          rw [if_pos rfl, List.filter_cons_of_pos hother, List.flatMap_cons, hsame hother]
      | false =>
          rw [if_neg Bool.false_ne_true, List.filter_cons_of_neg (by simp [hother]),
            List.nil_append]

variable {key : α → String} {first : α → List Finding} {repeated : α → Finding}

/-- The same of items that are looked at by name. That a name was seen matters to items of that
name alone. -/
theorem filter_concerns_findingsByName {xs : List α}
    (hfirst : ∀ x ∈ xs, ∀ y ∈ first x, y.concerns name = !decide (key x ≠ name))
    (hrepeated : ∀ x ∈ xs, (repeated x).concerns name = !decide (key x ≠ name))
    {seen seen' : List String}
    (hseen : ∀ other, other ≠ name → (other ∈ seen ↔ other ∈ seen')) :
    (findingsByName key first repeated seen xs).filter (fun y => !y.concerns name) =
      findingsByName key first repeated seen' (xs.filter fun x => key x ≠ name) := by
  induction xs generalizing seen seen' with
  | nil => rfl
  | cons x rest ih =>
      obtain ⟨hx, hrest⟩ := List.forall_mem_cons.mp hfirst
      obtain ⟨hx', hrest'⟩ := List.forall_mem_cons.mp hrepeated
      rw [findingsByName]
      by_cases hname : key x = name
      · rw [List.filter_cons_of_neg (by simp [hname])]
        split
        · rw [List.filter_cons_of_neg (by simp [hx', hname])]
          exact ih hrest hrest' hseen
        · rw [List.filter_append, filter_concerns_eq hx, if_neg (by simp [hname]), List.nil_append]
          apply ih hrest hrest'
          intro other hother
          rw [List.mem_cons, hname, hseen other hother]
          exact or_iff_right hother
      · rw [List.filter_cons_of_pos (by simp [hname]), findingsByName]
        simp only [hseen _ hname]
        split
        · rw [List.filter_cons_of_pos (by simp [hx', hname]), ih hrest hrest' hseen]
        · rw [List.filter_append, filter_concerns_eq hx, if_pos (by simp [hname])]
          congr 1
          apply ih hrest hrest'
          intro other hother
          rw [List.mem_cons, List.mem_cons, hseen other hother]

end

theorem Declaration.contractName_of_mem_findings {d : Declaration} (hd : Dotless d.name) :
    ∀ x ∈ d.findings, x.subject.contractName = d.name := by
  have hmember : ∀ name, (DeclId.member d.name name).contractName = d.name :=
    fun name => DeclId.contractName_member name hd
  have hmembers : ∀ f, ∀ x ∈ d.memberFindings f, x.subject.contractName = d.name := by
    intro f x hx
    rw [memberFindings] at hx
    split at hx
    · rw [List.mem_singleton.mp hx]
      exact hmember f.name
    · split at hx
      · rw [List.mem_singleton.mp hx]
        exact hmember f.name
      · contradiction
  rw [findings]
  split
  · intro x hx
    rw [List.mem_singleton.mp hx]
    exact DeclId.contractName_contract hd
  · exact forall_mem_findingsByName hmembers fun f => hmember f.name

namespace Declarations

variable {ds : Declarations} {name : String}

theorem registrationFindings_without (hds : ds.Dotless) :
    (ds.without name).registrationFindings =
      ds.registrationFindings.filter fun x => !x.concerns name := by
  symm
  apply filter_concerns_findingsByName
  · intro d hd x hx
    simp [Finding.concerns, d.contractName_of_mem_findings (hds d hd) x hx]
  · intro d hd
    have hsubject : d.redeclared.subject.contractName = d.name :=
      DeclId.contractName_contract (hds d hd)
    simp [Finding.concerns, hsubject]
  · exact fun _ _ => Iff.rfl

theorem targetFindings_without (h : ds.Untargeted name) {d : Declaration} (hd : d ∈ ds)
    (hne : d.name ≠ name) : (ds.without name).targetFindings d = ds.targetFindings d := by
  rw [targetFindings, targetFindings]
  apply List.flatMap_congr
  intro target htarget
  have htarget : target ≠ name := by
    rintro rfl
    exact h d hd hne htarget
  rw [targetFinding?, targetFinding?, named?_without htarget]

theorem cycleFindings_without {members : List String} (hmembers : name ∉ members) :
    (ds.without name).cycleFindings members = ds.cycleFindings members := by
  rw [cycleFindings, cycleFindings]
  congr 1
  apply List.filterMap_congr
  intro other hother
  apply named?_without
  rintro rfl
  exact hmembers hother

/-- A cycle is charged to the name where the name is on it, since then nothing else is. -/
theorem concerns_of_mem_cycleFindings (hds : ds.Dotless) (h : ds.Untargeted name)
    {members : List String} (hmembers : members ∈ ds.cycles) {x : Finding}
    (hx : x ∈ ds.cycleFindings members) : x.concerns name = decide (name ∈ members) := by
  obtain ⟨d, hd, rfl⟩ := List.mem_map.mp hx
  obtain ⟨other, hother, hnamed⟩ := List.mem_filterMap.mp hd
  obtain ⟨hmem, rfl⟩ := mem_of_named? hnamed
  have hsubject : (DeclId.contract d.name).contractName = d.name :=
    DeclId.contractName_contract (hds d hmem)
  rw [Finding.concerns, Finding.subject, DeclarationViolation.subject, hsubject, decide_eq_decide]
  constructor
  · rintro rfl
    exact hother
  · intro hname
    exact eq_of_mem_cycles h hmembers hname hother

theorem conformanceFindings_without (hds : ds.Dotless) (h : ds.Untargeted name) :
    (ds.without name).conformanceFindings =
      ds.conformanceFindings.filter fun x => !x.concerns name := by
  rw [conformanceFindings, conformanceFindings, List.filter_append, canonical_without,
    cycles_without h]
  congr 1
  · symm
    apply filter_concerns_flatMap
    · intro d hd x hx
      simp [Finding.concerns, subject_of_mem_targetFindings hx, Declaration.id,
        DeclId.contractName_contract (hds d (mem_of_mem_firstsBy hd))]
    · intro d hd hne
      exact targetFindings_without h (mem_of_mem_firstsBy hd) (of_decide_eq_true hne)
  · symm
    apply filter_concerns_flatMap
    · intro members hmembers x hx
      simp [concerns_of_mem_cycleFindings hds h hmembers hx]
    · intro members _ hname
      exact cycleFindings_without (of_decide_eq_true hname)

theorem comparisons_without (h : ds.Untargeted name) {d : Declaration} (hne : d.name ≠ name) :
    (ds.without name).comparisons d = ds.comparisons d := by
  rw [comparisons, comparisons, above_without h hne]
  congr 1
  apply List.filterMap_congr
  intro other hother
  exact named?_without (h.ne_of_conformsTo hne (mem_above_iff.mp hother).1)

end Declarations

end AuthorizedCalls
