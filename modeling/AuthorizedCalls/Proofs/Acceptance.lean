import AuthorizedCalls.Proofs.RejectedSet

/-!
What resolution accepts. It reports nothing exactly where the declarations are well formed
(`diagnostics_resolve_eq_nil_iff`): names are distinct, qualifiers single, targets declared
interfaces, no declaration stands above itself, and all functions agree with the interfaces above.
That the last can be said without regard to the order of comparison is because a function is only
left out of a comparison when it was overruled, and that was reported
(`exists_overruled_iff`).
-/

namespace AuthorizedCalls.Declarations

open Resolution

structure WellFormed (ds : Declarations) (policy : Policy) : Prop where
  names : (ds.map Declaration.name).Nodup
  functionNames : ∀ d ∈ ds, (d.functions.map Member.name).Nodup
  qualifiers : ∀ d ∈ ds, d.qualifiers.length ≤ 1
  functionQualifiers : ∀ d ∈ ds, ∀ f ∈ d.functions, f.qualifiers.length ≤ 1
  authReads : ∀ d ∈ ds, ∀ f ∈ d.functions, f.readsAuth = true → f.qualifiers = [.auth]
  targets : ∀ d ∈ ds, ∀ target ∈ d.conforms, ∃ i ∈ ds, i.name = target ∧ i.kind = .interface
  acyclic : ∀ d ∈ ds, ¬ ds.ConformsTo d.name d.name
  /-- Functions of one name, in a declaration and in an interface above it, go together. -/
  agreement : ∀ d ∈ ds, ∀ i ∈ ds, ds.ConformsTo d.name i.name →
    ∀ f ∈ d.functions, ∀ g ∈ i.functions, f.name = g.name →
      ∀ declared required, Access.effective f.qualifiers = some declared →
        Access.effective g.qualifiers = some required →
          (required ≠ .auth ∧ declared ≠ .auth) ∨ policy.accepts required declared = true

variable {ds : Declarations} {policy : Policy}

theorem conformanceFindings_eq_nil_iff :
    ds.conformanceFindings = [] ↔
      ∀ d, ds.named? d.name = some d →
        (∀ target ∈ d.conforms, ∃ i, ds.named? target = some i ∧ i.kind = .interface) ∧
          ¬ ds.ConformsTo d.name d.name := by
  constructor
  · intro hnone d hd
    have hfaultless : ¬ ∃ x ∈ ds.conformanceFindings, x.subject = d.id := by simp [hnone]
    rw [exists_conformanceFinding_iff] at hfaultless
    by_contra hfault
    rw [not_and_or, not_not] at hfault
    refine hfaultless ⟨d, hd, rfl, hfault.imp_left fun htargets => ?_⟩
    simpa using htargets
  · intro hall
    rw [List.eq_nil_iff_forall_not_mem]
    intro x hx
    obtain ⟨d, hd, -, hfault⟩ := exists_conformanceFinding_iff.mp ⟨x, hx, rfl⟩
    obtain ⟨htargets, hacyclic⟩ := hall d hd
    rcases hfault with ⟨target, htarget, hunknown⟩ | hcycle
    · exact hunknown (htargets target htarget)
    · exact hacyclic hcycle

theorem not_malformed_of_conformanceFindings_eq_nil
    (hqualifiers : ∀ d ∈ ds, d.qualifiers.length ≤ 1) (h : ds.conformanceFindings = [])
    (name : String) : ¬ ds.Malformed name := by
  rintro ⟨d, hd, hfault⟩
  obtain ⟨hmem, rfl⟩ := mem_of_named? hd
  obtain ⟨htargets, hacyclic⟩ := conformanceFindings_eq_nil_iff.mp h d hd
  rcases hfault with hseveral | ⟨target, htarget, hunknown⟩ | hcycle
  · exact absurd (hqualifiers d hmem) (Nat.not_le_of_lt hseveral)
  · exact hunknown (htargets target htarget)
  · exact hacyclic hcycle

/-- Where anything clashes, something is overruled: the function itself, or else the one that it
clashes with. -/
theorem exists_overruled_iff :
    (∃ name function, ds.Overruled policy name function) ↔
      ∃ name interface function, ds.Clashes policy name interface function := by
  constructor
  · rintro ⟨name, function, hoverruled⟩
    obtain ⟨interface, hclashes⟩ := hoverruled.exists_clashes
    exact ⟨name, interface, function, hclashes⟩
  · rintro ⟨name, interface, function, hclashes⟩
    by_cases hinterface : ds.Overruled policy interface function
    · exact ⟨interface, function, hinterface⟩
    · exact ⟨name, function, overruled_iff.mpr ⟨interface, hclashes, .inr hinterface⟩⟩

theorem comparisonFindings_eq_nil_iff (hds : ds.Dotless) :
    ds.comparisonFindings policy = [] ↔
      ∀ name interface function, ¬ ds.Clashes policy name interface function := by
  constructor
  · intro hnone name interface function hclashes
    obtain ⟨name, function, hoverruled⟩ := exists_overruled_iff.mpr ⟨_, _, _, hclashes⟩
    obtain ⟨x, hx, -⟩ := (exists_comparisonFinding_iff hds).mpr ⟨name, function, rfl, hoverruled⟩
    rw [hnone] at hx
    contradiction
  · intro hall
    rw [List.eq_nil_iff_forall_not_mem]
    intro x hx
    obtain ⟨name, function, -, hoverruled⟩ :=
      (exists_comparisonFinding_iff hds).mp ⟨x, hx, rfl⟩
    obtain ⟨name, interface, function, hclashes⟩ :=
      exists_overruled_iff.mp ⟨name, function, hoverruled⟩
    exact hall name interface function hclashes

theorem WellFormed.not_clashes (h : ds.WellFormed policy) (name interface function : String) :
    ¬ ds.Clashes policy name interface function := by
  intro hclashes
  obtain ⟨required, declared, hrequired, hdeclared, hauth, hrejects⟩ := hclashes.qualifiers
  obtain ⟨i, g, hi, hg, hrequired'⟩ := qualifierOf?_eq_some_iff.mp hrequired
  obtain ⟨d, f, hd, hf, hdeclared'⟩ := qualifierOf?_eq_some_iff.mp hdeclared
  obtain ⟨himem, rfl⟩ := mem_of_named? hi
  obtain ⟨hdmem, rfl⟩ := mem_of_named? hd
  have hsame : f.name = g.name := by
    have hgname : g.name = function := by simpa using List.find?_some hg
    have hfname : f.name = function := by simpa using List.find?_some hf
    rw [hfname, hgname]
  have hagree := h.agreement d hdmem i himem hclashes.above f (List.mem_of_find?_eq_some hf)
    g (List.mem_of_find?_eq_some hg) hsame declared required hdeclared' hrequired'
  rcases hagree with ⟨hrequired, hdeclared⟩ | haccepts
  · exact hauth.elim hrequired hdeclared
  · rw [hrejects] at haccepts
    contradiction

/-- Where names are distinct and nothing is malformed, functions that do not clash agree. -/
theorem agreement_of_not_clashes (hnames : (ds.map Declaration.name).Nodup)
    (hfunctions : ∀ d ∈ ds, (d.functions.map Member.name).Nodup)
    (hstands : ∀ name, ¬ ds.Malformed name)
    (hclashes : ∀ name interface function, ¬ ds.Clashes policy name interface function)
    {d i : Declaration} (hd : d ∈ ds) (hi : i ∈ ds) (habove : ds.ConformsTo d.name i.name)
    {f g : Member} (hf : f ∈ d.functions) (hg : g ∈ i.functions) (hsame : f.name = g.name)
    {declared required : Access} (hdeclared : Access.effective f.qualifiers = some declared)
    (hrequired : Access.effective g.qualifiers = some required) :
    (required ≠ .auth ∧ declared ≠ .auth) ∨ policy.accepts required declared = true := by
  by_contra hbroken
  rw [not_or, Bool.not_eq_true, not_and_or, not_not, not_not] at hbroken
  have hnamed : ∀ e ∈ ds, ds.named? e.name = some e :=
    fun e he => (named?_eq_some_iff hnames).mpr ⟨he, rfl⟩
  have hdfunction : d.function? f.name = some f :=
    (Declaration.function?_eq_some_iff (hfunctions d hd)).mpr ⟨hf, rfl⟩
  have hifunction : i.function? f.name = some g :=
    (Declaration.function?_eq_some_iff (hfunctions i hi)).mpr ⟨hg, hsame.symm⟩
  exact hclashes d.name i.name f.name {
    stands := hstands d.name
    above := habove
    interfaceStands := hstands i.name
    qualifiers := ⟨required, declared,
      qualifierOf?_eq_some_iff.mpr ⟨i, g, hnamed i hi, hifunction, hrequired⟩,
      qualifierOf?_eq_some_iff.mpr ⟨d, f, hnamed d hd, hdfunction, hdeclared⟩, hbroken⟩ }

/-- Declarations are accepted without a report exactly where they are well formed. -/
theorem diagnostics_resolve_eq_nil_iff (hds : ds.Dotless) (policy : Policy) :
    (ds.resolve policy).diagnostics = [] ↔ ds.WellFormed policy := by
  rw [diagnostics_resolve hds, List.map_eq_nil_iff, List.append_eq_nil_iff,
    List.append_eq_nil_iff, registrationFindings, findingsByName_eq_nil_iff,
    comparisonFindings_eq_nil_iff hds]
  constructor
  · rintro ⟨⟨⟨-, hnames, hfindings⟩, hconformance⟩, hclashes⟩
    have hwritten : ∀ d ∈ ds, d.qualifiers.length ≤ 1 ∧ (d.functions.map Member.name).Nodup ∧
        ∀ f ∈ d.functions,
          f.qualifiers.length ≤ 1 ∧ (f.readsAuth = true → f.qualifiers = [.auth]) :=
      fun d hd => Declaration.findings_eq_nil_iff.mp (hfindings d hd)
    have hconforms : ∀ d ∈ ds, _ := fun d hd =>
      conformanceFindings_eq_nil_iff.mp hconformance d
        ((named?_eq_some_iff hnames).mpr ⟨hd, rfl⟩)
    have hstands := not_malformed_of_conformanceFindings_eq_nil
      (fun d hd => (hwritten d hd).1) hconformance
    exact {
      names := hnames
      functionNames := fun d hd => (hwritten d hd).2.1
      qualifiers := fun d hd => (hwritten d hd).1
      functionQualifiers := fun d hd f hf => ((hwritten d hd).2.2 f hf).1
      authReads := fun d hd f hf => ((hwritten d hd).2.2 f hf).2
      targets := by
        intro d hd target htarget
        obtain ⟨i, hi, hkind⟩ := (hconforms d hd).1 target htarget
        obtain ⟨hmem, hname⟩ := mem_of_named? hi
        exact ⟨i, hmem, hname, hkind⟩
      acyclic := fun d hd => (hconforms d hd).2
      agreement := fun d hd i hi habove f hf g hg hsame declared required =>
        agreement_of_not_clashes hnames (fun d hd => (hwritten d hd).2.1) hstands hclashes hd hi
          habove hf hg hsame }
  · intro h
    refine ⟨⟨⟨by simp, h.names, ?_⟩, conformanceFindings_eq_nil_iff.mpr ?_⟩, h.not_clashes⟩
    · intro d hd
      exact Declaration.findings_eq_nil_iff.mpr ⟨h.qualifiers d hd, h.functionNames d hd,
        fun f hf => ⟨h.functionQualifiers d hd f hf, h.authReads d hd f hf⟩⟩
    · intro d hd
      have hmem := (mem_of_named? hd).1
      refine ⟨?_, h.acyclic d hmem⟩
      intro target htarget
      obtain ⟨i, hi, hname, hkind⟩ := h.targets d hmem target htarget
      exact ⟨i, (named?_eq_some_iff h.names).mpr ⟨hi, hname⟩, hkind⟩

theorem layered_wellFormed :
    Declarations.Dotless layered ∧ (layered.resolve .exact).diagnostics = [] ∧
      layered.WellFormed .exact := by
  have hdotless : Declarations.Dotless layered := by decide
  have haccepted : (layered.resolve .exact).diagnostics = [] := by cbv
  exact ⟨hdotless, haccepted, (diagnostics_resolve_eq_nil_iff hdotless .exact).mp haccepted⟩

end AuthorizedCalls.Declarations
