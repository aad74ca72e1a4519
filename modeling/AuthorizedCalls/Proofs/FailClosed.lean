import AuthorizedCalls.Proofs.CallProvenance

/-!
Nothing is turned away in silence. Skipped calls and imports of rejected contracts are not
reported themselves, but each of them goes back to a rejection that was: whatever resolution
rejects has a diagnostic of its own (`reported_resolve`), whatever the names are. So a batch
without diagnostics was checked throughout (`passes_of_diagnosticCount_eq_zero`).
-/

namespace AuthorizedCalls

namespace Resolution

/-- Every rejected identifier has a diagnostic that is charged to it. -/
def Reported (r : Resolution) : Prop :=
  ∀ id, r.table.rejects id = true → ∃ x ∈ r.diagnostics, x.declaration = some id

variable {r r' : Resolution}

theorem Reported.of_extends (h : r.Reported) (hdiagnostics : r.diagnostics ⊆ r'.diagnostics)
    (hrejects : ∀ id, r'.table.rejects id = true →
      r.table.rejects id = true ∨ ∃ x ∈ r'.diagnostics, x.declaration = some id) :
    r'.Reported := by
  intro id hid
  rcases hrejects id hid with hbefore | hnew
  · obtain ⟨x, hx, hcharged⟩ := h id hbefore
    exact ⟨x, hdiagnostics hx, hcharged⟩
  · exact hnew

theorem Reported.report (h : r.Reported) (v : DeclarationViolation) (span : Span) :
    (r.report v span).Reported :=
  h.of_extends (List.subset_append_left _ _) fun _ hid => .inl hid

/-- Recording a rejection keeps the invariant where a violation by the rejected is reported. -/
theorem Reported.markRejected (h : r.Reported) (v : DeclarationViolation) (span : Span) :
    Reported { r.report v span with table := r.table.markRejected v.subject } := by
  refine (h.report v span).of_extends (List.Subset.refl _) fun id hid => ?_
  rw [Table.rejects_markRejected, Bool.or_eq_true, decide_eq_true_eq] at hid
  rcases hid with rfl | hbefore
  · exact .inr ⟨v.diagnostic span, List.mem_append_right _ List.mem_cons_self, rfl⟩
  · exact .inl hbefore

theorem Reported.refuse (h : r.Reported) (v : DeclarationViolation) (span : Span) :
    (r.refuse v span).Reported := by
  refine (h.markRejected v span).of_extends (List.Subset.refl _) fun id hid => .inl ?_
  rw [Table.rejects_markRejected, ← Table.rejects_reject]
  exact hid

theorem Reported.of_leadsTo (h : r.Reported) (hleads : r.LeadsTo r') : r'.Reported := by
  induction hleads with
  | refl => exact h
  | tail _ hstep ih =>
      obtain ⟨v, span, rfl⟩ := hstep
      exact ih.refuse v span

theorem reported_registerMember (h : r.Reported) (d : Declaration) (f : Member) :
    (registerMember d r f).Reported := by
  simp only [registerMember]
  cases Access.effective f.qualifiers with
  | none => exact h.markRejected (.severalQualifiers (.member d.name f.name) f.qualifiers) f.span
  | some qualifier =>
      dsimp only
      generalize hread : (if (f.readsAuth && !qualifier.isAuth) = true then
        r.report (.authRead (.member d.name f.name) qualifier) f.span else r) = r'
      have hr' : r'.Reported := by
        rw [← hread]
        split
        · exact h.report _ _
        · exact h
      refine hr'.of_extends (List.Subset.refl _) fun id hid => .inl ?_
      rw [Table.rejects_setEntry] at hid
      split at hid <;> exact hid

theorem reported_registerMembers (h : r.Reported) (d : Declaration) (seen : List String)
    (fs : List Member) : (registerMembers d seen fs r).Reported := by
  rw [registerMembers_eq]
  refine foldByName_induction (motive := Reported) ?_ ?_ seen fs h
  · exact fun r f hr => reported_registerMember hr d f
  · exact fun r f hr => hr.report _ _

theorem reported_registerDeclaration (h : r.Reported) (d : Declaration) :
    (r.registerDeclaration d).Reported := by
  simp only [registerDeclaration]
  cases Access.effective d.qualifiers with
  | none => exact h.markRejected (.severalQualifiers d.id d.qualifiers) d.span
  | some qualifier =>
      refine reported_registerMembers ?_ d [] d.functions
      exact h.of_extends (List.Subset.refl _) fun _ hid => .inl hid

theorem reported_register (h : r.Reported) (seen : List String) (ds : Declarations) :
    (register seen ds r).Reported := by
  rw [register_eq]
  refine foldByName_induction (motive := Reported) ?_ ?_ seen ds h
  · exact fun r d hr => reported_registerDeclaration hr d
  · exact fun r d hr => hr.report _ _

theorem reported_resolve (ds : Declarations) (policy : Policy) :
    (ds.resolve policy).Reported := by
  have hempty : Reported {} := by
    intro id hid
    contradiction
  have hregistered : ds.registered.Reported := reported_register hempty [] ds
  exact hregistered.of_leadsTo (leadsTo_resolve ds policy)

end Resolution

theorem Table.rejected_eq_empty_iff {t : Table} :
    t.rejected = .empty ↔ ∀ id, t.rejects id = false := by
  constructor
  · intro h id
    rw [rejects, h]
    rfl
  · intro h
    apply SortedMap.ext_find?
    intro key
    have hkey := h ⟨key⟩
    rw [rejects, SortedMap.contains, Option.isSome_eq_false_iff, Option.isNone_iff_eq_none] at hkey
    exact hkey

theorem Table.isRejected_of_rejected_eq_empty {t : Table} (h : t.rejected = .empty)
    (id : DeclId) : t.isRejected id = false := by
  rw [rejected_eq_empty_iff] at h
  rw [isRejected_eq, h, h, Bool.or_self]

namespace ImportScope

/-- Every binding through which nothing is reachable has a diagnostic. -/
def Reported (state : ImportScope × Diagnostics) : Prop :=
  ∀ contract binding, state.1.find? contract = some binding → binding.usable = false →
    ∃ x ∈ state.2, x.declaration = some (.contract contract)

theorem Reported.bind {state : ImportScope × Diagnostics} (h : Reported state) (table : Table)
    (i : Import) : Reported (bind table state i) := by
  obtain ⟨scope, diagnostics⟩ := state
  have hmore : ∀ x, Reported (scope, diagnostics.report x) := by
    intro x contract binding hbinding husable
    obtain ⟨y, hy, hcharged⟩ := h contract binding hbinding husable
    exact ⟨y, List.mem_append_left _ hy, hcharged⟩
  simp only [ImportScope.bind]
  split
  · exact h
  · split
    · exact hmore _
    · split
      · split
        · exact h
        · exact hmore _
      · intro contract binding hbinding husable
        rw [SortedMap.find?_insert] at hbinding
        split at hbinding
        · next hname =>
            subst hname
            cases hbinding
            dsimp only at husable ⊢
            rw [husable]
            exact ⟨_, List.mem_append_right _ List.mem_cons_self, rfl⟩
        · obtain ⟨x, hx, hcharged⟩ := h contract binding hbinding husable
          refine ⟨x, ?_, hcharged⟩
          dsimp only
          split
          · exact hx
          · exact List.mem_append_left _ hx

theorem reported_ofImports (table : Table) (imports : List Import) :
    Reported (ofImports table imports) := by
  apply List.foldlRecOn (motive := Reported)
  · intro contract binding hbinding
    contradiction
  · intro state hstate i _
    exact hstate.bind table i

end ImportScope

namespace CompilationUnit

variable {u : CompilationUnit} {table : Table}

theorem usable_of_diagnostics_eq_nil (h : (ImportScope.ofImports table u.imports).2 = [])
    {binding : ImportBinding} (hbinding : binding ∈ (u.check table).imports) :
    binding.usable = true := by
  obtain ⟨contract, hfind⟩ := SortedMap.exists_find?_of_mem_values hbinding
  by_contra husable
  rw [Bool.not_eq_true] at husable
  obtain ⟨x, hx, -⟩ := ImportScope.reported_ofImports table u.imports contract binding hfind husable
  rw [h] at hx
  contradiction

/-- Where nothing is rejected, a unit whose calls give no diagnostic has all of them pass. -/
theorem outcome_of_diagnostics_eq_nil (htable : table.rejected = .empty)
    (h : (u.checkCalls table (u.bindings table)).2 = []) {c : Call} (hc : c ∈ u.calls) :
    u.outcome table c = .unqualified ∨
      ∃ token origin, u.outcome table c = .authorized token origin := by
  have hcontext : CallContext.ofUnit? table (u.bindings table) (.ofParams u.authorizerParams) u =
      u.context? table := rfl
  rw [checkCalls, hcontext] at h
  cases hctx : u.context? table with
  | none =>
      -- The own contract is unknown, and since it was not rejected that is reported.
      have hunresolved := mt context?_isSome_iff.mpr (by rw [hctx]; exact Bool.false_ne_true)
      obtain ⟨own, hunknown⟩ := not_forall.mp hunresolved
      obtain ⟨hown, -⟩ := Classical.not_imp.mp hunknown
      simp [hctx, hown, Table.isRejected_of_rejected_eq_empty htable] at h
  | some ctx =>
      rw [hctx] at h
      dsimp only at h
      have hcheck : (ctx.check c).2 = none :=
        List.filterMap_eq_nil_iff.mp h _ (List.mem_map_of_mem hc)
      have hrefusal : Verdict.refusal? (ctx.judge c).verdict = none :=
        Option.map_eq_none_iff.mp hcheck
      rw [outcome, verdict, hctx]
      dsimp only
      cases hverdict : (ctx.judge c).verdict with
      | unqualified => exact .inl rfl
      | authorized token origin => exact .inr ⟨token, origin, rfl⟩
      | rejected refusal =>
          rw [hverdict] at hrefusal
          contradiction
      | skipped =>
          have hrejected := (skips_iff hctx c).mp
            (CallContext.verdict_judge_eq_skipped_iff.mp hverdict)
          simp [Rejected, Table.isRejected_of_rejected_eq_empty htable] at hrejected

theorem diagnostics_check_eq_nil_iff :
    (u.check table).diagnostics = [] ↔
      (ImportScope.ofImports table u.imports).2 = [] ∧
        AuthorizerScope.duplicates [] u.authorizerParams = [] ∧
        (u.checkCalls table (u.bindings table)).2 = [] := by
  have hsorted := u.perm_diagnostics_check table
  rw [← and_assoc, ← List.append_eq_nil_iff, ← List.append_eq_nil_iff]
  constructor
  · intro h
    rw [h] at hsorted
    exact hsorted.nil_eq.symm
  · intro h
    rw [h] at hsorted
    exact hsorted.eq_nil

end CompilationUnit

/-- A batch without diagnostics was checked throughout: nothing in it was rejected, every contract
that is imported is reachable, and every call passes. -/
theorem Batch.passes_of_diagnosticCount_eq_zero {b : Batch} {config : CheckConfig}
    (h : (b.check config).diagnosticCount = 0) :
    (b.table config).rejected = .empty ∧
      (∀ report ∈ (b.check config).units, ∀ binding ∈ report.imports, binding.usable = true) ∧
      ∀ i j u c, b.units[i]? = some u → u.calls[j]? = some c →
        ∃ a, (b.check config).outcome? i j = some a ∧
          (a = .unqualified ∨ ∃ token origin, a = .authorized token origin) := by
  rw [CheckReport.diagnosticCount, List.length_eq_zero_iff, CheckReport.diagnostics,
    List.append_eq_nil_iff, units_check, List.flatMap_eq_nil_iff, List.forall_mem_map] at h
  obtain ⟨hdeclarations, hreports⟩ := h
  have hresolved : (Declarations.resolve b.declarations config.policy).diagnostics = [] := by
    have hsorted := Diagnostics.perm_sortByLocation
      (Declarations.resolve b.declarations config.policy).diagnostics
    rw [show Diagnostics.sortByLocation _ = [] from hdeclarations] at hsorted
    exact hsorted.nil_eq.symm
  have hempty : (b.table config).rejected = .empty := by
    rw [Table.rejected_eq_empty_iff]
    intro id
    rw [← Bool.not_eq_true]
    intro hid
    obtain ⟨x, hx, -⟩ := Resolution.reported_resolve b.declarations config.policy id hid
    rw [hresolved] at hx
    contradiction
  refine ⟨hempty, ?_, ?_⟩
  · rw [units_check, List.forall_mem_map]
    intro u hu binding hbinding
    obtain ⟨himports, -⟩ := CompilationUnit.diagnostics_check_eq_nil_iff.mp (hreports u hu)
    exact CompilationUnit.usable_of_diagnostics_eq_nil himports hbinding
  · intro i j u c hu hc
    obtain ⟨-, -, hcalls⟩ := CompilationUnit.diagnostics_check_eq_nil_iff.mp
      (hreports u (List.mem_of_getElem? hu))
    exact ⟨_, outcome?_check hu hc config,
      CompilationUnit.outcome_of_diagnostics_eq_nil hempty hcalls (List.mem_of_getElem? hc)⟩

theorem enteringBatch_passes :
    (enteringBatch.check {}).diagnosticCount = 0 ∧ (enteringBatch.table {}).rejected = .empty ∧
      ∃ a, (enteringBatch.check {}).outcome? 0 0 = some a ∧
        (a = .unqualified ∨ ∃ token origin, a = .authorized token origin) := by
  have hsilent : (enteringBatch.check {}).diagnosticCount = 0 := by cbv
  obtain ⟨hempty, -, hpasses⟩ := Batch.passes_of_diagnosticCount_eq_zero hsilent
  exact ⟨hsilent, hempty, hpasses 0 0 _ _ rfl rfl⟩

end AuthorizedCalls
