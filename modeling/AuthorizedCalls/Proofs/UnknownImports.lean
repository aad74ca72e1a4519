import AuthorizedCalls.Proofs.UnitReport
import Mathlib.Logic.Basic

namespace AuthorizedCalls

/-- Nothing stands under the name, and neither it nor what lies in front of a dot was rejected. -/
def Table.Unknown (t : Table) (name : String) : Prop :=
  t.isRejected (.contract name) = false ∧ t.contract? name = none

instance (t : Table) (name : String) : Decidable (t.Unknown name) :=
  inferInstanceAs (Decidable (_ ∧ _))

def Import.unknown (i : Import) : Diagnostic :=
  (ImportViolation.unknownContract i.contract).diagnostic i.span

theorem ImportViolation.diagnostic_eq_unknown_iff {v : ImportViolation} {span : Span}
    {i : Import} :
    v.diagnostic span = i.unknown ↔ v = .unknownContract i.contract ∧ span = i.span := by
  constructor
  · intro h
    rw [Import.unknown, diagnostic, diagnostic, Diagnostic.mk.injEq] at h
    obtain ⟨hkind, hcontract, hspan, -⟩ := h
    cases v with
    | unknownContract contract =>
        simpa [ImportViolation.contract, DeclId.contract, hspan] using hcontract
    | otherMode contract first span => cases hkind
    | plainImport contract => cases hkind
  · rintro ⟨rfl, rfl⟩
    rfl

namespace ImportScope

variable {table : Table}

theorem count_report (diagnostics : Diagnostics) (v : ImportViolation) (span : Span) (i : Import) :
    (diagnostics.report (v.diagnostic span)).count i.unknown =
      diagnostics.count i.unknown +
        if v = .unknownContract i.contract ∧ span = i.span then 1 else 0 := by
  rw [Diagnostics.report, List.count_append, List.count_singleton]
  simp only [beq_iff_eq, ImportViolation.diagnostic_eq_unknown_iff]

theorem count_report_of_known {v : ImportViolation} (hkind : v.kind ≠ .unresolvedDeclaration)
    (diagnostics : Diagnostics) (span : Span) (i : Import) :
    (diagnostics.report (v.diagnostic span)).count i.unknown = diagnostics.count i.unknown := by
  rw [count_report, if_neg, Nat.add_zero]
  rintro ⟨rfl, -⟩
  exact hkind rfl

theorem count_bind (state : ImportScope × Diagnostics) (i j : Import) :
    (bind table state j).2.count i.unknown = state.2.count i.unknown +
      if table.Unknown i.contract ∧ j.contract = i.contract ∧ j.span = i.span then 1 else 0 := by
  obtain ⟨scope, diagnostics⟩ := state
  have hknown : ¬ table.Unknown j.contract →
      ¬ (table.Unknown i.contract ∧ j.contract = i.contract ∧ j.span = i.span) := by
    rintro hnot ⟨hunknown, hname, -⟩
    exact hnot (hname ▸ hunknown)
  simp only [bind]
  split
  · next hrejected => rw [if_neg (hknown fun h => by simp [h.1] at hrejected), Nat.add_zero]
  · next hstands =>
      split
      · next hentry =>
          have hunknown : table.Unknown j.contract := ⟨by simpa using hstands, hentry⟩
          rw [count_report]
          congr 1
          apply if_congr _ rfl rfl
          rw [ImportViolation.unknownContract.injEq]
          constructor
          · rintro ⟨hname, hspan⟩
            exact ⟨hname ▸ hunknown, hname, hspan⟩
          · exact And.right
      · next entry hentry =>
          rw [if_neg (hknown fun h => by simp [h.2] at hentry), Nat.add_zero]
          split
          · split
            · rfl
            · exact count_report_of_known (by rw [ImportViolation.kind]; decide) _ _ _
          · dsimp only
            split
            · rfl
            · exact count_report_of_known (by rw [ImportViolation.kind]; decide) _ _ _

theorem count_ofImports (imports : List Import) (i : Import) :
    (ofImports table imports).2.count i.unknown =
      if table.Unknown i.contract
      then imports.countP fun j => j.contract = i.contract ∧ j.span = i.span else 0 := by
  have hfold : ∀ state : ImportScope × Diagnostics,
      (imports.foldl (bind table) state).2.count i.unknown = state.2.count i.unknown +
        if table.Unknown i.contract
        then imports.countP fun j => j.contract = i.contract ∧ j.span = i.span else 0 := by
    induction imports with
    | nil => simp
    | cons j rest ih =>
        intro state
        rw [List.foldl_cons, ih, count_bind, List.countP_cons, Nat.add_assoc]
        congr 1
        by_cases hunknown : table.Unknown i.contract
        · simp only [hunknown, true_and, if_true, decide_eq_true_eq]
          exact Nat.add_comm _ _
        · simp only [hunknown, false_and, if_false]
  rw [ofImports, hfold, List.count_nil, Nat.zero_add]

end ImportScope

section Messages

theorem head?_toList_append {s : String} {c : Char} (h : s.toList.head? = some c) (t : String) :
    (s ++ t).toList.head? = some c := by
  rw [String.toList_append, List.head?_append, h]
  rfl

theorem Import.head?_message_unknown (i : Import) : i.unknown.message.toList.head? = some 'i' := by
  have hstart : "import of unknown contract `".toList.head? = some 'i' := by decide
  exact head?_toList_append (head?_toList_append hstart i.contract) _

theorem Refusal.head?_message {r : Refusal} (hkind : r.kind = .unresolvedDeclaration) :
    r.message.toList.head? = some 'u' ∨ r.message.toList.head? = some '`' := by
  have hunknown : "unknown contract `".toList.head? = some 'u' := by decide
  have hquoted : "`".toList.head? = some '`' := by decide
  -- The other refusals break other rules.
  cases r with
  | unknownContract contract =>
      exact .inl (head?_toList_append (head?_toList_append hunknown contract) _)
  | notImported contract =>
      exact .inr (head?_toList_append (head?_toList_append hquoted contract) _)
  | unknownMember contract member =>
      exact .inr (head?_toList_append (head?_toList_append
        (head?_toList_append (head?_toList_append hquoted contract) _) member) _)
  | unresolved callee e => cases e <;> cases hkind
  | _ => cases hkind

theorem CallContext.check_ne_unknown (ctx : CallContext) (c : Call) (i : Import) :
    (ctx.check c).2 ≠ some i.unknown := by
  intro h
  obtain ⟨refusal, -, hrefusal⟩ := Option.map_eq_some_iff.mp h
  have hkind : refusal.kind = .unresolvedDeclaration := congrArg Diagnostic.kind hrefusal
  have hmessage : refusal.message = i.unknown.message := congrArg Diagnostic.message hrefusal
  have hstart := i.head?_message_unknown
  rw [← hmessage] at hstart
  rcases refusal.head?_message hkind with hother | hother <;> simp [hstart] at hother

theorem CompilationUnit.unknownContract_ne_unknown (u : CompilationUnit) (own : String)
    (i : Import) : u.unknownContract own ≠ i.unknown := by
  intro h
  have hunit : "unit `".toList.head? = some 'u' := by decide
  have hother : (u.unknownContract own).message.toList.head? = some 'u' :=
    head?_toList_append (head?_toList_append
      (head?_toList_append (head?_toList_append hunit u.name) _) own) _
  rw [h, i.head?_message_unknown] at hother
  simp at hother

end Messages

theorem AuthorizerScope.declaration_of_mem_duplicates {seen : List String}
    {params : List AuthorizerParam} {x : Diagnostic} (h : x ∈ duplicates seen params) :
    x.declaration = none := by
  induction params generalizing seen with
  | nil => contradiction
  | cons p rest ih =>
      rw [duplicates] at h
      split at h
      · rcases List.mem_cons.mp h with rfl | h
        · rfl
        · exact ih h
      · exact ih h

namespace CompilationUnit

variable {u : CompilationUnit} {table : Table}

theorem unknown_not_mem_checkCalls (imports : ImportScope) (i : Import) :
    i.unknown ∉ (u.checkCalls table imports).2 := by
  rw [checkCalls]
  split
  · next ctx _ =>
      intro hmem
      obtain ⟨checked, hchecked, hunknown⟩ := List.mem_filterMap.mp hmem
      obtain ⟨c, -, rfl⟩ := List.mem_map.mp hchecked
      exact ctx.check_ne_unknown c i hunknown
  · intro hmem
    rw [Option.mem_toList, Option.map_eq_some_iff] at hmem
    obtain ⟨own, -, hunknown⟩ := hmem
    exact u.unknownContract_ne_unknown own i hunknown

theorem count_diagnostics_check (i : Import) :
    (u.check table).diagnostics.count i.unknown =
      if table.Unknown i.contract
      then u.imports.countP fun j => j.contract = i.contract ∧ j.span = i.span else 0 := by
  have hduplicates : (AuthorizerScope.duplicates [] u.authorizerParams).count i.unknown = 0 := by
    rw [List.count_eq_zero]
    intro hmem
    have hnone := AuthorizerScope.declaration_of_mem_duplicates hmem
    contradiction
  rw [(u.perm_diagnostics_check table).count_eq, List.count_append, List.count_append,
    hduplicates, List.count_eq_zero.mpr (unknown_not_mem_checkCalls _ i), Nat.add_zero,
    ImportScope.count_ofImports]

end CompilationUnit

end AuthorizedCalls
