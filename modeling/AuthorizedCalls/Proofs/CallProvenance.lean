import AuthorizedCalls.Proofs.Passes
import AuthorizedCalls.Proofs.UnitReport
import Mathlib.Computability.Primrec.List
import Mathlib.Computability.TuringMachine.StackTuringMachine
import Mathlib.Data.List.Permutation

namespace AuthorizedCalls

/-- The declaration and the function behind a member of a table: each the first of its name, with
one qualifier at most, and neither of them rejected. -/
structure Declarations.Standing (ds : Declarations) (table : Table) (id : DeclId)
    (d : Declaration) (f : Member) : Prop where
  declaration : ds.named? d.name = some d
  function : d.function? f.name = some f
  names : id = .member d.name f.name
  declarationQualifiers : d.qualifiers.length ≤ 1
  functionQualifiers : f.qualifiers.length ≤ 1
  declarationStands : table.rejects d.id = false
  functionStands : table.rejects id = false

theorem Declarations.standing_of_get? {ds : Declarations} {table : Table} (hds : ds.Dotless)
    (htable : table.Reflects ds.written?) {id : DeclId} (hid : id.isMember = true)
    {entry : Entry} (h : table.get? id = some entry) :
    ∃ d f, ds.Standing table id d f ∧ Access.effective f.qualifiers = some entry.qualifier := by
  obtain ⟨hstands, hwritten⟩ := htable.of_get? h
  obtain ⟨d, f, hd, hf, hentry, hmember⟩ := (Declarations.written?_eq_some_iff hid).mp hwritten
  have hname := (Declarations.mem_of_named? hd).2
  have hfunction : f.name = id.memberName := by simpa using List.find?_some hf
  have hnames : id = .member d.name f.name := by
    rw [hname, hfunction]
    exact DeclId.eq_member_of_isMember hid
  rw [hnames, Table.isRejected_member _ (hds d (Declarations.mem_of_named? hd).1),
    Bool.or_eq_false_iff] at hstands
  rw [Declaration.memberEntry?] at hmember
  obtain ⟨qualifier, hqualifier, rfl⟩ := Option.map_eq_some_iff.mp hmember
  rw [Declaration.entry?, Option.isSome_map] at hentry
  refine ⟨d, f, ?_, hqualifier⟩
  exact {
    declaration := hname ▸ hd
    function := hfunction ▸ hf
    names := hnames
    declarationQualifiers := Access.effective_isSome_iff.mp hentry
    functionQualifiers := Access.effective_isSome_iff.mp (Option.isSome_of_eq_some hqualifier)
    declarationStands := hstands.2
    functionStands := hnames ▸ hstands.1 }

/-- A verdict that lets a call through is read off the entry of the callee. -/
theorem CompilationUnit.exists_entry_of_verdict {u : CompilationUnit} {table : Table} {c : Call}
    (h : u.verdict table c = .unqualified ∨
      ∃ token origin, u.verdict table c = .authorized token origin) :
    ∃ entry, table.get? c.callee = some entry ∧
      ((∃ token origin, u.verdict table c = .authorized token origin) ↔
        entry.qualifier = .auth) := by
  rw [verdict] at h ⊢
  cases hctx : u.context? table with
  | none => simp [hctx] at h
  | some ctx =>
      simp only [hctx] at h ⊢
      have htable := table_of_context? hctx
      rcases h with hbare | ⟨token, origin, hauthorized⟩
      · obtain ⟨qualifier, hqualifier, hother⟩ :=
          CallContext.qualifier?_of_verdict_eq_unqualified hbare
        rw [htable] at hqualifier
        obtain ⟨entry, hentry, rfl⟩ := Option.map_eq_some_iff.mp hqualifier
        refine ⟨entry, hentry, ?_⟩
        simp [hbare, hother]
      · obtain ⟨-, hqualifier, -⟩ := CallContext.verdict_judge_eq_authorized_iff.mp hauthorized
        rw [htable] at hqualifier
        obtain ⟨entry, hentry, hauth⟩ := Option.map_eq_some_iff.mp hqualifier
        refine ⟨entry, hentry, ?_⟩
        simp [hauthorized, hauth]

/-- A call that passes, with a token or without, is a call of a declared function, and it carries
a token exactly where the function is `auth`. -/
theorem Batch.standing_of_passes {b : Batch} (hds : Declarations.Dotless b.declarations)
    (config : CheckConfig) {u : CompilationUnit} {c : Call} {i j : Nat}
    (hu : b.units[i]? = some u) (hc : u.calls[j]? = some c) :
    ∃ a, (b.check config).outcome? i j = some a ∧
      ((a = .unqualified ∨ ∃ token origin, a = .authorized token origin) →
        ∃ d f, Declarations.Standing b.declarations (b.table config) c.callee d f ∧
          ((∃ token origin, a = .authorized token origin) ↔ f.qualifiers = [.auth]) ∧
          (a = .unqualified ↔ f.qualifiers ≠ [.auth])) := by
  refine ⟨_, outcome?_check hu hc config, ?_⟩
  intro hpasses
  have htable := Resolution.reflects_resolve hds config.policy
  simp only [CompilationUnit.outcome, Verdict.annotation_eq_unqualified_iff,
    Verdict.annotation_eq_authorized_iff] at hpasses ⊢
  obtain ⟨entry, hentry, hauth⟩ := CompilationUnit.exists_entry_of_verdict hpasses
  obtain ⟨d, f, hstanding, hqualifier⟩ :=
    Declarations.standing_of_get? hds htable (DeclId.isMember_member _ _) hentry
  have hwritten : (∃ token origin, u.verdict (b.table config) c = .authorized token origin) ↔
      f.qualifiers = [.auth] := by
    rw [hauth, ← Access.effective_eq_auth_iff, hqualifier, Option.some.injEq]
  refine ⟨d, f, hstanding, hwritten, ?_⟩
  rw [ne_eq, ← hwritten]
  constructor
  · rintro hbare ⟨token, origin, hauthorized⟩
    rw [hbare] at hauthorized
    contradiction
  · intro hnot
    exact hpasses.resolve_right hnot

def enteringBatch : Batch where
  declarations :=
    [{ kind := .contract, name := "Vault", address := .ofNat 2,
       functions := [{ name := "join", qualifiers := [.auth] }, { name := "look" }] }]
  units :=
    [{ name := "enter", kind := .transaction [{ name := "signer" }],
       imports := [{ contract := "Vault", mode := .authorized }],
       calls := [{ contract := "Vault", member := "join", phase := .prepare }] }]

theorem enteringBatch_standing :
    Declarations.Dotless enteringBatch.declarations ∧
      (enteringBatch.check {}).outcome? 0 0 =
        some (.authorized (.authorizer "signer" 1 0) .authorizedImport) ∧
      ∃ d f, Declarations.Standing enteringBatch.declarations (enteringBatch.table {})
          (.member "Vault" "join") d f ∧ f.qualifiers = [.auth] := by
  have hdotless : Declarations.Dotless enteringBatch.declarations := by decide
  -- `cbv` unfolds `Option.isNone` by the equations that come with the stack machines.
  have hreport : (enteringBatch.check {}).outcome? 0 0 =
      some (.authorized (.authorizer "signer" 1 0) .authorizedImport) := by cbv
  obtain ⟨a, ha, hpasses⟩ := Batch.standing_of_passes (b := enteringBatch) (i := 0) (j := 0)
    hdotless {} rfl rfl
  rw [hreport, Option.some.injEq] at ha
  subst ha
  obtain ⟨d, f, hstanding, hauth, -⟩ := hpasses (.inr ⟨_, _, rfl⟩)
  exact ⟨hdotless, hreport, d, f, hstanding, hauth.mp ⟨_, _, rfl⟩⟩

end AuthorizedCalls
