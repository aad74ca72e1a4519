import AuthorizedCalls.Proofs.Passes
import AuthorizedCalls.Proofs.UnitReport
import Mathlib.Computability.Primrec.List
import Mathlib.Data.List.Permutation

namespace AuthorizedCalls

/-- A contract is shut off in a unit: the unit can be judged, the contract is not its own and is
`auth`, and the first import of it is plain. -/
structure CompilationUnit.Gated (u : CompilationUnit) (table : Table) (contract : String) :
    Prop where
  resolved : ∀ own, u.ownContract? = some own → (table.contract? own).isSome
  other : u.ownContract? ≠ some contract
  auth : ∃ entry, table.contract? contract = some entry ∧ entry.qualifier = .auth
  plain : ∃ i, (u.imports.find? fun i => i.contract = contract) = some i ∧ i.mode = .plain

namespace CompilationUnit

variable {u : CompilationUnit} {table : Table} {ctx : CallContext} {c : Call}
  {written : DeclId → Option Entry}

/-- Where the contract of a call is shut off, the way to it ends at the import, and only there. -/
theorem reach_eq_plainImport_iff (htable : table.Reflects written)
    (hctx : u.context? table = some ctx) :
    ctx.reach c = .error (.plainImport c.callee c.contract) ↔ u.Gated table c.contract := by
  have hresolved := context?_isSome_iff.mp (Option.isSome_of_eq_some hctx)
  have hown := isContract_caller hctx c.contract
  obtain ⟨caller, -, rfl⟩ := context?_eq_some_iff.mp hctx
  rw [CallContext.reach_eq_iff]
  constructor
  · intro hreaches
    cases hreaches with
    | plainImport hentry hother hbinding husable =>
        obtain ⟨i, entry, hi, -, hcontract, rfl⟩ :=
          ImportScope.find?_ofImports_eq_some_iff.mp hbinding
        obtain ⟨hauth, hplain⟩ := Import.usable_bindingOf_eq_false_iff.mp husable
        refine ⟨hresolved, ?_, ⟨entry, hcontract, hauth⟩, ⟨i, hi, hplain⟩⟩
        intro hsame
        rw [hown.mpr hsame] at hother
        contradiction
  · rintro ⟨-, hother, ⟨entry, hentry, hauth⟩, ⟨i, hi, hplain⟩⟩
    have hnot : caller.isContract c.contract = false := by
      rw [Bool.eq_false_iff]
      exact fun h => hother (hown.mp h)
    have hbinding := ImportScope.find?_ofImports_eq_some_iff.mpr
      ⟨i, entry, hi, (htable.of_get? hentry).1, hentry, rfl⟩
    exact .plainImport hentry hnot hbinding
      (Import.usable_bindingOf_eq_false_iff.mpr ⟨hauth, hplain⟩)

theorem outcome_eq_importNotAuthorized_iff (htable : table.Reflects written) :
    u.outcome table c = .rejected .importNotAuthorized ↔
      u.Gated table c.contract ∧ ¬ u.Rejected table c := by
  rw [outcome, verdict]
  cases hctx : u.context? table with
  | none =>
      constructor
      · intro h
        contradiction
      · rintro ⟨hgated, -⟩
        have hsome := context?_isSome_iff.mpr hgated.resolved
        rw [hctx] at hsome
        contradiction
  | some ctx =>
      rw [← reach_eq_plainImport_iff htable hctx, ← skips_iff hctx, Bool.not_eq_true, and_comm]
      exact CallContext.annotation_judge_eq_importNotAuthorized_iff

theorem outcome_eq_skipped_iff (hresolved : (u.context? table).isSome) :
    u.outcome table c = .skipped ↔ u.Rejected table c := by
  obtain ⟨ctx, hctx⟩ := Option.isSome_iff_exists.mp hresolved
  rw [outcome, Verdict.annotation_eq_skipped_iff, verdict, hctx, ← skips_iff hctx]
  exact CallContext.verdict_judge_eq_skipped_iff

end CompilationUnit

/-- A call on a contract that is shut off is skipped or rejected for the import: skipped only
where the callee itself or the enclosing function was rejected. No other call is rejected for its
import. -/
theorem Batch.rejected_of_gated {b : Batch} (hds : Declarations.Dotless b.declarations)
    (config : CheckConfig) {u : CompilationUnit} {c : Call} {i j : Nat}
    (hu : b.units[i]? = some u) (hc : u.calls[j]? = some c) :
    ∃ a, (b.check config).outcome? i j = some a ∧
      (u.Gated (b.table config) c.contract →
        a = .skipped ∨ a = .rejected .importNotAuthorized) ∧
      (u.Gated (b.table config) c.contract → a = .skipped →
        (b.table config).rejects c.callee = true ∨
          ∃ own function, u.ownContract? = some own ∧ c.function = some function ∧
            (b.table config).rejects (.member own function) = true) ∧
      (a = .rejected .importNotAuthorized → u.Gated (b.table config) c.contract) := by
  have hreflects : (b.table config).Reflects (Declarations.written? b.declarations) :=
    Resolution.reflects_resolve hds config.policy
  have hskipped : u.Gated (b.table config) c.contract →
      (u.outcome (b.table config) c = .skipped ↔ u.Rejected (b.table config) c) := by
    intro hgated
    exact CompilationUnit.outcome_eq_skipped_iff
      (CompilationUnit.context?_isSome_iff.mpr hgated.resolved)
  refine ⟨_, outcome?_check hu hc config, ?_, ?_, ?_⟩
  · intro hgated
    by_cases hrejected : u.Rejected (b.table config) c
    · exact .inl ((hskipped hgated).mpr hrejected)
    · exact .inr ((CompilationUnit.outcome_eq_importNotAuthorized_iff hreflects).mpr
        ⟨hgated, hrejected⟩)
  · intro hgated houtcome
    obtain ⟨entry, hentry, -⟩ := hgated.auth
    rcases (hskipped hgated).mp houtcome with hcallee | ⟨own, function, hown, hfunction, hrejected⟩
    · left
      rw [Call.callee, ← hreflects.isRejected_member hentry]
      exact hcallee
    · right
      obtain ⟨ownEntry, hownEntry⟩ := CompilationUnit.exists_own_entry
        (CompilationUnit.context?_isSome_iff.mpr hgated.resolved) hown
      rw [hreflects.isRejected_member hownEntry] at hrejected
      exact ⟨own, function, hown, hfunction, hrejected⟩
  · intro h
    exact ((CompilationUnit.outcome_eq_importNotAuthorized_iff hreflects).mp h).1

/-- A public function of an `auth` contract, called past a plain import that comes before an
authorized one. -/
def gatedUnit : CompilationUnit where
  name := "peek"
  kind := .script
  imports := [{ contract := "Vault" }, { contract := "Vault", mode := .authorized }]
  calls := [{ contract := "Vault", member := "look", authPrefix := some .bare }]

def gatedBatch : Batch where
  declarations :=
    [{ kind := .contract, name := "Vault", address := .ofNat 2, qualifiers := [.auth],
       functions := [{ name := "look" }] }]
  units := [gatedUnit]

theorem gatedBatch_rejected :
    Declarations.Dotless gatedBatch.declarations ∧
      gatedUnit.Gated (gatedBatch.table {}) "Vault" ∧
      (gatedBatch.check {}).outcome? 0 0 = some (.rejected .importNotAuthorized) := by
  have hdotless : Declarations.Dotless gatedBatch.declarations := by decide
  have hgated : gatedUnit.Gated (gatedBatch.table {}) "Vault" := {
    resolved := by simp [CompilationUnit.ownContract?, gatedUnit]
    other := by simp [CompilationUnit.ownContract?, gatedUnit]
    auth := ⟨⟨.contract, .auth, ⟨2, by decide⟩, {}⟩, by cbv, rfl⟩
    plain := ⟨_, rfl, rfl⟩ }
  have hstands : (gatedBatch.table {}).rejects (.member "Vault" "look") = false := by cbv
  obtain ⟨a, ha, hshut, hskipped, -⟩ := Batch.rejected_of_gated (b := gatedBatch) (i := 0)
    (j := 0) hdotless {} rfl rfl
  refine ⟨hdotless, hgated, ?_⟩
  rcases hshut hgated with rfl | rfl
  · rcases hskipped hgated rfl with hrejected | ⟨own, function, hown, -⟩
    · rw [Call.callee, hstands] at hrejected
      contradiction
    · contradiction
  · exact ha

end AuthorizedCalls
