import AuthorizedCalls.Proofs.TableContent
import AuthorizedCalls.Proofs.TokenSynthesis
import AuthorizedCalls.Proofs.UnknownImports

namespace AuthorizedCalls

namespace Declarations

open Resolution

def Declares (ds : Declarations) (name : String) : Prop :=
  ∃ d ∈ ds, d.name = name

/-- A text that is taken for the name of a contract: it is the identifier of a function, or begins
with the name of a malformed declaration and a dot. -/
def Masquerades (ds : Declarations) (name : String) : Prop :=
  ∃ d function, ds.named? d.name = some d ∧
    DeclId.contract name = .member d.name function ∧
    (ds.Malformed d.name ∨ (d.function? function).isSome)

variable {ds : Declarations} {policy : Policy} {name : String}

theorem declares_of_named? {d : Declaration} (h : ds.named? name = some d) :
    ds.Declares name := by
  obtain ⟨hmem, hname⟩ := mem_of_named? h
  exact ⟨d, hmem, hname⟩

theorem exists_function_of_rejects (hds : ds.Dotless) {function : String}
    (hname : AuthorizedCalls.Dotless name)
    (h : (ds.resolve policy).table.rejects (.member name function) = true) :
    ∃ d, ds.named? name = some d ∧ (d.function? function).isSome := by
  rcases (rejects_resolve_member_iff hds hname).mp h with
    hoverruled | ⟨d, f, hd, -, hf, -⟩
  · obtain ⟨_, hclashes⟩ := hoverruled.exists_clashes
    obtain ⟨_, _, -, hdeclared, -⟩ := hclashes.qualifiers
    obtain ⟨d, f, hd, hf, -⟩ := qualifierOf?_eq_some_iff.mp hdeclared
    exact ⟨d, hd, Option.isSome_of_eq_some hf⟩
  · exact ⟨d, hd, Option.isSome_of_eq_some hf⟩

theorem masquerades_of_isRejected (hds : ds.Dotless) (hname : ¬ ds.Declares name)
    (h : (ds.resolve policy).table.isRejected (.contract name) = true) : ds.Masquerades name := by
  cases hmember : (DeclId.contract name).isMember with
  | false =>
      have hdotless : AuthorizedCalls.Dotless name := by
        simpa [DeclId.isMember, DeclId.contract, AuthorizedCalls.Dotless] using hmember
      rw [Table.isRejected_contract _ hdotless, rejects_resolve_contract_iff hds hdotless] at h
      obtain ⟨d, hd⟩ := h.exists_declaration
      exact absurd (declares_of_named? hd) hname
  | true =>
      obtain ⟨c, function, hc, hid⟩ := DeclId.exists_member_of_isMember hmember
      rw [hid, Table.isRejected_member _ hc, Bool.or_eq_true] at h
      rcases h with hfunction | hcontract
      · obtain ⟨d, hd, hdeclared⟩ := exists_function_of_rejects hds hc hfunction
        obtain ⟨-, rfl⟩ := mem_of_named? hd
        exact ⟨d, function, hd, hid, .inr hdeclared⟩
      · rw [rejects_resolve_contract_iff hds hc] at hcontract
        obtain ⟨d, hd⟩ := hcontract.exists_declaration
        obtain ⟨-, rfl⟩ := mem_of_named? hd
        exact ⟨d, function, hd, hid, .inl hcontract⟩

theorem masquerades_of_contract? (hds : ds.Dotless) (hname : ¬ ds.Declares name)
    {entry : Entry} (h : (ds.resolve policy).table.contract? name = some entry) :
    ds.Masquerades name := by
  obtain ⟨-, hwritten⟩ := (reflects_resolve hds policy).of_get? h
  rcases exists_of_written?_eq_some hwritten with
    ⟨d, hd, hid, -⟩ | ⟨d, f, hd, hf, hid, -⟩
  · rw [Declaration.id, DeclId.contract, DeclId.contract, DeclId.mk.injEq] at hid
    exact absurd (hid ▸ declares_of_named? hd) hname
  · exact ⟨d, f.name, hd, hid, .inr (Option.isSome_of_eq_some hf)⟩

theorem Masquerades.not_dotless (h : ds.Masquerades name) :
    ¬ AuthorizedCalls.Dotless name := by
  obtain ⟨d, function, -, hid, -⟩ := h
  intro hname
  exact DeclId.contract_ne_member_of_dotless hname d.name function hid

theorem Masquerades.not_unknown (h : ds.Masquerades name) (hds : ds.Dotless) (policy : Policy) :
    ¬ (ds.resolve policy).table.Unknown name := by
  rintro ⟨hstands, hnone⟩
  obtain ⟨d, function, hd, hid, hmalformed | hfunction⟩ := h
  · have hdotless : AuthorizedCalls.Dotless d.name := hds.of_named? hd
    rw [hid, Table.isRejected_member _ hdotless,
      (rejects_resolve_contract_iff hds hdotless).mpr hmalformed, Bool.or_true] at hstands
    contradiction
  · obtain ⟨f, hf⟩ := Option.isSome_iff_exists.mp hfunction
    have hfname : f.name = function := by simpa using List.find?_some hf
    subst hfname
    rw [hid] at hstands
    obtain ⟨entry, -, hentry⟩ := get?_resolve_member hds policy hd hf hstands
    rw [Table.contract?, hid, hentry] at hnone
    contradiction

/-- Of the names that are not declared, the resolved table knows those that masquerade. -/
theorem unknown_iff (hds : ds.Dotless) (policy : Policy) (hname : ¬ ds.Declares name) :
    (ds.resolve policy).table.Unknown name ↔ ¬ ds.Masquerades name := by
  constructor
  · intro hunknown hmasquerades
    exact hmasquerades.not_unknown hds policy hunknown
  · intro hnot
    constructor
    · rw [← Bool.not_eq_true]
      exact mt (masquerades_of_isRejected hds hname) hnot
    · rw [Option.eq_none_iff_forall_ne_some]
      intro entry hentry
      exact hnot (masquerades_of_contract? hds hname hentry)

end Declarations

namespace CompilationUnit

variable {u : CompilationUnit} {table : Table}

theorem contract?_of_mem_imports {binding : ImportBinding}
    (h : binding ∈ (u.check table).imports) :
    ∃ entry, table.contract? binding.contract = some entry := by
  obtain ⟨contract, hbinding⟩ := SortedMap.exists_find?_of_mem_values h
  obtain ⟨i, entry, hi, -, hentry, rfl⟩ := ImportScope.find?_ofImports_eq_some_iff.mp hbinding
  have hname : i.contract = contract := by simpa using List.find?_some hi
  exact ⟨entry, by rw [Import.bindingOf, hname, hentry]⟩

theorem contract?_of_token {call : AnnotatedCall} (h : call ∈ (u.check table).calls)
    {name : String} {address : Address} {origin : TokenOrigin}
    (htoken : call.annotation = .authorized (.contract name address) origin) :
    ∃ entry, table.contract? name = some entry := by
  obtain ⟨c, -, hissues⟩ := exists_issues_of_mem h htoken
  -- Tokens of contracts are issued in the name of the own contract alone.
  cases hissues with
  | same _ hentry => exact ⟨_, hentry⟩
  | granted _ _ hgrants =>
      cases hgrants with
      | self _ hentry => exact ⟨_, hentry⟩

theorem check_of_unknown {own : String} (hown : u.ownContract? = some own)
    (hunknown : table.Unknown own) :
    u.unknownContract own ∈ (u.check table).diagnostics ∧
      (u.check table).calls = u.calls.map AnnotatedCall.skipped := by
  have hnone : CallContext.ofUnit? table (u.bindings table) (.ofParams u.authorizerParams) u =
      none := by
    rw [← Option.not_isSome_iff_eq_none]
    intro hresolved
    obtain ⟨entry, hother⟩ := exists_own_entry hresolved hown
    rw [hunknown.2] at hother
    contradiction
  have hcalls : u.checkCalls table (u.bindings table) =
      (u.calls.map AnnotatedCall.skipped, [u.unknownContract own]) := by
    rw [checkCalls, hnone, hown]
    simp [hunknown.1]
  constructor
  · rw [(u.perm_diagnostics_check table).mem_iff, hcalls]
    exact List.mem_append_right _ List.mem_cons_self
  · exact congrArg Prod.fst hcalls

/-- The names that a unit gives as contracts, and what is reported of them. A name that is not
declared is taken for a contract where it masquerades, and is reported where it does not. -/
structure NamesDeclared (u : CompilationUnit) (ds : Declarations) (report : UnitReport) :
    Prop where
  bound : ∀ binding ∈ report.imports,
    ds.Declares binding.contract ∨ ds.Masquerades binding.contract
  imported : ∀ i ∈ u.imports, ¬ ds.Declares i.contract → ¬ ds.Masquerades i.contract →
    report.diagnostics.count i.unknown =
      u.imports.countP fun j => j.contract = i.contract ∧ j.span = i.span
  unreported : ∀ i ∈ u.imports, ds.Masquerades i.contract →
    report.diagnostics.count i.unknown = 0
  own : ∀ own, u.ownContract? = some own → ¬ ds.Declares own → ¬ ds.Masquerades own →
    u.unknownContract own ∈ report.diagnostics ∧
      report.calls = u.calls.map AnnotatedCall.skipped
  token : ∀ call ∈ report.calls, ∀ name address origin,
    call.annotation = .authorized (.contract name address) origin →
      ds.Declares name ∨ ds.Masquerades name

end CompilationUnit

open Declarations in
/-- Every report takes for contracts the names that are declared and those that masquerade, and no
others. -/
theorem Batch.namesDeclared_check {b : Batch} (hds : Declarations.Dotless b.declarations)
    (config : CheckConfig) {u : CompilationUnit} {i : Nat} (hu : b.units[i]? = some u) :
    ∃ report, (b.check config).units[i]? = some report ∧
      u.NamesDeclared b.declarations report := by
  have hentry : ∀ {name : String} {entry : Entry}, (b.table config).contract? name = some entry →
      Declares b.declarations name ∨ Masquerades b.declarations name := by
    intro name entry h
    by_cases hname : Declares b.declarations name
    · exact .inl hname
    · exact .inr (masquerades_of_contract? hds hname h)
  have hunknown : ∀ {name : String}, ¬ Declares b.declarations name →
      ((b.table config).Unknown name ↔ ¬ Masquerades b.declarations name) :=
    unknown_iff hds config.policy
  refine ⟨_, getElem?_units_check hu config, ?_⟩
  constructor
  case bound =>
    intro binding hbinding
    obtain ⟨entry, h⟩ := CompilationUnit.contract?_of_mem_imports hbinding
    exact hentry h
  case imported =>
    intro j _ hname hnot
    rw [CompilationUnit.count_diagnostics_check, if_pos ((hunknown hname).mpr hnot)]
  case unreported =>
    intro j _ hmasquerades
    rw [CompilationUnit.count_diagnostics_check]
    exact if_neg (hmasquerades.not_unknown hds config.policy)
  case own =>
    intro own hown hname hnot
    exact CompilationUnit.check_of_unknown hown ((hunknown hname).mpr hnot)
  case token =>
    intro call hcall name address origin htoken
    obtain ⟨entry, h⟩ := CompilationUnit.contract?_of_token hcall htoken
    exact hentry h

/-- Code of an undeclared contract that is named like a function. -/
def masqueradingUnit : CompilationUnit where
  name := "inside"
  kind := .contract "Vault.join"
  imports := [{ contract := "Vault" }, { contract := "Vault.join", mode := .authorized }]
  calls := [{ contract := "Vault", member := "join", authPrefix := some .bare }]

def unknownUnit : CompilationUnit where
  name := "outside"
  kind := .contract "Bank"
  imports := [{ contract := "Mint" }]
  calls := [{ contract := "Vault", member := "join", authPrefix := some .bare }]

def masqueradingBatch : Batch where
  declarations :=
    [{ kind := .contract, name := "Vault", address := .ofNat 2,
       functions := [{ name := "join", qualifiers := [.auth] }] }]
  units := [masqueradingUnit, unknownUnit]

theorem dotless_masqueradingBatch : Declarations.Dotless masqueradingBatch.declarations := by
  decide

theorem declares_masqueradingBatch_iff (name : String) :
    Declarations.Declares masqueradingBatch.declarations name ↔ name = "Vault" := by
  simp [Declarations.Declares, masqueradingBatch, eq_comm]

theorem masqueradingBatch_namesDeclared :
    Declarations.Dotless masqueradingBatch.declarations ∧
      ∃ report, (masqueradingBatch.check {}).units[1]? = some report ∧
        report.diagnostics.count (Import.unknown { contract := "Mint" }) = 1 ∧
        unknownUnit.unknownContract "Bank" ∈ report.diagnostics ∧
        report.calls = unknownUnit.calls.map AnnotatedCall.skipped := by
  have hreal : ∀ {name : String}, Dotless name →
      ¬ Declarations.Masquerades masqueradingBatch.declarations name :=
    fun hname hmasquerades => hmasquerades.not_dotless hname
  obtain ⟨report, hreport, hnames⟩ :=
    Batch.namesDeclared_check (i := 1) dotless_masqueradingBatch {} rfl
  refine ⟨dotless_masqueradingBatch, report, hreport, ?_, ?_⟩
  · have hmint := hnames.imported _ List.mem_cons_self
      (by rw [declares_masqueradingBatch_iff]; decide) (hreal (by decide))
    rw [hmint]
    rfl
  · exact hnames.own "Bank" rfl (by rw [declares_masqueradingBatch_iff]; decide)
      (hreal (by decide))

/-- The name of a function passes for that of a contract: it is bound, authorizes a call and is
not reported. -/
theorem masqueradingBatch_not_declared :
    Declarations.Dotless masqueradingBatch.declarations ∧
      ¬ Declarations.Declares masqueradingBatch.declarations "Vault.join" ∧
      ∃ report, (masqueradingBatch.check {}).units[0]? = some report ∧
        report.imports.map ImportBinding.contract = ["Vault", "Vault.join"] ∧
        report.diagnostics = [] ∧
        report.calls.map AnnotatedCall.annotation =
          [.authorized (.contract "Vault.join" ⟨2, by decide⟩) .explicitPrefix] := by
  refine ⟨dotless_masqueradingBatch, ?_,
    masqueradingUnit.check (masqueradingBatch.table {}), Batch.getElem?_units_check rfl {},
    by cbv, by cbv, by cbv⟩
  rw [declares_masqueradingBatch_iff]
  decide

end AuthorizedCalls
