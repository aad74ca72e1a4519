import AuthorizedCalls.Proofs.TableLookup
import AuthorizedCalls.Proofs.UnitReport
import Mathlib.Data.List.Basic

namespace AuthorizedCalls

/-- The unit names a contract, or a text that begins with its name and a dot. -/
inductive CompilationUnit.Mentions (u : CompilationUnit) (name : String) : Prop
  | imported {i : Import} (hi : i ∈ u.imports)
      (hname : (DeclId.contract i.contract).contractName = name)
  | called {c : Call} (hc : c ∈ u.calls) (hname : (DeclId.contract c.contract).contractName = name)
  | own {own : String} (hown : u.ownContract? = some own)
      (hname : (DeclId.contract own).contractName = name)

/-- Two tables say the same of the identifiers of a contract. -/
def Table.AgreesOn (t t' : Table) (name : String) : Prop :=
  ∀ id : DeclId, id.contractName = name →
    t.get? id = t'.get? id ∧ t.isRejected id = t'.isRejected id

namespace Table.AgreesOn

variable {t t' : Table} {name : String}

theorem contract? (h : t.AgreesOn t' (DeclId.contract name).contractName) :
    t.contract? name = t'.contract? name :=
  (h (.contract name) rfl).1

theorem isRejected_contract (h : t.AgreesOn t' (DeclId.contract name).contractName) :
    t.isRejected (.contract name) = t'.isRejected (.contract name) :=
  (h (.contract name) rfl).2

theorem isRejected_member (h : t.AgreesOn t' (DeclId.contract name).contractName)
    (member : String) : t.isRejected (.member name member) = t'.isRejected (.member name member) :=
  (h _ (DeclId.contractName_member_eq name member)).2

theorem qualifier?_member (h : t.AgreesOn t' (DeclId.contract name).contractName)
    (member : String) : t.qualifier? (.member name member) = t'.qualifier? (.member name member) :=
  congrArg (Option.map Entry.qualifier) (h _ (DeclId.contractName_member_eq name member)).1

end Table.AgreesOn

variable {t t' : Table}

theorem ImportScope.bind_congr {i : Import}
    (h : t.AgreesOn t' (DeclId.contract i.contract).contractName)
    (state : ImportScope × Diagnostics) : bind t state i = bind t' state i := by
  rw [bind, bind, h.isRejected_contract, h.contract?]

theorem ImportScope.ofImports_congr {imports : List Import}
    (h : ∀ i ∈ imports, t.AgreesOn t' (DeclId.contract i.contract).contractName) :
    ofImports t imports = ofImports t' imports :=
  List.foldl_ext _ _ _ fun state i hi => bind_congr (h i hi) state

namespace CallContext

variable {imports : ImportScope} {caller : Caller} {c : Call}

theorem reach_congr (h : t.AgreesOn t' (DeclId.contract c.contract).contractName) :
    reach ⟨t, imports, caller⟩ c = reach ⟨t', imports, caller⟩ c := by
  simp only [reach, h.contract?]

theorem judge_congr (h : t.AgreesOn t' (DeclId.contract c.contract).contractName)
    (hown : ∀ own address, caller = .contract own address →
      t.AgreesOn t' (DeclId.contract own).contractName) :
    judge ⟨t, imports, caller⟩ c = judge ⟨t', imports, caller⟩ c := by
  have hfunction : caller.inRejectedFunction t c = caller.inRejectedFunction t' c := by
    cases caller with
    | contract own address =>
        cases hcall : c.function with
        | none => simp only [Caller.inRejectedFunction, hcall]
        | some function =>
            simp only [Caller.inRejectedFunction, hcall,
              (hown own address rfl).isRejected_member function]
    | transaction authorizers => rfl
    | script => rfl
  have hcallee : t.isRejected c.callee = t'.isRejected c.callee := h.isRejected_member c.member
  have hqualifier : t.qualifier? c.callee = t'.qualifier? c.callee := h.qualifier?_member c.member
  simp only [judge, hcallee, hfunction, reach_congr h, hqualifier]
  rfl

theorem check_congr (h : t.AgreesOn t' (DeclId.contract c.contract).contractName)
    (hown : ∀ own address, caller = .contract own address →
      t.AgreesOn t' (DeclId.contract own).contractName) :
    check ⟨t, imports, caller⟩ c = check ⟨t', imports, caller⟩ c := by
  rw [check, check, judge_congr h hown]

end CallContext

namespace CompilationUnit

variable {u : CompilationUnit}

theorem checkCalls_congr (h : ∀ name, u.Mentions name → t.AgreesOn t' name)
    (imports : ImportScope) : u.checkCalls t imports = u.checkCalls t' imports := by
  have hown : ∀ {own : String}, u.ownContract? = some own →
      t.AgreesOn t' (DeclId.contract own).contractName :=
    fun hown => h _ (.own hown rfl)
  have hcaller : Caller.ofUnit? t (.ofParams u.authorizerParams) u.kind =
      Caller.ofUnit? t' (.ofParams u.authorizerParams) u.kind := by
    cases hkind : u.kind with
    | contract own =>
        have hname : u.ownContract? = some own := by rw [ownContract?, hkind]
        rw [Caller.ofUnit?, Caller.ofUnit?, (hown hname).contract?]
    | transaction params => rfl
    | script => rfl
  rw [checkCalls, checkCalls, CallContext.ofUnit?, CallContext.ofUnit?, ← hcaller]
  cases hof : Caller.ofUnit? t (.ofParams u.authorizerParams) u.kind with
  | none =>
      have hunreported : (u.ownContract?.filter fun name => !t.isRejected (.contract name)) =
          u.ownContract?.filter fun name => !t'.isRejected (.contract name) := by
        cases hcontract : u.ownContract? with
        | none => rfl
        | some own => simp only [Option.filter_some, (hown hcontract).isRejected_contract]
      simp only [Option.map_none, hunreported]
  | some caller =>
      have hchecked : u.calls.map (CallContext.check ⟨t, imports, caller⟩) =
          u.calls.map (CallContext.check ⟨t', imports, caller⟩) := by
        apply List.map_congr_left
        intro c hc
        apply CallContext.check_congr (h _ (.called hc rfl))
        rintro own address rfl
        exact hown (Caller.ofUnit?_eq_contract_iff.mp hof).1
      simp only [Option.map_some, hchecked]

/-- Tables that agree on the contracts a unit names give the same report. -/
theorem check_congr (h : ∀ name, u.Mentions name → t.AgreesOn t' name) :
    u.check t = u.check t' := by
  have himports : ImportScope.ofImports t u.imports = ImportScope.ofImports t' u.imports :=
    ImportScope.ofImports_congr fun i hi => h _ (.imported hi rfl)
  simp only [check, himports, checkCalls_congr h]

end CompilationUnit

end AuthorizedCalls
