import AuthorizedCalls.Proofs.RejectedSet
import AuthorizedCalls.Proofs.Signatures

namespace AuthorizedCalls

theorem EntryKind.ofDeclKind_ne_function (kind : DeclKind) : ofDeclKind kind ≠ function := by
  cases kind <;> decide

/-- The entries and lowered signatures of a table are those of the declarations and functions that
are not rejected. Of declarations of one name, and of functions of one name in a declaration, the
first is meant. -/
structure Table.Describes (t : Table) (ds : Declarations) : Prop where
  declaration : ∀ d, ds.named? d.name = some d → t.isRejected d.id = false →
    ∃ qualifier, Access.effective d.qualifiers = some qualifier ∧
      t.get? d.id = some ⟨.ofDeclKind d.kind, qualifier, d.address, d.span⟩
  function : ∀ d f, ds.named? d.name = some d → d.function? f.name = some f →
    t.isRejected (.member d.name f.name) = false →
      ∃ qualifier, Access.effective f.qualifiers = some qualifier ∧
        t.get? (.member d.name f.name) = some ⟨.function, qualifier, d.address, f.span⟩
  origin : ∀ id entry, t.get? id = some entry →
    t.isRejected id = false ∧
      ((∃ d, ds.named? d.name = some d ∧ id = d.id) ∨
        ∃ d f, ds.named? d.name = some d ∧ d.function? f.name = some f ∧
          id = .member d.name f.name)
  contract : ∀ id entry, t.get? id = some entry → entry.kind = .function →
    ∃ own, t.contract? id.contractName = some own ∧ own.kind ≠ .function ∧
      own.address = entry.address
  lowered : ∀ id, (t.lowered? id).isSome ↔
    ∃ entry, t.get? id = some entry ∧ entry.kind = .function ∧ entry.qualifier = .auth
  signature : ∀ d f signature, ds.named? d.name = some d → d.function? f.name = some f →
    t.lowered? (.member d.name f.name) = some signature →
      signature.function = .member d.name f.name ∧
        signature.params = ⟨"$auth", "AuthAccount"⟩ :: f.params

namespace Declarations

open Resolution

variable {ds : Declarations}

/-- What registration looks at is rejected, or it has the entry that is written for it. -/
theorem get?_resolve_of_registers? (hds : ds.Dotless) (policy : Policy) {id : DeclId}
    {written : Option Entry} (hregisters : ds.registers? id = some written)
    (hstands : (ds.resolve policy).table.isRejected id = false) :
    ∃ entry, written = some entry ∧ (ds.resolve policy).table.get? id = some entry := by
  cases written with
  | none =>
      have hregistered : ds.registered.table.rejects id = true := by
        rw [rejects_registered hds, hregisters, decide_eq_true rfl]
      have hrejects := (leadsTo_resolve ds policy).rejects_of_rejects hregistered
      rw [Table.isRejected_eq, hrejects, Bool.true_or] at hstands
      contradiction
  | some entry =>
      refine ⟨entry, rfl, ?_⟩
      rw [reflects_resolve hds policy, hstands, written?, hregisters]
      rfl

theorem registers?_id (hds : ds.Dotless) {d : Declaration} (hd : ds.named? d.name = some d) :
    ds.registers? d.id = some d.entry? := by
  have hname : AuthorizedCalls.Dotless d.name := hds d (mem_of_named? hd).1
  rw [registers?, Declaration.id, DeclId.contractName_contract hname, hd, Option.bind_some,
    Declaration.registers?, DeclId.isMember_contract hname]
  rfl

theorem registers?_member (hds : ds.Dotless) {d : Declaration} (hd : ds.named? d.name = some d)
    (hentry : d.entry?.isSome) {f : Member} (hf : d.function? f.name = some f) :
    ds.registers? (.member d.name f.name) = some (d.memberEntry? f) := by
  have hname : AuthorizedCalls.Dotless d.name := hds d (mem_of_named? hd).1
  rw [registers?, DeclId.contractName_member _ hname, hd, Option.bind_some,
    Declaration.registers?, DeclId.isMember_member, if_pos rfl, if_pos hentry,
    DeclId.memberName_member _ hname, hf, Option.map_some]

theorem exists_of_written?_eq_some {id : DeclId} {entry : Entry}
    (h : ds.written? id = some entry) :
    (∃ d, ds.named? d.name = some d ∧ id = d.id ∧ d.entry? = some entry) ∨
      ∃ d f, ds.named? d.name = some d ∧ d.function? f.name = some f ∧
        id = .member d.name f.name ∧ d.entry?.isSome ∧ d.memberEntry? f = some entry := by
  cases hmember : id.isMember with
  | true =>
      obtain ⟨d, f, hd, hf, hentry, hwritten⟩ := (written?_eq_some_iff hmember).mp h
      have hname := (mem_of_named? hd).2
      have hfunction : f.name = id.memberName := by simpa using List.find?_some hf
      refine .inr ⟨d, f, hname ▸ hd, hfunction ▸ hf, ?_, hentry, hwritten⟩
      rw [hname, hfunction]
      exact DeclId.eq_member_of_isMember hmember
  | false =>
      obtain ⟨d, hd, hregisters⟩ := Option.bind_eq_some_iff.mp (Option.join_eq_some_iff.mp h)
      have hname := (mem_of_named? hd).2
      rw [Declaration.registers?, hmember, if_neg Bool.false_ne_true, Option.some.injEq]
        at hregisters
      refine .inl ⟨d, hname ▸ hd, ?_, hregisters⟩
      rw [Declaration.id, hname]
      exact DeclId.eq_contract_of_not_isMember hmember

theorem kind_ne_function {d : Declaration} {entry : Entry}
    (h : d.entry? = some entry) : entry.kind ≠ .function := by
  obtain ⟨qualifier, -, rfl⟩ := Option.map_eq_some_iff.mp h
  exact EntryKind.ofDeclKind_ne_function d.kind

section Resolved

variable (hds : ds.Dotless) (policy : Policy)

include hds

theorem get?_resolve_id {d : Declaration} (hd : ds.named? d.name = some d)
    (hstands : (ds.resolve policy).table.isRejected d.id = false) :
    ∃ entry, d.entry? = some entry ∧ (ds.resolve policy).table.get? d.id = some entry :=
  get?_resolve_of_registers? hds policy (registers?_id hds hd) hstands

theorem get?_resolve_member {d : Declaration} {f : Member} (hd : ds.named? d.name = some d)
    (hf : d.function? f.name = some f)
    (hstands : (ds.resolve policy).table.isRejected (.member d.name f.name) = false) :
    ∃ entry, d.memberEntry? f = some entry ∧
      (ds.resolve policy).table.get? (.member d.name f.name) = some entry := by
  have hname : AuthorizedCalls.Dotless d.name := hds d (mem_of_named? hd).1
  have hcontract : (ds.resolve policy).table.isRejected d.id = false := by
    rw [Table.isRejected_member _ hname, Bool.or_eq_false_iff] at hstands
    rw [Declaration.id, Table.isRejected_contract _ hname]
    exact hstands.2
  obtain ⟨own, hown, -⟩ := get?_resolve_id hds policy hd hcontract
  exact get?_resolve_of_registers? hds policy
    (registers?_member hds hd (Option.isSome_of_eq_some hown) hf) hstands

/-- The contract of a function that has an entry has one too, at the same address. -/
theorem contract?_of_get?_member {id : DeclId} {entry : Entry}
    (h : (ds.resolve policy).table.get? id = some entry) (hkind : entry.kind = .function) :
    ∃ own, (ds.resolve policy).table.contract? id.contractName = some own ∧
      own.kind ≠ .function ∧ own.address = entry.address := by
  obtain ⟨hstands, hwritten⟩ := (reflects_resolve hds policy).of_get? h
  rcases exists_of_written?_eq_some hwritten with
    ⟨d, -, -, hentry⟩ | ⟨d, f, hd, -, rfl, -, hmember⟩
  · exact absurd hkind (kind_ne_function hentry)
  · have hname : AuthorizedCalls.Dotless d.name := hds d (mem_of_named? hd).1
    rw [Table.isRejected_member _ hname, Bool.or_eq_false_iff,
      ← Table.isRejected_contract _ hname] at hstands
    obtain ⟨own, hown, hget⟩ := get?_resolve_id hds policy hd hstands.2
    rw [DeclId.contractName_member _ hname]
    refine ⟨own, hget, kind_ne_function hown, ?_⟩
    obtain ⟨_, -, rfl⟩ := Option.map_eq_some_iff.mp hown
    obtain ⟨_, -, rfl⟩ := Option.map_eq_some_iff.mp hmember
    rfl

theorem lowered?_resolve_isSome_iff {id : DeclId} :
    ((ds.resolve policy).table.lowered? id).isSome ↔
      ∃ entry, (ds.resolve policy).table.get? id = some entry ∧ entry.kind = .function ∧
        entry.qualifier = .auth := by
  rw [lowersAs_resolve hds policy id, reflects_resolve hds policy id]
  cases (ds.resolve policy).table.isRejected id with
  | true => simp
  | false =>
      simp only [Bool.false_eq_true, if_false, Option.isSome_iff_exists]
      constructor
      · rintro ⟨signature, hsignature⟩
        obtain ⟨d, f, hd, hmember, hentry, hf, hauth, -⟩ :=
          signature?_eq_some_iff.mp hsignature
        refine ⟨⟨.function, .auth, d.address, f.span⟩, ?_, rfl, rfl⟩
        refine (written?_eq_some_iff hmember).mpr ⟨d, f, hd, hf, hentry, ?_⟩
        rw [Declaration.memberEntry?, hauth]
        rfl
      · rintro ⟨entry, hwritten, hkind, hauth⟩
        rcases exists_of_written?_eq_some hwritten with
          ⟨d, -, -, hentry⟩ | ⟨d, f, hd, hf, rfl, hentry, hmember⟩
        · exact absurd hkind (kind_ne_function hentry)
        · have hname : AuthorizedCalls.Dotless d.name := hds d (mem_of_named? hd).1
          obtain ⟨qualifier, hqualifier, rfl⟩ := Option.map_eq_some_iff.mp hmember
          dsimp only at hauth
          subst hauth
          refine ⟨_, signature?_eq_some_iff.mpr ⟨d, f, ?_, DeclId.isMember_member _ _, hentry, ?_,
            Access.effective_eq_auth_iff.mp hqualifier, rfl⟩⟩
          · rw [DeclId.contractName_member _ hname, hd]
          · rw [DeclId.memberName_member _ hname, hf]

theorem signature_of_lowered?_resolve {d : Declaration} {f : Member}
    {signature : LoweredSignature} (hd : ds.named? d.name = some d)
    (hf : d.function? f.name = some f)
    (h : (ds.resolve policy).table.lowered? (.member d.name f.name) = some signature) :
    signature = .ofMember (.member d.name f.name) f := by
  have hname : AuthorizedCalls.Dotless d.name := hds d (mem_of_named? hd).1
  rw [lowersAs_resolve hds policy] at h
  split at h
  · contradiction
  · obtain ⟨d', f', hd', -, -, hf', -, rfl⟩ := signature?_eq_some_iff.mp h
    rw [DeclId.contractName_member _ hname, hd, Option.some.injEq] at hd'
    subst hd'
    rw [DeclId.memberName_member _ hname, hf, Option.some.injEq] at hf'
    rw [hf']

end Resolved

/-- The resolved table has an entry for every declaration and function that is not rejected, each
with its own qualifier, and a lowered signature for every `auth` function among them. -/
theorem describes_resolve (hds : ds.Dotless) (policy : Policy) :
    (ds.resolve policy).table.Describes ds where
  declaration d hd hstands := by
    obtain ⟨entry, hentry, hget⟩ := get?_resolve_id hds policy hd hstands
    obtain ⟨qualifier, hqualifier, rfl⟩ := Option.map_eq_some_iff.mp hentry
    exact ⟨qualifier, hqualifier, hget⟩
  function d f hd hf hstands := by
    obtain ⟨entry, hentry, hget⟩ := get?_resolve_member hds policy hd hf hstands
    obtain ⟨qualifier, hqualifier, rfl⟩ := Option.map_eq_some_iff.mp hentry
    exact ⟨qualifier, hqualifier, hget⟩
  origin id entry hget := by
    obtain ⟨hstands, hwritten⟩ := (reflects_resolve hds policy).of_get? hget
    refine ⟨hstands, ?_⟩
    rcases exists_of_written?_eq_some hwritten with ⟨d, hd, hid, -⟩ | ⟨d, f, hd, hf, hid, -, -⟩
    · exact .inl ⟨d, hd, hid⟩
    · exact .inr ⟨d, f, hd, hf, hid⟩
  contract id entry := contract?_of_get?_member hds policy
  lowered id := lowered?_resolve_isSome_iff hds policy
  signature d f signature hd hf hlowered := by
    rw [signature_of_lowered?_resolve hds policy hd hf hlowered]
    exact ⟨rfl, rfl⟩

/-- The function of the contract has its entry and its signature; that of the interface between,
which is rejected, has none. -/
theorem contested_describes :
    Declarations.Dotless contested ∧
      (contested.resolve .exact).table.isRejected (.member "Vault" "join") = false ∧
      (contested.resolve .exact).table.get? (.member "Vault" "join") =
        some ⟨.function, .auth, .ofNat 2, {}⟩ ∧
      ((contested.resolve .exact).table.lowered? (.member "Vault" "join")).isSome ∧
      (contested.resolve .exact).table.isRejected (.member "Stakeable" "join") = true ∧
      (contested.resolve .exact).table.get? (.member "Stakeable" "join") = none := by
  have hdescribes := describes_resolve dotless_contested .exact
  have hvault : AuthorizedCalls.Dotless "Vault" := by decide
  have hstakeable : AuthorizedCalls.Dotless "Stakeable" := by decide
  have hstands :
      (contested.resolve .exact).table.isRejected (.member "Vault" "join") = false := by
    rw [Table.isRejected_member _ hvault, Bool.or_eq_false_iff, ← Bool.not_eq_true,
      ← Bool.not_eq_true, rejects_resolve_member_iff dotless_contested hvault,
      rejects_resolve_contract_iff dotless_contested hvault, not_or]
    exact ⟨⟨not_overruled_contested, not_ambiguous_contested _ _⟩, not_malformed_contested _⟩
  have hrejected :
      (contested.resolve .exact).table.isRejected (.member "Stakeable" "join") = true := by
    rw [Table.isRejected_member _ hstakeable,
      (rejects_resolve_member_iff dotless_contested hstakeable).mpr (.inl overruled_contested),
      Bool.true_or]
  obtain ⟨_, hqualifier, hentry⟩ := hdescribes.function contested[2]
    { name := "join", qualifiers := [.auth] } rfl rfl hstands
  cases hqualifier
  refine ⟨dotless_contested, hstands, hentry, ?_, hrejected, ?_⟩
  · exact (hdescribes.lowered _).mpr ⟨_, hentry, rfl, rfl⟩
  · cases hget : (contested.resolve .exact).table.get? (.member "Stakeable" "join") with
    | none => rfl
    | some entry =>
        rw [(hdescribes.origin _ _ hget).1] at hrejected
        contradiction

end Declarations

end AuthorizedCalls
