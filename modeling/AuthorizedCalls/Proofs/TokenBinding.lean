import AuthorizedCalls.Proofs.TokenSynthesis

namespace AuthorizedCalls

namespace AuthorizerScope.FirstNamed

variable {params : List AuthorizerParam} {name name' : String} {position position' : Nat}

theorem position_eq (h : FirstNamed params name position) (h' : FirstNamed params name position') :
    position = position' := by
  rcases lt_trichotomy position position' with hlt | heq | hlt
  · exact absurd h.1 (h'.2 position hlt)
  · exact heq
  · exact absurd h'.1 (h.2 position' hlt)

theorem name_eq (h : FirstNamed params name position) (h' : FirstNamed params name' position) :
    name = name' :=
  Option.some.inj (h.1.symm.trans h'.1)

end AuthorizerScope.FirstNamed

open AuthorizerScope (FirstNamed)

namespace Token

/-- The token stands for one account, whatever is submitted. -/
structure IsAccount (token : Token) (address : Address) : Prop where
  hidden : token.hiddenArgument = .address address
  bound : ∀ submitted, token.bind submitted = .ok address

/-- The token stands for the submitted account at the first place of a name among parameters. -/
structure IsSlot (token : Token) (params : List AuthorizerParam) (name : String)
    (position : Nat) : Prop where
  named : AuthSource.ofToken token = .authorizerName name
  first : FirstNamed params name position
  inRange : position < params.length
  hidden : token.hiddenArgument = .slot position
  mismatch : ∀ submitted : List Address, submitted.length ≠ params.length →
    token.bind submitted = .error (.countMismatch params.length submitted.length)
  bound : ∀ submitted : List Address, submitted.length = params.length →
    ∃ account, submitted[position]? = some account ∧ token.bind submitted = .ok account

theorem isAccount_contract (name : String) (address : Address) :
    (contract name address).IsAccount address where
  hidden := rfl
  bound _ := rfl

theorem isSlot_authorizer {params : List AuthorizerParam} {name : String}
    {position : Fin params.length} (hfirst : FirstNamed params name position) :
    (authorizer name params.length position).IsSlot params name position where
  named := rfl
  first := hfirst
  inRange := position.isLt
  hidden := rfl
  mismatch submitted hlength := by rw [bind, dif_neg hlength]
  bound submitted hlength := by
    have hlt : position.val < submitted.length := by
      rw [hlength]
      exact position.isLt
    refine ⟨submitted[position.val], List.getElem?_eq_getElem hlt, ?_⟩
    rw [bind, dif_pos hlength]

theorem IsSlot.hiddenArgument_eq_iff {token token' : Token} {params : List AuthorizerParam}
    {name name' : String} {position position' : Nat} (h : token.IsSlot params name position)
    (h' : token'.IsSlot params name' position') :
    token.hiddenArgument = token'.hiddenArgument ↔
      AuthSource.ofToken token = AuthSource.ofToken token' := by
  rw [h.hidden, h'.hidden, h.named, h'.named, HiddenArgument.slot.injEq,
    AuthSource.authorizerName.injEq]
  constructor
  · rintro rfl
    exact h.first.name_eq h'.first
  · rintro rfl
    exact h.first.position_eq h'.first

end Token

namespace CompilationUnit

variable {u : CompilationUnit} {table : Table} {c : Call} {token : Token} {origin : TokenOrigin}

/-- What a token stands for in the code of a unit. There is none in a script. -/
structure Backs (u : CompilationUnit) (table : Table) (token : Token) : Prop where
  account : ∀ own, u.ownContract? = some own →
    ∃ entry, table.contract? own = some entry ∧ token.IsAccount entry.address
  slot : ∀ params, u.kind = .transaction params → ∃ name position, token.IsSlot params name position
  noScript : u.kind ≠ .script

theorem backs_of_account {own : String} {entry : Entry} (hown : u.ownContract? = some own)
    (hentry : table.contract? own = some entry) : u.Backs table (.contract own entry.address) where
  account own' hown' := by
    rw [hown, Option.some.injEq] at hown'
    subst hown'
    exact ⟨entry, hentry, Token.isAccount_contract own entry.address⟩
  slot params hkind := by simp [ownContract?, hkind] at hown
  noScript hkind := by simp [ownContract?, hkind] at hown

theorem backs_of_slot {params : List AuthorizerParam} {name : String}
    {position : Fin params.length} (hkind : u.kind = .transaction params)
    (hfirst : FirstNamed params name position) :
    u.Backs table (.authorizer name params.length position) where
  account own hown := by simp [ownContract?, hkind] at hown
  slot params' hkind' := by
    rw [hkind, UnitKind.transaction.injEq] at hkind'
    subst hkind'
    exact ⟨name, position, Token.isSlot_authorizer hfirst⟩
  noScript hscript := by simp [hkind] at hscript

theorem Issues.backs (h : u.Issues table c token origin) : u.Backs table token := by
  cases h with
  | same hown hentry => exact backs_of_account hown hentry
  | granted hother hprefixed hgrants =>
      cases hgrants with
      | self hown hentry => exact backs_of_account hown hentry
      | @only p hkind hphase =>
          have hfirst : FirstNamed [p] p.name (0 : Fin [p].length) :=
            ⟨rfl, fun _ hearlier => absurd hearlier (Nat.not_lt_zero _)⟩
          exact backs_of_slot hkind hfirst
      | named hkind hphase hfirst => exact backs_of_slot hkind hfirst

end CompilationUnit

theorem AnnotatedCall.token?_eq_some_iff {call : AnnotatedCall} {token : Token} :
    call.token? = some token ↔ ∃ origin, call.annotation = .authorized token origin := by
  rw [token?]
  cases call.annotation <;> simp

/-- Every token of a report stands for the account of the own contract or for a submitted one,
and tokens of one transaction take their accounts from one place exactly where they have one
name. -/
theorem Batch.backs_of_token {b : Batch} (config : CheckConfig) {u : CompilationUnit} {i : Nat}
    (hu : b.units[i]? = some u) :
    ∃ report, (b.check config).units[i]? = some report ∧
      (∀ call ∈ report.calls, ∀ token, call.token? = some token →
        u.Backs (b.table config) token) ∧
      ∀ params, u.kind = .transaction params → ∀ call ∈ report.calls, ∀ other ∈ report.calls,
        ∀ token token', call.token? = some token → other.token? = some token' →
          (token.hiddenArgument = token'.hiddenArgument ↔
            AuthSource.ofToken token = AuthSource.ofToken token') := by
  have hbacks : ∀ call ∈ (u.check (b.table config)).calls, ∀ token, call.token? = some token →
      u.Backs (b.table config) token := by
    intro call hcall token htoken
    obtain ⟨origin, hannotation⟩ := AnnotatedCall.token?_eq_some_iff.mp htoken
    obtain ⟨c, -, hissues⟩ := CompilationUnit.exists_issues_of_mem hcall hannotation
    exact hissues.backs
  refine ⟨_, getElem?_units_check hu config, hbacks, ?_⟩
  intro params hkind call hcall other hother token token' htoken htoken'
  obtain ⟨name, position, hslot⟩ := (hbacks call hcall token htoken).slot params hkind
  obtain ⟨name', position', hslot'⟩ := (hbacks other hother token' htoken').slot params hkind
  exact hslot.hiddenArgument_eq_iff hslot'

/-- A transaction with three parameters, of which the last bears the name of the first, that calls
an `auth` function in the name of each. -/
def payingUnit : CompilationUnit where
  name := "pay"
  kind := .transaction [{ name := "payer" }, { name := "owner" }, { name := "payer" }]
  imports := [{ contract := "Vault" }]
  calls :=
    [{ contract := "Vault", member := "join", authPrefix := some (.named "owner"),
       phase := .prepare },
     { contract := "Vault", member := "join", authPrefix := some (.named "payer"),
       phase := .prepare }]

def payingBatch : Batch where
  declarations :=
    [{ kind := .contract, name := "Vault", address := .ofNat 2,
       functions := [{ name := "join", qualifiers := [.auth] }] }]
  units := [payingUnit]

theorem payingBatch_backs :
    payingBatch.units[0]? = some payingUnit ∧
      ∃ report owner payer, (payingBatch.check {}).units[0]? = some report ∧
        report.calls.map AnnotatedCall.token? = [some owner, some payer] ∧
        payingUnit.Backs (payingBatch.table {}) owner ∧
        payingUnit.Backs (payingBatch.table {}) payer ∧
        owner.hiddenArgument ≠ payer.hiddenArgument := by
  have hunit : payingBatch.units[0]? = some payingUnit := rfl
  have htokens : (payingUnit.check (payingBatch.table {})).calls.map AnnotatedCall.token? =
      [some (.authorizer "owner" 3 1), some (.authorizer "payer" 3 0)] := by cbv
  obtain ⟨report, hreport, hbacks, hplaces⟩ := Batch.backs_of_token {} hunit
  have hcalls : report.calls.map AnnotatedCall.token? =
      [some (.authorizer "owner" 3 1), some (.authorizer "payer" 3 0)] := by
    rw [Batch.getElem?_units_check hunit, Option.some.injEq] at hreport
    rw [← hreport]
    exact htokens
  refine ⟨hunit, report, _, _, hreport, hcalls, ?_⟩
  obtain ⟨call, rest, hreported, howner, hrest⟩ := List.map_eq_cons_iff.mp hcalls
  obtain ⟨other, last, rfl, hpayer, hlast⟩ := List.map_eq_cons_iff.mp hrest
  have hcall : call ∈ report.calls := by simp [hreported]
  have hother : other ∈ report.calls := by simp [hreported]
  refine ⟨hbacks call hcall _ howner, hbacks other hother _ hpayer, ?_⟩
  rw [ne_eq, hplaces _ rfl call hcall other hother _ _ howner hpayer]
  simp [AuthSource.ofToken]

/-- Of three submitted accounts the second is the owner's and the first the payer's. -/
example : (Token.authorizer "owner" 3 1).bind [.ofNat 7, .ofNat 8, .ofNat 9] = .ok (.ofNat 8) ∧
    (Token.authorizer "payer" 3 0).bind [.ofNat 7, .ofNat 8] = .error (.countMismatch 3 2) := by
  exact ⟨rfl, rfl⟩

end AuthorizedCalls
