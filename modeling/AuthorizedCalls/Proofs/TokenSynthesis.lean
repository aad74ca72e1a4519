import AuthorizedCalls.Proofs.Passes
import AuthorizedCalls.Proofs.UnitReport
import Mathlib.Computability.Primrec.List
import Mathlib.Computability.TuringMachine.StackTuringMachine
import Mathlib.Data.List.Permutation

/-!
The tokens that a check hands out. What a call needs for one is read off the table and the unit
(`Authorizable`), and which one it gets off its place and its prefix (`Issues`). Main result: the
authorized calls are the authorizable ones, each with the token that is issued for it
(`authorized_iff_authorizable`).
-/

namespace AuthorizedCalls

namespace AuthorizerScope

/-- The parameter at a position bears a name that no earlier one bears. -/
def FirstNamed (params : List AuthorizerParam) (name : String) (position : Nat) : Prop :=
  params[position]?.map AuthorizerParam.name = some name ∧
    ∀ earlier < position, params[earlier]?.map AuthorizerParam.name ≠ some name

variable {params : List AuthorizerParam} {name : String}

theorem finIdxOf?_eq_some_iff {position : Fin (params.map AuthorizerParam.name).length} :
    (params.map AuthorizerParam.name).finIdxOf? name = some position ↔
      FirstNamed params name position := by
  have hget : ∀ i < (params.map AuthorizerParam.name).length,
      params[i]?.map AuthorizerParam.name = (params.map AuthorizerParam.name)[i]? := by
    intro i _
    exact List.getElem?_map.symm
  rw [List.finIdxOf?_eq_some_iff, FirstNamed, hget _ position.isLt,
    List.getElem?_eq_getElem position.isLt, Option.some.injEq]
  apply and_congr_right
  intro _
  constructor
  · intro hfirst earlier hearlier
    have hlt := hearlier.trans position.isLt
    rw [hget _ hlt, List.getElem?_eq_getElem hlt, ne_eq, Option.some.injEq]
    exact hfirst ⟨earlier, hlt⟩ hearlier
  · intro hfirst earlier hearlier
    have hne := hfirst earlier hearlier
    rw [hget _ earlier.isLt, List.getElem?_eq_getElem earlier.isLt, ne_eq,
      Option.some.injEq] at hne
    exact hne

theorem exists_firstNamed {p : AuthorizerParam} (hp : p ∈ params) :
    ∃ position : Fin params.length, FirstNamed params p.name position := by
  have hmem : p.name ∈ params.map AuthorizerParam.name := List.mem_map_of_mem hp
  cases hfind : (params.map AuthorizerParam.name).finIdxOf? p.name with
  | none => exact absurd hmem (List.finIdxOf?_eq_none_iff.mp hfind)
  | some position =>
      exact ⟨⟨position, by simpa using position.isLt⟩, finIdxOf?_eq_some_iff.mp hfind⟩

theorem FirstNamed.exists_mem {position : Nat} (h : FirstNamed params name position) :
    ∃ p ∈ params, p.name = name := by
  obtain ⟨p, hp, hname⟩ := Option.map_eq_some_iff.mp h.1
  exact ⟨p, List.mem_of_getElem? hp, hname⟩

theorem resolveNamed_ofParams_eq_ok_iff {token : Token} :
    (ofParams params).resolveNamed name = .ok token ↔
      ∃ position : Fin params.length, FirstNamed params name position ∧
        token = .authorizer name params.length position := by
  have hlength : (params.map AuthorizerParam.name).length = params.length := List.length_map _
  have htoken : ∀ {count count' : Nat} (h : count = count') (position : Fin count),
      Token.authorizer name count position = .authorizer name count' (position.cast h) := by
    rintro count _ rfl position
    rfl
  rw [resolveNamed, ofParams]
  cases hfind : (params.map AuthorizerParam.name).finIdxOf? name with
  | some position =>
      have hfirst := finIdxOf?_eq_some_iff.mp hfind
      constructor
      · intro h
        cases h
        exact ⟨position.cast hlength, hfirst, htoken hlength position⟩
      · rintro ⟨other, hother, rfl⟩
        have hsame : some position = some (other.cast hlength.symm) := by
          rw [← hfind]
          exact finIdxOf?_eq_some_iff.mpr hother
        cases hsame
        exact congrArg Except.ok (htoken hlength _)
  | none =>
      constructor
      · intro h
        contradiction
      · rintro ⟨position, hfirst, -⟩
        obtain ⟨p, hp, rfl⟩ := hfirst.exists_mem
        exact absurd (List.mem_map_of_mem hp) (List.finIdxOf?_eq_none_iff.mp hfind)

theorem resolveBare_ofParams_eq_ok_iff {token : Token} :
    (ofParams params).resolveBare = .ok token ↔
      ∃ p, params = [p] ∧ token = .authorizer p.name 1 0 := by
  rw [resolveBare]
  rcases params with _ | ⟨p, _ | ⟨q, rest⟩⟩ <;> simp [ofParams, eq_comm]

end AuthorizerScope

namespace CompilationUnit

/-- The prefix in force at a call: the written one, or else the bare one where the import of the
contract is authorized. -/
inductive Prefixed (u : CompilationUnit) (table : Table) (c : Call) :
    AuthPrefix → TokenOrigin → Prop
  | written {written : AuthPrefix} (hwritten : c.authPrefix = some written) :
      Prefixed u table c written .explicitPrefix
  | implied {binding : ImportBinding} (hunwritten : c.authPrefix = none)
      (hbinding : (u.bindings table).find? c.contract = some binding)
      (hmode : binding.mode = .authorized) : Prefixed u table c .bare .authorizedImport

/-- What a prefix stands for in the code of the unit: the account of the own contract, the only
parameter of `prepare`, or the first one of a name. -/
inductive Grants (u : CompilationUnit) (table : Table) (phase : Phase) :
    AuthPrefix → Token → Prop
  | self {own : String} {entry : Entry} (hown : u.ownContract? = some own)
      (hentry : table.contract? own = some entry) :
      Grants u table phase .bare (.contract own entry.address)
  | only {p : AuthorizerParam} (hkind : u.kind = .transaction [p]) (hphase : phase = .prepare) :
      Grants u table phase .bare (.authorizer p.name 1 0)
  | named {params : List AuthorizerParam} {name : String} {position : Fin params.length}
      (hkind : u.kind = .transaction params) (hphase : phase = .prepare)
      (hfirst : AuthorizerScope.FirstNamed params name position) :
      Grants u table phase (.named name) (.authorizer name params.length position)

/-- The token of an authorized call and where it comes from. -/
inductive Issues (u : CompilationUnit) (table : Table) (c : Call) : Token → TokenOrigin → Prop
  | same {entry : Entry} (hown : u.ownContract? = some c.contract)
      (hentry : table.contract? c.contract = some entry) :
      Issues u table c (.contract c.contract entry.address) .sameContract
  | granted {written : AuthPrefix} {token : Token} {origin : TokenOrigin}
      (hother : u.ownContract? ≠ some c.contract) (hprefixed : u.Prefixed table c written origin)
      (hgrants : u.Grants table c.phase written token) : Issues u table c token origin

/-- There is somebody to authorize the call. -/
inductive HasSource (u : CompilationUnit) (table : Table) (c : Call) : Prop
  | own (hown : u.ownContract? = some c.contract)
  | contract {own : String} {origin : TokenOrigin} (hown : u.ownContract? = some own)
      (hprefixed : u.Prefixed table c .bare origin)
  | named {params : List AuthorizerParam} {p : AuthorizerParam}
      (hkind : u.kind = .transaction params) (hphase : c.phase = .prepare) (hp : p ∈ params)
      (hwritten : c.authPrefix = some (.named p.name))
  | only {p : AuthorizerParam} {origin : TokenOrigin} (hkind : u.kind = .transaction [p])
      (hphase : c.phase = .prepare) (hprefixed : u.Prefixed table c .bare origin)

/-- The contract of the call is the own one, or a usable import binds it. -/
def Reachable (u : CompilationUnit) (table : Table) (c : Call) : Prop :=
  u.ownContract? = some c.contract ∨
    ∃ binding, (u.bindings table).find? c.contract = some binding ∧ binding.usable = true

/-- What a call needs to be authorized. -/
structure Authorizable (u : CompilationUnit) (table : Table) (c : Call) : Prop where
  calleeStands : table.rejects c.callee = false
  contractStands : table.rejects (.contract c.contract) = false
  functionStands : ∀ own function, u.ownContract? = some own → c.function = some function →
    table.rejects (.member own function) = false
  auth : ∃ entry, table.get? c.callee = some entry ∧ entry.qualifier = .auth
  reachable : u.Reachable table c
  source : u.HasSource table c

variable {u : CompilationUnit} {table : Table} {ctx : CallContext} {c : Call}

theorem prefixOf_eq_some_iff {binding : ImportBinding} {written : AuthPrefix}
    {origin : TokenOrigin}
    (hbinding : (u.bindings table).find? c.contract = some binding)
    (husable : binding.usable = true) :
    CallContext.prefixOf c binding = some (written, origin) ↔
      u.Prefixed table c written origin := by
  rw [CallContext.prefixOf_eq_some_iff, ImportBinding.impliesAuthorization, husable,
    Bool.true_and, beq_iff_eq]
  constructor
  · rintro (⟨hwritten, rfl⟩ | ⟨hunwritten, hmode, rfl, rfl⟩)
    · exact .written hwritten
    · exact .implied hunwritten hbinding hmode
  · intro h
    cases h with
    | written hwritten => exact .inl ⟨hwritten, rfl⟩
    | implied hunwritten hfirst hmode =>
        rw [hbinding, Option.some.injEq] at hfirst
        subst hfirst
        exact .inr ⟨hunwritten, hmode, rfl, rfl⟩

theorem grants_iff_of_contract {own : String} (hkind : u.kind = .contract own) {phase : Phase}
    {written : AuthPrefix} {token : Token} :
    u.Grants table phase written token ↔
      written = .bare ∧ ∃ entry, table.contract? own = some entry ∧
        token = .contract own entry.address := by
  have hown : u.ownContract? = some own := by rw [ownContract?, hkind]
  constructor
  · intro h
    cases h with
    | self hown' hentry =>
        rw [hown, Option.some.injEq] at hown'
        subst hown'
        exact ⟨rfl, _, hentry, rfl⟩
    | only hkind' => simp [hkind] at hkind'
    | named hkind' => simp [hkind] at hkind'
  · rintro ⟨rfl, entry, hentry, rfl⟩
    exact .self hown hentry

theorem grants_iff_of_transaction {params : List AuthorizerParam}
    (hkind : u.kind = .transaction params) {phase : Phase} {written : AuthPrefix} {token : Token} :
    u.Grants table phase written token ↔
      phase = .prepare ∧ (AuthorizerScope.ofParams params).resolve written = .ok token := by
  constructor
  · intro h
    cases h with
    | self hown => simp [ownContract?, hkind] at hown
    | only hkind' hphase =>
        rw [hkind, UnitKind.transaction.injEq] at hkind'
        exact ⟨hphase, AuthorizerScope.resolveBare_ofParams_eq_ok_iff.mpr ⟨_, hkind', rfl⟩⟩
    | named hkind' hphase hfirst =>
        rw [hkind, UnitKind.transaction.injEq] at hkind'
        subst hkind'
        exact ⟨hphase, AuthorizerScope.resolveNamed_ofParams_eq_ok_iff.mpr ⟨_, hfirst, rfl⟩⟩
  · rintro ⟨hphase, hresolve⟩
    cases written with
    | bare =>
        obtain ⟨p, rfl, rfl⟩ := AuthorizerScope.resolveBare_ofParams_eq_ok_iff.mp hresolve
        exact .only hkind hphase
    | named name =>
        obtain ⟨position, hfirst, rfl⟩ :=
          AuthorizerScope.resolveNamed_ofParams_eq_ok_iff.mp hresolve
        exact .named hkind hphase hfirst

theorem not_grants_of_script (hkind : u.kind = .script) {phase : Phase} {written : AuthPrefix}
    {token : Token} : ¬ u.Grants table phase written token := by
  intro h
  cases h with
  | self hown => simp [ownContract?, hkind] at hown
  | only hkind' => simp [hkind] at hkind'
  | named hkind' => simp [hkind] at hkind'

theorem resolvePrefix_eq_ok_iff (hctx : u.context? table = some ctx) {phase : Phase}
    {callee : DeclId} {written : AuthPrefix} {token : Token} :
    ctx.caller.resolvePrefix phase callee written = .ok token ↔
      u.Grants table phase written token := by
  obtain ⟨caller, hcaller, rfl⟩ := context?_eq_some_iff.mp hctx
  cases hkind : u.kind with
  | contract own =>
      rw [hkind, Caller.ofUnit?] at hcaller
      obtain ⟨entry, hentry, rfl⟩ := Option.map_eq_some_iff.mp hcaller
      rw [Caller.resolvePrefix_contract_eq_ok_iff, grants_iff_of_contract hkind]
      simp [hentry]
  | transaction params =>
      rw [authorizerParams, hkind, Caller.ofUnit?, Option.some.injEq] at hcaller
      subst hcaller
      rw [Caller.resolvePrefix_transaction_eq_ok_iff, grants_iff_of_transaction hkind]
  | script =>
      rw [hkind, Caller.ofUnit?, Option.some.injEq] at hcaller
      subst hcaller
      exact iff_of_false Caller.resolvePrefix_script_ne_ok (not_grants_of_script hkind)

/-- A call of an `auth` function gets its token where the contract is reached, and it gets the
one that is issued for it. -/
theorem exists_route_iff (hctx : u.context? table = some ctx) {token : Token}
    {origin : TokenOrigin} :
    (∃ route, ctx.reach c = .ok route ∧
        ctx.authorizeCall c route = .authorized token origin) ↔
      u.Reachable table c ∧ u.Issues table c token origin := by
  have hown := isContract_caller hctx c.contract
  have hgrants : ∀ written, ctx.caller.resolvePrefix c.phase c.callee written = .ok token ↔
      u.Grants table c.phase written token := fun _ => resolvePrefix_eq_ok_iff hctx
  obtain ⟨caller, -, rfl⟩ := context?_eq_some_iff.mp hctx
  constructor
  · rintro ⟨route, hreach, hauthorize⟩
    cases CallContext.reach_eq_iff.mp hreach with
    | own hentry hcaller =>
        cases hauthorize
        exact ⟨.inl (hown.mp hcaller), .same (hown.mp hcaller) hentry⟩
    | imported hentry hcaller hbinding husable =>
        have hother : u.ownContract? ≠ some c.contract := by
          intro hsame
          rw [hown.mpr hsame] at hcaller
          contradiction
        obtain ⟨written, hprefixed, htoken⟩ :=
          CallContext.authorizeCall_imported_eq_authorized_iff.mp hauthorize
        exact ⟨.inr ⟨_, hbinding, husable⟩,
          .granted hother ((prefixOf_eq_some_iff hbinding husable).mp hprefixed)
            ((hgrants written).mp htoken)⟩
  · rintro ⟨hreachable, hissues⟩
    cases hissues with
    | same hsame hentry =>
        exact ⟨_, CallContext.reach_eq_iff.mpr (.own hentry (hown.mpr hsame)), rfl⟩
    | granted hother hprefixed htoken =>
        obtain ⟨binding, hbinding, husable⟩ := hreachable.resolve_left hother
        obtain ⟨-, entry, -, -, hentry, -⟩ :=
          ImportScope.find?_ofImports_eq_some_iff.mp hbinding
        have hcaller : caller.isContract c.contract = false := by
          rw [Bool.eq_false_iff]
          exact fun h => hother (hown.mp h)
        refine ⟨_, CallContext.reach_eq_iff.mpr (.imported hentry hcaller hbinding husable), ?_⟩
        exact CallContext.authorizeCall_imported_eq_authorized_iff.mpr
          ⟨_, (prefixOf_eq_some_iff hbinding husable).mpr hprefixed, (hgrants _).mpr htoken⟩

/-- There is somebody to authorize a call exactly where a token is issued for it. -/
theorem hasSource_iff (hctx : u.context? table = some ctx) :
    u.HasSource table c ↔ ∃ token origin, u.Issues table c token origin := by
  have hentry : ∀ {own : String}, u.ownContract? = some own →
      ∃ entry, table.contract? own = some entry :=
    fun hown => exists_own_entry (Option.isSome_of_eq_some hctx) hown
  have hother : ∀ {params : List AuthorizerParam}, u.kind = .transaction params →
      u.ownContract? ≠ some c.contract := by
    intro params hkind
    simp [ownContract?, hkind]
  constructor
  · intro h
    cases h with
    | own hown =>
        obtain ⟨entry, hentry⟩ := hentry hown
        exact ⟨_, _, .same hown hentry⟩
    | @contract own origin hown hprefixed =>
        obtain ⟨entry, hentry⟩ := hentry hown
        by_cases hsame : own = c.contract
        · subst hsame
          exact ⟨_, _, .same hown hentry⟩
        · refine ⟨_, _, .granted ?_ hprefixed (.self hown hentry)⟩
          rw [hown, ne_eq, Option.some.injEq]
          exact hsame
    | named hkind hphase hp hwritten =>
        obtain ⟨position, hfirst⟩ := AuthorizerScope.exists_firstNamed hp
        exact ⟨_, _, .granted (hother hkind) (.written hwritten) (.named hkind hphase hfirst)⟩
    | only hkind hphase hprefixed =>
        exact ⟨_, _, .granted (hother hkind) hprefixed (.only hkind hphase)⟩
  · rintro ⟨token, origin, h⟩
    cases h with
    | same hown => exact .own hown
    | granted hother hprefixed hgrants =>
        cases hgrants with
        | self hown => exact .contract hown hprefixed
        | only hkind hphase => exact .only hkind hphase hprefixed
        | named hkind hphase hfirst =>
            obtain ⟨p, hp, rfl⟩ := hfirst.exists_mem
            cases hprefixed with
            | written hwritten => exact .named hkind hphase hp hwritten

theorem verdict_eq_authorized_iff (hresolved : (u.context? table).isSome) {token : Token}
    {origin : TokenOrigin} :
    u.verdict table c = .authorized token origin ↔
      ¬ u.Rejected table c ∧ (∃ entry, table.get? c.callee = some entry ∧
        entry.qualifier = .auth) ∧ u.Reachable table c ∧ u.Issues table c token origin := by
  obtain ⟨ctx, hctx⟩ := Option.isSome_iff_exists.mp hresolved
  rw [verdict, hctx, ← exists_route_iff hctx, ← skips_iff hctx, Bool.not_eq_true]
  dsimp only
  rw [CallContext.verdict_judge_eq_authorized_iff, table_of_context? hctx, Table.qualifier?,
    Option.map_eq_some_iff]

theorem issues_of_verdict {token : Token} {origin : TokenOrigin}
    (h : u.verdict table c = .authorized token origin) : u.Issues table c token origin := by
  have hresolved : (u.context? table).isSome := by
    cases hctx : u.context? table with
    | none => simp [verdict, hctx] at h
    | some ctx => rfl
  obtain ⟨-, -, -, hissues⟩ := (verdict_eq_authorized_iff hresolved).mp h
  exact hissues

theorem exists_issues_of_mem {call : AnnotatedCall} (h : call ∈ (u.check table).calls)
    {token : Token} {origin : TokenOrigin} (htoken : call.annotation = .authorized token origin) :
    ∃ c ∈ u.calls, u.Issues table c token origin := by
  have houtcome : CallAnnotation.authorized token origin ∈ u.calls.map (u.outcome table) := by
    rw [← calls_check, ← htoken]
    exact List.mem_map_of_mem h
  obtain ⟨c, hc, hverdict⟩ := List.mem_map.mp houtcome
  rw [outcome, Verdict.annotation_eq_authorized_iff] at hverdict
  exact ⟨c, hc, issues_of_verdict hverdict⟩

/-- In a table that reflects what is written, only the callee, its contract and the enclosing
function need be looked up among the rejected. -/
theorem not_rejected_iff {written : DeclId → Option Entry} (htable : table.Reflects written)
    (hresolved : (u.context? table).isSome) (hname : Dotless c.contract) :
    ¬ u.Rejected table c ↔
      table.rejects c.callee = false ∧ table.rejects (.contract c.contract) = false ∧
        ∀ own function, u.ownContract? = some own → c.function = some function →
          table.rejects (.member own function) = false := by
  have hfunction : ∀ {own : String} (function : String), u.ownContract? = some own →
      table.isRejected (.member own function) = table.rejects (.member own function) := by
    intro own function hown
    obtain ⟨entry, hentry⟩ := exists_own_entry hresolved hown
    exact htable.isRejected_member hentry function
  rw [Rejected, Call.callee, Table.isRejected_member _ hname, not_or, Bool.not_eq_true,
    Bool.or_eq_false_iff, and_assoc]
  apply and_congr_right
  intro _
  apply and_congr_right
  intro _
  constructor
  · intro hnot own function hown hcall
    rw [← hfunction function hown, Bool.eq_false_iff]
    exact fun hrejected => hnot ⟨own, function, hown, hcall, hrejected⟩
  · rintro hstands ⟨own, function, hown, hcall, hrejected⟩
    rw [hfunction function hown, hstands own function hown hcall] at hrejected
    contradiction

end CompilationUnit

/-- A call is authorized exactly where it is authorizable, and then with the token that is issued
for it. -/
theorem Batch.authorized_iff_authorizable {b : Batch}
    (hds : Declarations.Dotless b.declarations) (config : CheckConfig) {u : CompilationUnit}
    {c : Call} {i j : Nat} (hu : b.units[i]? = some u) (hc : u.calls[j]? = some c)
    (hresolved : (u.context? (b.table config)).isSome) (hname : Dotless c.contract) :
    ∃ a, (b.check config).outcome? i j = some a ∧
      ((∃ token origin, a = .authorized token origin) ↔ u.Authorizable (b.table config) c) ∧
      ∀ token origin, a = .authorized token origin →
        u.Issues (b.table config) c token origin := by
  have htable : (b.table config).Reflects (Declarations.written? b.declarations) :=
    Resolution.reflects_resolve hds config.policy
  have hstands := CompilationUnit.not_rejected_iff htable hresolved hname
  obtain ⟨ctx, hctx⟩ := Option.isSome_iff_exists.mp hresolved
  have hsource := CompilationUnit.hasSource_iff (c := c) hctx
  refine ⟨_, outcome?_check hu hc config, ?_, ?_⟩
  · simp only [CompilationUnit.outcome, Verdict.annotation_eq_authorized_iff,
      CompilationUnit.verdict_eq_authorized_iff hresolved]
    constructor
    · rintro ⟨token, origin, hnot, hauth, hreachable, hissues⟩
      obtain ⟨hcallee, hcontract, hfunction⟩ := hstands.mp hnot
      exact ⟨hcallee, hcontract, hfunction, hauth, hreachable,
        hsource.mpr ⟨token, origin, hissues⟩⟩
    · rintro ⟨hcallee, hcontract, hfunction, hauth, hreachable, hhas⟩
      obtain ⟨token, origin, hissues⟩ := hsource.mp hhas
      exact ⟨token, origin, hstands.mpr ⟨hcallee, hcontract, hfunction⟩, hauth, hreachable,
        hissues⟩
  · intro token origin hauthorized
    rw [CompilationUnit.outcome, Verdict.annotation_eq_authorized_iff,
      CompilationUnit.verdict_eq_authorized_iff hresolved] at hauthorized
    exact hauthorized.2.2.2

def depositingUnit : CompilationUnit where
  name := "deposit"
  kind := .contract "Bank"
  imports := [{ contract := "Vault", mode := .authorized }]
  calls := [{ contract := "Vault", member := "join", function := some "enter" }]

def depositingBatch : Batch where
  declarations :=
    [{ kind := .contract, name := "Bank", address := .ofNat 1,
       functions := [{ name := "enter" }] },
     { kind := .contract, name := "Vault", address := .ofNat 2, qualifiers := [.auth],
       functions := [{ name := "join", qualifiers := [.auth] }] }]
  units := [depositingUnit]

theorem depositingBatch_authorized :
    Declarations.Dotless depositingBatch.declarations ∧ Dotless "Vault" ∧
      (depositingUnit.context? (depositingBatch.table {})).isSome ∧
      (depositingBatch.check {}).outcome? 0 0 =
        some (.authorized (.contract "Bank" ⟨1, by decide⟩) .authorizedImport) ∧
      ∃ c, depositingUnit.calls[0]? = some c ∧
        depositingUnit.Authorizable (depositingBatch.table {}) c ∧
        depositingUnit.Issues (depositingBatch.table {}) c (.contract "Bank" ⟨1, by decide⟩)
          .authorizedImport := by
  have hdotless : Declarations.Dotless depositingBatch.declarations := by decide
  have hname : Dotless "Vault" := by decide
  have hresolved : (depositingUnit.context? (depositingBatch.table {})).isSome := by cbv
  have hreport : (depositingBatch.check {}).outcome? 0 0 =
      some (.authorized (.contract "Bank" ⟨1, by decide⟩) .authorizedImport) := by cbv
  obtain ⟨a, ha, hauthorizable, hissues⟩ := Batch.authorized_iff_authorizable
    (b := depositingBatch) (i := 0) (j := 0) hdotless {} rfl rfl hresolved hname
  rw [hreport, Option.some.injEq] at ha
  exact ⟨hdotless, hname, hresolved, hreport, _, rfl,
    hauthorizable.mp ⟨_, _, ha.symm⟩, hissues _ _ ha.symm⟩

end AuthorizedCalls
