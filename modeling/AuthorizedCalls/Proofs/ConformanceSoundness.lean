import AuthorizedCalls.Proofs.Passes
import AuthorizedCalls.Proofs.Traversal
import Mathlib.Computability.Primrec.List
import Mathlib.Data.List.Permutation

namespace AuthorizedCalls.Resolution

theorem conflict?_eq_some_iff {table : Table} {policy : Policy}
    {interface implementation : DeclId} {required declared : Access} :
    conflict? table policy interface implementation = some (required, declared) ↔
      table.qualifier? interface = some required ∧
        table.qualifier? implementation = some declared ∧
        (required = .auth ∨ declared = .auth) ∧ policy.accepts required declared = false := by
  rw [conflict?]
  cases table.qualifier? interface with
  | none => simp
  | some required' =>
      cases table.qualifier? implementation with
      | none => simp
      | some declared' =>
          simp only [Option.some.injEq]
          split
          · next h =>
              simp only [Bool.and_eq_true, Bool.or_eq_true, Access.isAuth_iff,
                Bool.not_eq_true'] at h
              constructor
              · intro heq
                cases heq
                exact ⟨rfl, rfl, h⟩
              · rintro ⟨rfl, rfl, -⟩
                rfl
          · next h =>
              simp only [Bool.and_eq_true, Bool.or_eq_true, Access.isAuth_iff,
                Bool.not_eq_true'] at h
              constructor
              · intro heq
                contradiction
              · rintro ⟨rfl, rfl, hconflict⟩
                exact absurd hconflict h

/-- No function of a declaration conflicts with one of an interface. -/
def Settled (policy : Policy) (name interface : String) (r : Resolution) : Prop :=
  ∀ f, conflict? r.table policy (.member interface f) (.member name f) = none

theorem conflict?_eq_none_of_leadsTo {r r' : Resolution} (h : r.LeadsTo r') {policy : Policy}
    {interface implementation : DeclId}
    (hr : conflict? r.table policy interface implementation = none) :
    conflict? r'.table policy interface implementation = none := by
  have hqualifier : ∀ {id : DeclId} {qualifier : Access},
      r'.table.qualifier? id = some qualifier → r.table.qualifier? id = some qualifier := by
    intro id qualifier hid
    obtain ⟨entry, hentry, hsame⟩ := Option.map_eq_some_iff.mp hid
    exact Option.map_eq_some_iff.mpr ⟨entry, h.get?_of_get? hentry, hsame⟩
  cases hconflict : conflict? r'.table policy interface implementation with
  | none => rfl
  | some pair =>
      obtain ⟨hinterface, himplementation, hrule⟩ := conflict?_eq_some_iff.mp hconflict
      have hbefore := conflict?_eq_some_iff.mpr
        ⟨hqualifier hinterface, hqualifier himplementation, hrule⟩
      rw [hr] at hbefore
      contradiction

theorem Settled.of_leadsTo {policy : Policy} {name interface : String} {r r' : Resolution}
    (h : r.LeadsTo r') (hr : Settled policy name interface r) :
    Settled policy name interface r' :=
  fun f => conflict?_eq_none_of_leadsTo h (hr f)

section Comparison

variable {ds : Declarations} {policy : Policy} {r : Resolution}

theorem get?_member_of_isRejected (hr : r.table.Reflects ds.written?) {name : String}
    (hname : Dotless name) (hrejected : r.table.isRejected (.contract name) = true)
    (f : String) : r.table.get? (.member name f) = none := by
  rw [hr, Table.isRejected_member _ hname, ← Table.isRejected_contract _ hname, hrejected]
  simp

theorem settled_of_rejected_interface (hr : r.table.Reflects ds.written?) {interface : String}
    (hinterface : Dotless interface)
    (hrejected : r.table.isRejected (.contract interface) = true) (name : String) :
    Settled policy name interface r := by
  intro f
  simp [conflict?, Table.qualifier?, get?_member_of_isRejected hr hinterface hrejected]

theorem settled_of_rejected (hr : r.table.Reflects ds.written?) {name : String}
    (hname : Dotless name) (hrejected : r.table.isRejected (.contract name) = true)
    (interface : String) : Settled policy name interface r := by
  intro f
  cases hinterface : r.table.qualifier? (.member interface f) <;>
    simp [conflict?, Table.qualifier?, get?_member_of_isRejected hr hname hrejected]

theorem conflict?_compareMember (d interface : Declaration) (r : Resolution) (f : Member) :
    conflict? (compareMember policy d interface r f).table policy
      (.member interface.name f.name) (.member d.name f.name) = none := by
  simp only [compareMember]
  split
  · next h => exact h
  · next expected actual h =>
      have hgone : Table.qualifier?
          (r.table.reject (.member d.name f.name)) (.member d.name f.name) = none := by
        rw [Table.qualifier?, Table.get?_reject, Table.dropsWith_eq]
        simp
      rw [conflict?, refuse, DeclarationViolation.subject, hgone]
      split <;> trivial

theorem settled_compareWith (hr : r.table.Reflects ds.written?) (d : Declaration)
    {interface : Declaration} (hinterface : ds.named? interface.name = some interface)
    (hdotless : Dotless interface.name) :
    Settled policy d.name interface.name (compareWith policy d r interface) := by
  rw [compareWith]
  split
  · next hrejected => exact settled_of_rejected_interface hr hdotless hrejected d.name
  · intro name
    have hleads := leadsTo_foldl (leadsTo_compareMember policy d interface) interface.functions r
    have hall := forall_mem_foldl
      (fun (f : Member) r =>
        conflict? r.table policy (.member interface.name f.name) (.member d.name f.name) = none)
      interface.functions (leadsTo_compareMember policy d interface)
      (fun h hx => conflict?_eq_none_of_leadsTo h hx)
      (fun r f _ _ => conflict?_compareMember d interface r f) hr
    cases hconflict : conflict?
        (interface.functions.foldl (compareMember policy d interface) r).table policy
        (.member interface.name name) (.member d.name name) with
    | none => rfl
    | some pair =>
        -- A function that the interface does not declare has no entry to conflict with.
        obtain ⟨hrequired, -⟩ := conflict?_eq_some_iff.mp hconflict
        obtain ⟨entry, hentry, -⟩ := Option.map_eq_some_iff.mp hrequired
        obtain ⟨d', f, hd', hf, -⟩ := (Declarations.written?_eq_some_iff
          (DeclId.isMember_member _ _)).mp ((hleads.reflects hr).of_get? hentry).2
        rw [DeclId.contractName_member _ hdotless, hinterface, Option.some.injEq] at hd'
        rw [← hd', DeclId.memberName_member _ hdotless] at hf
        have hname : f.name = name := by simpa using List.find?_some hf
        have hsettled := hall f (List.mem_of_find?_eq_some hf)
        rw [hname, hconflict] at hsettled
        contradiction

theorem settled_compareAll (hds : ds.Dotless) (hr : r.table.Reflects ds.written?)
    {d : Declaration} (hd : d ∈ ds.canonical) :
    ∀ interface ∈ ds.above d.name,
      Settled policy d.name interface (compareAll ds policy r d) := by
  have hdotless : ∀ {name : String} {other : Declaration},
      ds.named? name = some other → Dotless other.name := by
    intro name other hother
    exact hds other (Declarations.mem_of_named? hother).1
  intro interface hinterface
  rw [compareAll]
  split
  · next hrejected =>
      exact settled_of_rejected hr (hdotless (Declarations.mem_canonical_iff.mp hd)) hrejected _
  · have hall := forall_mem_foldl
      (fun (i : Declaration) r => Settled policy d.name i.name r)
      ((ds.above d.name).filterMap ds.named?)
      (leadsTo_compareWith policy d) (fun h hx => hx.of_leadsTo h)
      (by
        intro r i hi hr
        obtain ⟨name, -, hname⟩ := List.mem_filterMap.mp hi
        have hi : ds.named? i.name = some i := (Declarations.mem_of_named? hname).2 ▸ hname
        exact settled_compareWith hr d hi (hdotless hi))
      hr
    obtain ⟨i, hi, -⟩ := (Declarations.mem_above_iff.mp hinterface).1.exists_interface
    have hsettled := hall i (List.mem_filterMap.mpr ⟨interface, hinterface, hi⟩)
    rw [(Declarations.mem_of_named? hi).2] at hsettled
    exact hsettled

end Comparison

end AuthorizedCalls.Resolution

namespace AuthorizedCalls.Declarations

open Resolution

/-- Of a function and the one of its name in an interface above, where both stand, either neither
is `auth` or the policy accepts the pair; so what implements an `auth` function is `auth`. -/
theorem entries_conform {ds : Declarations} (hds : ds.Dotless) (policy : Policy)
    {name interface member : String} {required declared : Entry}
    (hconforms : ds.ConformsTo name interface) (hne : interface ≠ name)
    (hrequired : (ds.resolve policy).table.get? (.member interface member) = some required)
    (hdeclared : (ds.resolve policy).table.get? (.member name member) = some declared) :
    (required.qualifier ≠ .auth ∧ declared.qualifier ≠ .auth ∨
        policy.accepts required.qualifier declared.qualifier = true) ∧
      (required.qualifier = .auth → declared.qualifier = .auth) := by
  obtain ⟨d, hd⟩ := hconforms.exists_declaration
  have hname := (mem_of_named? hd).2
  subst hname
  have hcanonical := mem_canonical_iff.mpr hd
  have hsettled : Settled policy d.name interface (ds.resolve policy) :=
    forall_mem_foldl
      (fun (d : Declaration) r =>
        ∀ interface ∈ ds.above d.name, Settled policy d.name interface r)
      ds.canonical (leadsTo_compareAll ds policy)
      (fun h hx interface hinterface => (hx interface hinterface).of_leadsTo h)
      (fun r d hd hr => settled_compareAll hds hr hd)
      (reflects_acyclic hds) d hcanonical interface (mem_above_iff.mpr ⟨hconforms, hne⟩)
  have hrule : required.qualifier ≠ .auth ∧ declared.qualifier ≠ .auth ∨
      policy.accepts required.qualifier declared.qualifier = true := by
    by_contra hbroken
    rw [not_or, Bool.not_eq_true, not_and_or, not_not, not_not] at hbroken
    have hconflict := conflict?_eq_some_iff.mpr
      ⟨congrArg (Option.map Entry.qualifier) hrequired,
        congrArg (Option.map Entry.qualifier) hdeclared, hbroken⟩
    rw [hsettled member] at hconflict
    contradiction
  refine ⟨hrule, fun hauth => ?_⟩
  rcases hrule with ⟨hnot, -⟩ | haccepts
  · exact absurd hauth hnot
  · rw [hauth] at haccepts
    exact Policy.eq_auth_of_accepts haccepts

/-- A contract two steps below the interface that declares its function. -/
def layered : Declarations :=
  [{ kind := .interface, name := "Joinable", address := .ofNat 1,
     functions := [{ name := "join", qualifiers := [.auth] }] },
   { kind := .interface, name := "Stakeable", address := .ofNat 1,
     conforms := ["Joinable"] },
   { kind := .contract, name := "Vault", address := .ofNat 2, conforms := ["Stakeable"],
     functions := [{ name := "join", qualifiers := [.auth] }] }]

theorem layered_entries_conform :
    Declarations.Dotless layered ∧ layered.ConformsTo "Vault" "Joinable" ∧
      ∃ required declared,
        (layered.resolve .exact).table.get? (.member "Joinable" "join") = some required ∧
        (layered.resolve .exact).table.get? (.member "Vault" "join") = some declared ∧
        (required.qualifier = .auth → declared.qualifier = .auth) := by
  have hdotless : Declarations.Dotless layered := by decide
  have hconforms : layered.ConformsTo "Vault" "Joinable" :=
    .head (b := "Stakeable") ⟨_, _, rfl, List.mem_cons_self, rfl, rfl⟩
      (.single ⟨_, _, rfl, List.mem_cons_self, rfl, rfl⟩)
  -- `cbv` unfolds `List.lookup` by the equations that come with `Computability.Primrec.List`.
  have hrequired : (layered.resolve .exact).table.get? (.member "Joinable" "join") =
      some ⟨.function, .auth, ⟨1, by decide⟩, {}⟩ := by cbv
  have hdeclared : (layered.resolve .exact).table.get? (.member "Vault" "join") =
      some ⟨.function, .auth, ⟨2, by decide⟩, {}⟩ := by cbv
  refine ⟨hdotless, hconforms, _, _, hrequired, hdeclared, ?_⟩
  exact (entries_conform hdotless .exact hconforms (by decide) hrequired hdeclared).2

end AuthorizedCalls.Declarations
