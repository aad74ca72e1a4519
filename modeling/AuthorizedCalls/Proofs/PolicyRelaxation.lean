import AuthorizedCalls.Proofs.ConformanceSoundness
import AuthorizedCalls.Proofs.UnitReport
import AuthorizedCalls.Proofs.ViolationTexts
import AuthorizedCalls.Schema.Report
import Mathlib.Computability.TuringMachine.StackTuringMachine

namespace AuthorizedCalls

namespace Resolution

def Unconflicted (r : Resolution) : Prop :=
  ∀ x ∈ r.diagnostics, x.isConflict = false

theorem LeadsTo.unconflicted {r r' : Resolution} (h : r.LeadsTo r') (hr' : r'.Unconflicted) :
    r.Unconflicted := by
  induction h with
  | refl => exact hr'
  | tail _ hstep ih =>
      obtain ⟨v, span, rfl⟩ := hstep
      exact ih fun x hx => hr' x (List.mem_append_left _ hx)

theorem not_unconflicted_refuse (r : Resolution) {v : DeclarationViolation}
    (hv : v.isConflict = true) (span : Span) : ¬ (r.refuse v span).Unconflicted := by
  intro h
  have hmem : v.diagnostic span ∈ (r.refuse v span).diagnostics :=
    List.mem_append_right _ List.mem_cons_self
  rw [← v.isConflict_diagnostic span, h _ hmem] at hv
  contradiction

theorem conflict?_eq_none_of_exact {table : Table} {interface implementation : DeclId}
    (h : conflict? table .exact interface implementation = none) (policy : Policy) :
    conflict? table policy interface implementation = none := by
  cases hconflict : conflict? table policy interface implementation with
  | none => rfl
  | some pair =>
      obtain ⟨hrequired, hdeclared, hauth, hrefused⟩ := conflict?_eq_some_iff.mp hconflict
      have hexact : Policy.exact.accepts pair.1 pair.2 = false := by
        by_contra haccepts
        rw [Policy.accepts_of_exact (by simpa using haccepts) policy] at hrefused
        contradiction
      rw [conflict?_eq_some_iff.mpr ⟨hrequired, hdeclared, hauth, hexact⟩] at h
      contradiction

/-- A pass that reports no conflict does the same under another rule, where each of its steps that
reports none does. -/
theorem foldl_eq_of_unconflicted {α : Type} {step other : Resolution → α → Resolution}
    (hstep : ∀ r x, LeadsTo r (step r x))
    (hother : ∀ r x, (step r x).Unconflicted → other r x = step r x) (xs : List α)
    (r : Resolution) (h : (xs.foldl step r).Unconflicted) :
    xs.foldl other r = xs.foldl step r := by
  induction xs generalizing r with
  | nil => rfl
  | cons x rest ih =>
      have hfirst : (step r x).Unconflicted := (leadsTo_foldl hstep rest _).unconflicted h
      rw [List.foldl_cons, List.foldl_cons, hother r x hfirst, ih (step r x) h]

theorem compareMember_eq_of_unconflicted (policy : Policy) (d interface : Declaration)
    (r : Resolution) (f : Member)
    (h : (compareMember .exact d interface r f).Unconflicted) :
    compareMember policy d interface r f = compareMember .exact d interface r f := by
  simp only [compareMember] at h ⊢
  cases hconflict : conflict? r.table .exact (.member interface.name f.name)
      (.member d.name f.name) with
  | none => rw [conflict?_eq_none_of_exact hconflict policy]
  | some pair =>
      rw [hconflict] at h
      exact absurd h (not_unconflicted_refuse r rfl _)

theorem compareWith_eq_of_unconflicted (policy : Policy) (d : Declaration) (r : Resolution)
    (interface : Declaration) (h : (compareWith .exact d r interface).Unconflicted) :
    compareWith policy d r interface = compareWith .exact d r interface := by
  rw [compareWith] at h ⊢
  rw [compareWith]
  split
  · rfl
  · next hstands =>
      rw [if_neg hstands] at h
      exact foldl_eq_of_unconflicted (leadsTo_compareMember .exact d interface)
        (compareMember_eq_of_unconflicted policy d interface) _ r h

theorem compareAll_eq_of_unconflicted (ds : Declarations) (policy : Policy) (r : Resolution)
    (d : Declaration) (h : (compareAll ds .exact r d).Unconflicted) :
    compareAll ds policy r d = compareAll ds .exact r d := by
  rw [compareAll] at h ⊢
  rw [compareAll]
  split
  · rfl
  · next hstands =>
      rw [if_neg hstands] at h
      exact foldl_eq_of_unconflicted (leadsTo_compareWith .exact d)
        (compareWith_eq_of_unconflicted policy d) _ r h

end Resolution

open Resolution

theorem Declarations.resolve_eq_of_unconflicted {ds : Declarations}
    (h : (ds.resolve .exact).Unconflicted) (policy : Policy) :
    ds.resolve policy = ds.resolve .exact :=
  foldl_eq_of_unconflicted (leadsTo_compareAll ds .exact) (compareAll_eq_of_unconflicted ds policy)
    _ _ h

theorem CheckReport.declarations_eq_nil_of_isAccepted {r : CheckReport}
    (h : r.isAccepted = true) : r.declarations = [] := by
  have hnone : r.diagnostics = [] := List.length_eq_zero_iff.mp (eq_of_beq h)
  exact (List.append_eq_nil_iff.mp hnone).1

namespace Batch

variable {b : Batch}

theorem unconflicted_of_isAccepted {policy : Policy} {parallel : Bool}
    (h : (b.check ⟨policy, parallel⟩).isAccepted = true) :
    (Declarations.resolve b.declarations policy).Unconflicted := by
  have hsorted := Diagnostics.perm_sortByLocation
    (Declarations.resolve b.declarations policy).diagnostics
  have hnone : (b.check ⟨policy, parallel⟩).declarations = [] :=
    CheckReport.declarations_eq_nil_of_isAccepted h
  rw [check_eq] at hnone
  dsimp only at hnone
  rw [hnone] at hsorted
  intro x hx
  rw [← hsorted.nil_eq] at hx
  contradiction

theorem check_eq_of_resolve_eq {policy : Policy}
    (h : Declarations.resolve b.declarations policy = Declarations.resolve b.declarations .exact)
    (parallel : Bool) : b.check ⟨policy, parallel⟩ = b.check ⟨.exact, parallel⟩ := by
  rw [check_eq, check_eq, table, table, h]

/-- Where no conflict with an interface is reported under the exact policy, whatever else is, every
policy comes to the same table, diagnostics and report; so what is accepted under the exact policy
is accepted under every policy, with the same report. -/
theorem check_eq_of_unconflicted (b : Batch) (policy : Policy) (parallel : Bool) :
    ((Declarations.resolve b.declarations .exact).Unconflicted →
        Declarations.resolve b.declarations policy = Declarations.resolve b.declarations .exact ∧
          b.check ⟨policy, parallel⟩ = b.check ⟨.exact, parallel⟩ ∧
          (b.check ⟨policy, parallel⟩).digest = (b.check ⟨.exact, parallel⟩).digest) ∧
      ((b.check ⟨.exact, parallel⟩).isAccepted = true →
        (b.check ⟨policy, parallel⟩).isAccepted = true ∧
          b.check ⟨policy, parallel⟩ = b.check ⟨.exact, parallel⟩) := by
  constructor
  · intro hunconflicted
    have hresolve := Declarations.resolve_eq_of_unconflicted hunconflicted policy
    have hcheck := check_eq_of_resolve_eq hresolve parallel
    exact ⟨hresolve, hcheck, congrArg CheckReport.digest hcheck⟩
  · intro haccepted
    have hresolve :=
      Declarations.resolve_eq_of_unconflicted (unconflicted_of_isAccepted haccepted) policy
    have hcheck := check_eq_of_resolve_eq hresolve parallel
    exact ⟨hcheck ▸ haccepted, hcheck⟩

end Batch

/-- A contract that implements a function of its interface as the interface has it, and a
transaction that calls it. -/
def conformingBatch : Batch where
  declarations :=
    [{ kind := .interface, name := "Joinable", address := .ofNat 1,
       functions := [{ name := "join", qualifiers := [.auth] }] },
     { kind := .contract, name := "Vault", address := .ofNat 2, conforms := ["Joinable"],
       functions := [{ name := "join", qualifiers := [.auth] }] }]
  units :=
    [{ name := "enter", kind := .transaction [{ name := "signer" }],
       imports := [{ contract := "Vault", mode := .authorized }],
       calls := [{ contract := "Vault", member := "join", phase := .prepare }] }]

/-- The same with a contract declared twice and one that reads the authorization identifier in a
function that does not receive it. -/
def faultyBatch : Batch where
  declarations := conformingBatch.declarations ++
    [{ kind := .contract, name := "Vault", address := .ofNat 3 },
     { kind := .contract, name := "Bank", address := .ofNat 4,
       functions := [{ name := "audit", readsAuth := true }] }]
  units := conformingBatch.units

theorem faultyBatch_relaxed :
    (Declarations.resolve faultyBatch.declarations .exact).Unconflicted ∧
      (Declarations.resolve faultyBatch.declarations .exact).diagnostics.kinds =
        [.qualifierConflict, .authIdentifierUnavailable] ∧
      faultyBatch.check ⟨.allowStricter, true⟩ = faultyBatch.check ⟨.exact, true⟩ ∧
      (conformingBatch.check ⟨.exact, true⟩).isAccepted = true ∧
      (conformingBatch.check ⟨.allowStricter, true⟩).isAccepted = true := by
  have hnone : (Declarations.resolve faultyBatch.declarations .exact).diagnostics.all
      (fun x => !x.isConflict) = true := by cbv
  have hunconflicted : (Declarations.resolve faultyBatch.declarations .exact).Unconflicted := by
    simpa [Unconflicted] using hnone
  have hkinds : (Declarations.resolve faultyBatch.declarations .exact).diagnostics.kinds =
      [.qualifierConflict, .authIdentifierUnavailable] := by cbv
  have haccepted : (conformingBatch.check ⟨.exact, true⟩).isAccepted = true := by cbv
  have hfaulty := Batch.check_eq_of_unconflicted faultyBatch .allowStricter true
  have hconforming := Batch.check_eq_of_unconflicted conformingBatch .allowStricter true
  exact ⟨hunconflicted, hkinds, (hfaulty.1 hunconflicted).2.1, haccepted,
    (hconforming.2 haccepted).1⟩

end AuthorizedCalls
