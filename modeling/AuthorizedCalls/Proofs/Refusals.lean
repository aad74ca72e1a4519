import AuthorizedCalls.Proofs.Passes
import Mathlib.Data.List.Perm.Basic

namespace AuthorizedCalls

/-- A violation and the place that it is reported at. -/
structure Finding where
  violation : DeclarationViolation
  span : Span
deriving DecidableEq

namespace Finding

def subject (x : Finding) : DeclId :=
  x.violation.subject

def diagnostic (x : Finding) : Diagnostic :=
  x.violation.diagnostic x.span

end Finding

theorem Table.reject_comm (t : Table) (a b : DeclId) :
    (t.reject a).reject b = (t.reject b).reject a := by
  simp only [reject, markRejected, Table.mk.injEq]
  refine ⟨?_, ?_, ?_⟩
  · apply SortedMap.ext_find?
    intro key
    simp only [SortedMap.find?_filterKeys]
    split <;> split <;> rfl
  · apply SortedMap.ext_find?
    intro key
    simp only [SortedMap.find?_insert]
    split <;> split <;> rfl
  · apply SortedMap.ext_find?
    intro key
    simp only [SortedMap.find?_filterKeys]
    split <;> split <;> rfl

namespace Resolution

def refuseAll (r : Resolution) (findings : List Finding) : Resolution :=
  findings.foldl (fun r x => r.refuse x.violation x.span) r

@[simp] theorem refuseAll_nil (r : Resolution) : r.refuseAll [] = r :=
  rfl

theorem refuseAll_cons (r : Resolution) (x : Finding) (xs : List Finding) :
    r.refuseAll (x :: xs) = (r.refuse x.violation x.span).refuseAll xs :=
  rfl

theorem refuseAll_append (r : Resolution) (xs ys : List Finding) :
    r.refuseAll (xs ++ ys) = (r.refuseAll xs).refuseAll ys :=
  List.foldl_append

theorem diagnostics_refuseAll (r : Resolution) (xs : List Finding) :
    (r.refuseAll xs).diagnostics = r.diagnostics ++ xs.map Finding.diagnostic := by
  induction xs generalizing r with
  | nil => simp
  | cons x rest ih =>
      rw [refuseAll_cons, ih, List.map_cons, ← List.singleton_append, ← List.append_assoc]
      rfl

theorem table_refuseAll (r : Resolution) (xs : List Finding) :
    (r.refuseAll xs).table = (xs.map Finding.subject).foldl Table.reject r.table := by
  induction xs generalizing r with
  | nil => rfl
  | cons x rest ih =>
      rw [refuseAll_cons, ih, List.map_cons, List.foldl_cons]
      rfl

theorem table_refuseAll_of_perm {r r' : Resolution} (htable : r.table = r'.table)
    {xs ys : List Finding} (h : xs.Perm ys) :
    (r.refuseAll xs).table = (r'.refuseAll ys).table := by
  have : RightCommutative Table.reject := ⟨Table.reject_comm⟩
  rw [table_refuseAll, table_refuseAll, htable]
  exact (h.map Finding.subject).foldl_eq r'.table

theorem rejects_refuseAll {r : Resolution} {xs : List Finding} {id : DeclId} :
    (r.refuseAll xs).table.rejects id = true ↔
      (∃ x ∈ xs, x.subject = id) ∨ r.table.rejects id = true := by
  induction xs generalizing r with
  | nil => simp
  | cons x rest ih =>
      have hstep : (r.refuse x.violation x.span).table.rejects id =
          (decide (id = x.subject) || r.table.rejects id) :=
        Table.rejects_reject _ _ _
      rw [refuseAll_cons, ih, hstep, Bool.or_eq_true, decide_eq_true_eq, List.exists_mem_cons_iff,
        or_left_comm, or_assoc, eq_comm (a := id)]

/-- A pass whose steps refuse what is found for each item refuses what is found for all. -/
theorem foldl_eq_refuseAll {α : Type} {step : Resolution → α → Resolution}
    {findings : α → List Finding} (hstep : ∀ r x, step r x = r.refuseAll (findings x))
    (xs : List α) (r : Resolution) : xs.foldl step r = r.refuseAll (xs.flatMap findings) := by
  induction xs generalizing r with
  | nil => rfl
  | cons x rest ih =>
      rw [List.foldl_cons, ih, hstep, List.flatMap_cons, refuseAll_append]

end Resolution

namespace Declarations

open Resolution

/-- What is wrong with a target that is no declared interface. -/
def targetFinding? (ds : Declarations) (d : Declaration) (target : String) : Option Finding :=
  match ds.named? target with
  | none => some ⟨.unknownInterface d.name target, d.span⟩
  | some parent =>
    if parent.isInterface then none
    else some ⟨.notAnInterface d.name target parent.kind, d.span⟩

def targetFindings (ds : Declarations) (d : Declaration) : List Finding :=
  d.conforms.flatMap fun target => (ds.targetFinding? d target).toList

def cycleFindings (ds : Declarations) (members : List String) : List Finding :=
  (members.filterMap ds.named?).map fun d => ⟨.cyclic d.name members, d.span⟩

/-- What is found about the targets of the declarations, and after that about the cycles. -/
def conformanceFindings (ds : Declarations) : List Finding :=
  ds.canonical.flatMap ds.targetFindings ++ ds.cycles.flatMap ds.cycleFindings

theorem checkTarget_eq (ds : Declarations) (d : Declaration) (r : Resolution) (target : String) :
    checkTarget ds d r target = r.refuseAll (ds.targetFinding? d target).toList := by
  rw [checkTarget, targetFinding?]
  cases ds.named? target with
  | none => rfl
  | some parent =>
      dsimp only
      split <;> rfl

theorem refuseCycle_eq (ds : Declarations) (r : Resolution) (members : List String) :
    refuseCycle ds r members = r.refuseAll (ds.cycleFindings members) := by
  rw [refuseCycle, cycleFindings, refuseAll, List.foldl_map]

theorem acyclic_eq (ds : Declarations) :
    ds.acyclic = ds.registered.refuseAll ds.conformanceFindings := by
  have htargets : ∀ r d, checkTargets ds r d = r.refuseAll (ds.targetFindings d) :=
    fun r d => foldl_eq_refuseAll (checkTarget_eq ds d) d.conforms r
  rw [acyclic, targeted, foldl_eq_refuseAll htargets, foldl_eq_refuseAll (refuseCycle_eq ds),
    ← refuseAll_append]
  rfl

theorem subject_of_mem_targetFindings {ds : Declarations} {d : Declaration} {x : Finding}
    (h : x ∈ ds.targetFindings d) : x.subject = d.id := by
  obtain ⟨target, -, hx⟩ := List.mem_flatMap.mp h
  rw [targetFinding?] at hx
  cases hparent : ds.named? target with
  | none =>
      rw [hparent, Option.toList_some, List.mem_singleton] at hx
      rw [hx]
      rfl
  | some parent =>
      rw [hparent] at hx
      dsimp only at hx
      split at hx
      · contradiction
      · rw [Option.toList_some, List.mem_singleton] at hx
        rw [hx]
        rfl

theorem targetFindings_eq_nil_iff {ds : Declarations} {d : Declaration} :
    ds.targetFindings d = [] ↔
      ∀ target ∈ d.conforms, ∃ i, ds.named? target = some i ∧ i.kind = .interface := by
  rw [targetFindings, List.flatMap_eq_nil_iff]
  refine forall₂_congr fun target _ => ?_
  rw [Option.toList_eq_nil_iff, targetFinding?]
  cases ds.named? target with
  | none => simp
  | some parent => simp [Declaration.isInterface]

end Declarations

end AuthorizedCalls
