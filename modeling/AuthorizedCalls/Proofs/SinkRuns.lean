import AuthorizedCalls.Check
import AuthorizedCalls.Proofs.LocationOrder
import AuthorizedCalls.Proofs.Utf8Order
import Mathlib.Algebra.BigOperators.Group.List.Basic
import Mathlib.Algebra.Ring.Nat
import Mathlib.Data.List.Forall2

namespace AuthorizedCalls

namespace Span

/-- The order of places: bytes of the file name first, then line, then column. -/
def AtOrBefore (a b : Span) : Prop :=
  Text.Utf8.bytes a.file < Text.Utf8.bytes b.file ∨ a.file = b.file ∧
    (a.line < b.line ∨ a.line = b.line ∧ a.column ≤ b.column)

theorem atOrBefore_iff_notAfter {a b : Span} : a.AtOrBefore b ↔ a.notAfter b = true := by
  have hfile : ¬ b.file < a.file ↔ a.file < b.file ∨ a.file = b.file := by
    rw [String.not_lt]
    exact Std.le_iff_lt_or_eq
  have hasymm (h : a.file < b.file) : ¬ b.file < a.file := String.lt_asymm h
  have hirrefl := String.lt_irrefl b.file
  rw [AtOrBefore, Text.Utf8.bytes_lt_bytes_iff, notAfter, Bool.not_eq_true', ← Bool.not_eq_true,
    before_iff]
  simp only [UInt32.lt_iff_toNat_lt, UInt32.le_iff_toNat_le, ← UInt32.toNat_inj]
  grind

end Span

namespace Diagnostics

inductive Operation
  | report (d : Diagnostic)
  | extend (more : Diagnostics)
  | sort

namespace Operation

def apply (ds : Diagnostics) : Operation → Diagnostics
  | report d => Diagnostics.report ds d
  | extend more => Diagnostics.extend ds more
  | sort => ds.sortByLocation

def added : Operation → Diagnostics
  | report d => [d]
  | extend more => more
  | sort => []

end Operation

def run (operations : List Operation) : Diagnostics :=
  operations.foldl Operation.apply []

/-- The diagnostics that were added by some operations, in the order of adding. -/
def added (operations : List Operation) : Diagnostics :=
  operations.flatMap Operation.added

/-- The first list holds the diagnostics of the second, those of one location as they were
added. -/
structure Records (records added : Diagnostics) : Prop where
  perm : records.Perm added
  stable : ∀ location : Span, (records.filter fun d => d.location = location) =
    added.filter fun d => d.location = location

def Ascending (ds : Diagnostics) : Prop :=
  ds.Pairwise fun d e => d.location.AtOrBefore e.location

theorem Sorts.isAscending {sorted reported : Diagnostics} (h : sorted.Sorts reported) :
    sorted.Ascending :=
  h.ascending.imp Span.atOrBefore_iff_notAfter.mpr

theorem Records.append {records added : Diagnostics} (h : records.Records added)
    (more : Diagnostics) : Records (records ++ more) (added ++ more) where
  perm := h.perm.append_right more
  stable location := by rw [List.filter_append, List.filter_append, h.stable]

theorem Records.sortByLocation {records added : Diagnostics} (h : records.Records added) :
    records.sortByLocation.Records added where
  perm := (perm_sortByLocation records).trans h.perm
  stable location := (filter_sortByLocation records location).trans (h.stable location)

theorem Records.apply {records added : Diagnostics} (h : records.Records added)
    (o : Operation) : Records (o.apply records) (added ++ o.added) := by
  cases o with
  | report d => exact h.append [d]
  | extend more => exact h.append more
  | sort =>
      rw [Operation.added, List.append_nil]
      exact h.sortByLocation

theorem records_run (operations : List Operation) :
    Records (run operations) (added operations) := by
  have hfrom {records before : Diagnostics} (h : records.Records before) :
      Records (operations.foldl Operation.apply records) (before ++ added operations) := by
    induction operations generalizing records before with
    | nil =>
        rw [added, List.flatMap_nil, List.append_nil]
        exact h
    | cons o rest ih =>
        rw [added, List.flatMap_cons, ← List.append_assoc]
        exact ih (h.apply o)
  exact hfrom ⟨.refl [], fun _ => rfl⟩

theorem sortByLocation_sortByLocation (ds : Diagnostics) :
    ds.sortByLocation.sortByLocation = ds.sortByLocation :=
  List.mergeSort_of_pairwise (ascending_sortByLocation ds)

theorem run_concat_sort (operations : List Operation) :
    run (operations ++ [.sort]) = (run operations).sortByLocation := by
  rw [run, List.foldl_append]
  rfl

theorem sum_countKind (ds : Diagnostics) :
    (DiagnosticKind.all.map ds.countKind).sum = ds.length := by
  induction ds with
  | nil => rfl
  | cons d rest ih =>
      have hone : (DiagnosticKind.all.map fun k => if d.kind = k then 1 else 0).sum = 1 := by
        cases d.kind <;> rfl
      have hcount : countKind (d :: rest) = fun k =>
          countKind rest k + if d.kind = k then 1 else 0 := by
        funext k
        simp only [countKind, List.countP_cons, decide_eq_true_eq]
      rw [hcount, List.sum_map_add, ih, hone, List.length_cons]

theorem run_map_report (reported : Diagnostics) : run (reported.map .report) = reported := by
  have hfrom (before : Diagnostics) :
      (reported.map Operation.report).foldl Operation.apply before = before ++ reported := by
    induction reported generalizing before with
    | nil => exact (List.append_nil before).symm
    | cons d rest ih =>
        rw [List.map_cons, List.foldl_cons, ih, Operation.apply, report, List.append_assoc,
          List.singleton_append]
  exact hfrom []

theorem added_map_report (reported : Diagnostics) : added (reported.map .report) = reported := by
  rw [added, List.flatMap_map]
  exact List.flatMap_singleton' reported

end Diagnostics

/-- What is reported on a unit, in the order of the passes. -/
def CompilationUnit.reported (u : CompilationUnit) (table : Table) : Diagnostics :=
  let (imports, importDiagnostics) := ImportScope.ofImports table u.imports
  importDiagnostics ++ AuthorizerScope.duplicates [] u.authorizerParams ++
    (u.checkCalls table imports).2

def CheckReport.parts (r : CheckReport) : List Diagnostics :=
  r.declarations :: r.units.map UnitReport.diagnostics

theorem CheckReport.diagnostics_eq_flatten (r : CheckReport) : r.diagnostics = r.parts.flatten := by
  rw [diagnostics, parts, List.flatten_cons, List.flatMap_def]

def Batch.reported (b : Batch) (config : CheckConfig) : List Diagnostics :=
  let resolved := Declarations.resolve b.declarations config.policy
  resolved.diagnostics :: b.units.map fun u => u.reported resolved.table

open Diagnostics

/-- Every part of a report is a run that adds what is reported and then sorts. -/
theorem Batch.parts_check (b : Batch) (config : CheckConfig) :
    (b.check config).parts =
      (b.reported config).map fun reported => run (reported.map .report ++ [.sort]) := by
  simp only [run_concat_sort, run_map_report, CheckReport.parts, check, Checker.check,
    Checker.checkUnits_eq_map, reported, List.map_cons, List.map_map]
  rfl

/-- After any operations the list holds what was added, each diagnostic under one kind, and a sort
at the end puts it in order once and for all. The parts of a report are what is left by such
operations. -/
theorem records_of_operations :
    (∀ operations : List Operation,
      (run operations).Records (added operations) ∧
        (run (operations ++ [.sort])).Ascending ∧
        run (operations ++ [.sort] ++ [.sort]) = run (operations ++ [.sort]) ∧
        (DiagnosticKind.all.map (run operations).countKind).sum = (run operations).length ∧
        (run operations).kinds.length = (run operations).length) ∧
      ∀ (b : Batch) (config : CheckConfig),
        (b.check config).diagnostics = (b.check config).parts.flatten ∧
        List.Forall₂ (fun part reported => part.Records reported ∧ part.Ascending)
          (b.check config).parts (b.reported config) := by
  have hascending (operations : List Operation) :
      (run (operations ++ [.sort])).Ascending := by
    rw [run_concat_sort]
    exact (sorts_sortByLocation _).isAscending
  constructor
  · intro operations
    refine ⟨records_run operations, hascending operations, ?_, sum_countKind _, List.length_map _⟩
    rw [run_concat_sort, run_concat_sort, sortByLocation_sortByLocation]
  · intro b config
    refine ⟨CheckReport.diagnostics_eq_flatten _, ?_⟩
    rw [b.parts_check config, List.forall₂_map_left_iff, List.forall₂_same]
    intro reported _
    have hadded : added (reported.map .report ++ [.sort]) = reported := by
      rw [added, List.flatMap_append, ← added, added_map_report]
      exact List.append_nil reported
    have hrecords := records_run (reported.map .report ++ [.sort])
    rw [hadded] at hrecords
    exact ⟨hrecords, hascending _⟩

end AuthorizedCalls
