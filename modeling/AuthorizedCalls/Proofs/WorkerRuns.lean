import AuthorizedCalls.Check
import AuthorizedCalls.Schema.Report
import Mathlib.Algebra.Order.Floor.Div

namespace AuthorizedCalls

section Chunks

variable {α : Type} {size : Nat} (hsize : 0 < size)

include hsize

theorem chunks_eq_cons {xs : List α} (hxs : xs ≠ []) :
    chunks size xs = xs.take size :: chunks size (xs.drop size) := by
  obtain ⟨n, rfl⟩ := Nat.exists_eq_succ_of_ne_zero hsize.ne'
  cases xs with
  | nil => exact absurd rfl hxs
  | cons x rest => rw [chunks, List.take_succ_cons, List.drop_succ_cons, Nat.succ_sub_one]

/-- The runs stand one after the other, each of the full size but for the last. -/
theorem getElem?_chunks (xs : List α) (k : Nat) :
    (chunks size xs)[k]? =
      if k * size < xs.length then some ((xs.drop (k * size)).take size) else none := by
  induction k generalizing xs with
  | zero =>
      cases xs with
      | nil => simp [chunks]
      | cons x rest => simp [chunks_eq_cons hsize]
  | succ k ih =>
      by_cases hxs : xs = []
      · simp [hxs, chunks]
      · have hplace : k * size < xs.length - size ↔ (k + 1) * size < xs.length := by
          rw [Nat.add_one_mul]
          omega
        rw [chunks_eq_cons hsize hxs, List.getElem?_cons_succ, ih, List.length_drop,
          List.drop_drop, Nat.add_comm size, ← Nat.add_one_mul]
        simp only [hplace]

theorem length_chunks (xs : List α) : (chunks size xs).length = xs.length ⌈/⌉ size := by
  have hplace (k : Nat) : (chunks size xs).length ≤ k ↔ xs.length ⌈/⌉ size ≤ k := by
    rw [← List.getElem?_eq_none_iff, getElem?_chunks hsize, ceilDiv_le_iff_le_mul hsize,
      Nat.mul_comm size]
    simp
  exact Nat.le_antisymm ((hplace _).mpr le_rfl) ((hplace _).mp le_rfl)

end Chunks

namespace Checker

theorem chunkSize_eq_ceilDiv (units workers : Nat) :
    chunkSize units workers = units ⌈/⌉ workers := by
  rw [chunkSize, Nat.ceilDiv_eq_add_pred_div]

/-- The runs of a size that so many workers take of the units. -/
structure Shares (workers size : Nat) (units : List CompilationUnit)
    (runs : List (List CompilationUnit)) : Prop where
  size_eq : size = units.length ⌈/⌉ workers
  size_pos : 0 < size
  length_le : runs.length ≤ workers
  /-- A run begins where the one before it ends. -/
  run_eq : ∀ k, runs[k]? =
    if k * size < units.length then some ((units.drop (k * size)).take size) else none
  flatten_eq : runs.flatten = units

theorem shares_chunks {workers : Nat} {units : List CompilationUnit} (hworkers : 0 < workers)
    (hunits : units ≠ []) :
    Shares workers (chunkSize units.length workers) units
      (chunks (chunkSize units.length workers) units) := by
  have hlength : 0 < units.length := List.length_pos_iff.mpr hunits
  have hsize : 0 < units.length ⌈/⌉ workers := by
    rw [← not_le, ceilDiv_le_iff_le_mul hworkers, Nat.mul_zero]
    exact not_le.mpr hlength
  rw [chunkSize_eq_ceilDiv]
  refine ⟨rfl, hsize, ?_, getElem?_chunks hsize units, flatten_chunks _ _⟩
  rw [length_chunks hsize, ceilDiv_le_iff_le_mul hsize, Nat.mul_comm]
  exact (ceilDiv_le_iff_le_mul hworkers).mp le_rfl

/-- The check on a machine that runs so many workers at once. -/
def checkOn (c : Checker) (maxWorkers : Nat) (units : List CompilationUnit) : CheckReport :=
  ⟨c.declarations, c.checkUnits maxWorkers units⟩

theorem checkOn_defaultWorkers (c : Checker) (units : List CompilationUnit) :
    c.checkOn defaultWorkers units = c.check units :=
  rfl

theorem checkOn_eq (c : Checker) (maxWorkers : Nat) (units : List CompilationUnit) :
    c.checkOn maxWorkers units = ⟨c.declarations, units.map c.checkUnit⟩ := by
  rw [checkOn, checkUnits_eq_map]

def withParallel (c : Checker) (parallel : Bool) : Checker :=
  { c with config := { c.config with parallel } }

/-- What the workers find on their runs is, in the order of the runs, what one walk over the units
finds. So neither the number of workers nor whether there are any shows in the report. -/
theorem report_eq_of_runs (c : Checker) (units : List CompilationUnit) {maxWorkers : Nat}
    (hworkers : 1 ≤ maxWorkers) :
    let workers := min maxWorkers units.length
    let size := chunkSize units.length workers
    let runs := chunks size units
    (units ≠ [] → Shares workers size units runs) ∧
      (runs.map fun run => run.map c.checkUnit).flatten = units.map c.checkUnit ∧
      c.checkUnits maxWorkers units = units.map c.checkUnit ∧
      ∀ (parallel : Bool) (otherWorkers : Nat),
        (c.withParallel parallel).checkOn otherWorkers units = c.checkOn maxWorkers units ∧
          ((c.withParallel parallel).checkOn otherWorkers units).digest =
            (c.checkOn maxWorkers units).digest := by
  refine ⟨fun hunits => ?_, ?_, checkUnits_eq_map c maxWorkers units, fun parallel others => ?_⟩
  · exact shares_chunks (Nat.lt_min.mpr ⟨hworkers, List.length_pos_iff.mpr hunits⟩) hunits
  · rw [← List.map_flatten, flatten_chunks]
  · have hreport :
        (c.withParallel parallel).checkOn others units = c.checkOn maxWorkers units := by
      rw [checkOn_eq, checkOn_eq]
      rfl
    exact ⟨hreport, congrArg CheckReport.digest hreport⟩

end Checker

def visitingBatch : Batch where
  declarations :=
    [{ kind := .contract, name := "Vault", address := .ofNat 2,
       functions := [{ name := "look" }] }]
  units := ["a", "b", "c", "d", "e"].map fun name =>
    { name, kind := .transaction [], calls := [{ contract := "Vault", member := "look" }] }

def visitedChecker : Checker :=
  .ofDeclarations visitingBatch.declarations {}

open Checker in
/-- Four workers take five units in three runs, of two, two and one. -/
theorem visitingBatch_three_runs :
    1 ≤ 4 ∧ visitingBatch.units ≠ [] ∧
      (chunks (chunkSize 5 4) visitingBatch.units).map List.length = [2, 2, 1] ∧
      Shares 4 2 visitingBatch.units (chunks (chunkSize 5 4) visitingBatch.units) ∧
      (visitedChecker.withParallel true).checkOn 4 visitingBatch.units =
        (visitedChecker.withParallel false).check visitingBatch.units := by
  have hworkers : 1 ≤ 4 := by decide
  have hunits : visitingBatch.units ≠ [] := by decide
  obtain ⟨hshares, -, -, hreport⟩ := report_eq_of_runs visitedChecker visitingBatch.units hworkers
  refine ⟨hworkers, hunits, by decide +kernel, hshares hunits, ?_⟩
  rw [← checkOn_defaultWorkers, (hreport true 4).1, (hreport false defaultWorkers).1]

end AuthorizedCalls
