import AuthorizedCalls.Proofs.GuardedResolution
import AuthorizedCalls.Proofs.WorkerRuns
import Mathlib.Data.List.Permutation

/-!
A check that nothing stops. Every step of a check that could fail is written out as one that may:
the reads of the resolution, sharing units out in runs, and the reads of signatures and of
submitted accounts. Whatever the batch, none of them does, and the answer is `Batch.check`; the
only thing that stops a check is a worker that stops (`Guarded.check_answers`).
-/

namespace AuthorizedCalls

def sliceFrom {α : Type} (xs : List α) (start : Nat) : Except Halt (List α) :=
  if start ≤ xs.length then .ok (xs.drop start) else .error (.noPlace start)

/-- A token whose place among the authorizers is any number. -/
inductive BareToken
  | contract (name : String) (address : Address)
  | authorizer (name : String) (position count : Nat)
deriving DecidableEq

namespace BareToken

/-- The account of the token. Once the number of accounts is the declared one, the account at its
place is read. -/
def bind (submitted : List Address) : BareToken → Except Halt (Except TokenError Address)
  | contract _ address => .ok (.ok address)
  | authorizer _ position count =>
    if submitted.length ≠ count then .ok (.error (.countMismatch count submitted.length))
    else (readAt submitted position).map .ok

end BareToken

def Token.bare : Token → BareToken
  | contract name address => .contract name address
  | authorizer name count position => .authorizer name position count

theorem Token.bind_bare (token : Token) (submitted : List Address) :
    token.bare.bind submitted = .ok (token.bind submitted) := by
  cases token with
  | contract name address => rfl
  | authorizer name count position =>
      rw [bare, BareToken.bind, bind]
      by_cases hlength : submitted.length = count
      · have hposition : position.val < submitted.length := hlength ▸ position.isLt
        rw [if_neg (not_not.mpr hlength), dif_pos hlength,
          readAt_eq_ok (List.getElem?_eq_getElem hposition)]
        rfl
      · rw [if_pos hlength, dif_neg hlength]

namespace AuthorizerScope

def bareToken? (s : AuthorizerScope) : AuthPrefix → Option BareToken
  | .bare =>
    match s.names with
    | [only] => some (.authorizer only 0 1)
    | _ => none
  | .named name =>
    (s.names.findIdx? (· == name)).map fun position => .authorizer name position s.names.length

theorem toOption_resolve (s : AuthorizerScope) (written : AuthPrefix) :
    (s.resolve written).toOption.map Token.bare = s.bareToken? written := by
  cases written with
  | bare =>
      rw [resolve, resolveBare, bareToken?]
      rcases s.names with _ | ⟨only, _ | ⟨second, rest⟩⟩ <;> rfl
  | named name =>
      rw [resolve, resolveNamed, bareToken?, List.findIdx?_eq_map_findFinIdx?_val,
        Option.map_map]
      change _ = (s.names.finIdxOf? name).map _
      cases s.names.finIdxOf? name <;> rfl

end AuthorizerScope

namespace LoweredSignature

theorem reads_params (s : LoweredSignature) :
    readAt s.params 0 = .ok hidden ∧ sliceFrom s.params 1 = .ok s.declared :=
  ⟨rfl, rfl⟩

end LoweredSignature

namespace Guarded

def label : List CompilationUnit → String
  | [] => ""
  | [only] => only.name
  | first :: second :: rest => s!"{first.name}..{(rest.getLastD second).name}"

def sizeOf (units workers : Nat) : Except Halt Nat :=
  if workers = 0 then .error .noSize else .ok (Checker.chunkSize units workers)

def runs (size : Nat) (units : List CompilationUnit) :
    Except Halt (List (List CompilationUnit)) :=
  if size = 0 then .error .noSize else .ok (chunks size units)

/-- Puts together what the workers report, in the order of their runs. A worker may have stopped,
which is found out when its report is asked for. -/
def join (c : Checker) (stopped : Nat → Bool) (reports : List UnitReport) :
    List (List CompilationUnit × Nat) → Except Halt (List UnitReport)
  | [] => .ok reports
  | (run, worker) :: rest =>
    if stopped worker then .error (.worker (label run))
    else join c stopped (reports ++ run.map c.checkUnit) rest

def checkUnits (c : Checker) (maxWorkers : Nat) (stopped : Nat → Bool)
    (units : List CompilationUnit) : Except Halt (List UnitReport) :=
  let workers := min maxWorkers units.length
  if !c.config.parallel || workers < 2 then .ok (units.map c.checkUnit)
  else do
    let size ← sizeOf units.length workers
    let shared ← runs size units
    join c stopped [] shared.zipIdx

def checker (components : NameGraph → List (List Nat)) (ds : Declarations) (config : CheckConfig) :
    Except Halt Checker := do
  let resolved ← resolve components ds config.policy
  return ⟨resolved.table, Diagnostics.sortByLocation resolved.diagnostics, config⟩

/-- The check of a batch on a machine with so many workers, some of which stop. -/
def check (components : NameGraph → List (List Nat)) (maxWorkers : Nat) (stopped : Nat → Bool)
    (b : Batch) (config : CheckConfig) : Except Halt CheckReport := do
  let c ← checker components b.declarations config
  let units ← checkUnits c maxWorkers stopped b.units
  return ⟨c.declarations, units⟩

/-- The answer of a step, unless a worker stopped. -/
inductive Answers {α : Type} (stopped : Nat → Bool) (answer : α) : Except Halt α → Prop
  | ok : Answers stopped answer (.ok answer)
  | worker {worker : Nat} {run : List CompilationUnit} : stopped worker = true →
      Answers stopped answer (.error (.worker (label run)))

theorem answers_join (c : Checker) (stopped : Nat → Bool) (shared : List (List CompilationUnit))
    (start : Nat) (reports : List UnitReport) :
    Answers stopped (reports ++ shared.flatten.map c.checkUnit)
      (join c stopped reports (shared.zipIdx start)) := by
  induction shared generalizing start reports with
  | nil => simpa [join] using .ok
  | cons run rest ih =>
      rw [List.zipIdx_cons, join, List.flatten_cons, List.map_append, ← List.append_assoc]
      split
      · next hstopped => exact .worker hstopped
      · exact ih (start + 1) _

/-- Where units are shared out there are two workers and two units or more, so no run is empty. -/
theorem runs_eq {maxWorkers : Nat} {units : List CompilationUnit}
    (h : ¬ min maxWorkers units.length < 2) :
    ∃ size, sizeOf units.length (min maxWorkers units.length) = .ok size ∧
      runs size units = .ok (chunks size units) := by
  have hworkers : 0 < min maxWorkers units.length := by omega
  have hunits : units ≠ [] := List.ne_nil_of_length_pos (by omega)
  have hsize := (Checker.shares_chunks hworkers hunits).size_pos
  exact ⟨_, if_neg hworkers.ne', if_neg hsize.ne'⟩

theorem answers_checkUnits (c : Checker) (maxWorkers : Nat) (stopped : Nat → Bool)
    (units : List CompilationUnit) :
    Answers stopped (units.map c.checkUnit) (checkUnits c maxWorkers stopped units) := by
  rw [checkUnits]
  split
  · exact .ok
  · next hshared =>
      rw [Bool.or_eq_true, not_or, decide_eq_true_eq] at hshared
      obtain ⟨size, hsize, hruns⟩ := runs_eq hshared.2
      simp only [hsize, hruns, bind, Except.bind]
      have hjoin := answers_join c stopped (chunks size units) 0 []
      rwa [flatten_chunks] at hjoin

theorem checker_eq {components : NameGraph → List (List Nat)} (ds : Declarations)
    (h : ds.graph.ListsComponents (components ds.graph)) (config : CheckConfig) :
    checker components ds config = .ok (.ofDeclarations ds config) := by
  rw [checker, resolve_eq ds h]
  rfl

theorem answers_check {components : NameGraph → List (List Nat)} (b : Batch)
    (h : (Declarations.graph b.declarations).ListsComponents
      (components (Declarations.graph b.declarations)))
    (maxWorkers : Nat) (stopped : Nat → Bool) (config : CheckConfig) :
    Answers stopped (b.check config) (check components maxWorkers stopped b config) := by
  rw [check, checker_eq b.declarations h, Batch.check, ← Checker.checkOn_defaultWorkers,
    Checker.checkOn_eq]
  generalize Checker.ofDeclarations b.declarations config = c
  have hunits := answers_checkUnits c maxWorkers stopped b.units
  simp only [bind, Except.bind]
  generalize checkUnits c maxWorkers stopped b.units = outcome at hunits
  cases hunits with
  | ok => exact .ok
  | worker hstopped => exact .worker hstopped

end Guarded

theorem Digest.Sha3.length_digest (message : List UInt8) : (digest message).length = 32 := by
  simp [digest, bytes]

theorem Digest.Sha3.exists_digits (text : String) :
    ∃ digits : List Char, digits.length = 64 ∧ (∀ c ∈ digits, Text.Hex.isDigit c = true) ∧
      hex text = String.ofList ('0' :: 'x' :: digits) := by
  refine ⟨_, ?_, ?_, rfl⟩
  · simp [List.length_flatMap, length_digest]
  · intro c hc
    obtain ⟨b, -, hc⟩ := List.mem_flatMap.mp hc
    exact Text.Hex.isDigit_of_mem_digits hc

namespace Guarded

/-- Nothing stops a check but a worker that stops: for every batch and every number of workers the
answer is that of the check, which has a digest, and signatures and tokens are read where they have
something. No search goes on forever. -/
theorem check_answers {components : NameGraph → List (List Nat)}
    (hcomponents : ∀ g : NameGraph, g.Closed → g.ListsComponents (components g)) :
    (∀ (b : Batch) (config : CheckConfig) (maxWorkers : Nat) (stopped : Nat → Bool),
      Answers stopped (b.check config) (check components maxWorkers stopped b config) ∧
        ((∀ worker, stopped worker = false) →
          check components maxWorkers stopped b config = .ok (b.check config)) ∧
        ∃ digits : List Char, digits.length = 64 ∧
          (∀ c ∈ digits, Text.Hex.isDigit c = true) ∧
          (b.check config).digest = String.ofList ('0' :: 'x' :: digits)) ∧
      (∀ (s : AuthorizerScope) (written : AuthPrefix),
        (s.resolve written).toOption.map Token.bare = s.bareToken? written) ∧
      (∀ (token : Token) (submitted : List Address),
        token.bare.bind submitted = .ok (token.bind submitted)) ∧
      (∀ s : LoweredSignature, readAt s.params 0 = .ok LoweredSignature.hidden ∧
        sliceFrom s.params 1 = .ok s.declared) ∧
      ∀ g : NameGraph, WellFounded g.Next := by
  refine ⟨fun b config maxWorkers stopped => ?_, AuthorizerScope.toOption_resolve, Token.bind_bare,
    LoweredSignature.reads_params, NameGraph.wellFounded_next⟩
  have hanswers := answers_check b (hcomponents _ (Declarations.closed_graph b.declarations))
    maxWorkers stopped config
  refine ⟨hanswers, fun hstopped => ?_, Digest.Sha3.exists_digits _⟩
  generalize check components maxWorkers stopped b config = outcome at hanswers
  cases hanswers with
  | ok => rfl
  | worker h => exact absurd h (by simp [hstopped])

/-- An interface that extends itself and a contract, a contract whose name holds a dot, and a second
interface of the first one's name with a target that is not declared. -/
def tangledBatch : Batch where
  declarations :=
    [{ kind := .interface, name := "Loop", address := .ofNat 1, conforms := ["Loop", "Pay.out"] },
     { kind := .contract, name := "Pay.out", address := .ofNat 2, conforms := ["Loop", "Loop"] },
     { kind := .interface, name := "Loop", address := .ofNat 3, conforms := ["Gone"] }]
  units := [{ name := "first", kind := .script }, { name := "second", kind := .contract "Gone" }]

/-- With the components that searches find the batch is checked. The only cycle is that of the
first declaration. -/
theorem tangledBatch_answers :
    (∀ g : NameGraph, g.Closed → g.ListsComponents g.components) ∧
      Declarations.cycles tangledBatch.declarations = [["Loop"]] ∧
      check NameGraph.components 2 (fun _ => false) tangledBatch {} =
        .ok (tangledBatch.check {}) := by
  have hcomponents : ∀ g : NameGraph, g.Closed → g.ListsComponents g.components :=
    fun _ hg => hg.listsComponents_components
  obtain ⟨hchecks, -⟩ := check_answers hcomponents
  obtain ⟨-, hok, -⟩ := hchecks tangledBatch {} 2 fun _ => false
  exact ⟨hcomponents, by cbv, hok fun _ => rfl⟩

end Guarded

end AuthorizedCalls
