import AuthorizedCalls.Proofs.ConformanceSoundness
import AuthorizedCalls.Proofs.DeclarationFaults
import AuthorizedCalls.Proofs.RegistrationFindings
import Mathlib.Data.List.Induction

/-!
The comparison of a declaration with the interfaces above it as a list of findings. The comparison
refuses functions of the declaration while it goes on, and what is refused is compared no more;
that comes to comparing all against the table as it stands when the turn of the declaration comes
and keeping for every function the first conflict (`compareAll_eq`). So resolution is one list
of refusals after registration (`resolve_eq`).
-/

namespace AuthorizedCalls

namespace Table

theorem get?_reject_member (t : Table) (c m : String) (other : DeclId) :
    (t.reject (.member c m)).get? other =
      if other = .member c m then none else t.get? other := by
  rw [get?_reject, dropsWith, if_pos (DeclId.isMember_member c m)]
  cases other
  simp [DeclId.member]

end Table

namespace Resolution

variable {policy : Policy}

/-- What comparing one function of an interface against a table finds. -/
def conflictFinding? (policy : Policy) (d : Declaration) (t : Table) (p : Declaration × Member) :
    Option Finding :=
  let required := DeclId.member p.1.name p.2.name
  let implemented := DeclId.member d.name p.2.name
  (conflict? t policy required implemented).map fun pair =>
    ⟨.conflict implemented pair.2 required pair.1,
      ((t.get? implemented).map Entry.span).getD d.span⟩

theorem compareMember_eq (policy : Policy) (d interface : Declaration) (r : Resolution)
    (f : Member) :
    compareMember policy d interface r f =
      r.refuseAll (conflictFinding? policy d r.table (interface, f)).toList := by
  simp only [compareMember, conflictFinding?]
  cases conflict? r.table policy (.member interface.name f.name) (.member d.name f.name) <;> rfl

theorem subject_of_conflictFinding? {d : Declaration} {t : Table} {p : Declaration × Member}
    {x : Finding} (h : conflictFinding? policy d t p = some x) :
    x.subject = .member d.name p.2.name := by
  obtain ⟨pair, -, rfl⟩ := Option.map_eq_some_iff.mp h
  rfl

/-- Once a function is refused nothing more is found about it, and about others just the same. -/
theorem conflictFinding?_reject {d : Declaration} (hd : Dotless d.name) (t : Table) (g : String)
    {p : Declaration × Member} (hp : Dotless p.1.name) (hne : p.1.name ≠ d.name) :
    conflictFinding? policy d (t.reject (.member d.name g)) p =
      (conflictFinding? policy d t p).filter fun x =>
        x.subject.text ≠ (DeclId.member d.name g).text := by
  have hrequired : (t.reject (.member d.name g)).get? (.member p.1.name p.2.name) =
      t.get? (.member p.1.name p.2.name) := by
    rw [Table.get?_reject_member, if_neg fun h => hne ((DeclId.member_inj hp hd).mp h).1]
  have himplemented : (t.reject (.member d.name g)).get? (.member d.name p.2.name) =
      if p.2.name = g then none else t.get? (.member d.name p.2.name) := by
    simp only [Table.get?_reject_member, DeclId.member_inj_right]
  have hsame : conflictFinding? policy d (t.reject (.member d.name g)) p =
      if p.2.name = g then none else conflictFinding? policy d t p := by
    simp only [conflictFinding?, conflict?, Table.qualifier?, hrequired, himplemented]
    split
    · cases (t.get? (.member p.1.name p.2.name)).map Entry.qualifier <;> rfl
    · rfl
  rw [hsame]
  cases hfinding : conflictFinding? policy d t p with
  | none => simp
  | some x =>
      have htext : x.subject.text = (DeclId.member d.name g).text ↔ p.2.name = g := by
        rw [subject_of_conflictFinding? hfinding, DeclId.text_inj, DeclId.member_inj_right]
      by_cases hname : p.2.name = g
      · rw [if_pos hname, Option.filter_some_neg (by simpa using htext.mpr hname)]
      · rw [if_neg hname, Option.filter_some_pos (by simpa using mt htext.mp hname)]

/-- Comparing one function after the other keeps for every function the first conflict with the
table at the start. -/
theorem foldl_compareMember_eq {d : Declaration} (hd : Dotless d.name)
    {ps : List (Declaration × Member)} (hps : ∀ p ∈ ps, Dotless p.1.name ∧ p.1.name ≠ d.name)
    (r : Resolution) :
    ps.foldl (fun r p => compareMember policy d p.1 r p.2) r =
      r.refuseAll (firstsBy (fun x => x.subject.text)
        (ps.filterMap (conflictFinding? policy d r.table))) := by
  induction ps generalizing r with
  | nil => rfl
  | cons p rest ih =>
      obtain ⟨hp, hrest⟩ := List.forall_mem_cons.mp hps
      rw [List.foldl_cons, ih hrest, compareMember_eq]
      cases hfinding : conflictFinding? policy d r.table p with
      | none => rw [List.filterMap_cons_none hfinding]; rfl
      | some x =>
          have hsubject := subject_of_conflictFinding? hfinding
          have hlater : rest.filterMap (conflictFinding? policy d (r.table.reject x.subject)) =
              (rest.filterMap (conflictFinding? policy d r.table)).filter
                fun y => y.subject.text ≠ x.subject.text := by
            rw [List.filter_filterMap, hsubject]
            apply List.filterMap_congr
            intro q hq
            exact conflictFinding?_reject hd _ _ (hrest q hq).1 (hrest q hq).2
          rw [List.filterMap_cons_some hfinding, firstsBy, refuseAll_cons, ← firstsBy_filter,
            ← hlater]
          rfl

end Resolution

namespace Declarations

open Resolution

def comparisons (ds : Declarations) (d : Declaration) : List (Declaration × Member) :=
  ((ds.above d.name).filterMap ds.named?).flatMap fun i => i.functions.map fun f => (i, f)

/-- What is found about a declaration against a table: one conflict for each of its functions at
most, the first in the order of comparison. -/
def conflictFindings (ds : Declarations) (policy : Policy) (t : Table) (d : Declaration) :
    List Finding :=
  firstsBy (fun x => x.subject.text) ((ds.comparisons d).filterMap (conflictFinding? policy d t))

variable {ds : Declarations} {policy : Policy}

theorem mem_comparisons_iff {d : Declaration} {p : Declaration × Member} :
    p ∈ ds.comparisons d ↔
      ds.ConformsTo d.name p.1.name ∧ p.1.name ≠ d.name ∧ ds.named? p.1.name = some p.1 ∧
        p.2 ∈ p.1.functions := by
  obtain ⟨i, f⟩ := p
  simp only [comparisons, List.mem_flatMap, List.mem_filterMap, List.mem_map, Prod.mk.injEq,
    mem_above_iff]
  constructor
  · rintro ⟨_, ⟨name, ⟨hconforms, hne⟩, hi⟩, _, hf, rfl, rfl⟩
    obtain ⟨-, rfl⟩ := mem_of_named? hi
    exact ⟨hconforms, hne, hi, hf⟩
  · rintro ⟨hconforms, hne, hi, hf⟩
    exact ⟨i, ⟨i.name, ⟨hconforms, hne⟩, hi⟩, f, hf, rfl, rfl⟩

theorem exists_conflictFinding_iff {t : Table} {d : Declaration} {id : DeclId} :
    (∃ x ∈ ds.conflictFindings policy t d, x.subject = id) ↔
      ∃ p ∈ ds.comparisons d, id = .member d.name p.2.name ∧
        ∃ pair, conflict? t policy (.member p.1.name p.2.name) (.member d.name p.2.name) =
          some pair := by
  simp only [← DeclId.text_inj (b := id)]
  rw [conflictFindings, exists_mem_firstsBy_iff]
  simp only [List.mem_filterMap]
  constructor
  · rintro ⟨x, ⟨p, hp, hx⟩, hid⟩
    rw [DeclId.text_inj] at hid
    obtain ⟨pair, hpair, -⟩ := Option.map_eq_some_iff.mp hx
    exact ⟨p, hp, hid ▸ subject_of_conflictFinding? hx, pair, hpair⟩
  · rintro ⟨p, hp, rfl, pair, hpair⟩
    exact ⟨_, ⟨p, hp, Option.map_eq_some_iff.mpr ⟨pair, hpair, rfl⟩⟩, rfl⟩

theorem compareWith_eq (hds : ds.Dotless) (d : Declaration) {interface : Declaration}
    (hinterface : ds.named? interface.name = some interface) {r : Resolution}
    (hr : r.table.Reflects ds.written?) :
    compareWith policy d r interface =
      interface.functions.foldl (compareMember policy d interface) r := by
  rw [compareWith]
  split
  · next hrejected =>
      -- Nothing of a rejected interface has an entry, so there is nothing to conflict with.
      have hsettled : Settled policy d.name interface.name r :=
        settled_of_rejected_interface hr (hds.of_named? hinterface) hrejected d.name
      have hsame : ∀ f, compareMember policy d interface r f = r := by
        intro f
        simp [compareMember, hsettled f.name]
      exact (List.foldl_fixed' hsame interface.functions).symm
  · rfl

theorem foldl_compareWith_eq (hds : ds.Dotless) (d : Declaration) {interfaces : List Declaration}
    (hinterfaces : ∀ i ∈ interfaces, ds.named? i.name = some i) {r : Resolution}
    (hr : r.table.Reflects ds.written?) :
    interfaces.foldl (compareWith policy d) r =
      (interfaces.flatMap fun i => i.functions.map fun f => (i, f)).foldl
        (fun r p => compareMember policy d p.1 r p.2) r := by
  induction interfaces generalizing r with
  | nil => rfl
  | cons i rest ih =>
      obtain ⟨hi, hrest⟩ := List.forall_mem_cons.mp hinterfaces
      rw [List.foldl_cons, ih hrest ((leadsTo_compareWith policy d r i).reflects hr),
        compareWith_eq hds d hi hr, List.flatMap_cons, List.foldl_append, List.foldl_map]

theorem named?_of_mem_above {d i : Declaration}
    (hi : i ∈ (ds.above d.name).filterMap ds.named?) : ds.named? i.name = some i := by
  obtain ⟨name, -, hname⟩ := List.mem_filterMap.mp hi
  exact (mem_of_named? hname).2 ▸ hname

theorem compareAll_eq (hds : ds.Dotless) {d : Declaration} (hd : d ∈ ds.canonical)
    {r : Resolution} (hr : r.table.Reflects ds.written?) :
    compareAll ds policy r d = r.refuseAll (ds.conflictFindings policy r.table d) := by
  have hdotless := hds.of_named? (mem_canonical_iff.mp hd)
  rw [compareAll]
  split
  · next hrejected =>
      have hnone : ∀ p ∈ ds.comparisons d, conflictFinding? policy d r.table p = none := by
        intro p _
        have hsettled : Settled policy d.name p.1.name r :=
          settled_of_rejected hr hdotless hrejected p.1.name
        simp [conflictFinding?, hsettled p.2.name]
      rw [conflictFindings, List.filterMap_eq_nil_iff.mpr hnone]
      rfl
  · have hps : ∀ p ∈ ds.comparisons d,
        AuthorizedCalls.Dotless p.1.name ∧ p.1.name ≠ d.name := by
      intro p hp
      obtain ⟨-, hne, hnamed, -⟩ := mem_comparisons_iff.mp hp
      exact ⟨hds.of_named? hnamed, hne⟩
    rw [foldl_compareWith_eq hds d (fun _ hi => named?_of_mem_above hi) hr]
    exact foldl_compareMember_eq hdotless hps r

/-- The resolution when the turn of a declaration comes to be compared. -/
def turn (ds : Declarations) (policy : Policy) (name : String) : Resolution :=
  (ds.canonical.takeWhile fun d => d.name ≠ name).foldl (compareAll ds policy) ds.acyclic

theorem name_ne_of_canonical_eq {d : Declaration} {before after : List Declaration}
    (h : ds.canonical = before ++ d :: after) {other : Declaration}
    (hother : other ∈ before ++ after) : other.name ≠ d.name := by
  have hnodup := ds.nodup_names
  rw [names, h, List.map_append, List.map_cons, List.nodup_middle, ← List.map_append,
    List.nodup_cons] at hnodup
  intro heq
  exact hnodup.1 (heq ▸ List.mem_map_of_mem hother)

theorem turn_eq {d : Declaration} {before after : List Declaration}
    (h : ds.canonical = before ++ d :: after) :
    ds.turn policy d.name = before.foldl (compareAll ds policy) ds.acyclic := by
  have hbefore : ∀ other ∈ before, decide (other.name ≠ d.name) = true := by
    intro other hother
    exact decide_eq_true (name_ne_of_canonical_eq h (List.mem_append_left after hother))
  rw [turn, h, List.takeWhile_append_of_pos hbefore, List.takeWhile_cons_of_neg (by simp),
    List.append_nil]

theorem reflects_turn (hds : ds.Dotless) (name : String) :
    (ds.turn policy name).table.Reflects ds.written? :=
  (leadsTo_foldl (leadsTo_compareAll ds policy) _ _).reflects (reflects_acyclic hds)

theorem foldl_compareAll_eq (hds : ds.Dotless) {before after : List Declaration}
    (h : ds.canonical = before ++ after) :
    before.foldl (compareAll ds policy) ds.acyclic =
      ds.acyclic.refuseAll (before.flatMap fun d =>
        ds.conflictFindings policy (ds.turn policy d.name).table d) := by
  induction before using List.reverseRecOn generalizing after with
  | nil => rfl
  | append_singleton before d ih =>
      rw [List.append_assoc, List.singleton_append] at h
      have hd : d ∈ ds.canonical := by simp [h]
      rw [List.foldl_append, List.foldl_cons, List.foldl_nil, ← turn_eq h,
        compareAll_eq hds hd (reflects_turn hds d.name), List.flatMap_append, refuseAll_append,
        ← ih h, ← turn_eq h]
      simp

/-- What is found against interfaces, every declaration in its turn. -/
def comparisonFindings (ds : Declarations) (policy : Policy) : List Finding :=
  ds.canonical.flatMap fun d => ds.conflictFindings policy (ds.turn policy d.name).table d

theorem resolve_eq (hds : ds.Dotless) (policy : Policy) :
    ds.resolve policy = ds.acyclic.refuseAll (ds.comparisonFindings policy) :=
  foldl_compareAll_eq hds (List.append_nil _).symm

/-- What is reported: the findings of the passes, one pass after the other. -/
theorem diagnostics_resolve (hds : ds.Dotless) (policy : Policy) :
    (ds.resolve policy).diagnostics =
      (ds.registrationFindings ++ ds.conformanceFindings ++
        ds.comparisonFindings policy).map Finding.diagnostic := by
  rw [resolve_eq hds, diagnostics_refuseAll, acyclic_eq, diagnostics_refuseAll,
    diagnostics_registered, List.map_append, List.map_append]

theorem exists_diagnostic_iff (hds : ds.Dotless) {id : DeclId} :
    (∃ x ∈ (ds.resolve policy).diagnostics, x.declaration = some id) ↔
      ∃ x ∈ ds.registrationFindings ++ ds.conformanceFindings ++ ds.comparisonFindings policy,
        x.subject = id := by
  rw [diagnostics_resolve hds]
  constructor
  · rintro ⟨_, hdiagnostic, hid⟩
    obtain ⟨x, hx, rfl⟩ := List.mem_map.mp hdiagnostic
    exact ⟨x, hx, Option.some.inj hid⟩
  · rintro ⟨x, hx, rfl⟩
    exact ⟨x.diagnostic, List.mem_map_of_mem hx, rfl⟩

end Declarations

end AuthorizedCalls
