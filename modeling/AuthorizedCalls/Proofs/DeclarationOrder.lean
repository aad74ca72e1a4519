import AuthorizedCalls.Proofs.Acceptance
import AuthorizedCalls.Proofs.Reordering
import Mathlib.Data.List.Rotate

/-!
How far resolution depends on the order of declarations. A declaration is compared with what is
left of the interfaces above it when its turn comes, so the verdict on it can hang on whether an
interface had its turn before and lost a function there (`contested_reverse_table_ne`). Nothing
else does: lists that agree on those turns are resolved alike, whatever is not contested in this
way fares the same in any order, and so does a list that is accepted (`resolve_of_perm`).
-/

namespace AuthorizedCalls

theorem Resolution.conflictFinding?_congr {policy : Policy} {d : Declaration}
    {p : Declaration × Member} {t t' : Table} {written : DeclId → Option Entry}
    (ht : t.Reflects written) (ht' : t'.Reflects written)
    (h : conflict? t policy (.member p.1.name p.2.name) (.member d.name p.2.name) =
      conflict? t' policy (.member p.1.name p.2.name) (.member d.name p.2.name)) :
    conflictFinding? policy d t p = conflictFinding? policy d t' p := by
  have hwritten : ∀ {t : Table} {required declared : Access}, t.Reflects written →
      conflict? t policy (.member p.1.name p.2.name) (.member d.name p.2.name) =
        some (required, declared) →
      t.get? (.member d.name p.2.name) = written (.member d.name p.2.name) := by
    intro t required declared ht hconflict
    obtain ⟨-, hdeclared, -⟩ := conflict?_eq_some_iff.mp hconflict
    obtain ⟨entry, hentry, -⟩ := Option.map_eq_some_iff.mp hdeclared
    rw [(ht.of_get? hentry).2, hentry]
  simp only [conflictFinding?]
  cases hconflict : conflict? t policy (.member p.1.name p.2.name) (.member d.name p.2.name) with
  | none =>
      rw [← h, hconflict]
      rfl
  | some pair =>
      rw [← h, hconflict, hwritten ht hconflict, hwritten ht' (h ▸ hconflict)]

namespace Declarations

open Resolution

/-- Where a function clashes with one that itself clashes with another further above, the two
lists have the first two declarations in the same order. -/
def SameTurns (ds ds' : Declarations) (policy : Policy) : Prop :=
  ∀ name interface above function, ds.Clashes policy name interface function →
    ds.Clashes policy interface above function →
      (ds.Precedes name interface ↔ ds'.Precedes name interface)

/-- A function clashes, and only with functions that clash themselves. -/
def Contested (ds : Declarations) (policy : Policy) (name function : String) : Prop :=
  (∃ interface, ds.Clashes policy name interface function) ∧
    ∀ interface, ds.Clashes policy name interface function →
      ∃ above, ds.Clashes policy interface above function

variable {ds ds' : Declarations} {policy : Policy}

theorem SameTurns.symm (h : Reorders ds ds') (hturns : SameTurns ds ds' policy) :
    SameTurns ds' ds policy := by
  intro name interface above function hclashes habove
  exact (hturns name interface above function (h.clashes_iff.mpr hclashes)
    (h.clashes_iff.mpr habove)).symm

/-- A function that clashes with one that nothing overrules is overruled, whatever the order. -/
theorem overruled_iff_of_not_contested {name function : String}
    (h : ¬ ds.Contested policy name function) :
    ds.Overruled policy name function ↔
      ∃ interface, ds.Clashes policy name interface function := by
  constructor
  · exact Overruled.exists_clashes
  · intro hclashes
    obtain ⟨interface, hinterface⟩ := not_forall.mp (not_and.mp h hclashes)
    obtain ⟨hclashes, hstands⟩ := Classical.not_imp.mp hinterface
    exact overruled_iff.mpr
      ⟨interface, hclashes, .inr fun hoverruled => hstands hoverruled.exists_clashes⟩

theorem overruled_iff_of_sameTurns (h : Reorders ds ds') (hturns : SameTurns ds ds' policy)
    {name function : String} :
    ds.Overruled policy name function ↔ ds'.Overruled policy name function := by
  -- Along the first list: whether a function is overruled hangs on earlier interfaces alone.
  induction hposition : ds.position name using Nat.strong_induction_on generalizing name with
  | _ n ih =>
      subst hposition
      rw [overruled_iff, overruled_iff]
      refine exists_congr fun interface => ?_
      rw [← h.clashes_iff]
      refine and_congr_right fun hclashes => ?_
      by_cases hinterface : ∃ above, ds.Clashes policy interface above function
      · obtain ⟨above, habove⟩ := hinterface
        rw [← hturns name interface above function hclashes habove]
        apply or_congr_right'
        intro hlater
        obtain ⟨d, hd⟩ := hclashes.above.exists_declaration
        have hearlier := (precedes_or_precedes hd hclashes.ne).resolve_left hlater
        exact not_congr (ih _ hearlier rfl)
      · have hstands : ¬ ds.Overruled policy interface function :=
          fun hoverruled => hinterface hoverruled.exists_clashes
        have hstands' : ¬ ds'.Overruled policy interface function := by
          intro hoverruled
          obtain ⟨above, habove⟩ := hoverruled.exists_clashes
          exact hinterface ⟨above, h.clashes_iff.mpr habove⟩
        exact iff_of_true (.inr hstands) (.inr hstands')

section Turns

variable {d : Declaration}

theorem conflict?_turn_of_sameTurns (h : Reorders ds ds') (hds : ds.Dotless)
    (hturns : SameTurns ds ds' policy) (hd : d ∈ ds.canonical) {interface function : String}
    (hinterface : AuthorizedCalls.Dotless interface) (habove : ds.ConformsTo d.name interface)
    (hne : d.name ≠ interface) {pair : Access × Access}
    (hconflict : conflict? (ds.turn policy d.name).table policy (.member interface function)
      (.member d.name function) = some pair) :
    conflict? (ds'.turn policy d.name).table policy (.member interface function)
      (.member d.name function) = some pair := by
  obtain ⟨required, declared⟩ := pair
  obtain ⟨hstands, hinterfaceStands, hrequired, hdeclared, hauth, haccepts, hcounts⟩ :=
    (conflict?_turn_eq_some_iff hds hd (fun e he _ => exactFor hds he) hinterface).mp hconflict
  have hdotless := h.dotless hds
  have hd' := h.canonical_perm.mem_iff.mp hd
  have hclashes : ds.Clashes policy d.name interface function :=
    ⟨hstands, habove, hinterfaceStands, required, declared, hrequired, hdeclared, hauth, haccepts⟩
  have hclashes' := h.clashes_iff.mp hclashes
  rw [h.qualifierOf?_eq] at hrequired hdeclared
  refine (conflict?_turn_eq_some_iff hdotless hd' (fun e he _ => exactFor hdotless he)
    hinterface).mpr ⟨hclashes'.stands, hclashes'.interfaceStands, hrequired, hdeclared, hauth,
      haccepts, ?_⟩
  rintro ⟨hprecedes, hoverruled⟩
  have hoverruled := (overruled_iff_of_sameTurns h hturns).mpr hoverruled
  obtain ⟨above, hfurther⟩ := hoverruled.exists_clashes
  rcases precedes_or_precedes (mem_canonical_iff.mp hd) hne with hearlier | hlater
  · exact hprecedes.asymm ((hturns _ _ _ _ hclashes hfurther).mp hearlier)
  · exact hcounts ⟨hlater, hoverruled⟩

theorem conflictFindings_turn_eq (h : Reorders ds ds') (hds : ds.Dotless)
    (hturns : SameTurns ds ds' policy) (hd : d ∈ ds.canonical) :
    ds.conflictFindings policy (ds.turn policy d.name).table d =
      ds'.conflictFindings policy (ds'.turn policy d.name).table d := by
  have hdotless := h.dotless hds
  rw [conflictFindings, conflictFindings, h.comparisons_eq]
  congr 1
  apply List.filterMap_congr
  intro p hp
  rw [← h.comparisons_eq] at hp
  obtain ⟨habove, hne, hnamed, -⟩ := mem_comparisons_iff.mp hp
  have hinterface := hds.of_named? hnamed
  have hreflects' : (ds'.turn policy d.name).table.Reflects ds'.written? :=
    reflects_turn hdotless d.name
  rw [← h.written?_eq] at hreflects'
  apply conflictFinding?_congr (reflects_turn hds d.name) hreflects'
  apply Option.ext
  intro pair
  constructor
  · exact conflict?_turn_of_sameTurns h hds hturns hd hinterface habove hne.symm
  · exact conflict?_turn_of_sameTurns h.symm hdotless (hturns.symm h)
      (h.canonical_perm.mem_iff.mp hd) hinterface (h.conformsTo_eq ▸ habove) hne.symm

theorem comparisonFindings_perm (h : Reorders ds ds') (hds : ds.Dotless)
    (hturns : SameTurns ds ds' policy) :
    (ds.comparisonFindings policy).Perm (ds'.comparisonFindings policy) := by
  apply h.canonical_perm.flatMap
  intro d hd
  rw [conflictFindings_turn_eq h hds hturns hd]

end Turns

section Uncontested

theorem overruled_iff_of_reorders (h : Reorders ds ds') {name function : String}
    (hcontested : ¬ ds.Contested policy name function) :
    ds.Overruled policy name function ↔ ds'.Overruled policy name function := by
  have hcontested' : ¬ ds'.Contested policy name function := by
    simpa only [Contested, h.clashes_iff] using hcontested
  rw [overruled_iff_of_not_contested hcontested, overruled_iff_of_not_contested hcontested']
  exact exists_congr fun interface => h.clashes_iff

variable {id : DeclId}
  (hid : ∀ name function, id = .member name function → ¬ ds.Contested policy name function)

include hid

theorem exists_overruled_congr (h : Reorders ds ds') :
    (∃ name function, id = .member name function ∧ ds.Overruled policy name function) ↔
      ∃ name function, id = .member name function ∧ ds'.Overruled policy name function :=
  exists₂_congr fun name function =>
    and_congr_right fun hname => overruled_iff_of_reorders h (hid name function hname)

theorem rejects_resolve_eq (h : Reorders ds ds') (hds : ds.Dotless) :
    (ds.resolve policy).table.rejects id = (ds'.resolve policy).table.rejects id := by
  rw [Bool.eq_iff_iff, rejects_resolve_iff_overruled hds,
    rejects_resolve_iff_overruled (h.dotless hds), h.table_acyclic_eq hds,
    exists_overruled_congr hid h]

theorem isRejected_resolve_eq (h : Reorders ds ds') (hds : ds.Dotless) :
    (ds.resolve policy).table.isRejected id = (ds'.resolve policy).table.isRejected id := by
  rw [Table.isRejected_eq, Table.isRejected_eq, rejects_resolve_eq hid h hds]
  congr 1
  refine rejects_resolve_eq ?_ h hds
  intro name function hname
  have hne := DeclId.contract_ne_member_of_dotless id.dotless_contractName name function
  exact absurd hname hne

theorem exists_diagnostic_congr (h : Reorders ds ds') (hds : ds.Dotless) :
    (∃ x ∈ (ds.resolve policy).diagnostics, x.declaration = some id) ↔
      ∃ x ∈ (ds'.resolve policy).diagnostics, x.declaration = some id := by
  simp only [exists_diagnostic_iff hds, exists_diagnostic_iff (h.dotless hds), List.mem_append,
    or_and_right, exists_or, exists_comparisonFinding_iff hds,
    exists_comparisonFinding_iff (h.dotless hds), exists_overruled_congr hid h,
    h.registrationFindings_perm.mem_iff, h.conformanceFindings_perm.mem_iff]

end Uncontested

theorem diagnostics_resolve_eq_nil_congr (h : Reorders ds ds') (hds : ds.Dotless) :
    (ds.resolve policy).diagnostics = [] ↔ (ds'.resolve policy).diagnostics = [] := by
  have hnil : ∀ {xs ys : List Finding}, xs.Perm ys → (xs = [] ↔ ys = []) := by
    intro xs ys hperm
    rw [← List.length_eq_zero_iff, hperm.length_eq, List.length_eq_zero_iff]
  simp only [diagnostics_resolve hds, diagnostics_resolve (h.dotless hds), List.map_eq_nil_iff,
    List.append_eq_nil_iff, hnil h.registrationFindings_perm, hnil h.conformanceFindings_perm,
    comparisonFindings_eq_nil_iff hds, comparisonFindings_eq_nil_iff (h.dotless hds),
    h.clashes_iff]

/-- The order of declarations with distinct names matters only for the turns of functions that
clash with functions that clash themselves: where two lists agree on those turns, they are resolved
to one table with the same diagnostics, and whatever is not contested fares the same in any case. A
list is accepted without a diagnostic in any order or in none. -/
theorem resolve_of_perm (hds : ds.Dotless) (hnames : (ds.map Declaration.name).Nodup)
    (hperm : ds.Perm ds') (policy : Policy) :
    (SameTurns ds ds' policy →
      (ds.resolve policy).table = (ds'.resolve policy).table ∧
        (ds.resolve policy).diagnostics.Perm (ds'.resolve policy).diagnostics) ∧
    (∀ id, (∀ name function, id = .member name function → ¬ ds.Contested policy name function) →
      (ds.resolve policy).table.get? id = (ds'.resolve policy).table.get? id ∧
        (ds.resolve policy).table.rejects id = (ds'.resolve policy).table.rejects id ∧
        (ds.resolve policy).table.lowered? id = (ds'.resolve policy).table.lowered? id ∧
        ((∃ x ∈ (ds.resolve policy).diagnostics, x.declaration = some id) ↔
          ∃ x ∈ (ds'.resolve policy).diagnostics, x.declaration = some id)) ∧
    ((ds.resolve policy).diagnostics = [] ↔ (ds'.resolve policy).diagnostics = []) := by
  have h : Reorders ds ds' := ⟨hperm, hnames⟩
  have hdotless := h.dotless hds
  refine ⟨?_, ?_, diagnostics_resolve_eq_nil_congr h hds⟩
  · intro hturns
    have hcomparison := comparisonFindings_perm h hds hturns
    constructor
    · rw [resolve_eq hds, resolve_eq hdotless]
      exact table_refuseAll_of_perm (h.table_acyclic_eq hds) hcomparison
    · rw [diagnostics_resolve hds, diagnostics_resolve hdotless]
      exact ((h.registrationFindings_perm.append h.conformanceFindings_perm).append
        hcomparison).map _
  · intro id hid
    have hrejected := isRejected_resolve_eq hid h hds
    refine ⟨?_, rejects_resolve_eq hid h hds, ?_, exists_diagnostic_congr hid h hds⟩
    · rw [reflects_resolve hds policy, reflects_resolve hdotless policy, hrejected, h.written?_eq]
    · rw [lowersAs_resolve hds policy, lowersAs_resolve hdotless policy, hrejected,
        h.signature?_eq]

theorem sameTurns_contested : SameTurns contested (contested.rotate 1) .exact := by
  intro name interface above function hclashes hfurther
  obtain ⟨d, hd⟩ := hclashes.above.exists_declaration
  have hname := mem_names_of_named? hd
  have hinterface := hclashes.mem_above
  have habove := hfurther.mem_above
  have hnames : contested.names = ["Joinable", "Stakeable", "Vault"] := by cbv
  have hjoinable : contested.above "Joinable" = [] := by cbv
  have hstakeable : contested.above "Stakeable" = ["Joinable"] := by cbv
  have hvault : contested.above "Vault" = ["Stakeable", "Joinable"] := by cbv
  simp only [hnames, List.mem_cons, List.not_mem_nil, or_false] at hname
  rcases hname with rfl | rfl | rfl
  · simp [hjoinable] at hinterface
  · rw [hstakeable, List.mem_singleton] at hinterface
    simp [hinterface, hjoinable] at habove
  · rw [hvault, List.mem_pair] at hinterface
    rcases hinterface with rfl | rfl
    · decide
    · simp [hjoinable] at habove

theorem contested_rotate_table_eq :
    contested ≠ contested.rotate 1 ∧
      (resolve contested .exact).table = (resolve (contested.rotate 1) .exact).table := by
  have hnames : (contested.map Declaration.name).Nodup := by decide
  have hperm : contested.Perm (contested.rotate 1) := (List.rotate_perm contested 1).symm
  obtain ⟨hturns, -, -⟩ := resolve_of_perm dotless_contested hnames hperm .exact
  exact ⟨by decide, (hturns sameTurns_contested).1⟩

/-- In the written order the contract stands; in the reverse order it has its turn first and is
overruled by the interface that is about to be overruled itself. -/
theorem contested_reverse_table_ne :
    Declarations.Dotless contested ∧ (contested.map Declaration.name).Nodup ∧
      contested.Perm contested.reverse ∧
      (resolve contested .exact).table ≠ (resolve contested.reverse .exact).table := by
  have h : Reorders contested contested.reverse :=
    ⟨(List.reverse_perm contested).symm, by decide⟩
  refine ⟨dotless_contested, h.names, h.perm, ?_⟩
  intro hsame
  have hvault : AuthorizedCalls.Dotless "Vault" := by decide
  have hclashes : contested.Clashes .exact "Vault" "Stakeable" "join" := {
    stands := not_malformed_contested _
    above := .single ⟨_, _, rfl, List.mem_cons_self, rfl, rfl⟩
    interfaceStands := not_malformed_contested _
    qualifiers := ⟨.all, .auth, rfl, rfl, .inr rfl, rfl⟩ }
  have hprecedes : Precedes contested.reverse "Vault" "Stakeable" := by decide
  have hoverruled : Overruled contested.reverse .exact "Vault" "join" :=
    overruled_iff.mpr ⟨"Stakeable", h.clashes_iff.mp hclashes, .inl hprecedes⟩
  have hrejected := (rejects_resolve_member_iff (h.dotless dotless_contested) hvault).mpr
    (.inl hoverruled)
  rw [← hsame, rejects_resolve_member_iff dotless_contested hvault] at hrejected
  rcases hrejected with hoverruled | hambiguous
  · exact not_overruled_contested hoverruled
  · exact not_ambiguous_contested _ _ hambiguous

end Declarations

end AuthorizedCalls
