import AuthorizedCalls.Proofs.ConflictFindings
import AuthorizedCalls.Proofs.DeclarationFaults

/-!
What resolution rejects, said of the written declarations alone. A declaration is rejected where
it is malformed, and one of its functions where it carries several qualifiers or is overruled by
an interface above (`rejects_resolve_iff`). Whether a function is overruled depends on the order
of the declarations: an interface further down in the list still has all its functions when the
comparison is made, one further up only those that were not overruled themselves.
-/

namespace AuthorizedCalls.Declarations

open Resolution

/-- The place of the first declaration of a name. -/
def position (ds : Declarations) (name : String) : Nat :=
  (ds.map Declaration.name).idxOf name

def Precedes (ds : Declarations) (name other : String) : Prop :=
  ds.position name < ds.position other

instance (ds : Declarations) (name other : String) : Decidable (ds.Precedes name other) :=
  inferInstanceAs (Decidable (ds.position name < ds.position other))

/-- A function and the one of its name in an interface above are written with qualifiers that do
not go together. -/
structure Clashes (ds : Declarations) (policy : Policy) (name interface function : String) :
    Prop where
  stands : ¬ ds.Malformed name
  above : ds.ConformsTo name interface
  interfaceStands : ¬ ds.Malformed interface
  qualifiers : ∃ required declared, ds.qualifierOf? interface function = some required ∧
    ds.qualifierOf? name function = some declared ∧ (required = .auth ∨ declared = .auth) ∧
    policy.accepts required declared = false

/-- A function clashes with that of an interface which, if it comes earlier, is not overruled
itself. -/
def Overruled (ds : Declarations) (policy : Policy) (name function : String) : Prop :=
  ∃ interface, ds.Clashes policy name interface function ∧
    ∀ _ : ds.Precedes interface name, ¬ Overruled ds policy interface function
termination_by ds.position name
decreasing_by assumption

variable {ds : Declarations} {policy : Policy}

section Order

theorem Precedes.asymm {name other : String} (h : ds.Precedes name other) :
    ¬ ds.Precedes other name :=
  Nat.lt_asymm h

theorem mem_map_name_of_named? {name : String} {d : Declaration} (h : ds.named? name = some d) :
    name ∈ ds.map Declaration.name := by
  obtain ⟨hmem, rfl⟩ := mem_of_named? h
  exact List.mem_map_of_mem hmem

theorem precedes_or_precedes {name other : String} {d : Declaration}
    (hd : ds.named? name = some d) (hne : name ≠ other) :
    ds.Precedes name other ∨ ds.Precedes other name := by
  have hposition : ds.position name ≠ ds.position other := by
    intro h
    exact hne ((List.idxOf_inj (mem_map_name_of_named? hd)).mp h)
  exact Nat.lt_or_gt_of_ne hposition

theorem pairwise_canonical (ds : Declarations) :
    ds.canonical.Pairwise fun d e => ds.Precedes d.name e.name := by
  induction ds with
  | nil => exact .nil
  | cons d rest ih =>
      have hfirst : position (d :: rest) d.name = 0 := by simp [position]
      have hlater : ∀ {e : Declaration}, e.name ≠ d.name →
          position (d :: rest) e.name = position rest e.name + 1 := by
        intro e hne
        rw [position, List.map_cons, List.idxOf_cons_ne _ hne.symm]
        rfl
      rw [canonical, firstsBy, List.pairwise_cons]
      constructor
      · intro e he
        have hne : e.name ≠ d.name := by simpa using (List.mem_filter.mp he).2
        rw [Precedes, hfirst, hlater hne]
        exact Nat.succ_pos _
      · refine (ih.filter _).imp_of_mem ?_
        intro e e' he he' hprecedes
        rw [Precedes, hlater (by simpa using (List.mem_filter.mp he).2),
          hlater (by simpa using (List.mem_filter.mp he').2)]
        exact Nat.succ_lt_succ hprecedes

theorem mem_before_iff {d : Declaration} {before after : List Declaration}
    (h : ds.canonical = before ++ d :: after) {e : Declaration} :
    e ∈ before ↔ e ∈ ds.canonical ∧ ds.Precedes e.name d.name := by
  have hpairwise := ds.pairwise_canonical
  rw [h, List.pairwise_append, List.pairwise_cons] at hpairwise
  obtain ⟨-, ⟨hafter, -⟩, hbefore⟩ := hpairwise
  rw [h, List.mem_append, List.mem_cons]
  constructor
  · intro he
    exact ⟨.inl he, hbefore e he d List.mem_cons_self⟩
  · rintro ⟨he | rfl | he, hprecedes⟩
    · exact he
    · exact absurd hprecedes (Nat.lt_irrefl _)
    · exact absurd hprecedes (hafter e he).asymm

end Order

theorem Clashes.ne {name interface function : String}
    (h : ds.Clashes policy name interface function) : name ≠ interface := by
  rintro rfl
  obtain ⟨d, hd⟩ := h.above.exists_declaration
  exact h.stands ⟨d, hd, .inr (.inr h.above)⟩

theorem Clashes.mem_above {name interface function : String}
    (h : ds.Clashes policy name interface function) : interface ∈ ds.above name :=
  mem_above_iff.mpr ⟨h.above, h.ne.symm⟩

theorem overruled_iff {name function : String} :
    ds.Overruled policy name function ↔
      ∃ interface, ds.Clashes policy name interface function ∧
        (ds.Precedes name interface ∨ ¬ ds.Overruled policy interface function) := by
  rw [Overruled]
  refine exists_congr fun interface => and_congr_right fun hclashes => ?_
  obtain ⟨d, hd⟩ := hclashes.above.exists_declaration
  constructor
  · intro h
    exact (precedes_or_precedes hd hclashes.ne).imp_right h
  · rintro (hprecedes | hstands) hearlier
    · exact absurd hearlier hprecedes.asymm
    · exact hstands

theorem Overruled.exists_clashes {name function : String}
    (h : ds.Overruled policy name function) :
    ∃ interface, ds.Clashes policy name interface function := by
  obtain ⟨interface, hclashes, -⟩ := overruled_iff.mp h
  exact ⟨interface, hclashes⟩

theorem Overruled.exists_declaration {name function : String}
    (h : ds.Overruled policy name function) : ∃ d, ds.named? name = some d := by
  obtain ⟨_, hclashes⟩ := h.exists_clashes
  exact hclashes.above.exists_declaration

/-- What is rejected when the turn of a declaration comes, by the findings of those before it. -/
theorem rejects_turn_iff_exists (hds : ds.Dotless) {d : Declaration} (hd : d ∈ ds.canonical)
    {id : DeclId} :
    (ds.turn policy d.name).table.rejects id = true ↔
      (∃ e ∈ ds.canonical, ds.Precedes e.name d.name ∧
        ∃ x ∈ ds.conflictFindings policy (ds.turn policy e.name).table e, x.subject = id) ∨
      ds.acyclic.table.rejects id = true := by
  obtain ⟨before, after, hsplit⟩ := List.append_of_mem hd
  rw [turn_eq hsplit, foldl_compareAll_eq hds hsplit, rejects_refuseAll]
  apply or_congr_left
  constructor
  · rintro ⟨x, hx, hid⟩
    obtain ⟨e, he, hx⟩ := List.mem_flatMap.mp hx
    obtain ⟨he, hprecedes⟩ := (mem_before_iff hsplit).mp he
    exact ⟨e, he, hprecedes, x, hx, hid⟩
  · rintro ⟨e, he, hprecedes, x, hx, hid⟩
    exact ⟨x, List.mem_flatMap.mpr ⟨e, (mem_before_iff hsplit).mpr ⟨he, hprecedes⟩, hx⟩, hid⟩

/-- The findings about a declaration in its turn are about the functions that are overruled. -/
def ExactFor (ds : Declarations) (policy : Policy) (d : Declaration) : Prop :=
  ∀ id, (∃ x ∈ ds.conflictFindings policy (ds.turn policy d.name).table d, x.subject = id) ↔
    ∃ function, id = .member d.name function ∧ ds.Overruled policy d.name function

section Turn

variable {d : Declaration}

theorem rejects_turn_contract_iff (hds : ds.Dotless) (hd : d ∈ ds.canonical) {name : String}
    (hname : AuthorizedCalls.Dotless name) :
    (ds.turn policy d.name).table.rejects (.contract name) = true ↔ ds.Malformed name := by
  rw [rejects_turn_iff_exists hds hd, rejects_acyclic_contract_iff hds hname]
  apply or_iff_right
  rintro ⟨e, -, -, hfinding⟩
  obtain ⟨p, -, hid, -⟩ := exists_conflictFinding_iff.mp hfinding
  exact DeclId.contract_ne_member_of_dotless hname e.name p.2.name hid

theorem rejects_turn_member_iff (hds : ds.Dotless) (hd : d ∈ ds.canonical)
    (hearlier : ∀ e ∈ ds.canonical, ds.Precedes e.name d.name → ds.ExactFor policy e)
    {name function : String} {qualifier : Access}
    (hqualifier : ds.qualifierOf? name function = some qualifier) :
    (ds.turn policy d.name).table.rejects (.member name function) = true ↔
      ds.Precedes name d.name ∧ ds.Overruled policy name function := by
  obtain ⟨e, -, he, -⟩ := qualifierOf?_eq_some_iff.mp hqualifier
  have hname := hds.of_named? he
  have hwritten : ¬ ds.Ambiguous name function := by
    intro hambiguous
    rw [qualifierOf?_of_ambiguous hambiguous] at hqualifier
    contradiction
  rw [rejects_turn_iff_exists hds hd, rejects_acyclic_member_iff hds hname]
  constructor
  · rintro (⟨e, he, hprecedes, hfinding⟩ | hambiguous)
    · obtain ⟨function', hid, hoverruled⟩ := (hearlier e he hprecedes _).mp hfinding
      have hdotless := hds.of_named? (mem_canonical_iff.mp he)
      obtain ⟨rfl, rfl⟩ := (DeclId.member_inj hname hdotless).mp hid
      exact ⟨hprecedes, hoverruled⟩
    · exact absurd hambiguous hwritten
  · rintro ⟨hprecedes, hoverruled⟩
    obtain ⟨-, rfl⟩ := mem_of_named? he
    have hcanonical := mem_canonical_iff.mpr he
    exact .inl ⟨e, hcanonical, hprecedes,
      (hearlier e hcanonical hprecedes _).mpr ⟨function, rfl, hoverruled⟩⟩

/-- What a comparison in the turn of a declaration finds: the written qualifiers do not go
together, and the function of the interface was not refused in an earlier turn. -/
theorem conflict?_turn_eq_some_iff (hds : ds.Dotless) (hd : d ∈ ds.canonical)
    (hearlier : ∀ e ∈ ds.canonical, ds.Precedes e.name d.name → ds.ExactFor policy e)
    {interface function : String} (hinterface : AuthorizedCalls.Dotless interface)
    {required declared : Access} :
    conflict? (ds.turn policy d.name).table policy (.member interface function)
        (.member d.name function) = some (required, declared) ↔
      ¬ ds.Malformed d.name ∧ ¬ ds.Malformed interface ∧
        ds.qualifierOf? interface function = some required ∧
        ds.qualifierOf? d.name function = some declared ∧ (required = .auth ∨ declared = .auth) ∧
        policy.accepts required declared = false ∧
        ¬ (ds.Precedes interface d.name ∧ ds.Overruled policy interface function) := by
  have hdotless := hds.of_named? (mem_canonical_iff.mp hd)
  have hreflects : (ds.turn policy d.name).table.Reflects ds.written? := reflects_turn hds d.name
  rw [conflict?_eq_some_iff,
    qualifier?_member_iff hreflects hinterface (rejects_turn_contract_iff hds hd hinterface),
    qualifier?_member_iff hreflects hdotless (rejects_turn_contract_iff hds hd hdotless)]
  constructor
  · rintro ⟨⟨hi, hstands, hrequired⟩, ⟨hmalformed, -, hdeclared⟩, hauth, haccepts⟩
    rw [← Bool.not_eq_true, rejects_turn_member_iff hds hd hearlier hrequired] at hstands
    exact ⟨hmalformed, hi, hrequired, hdeclared, hauth, haccepts, hstands⟩
  · rintro ⟨hmalformed, hi, hrequired, hdeclared, hauth, haccepts, hstands⟩
    rw [← rejects_turn_member_iff hds hd hearlier hrequired, Bool.not_eq_true] at hstands
    have hown : (ds.turn policy d.name).table.rejects (.member d.name function) = false := by
      rw [← Bool.not_eq_true, rejects_turn_member_iff hds hd hearlier hdeclared]
      exact fun h => Nat.lt_irrefl _ h.1
    exact ⟨⟨hi, hstands, hrequired⟩, ⟨hmalformed, hown, hdeclared⟩, hauth, haccepts⟩

end Turn

theorem exactFor (hds : ds.Dotless) {d : Declaration} (hd : d ∈ ds.canonical) :
    ds.ExactFor policy d := by
  -- Along the list: what a turn finds hangs on the turns before it alone.
  induction hposition : ds.position d.name using Nat.strong_induction_on generalizing d with
  | _ n ih =>
      subst hposition
      have hearlier : ∀ e ∈ ds.canonical, ds.Precedes e.name d.name → ds.ExactFor policy e :=
        fun e he hprecedes => ih _ hprecedes he rfl
      intro id
      rw [exists_conflictFinding_iff]
      constructor
      · rintro ⟨p, hp, rfl, ⟨required, declared⟩, hconflict⟩
        obtain ⟨habove, hne, hnamed, -⟩ := mem_comparisons_iff.mp hp
        obtain ⟨hstands, hinterface, hrequired, hdeclared, hauth, haccepts, hearlier⟩ :=
          (conflict?_turn_eq_some_iff hds hd hearlier (hds.of_named? hnamed)).mp hconflict
        refine ⟨_, rfl, overruled_iff.mpr ⟨p.1.name, ?_, ?_⟩⟩
        · exact ⟨hstands, habove, hinterface, _, _, hrequired, hdeclared, hauth, haccepts⟩
        · have horder := precedes_or_precedes (mem_canonical_iff.mp hd) hne.symm
          exact horder.imp_right fun hprecedes hoverruled => hearlier ⟨hprecedes, hoverruled⟩
      · rintro ⟨function, rfl, hoverruled⟩
        obtain ⟨interface, hclashes, horder⟩ := overruled_iff.mp hoverruled
        obtain ⟨required, declared, hrequired, hdeclared, hauth, haccepts⟩ := hclashes.qualifiers
        obtain ⟨i, f, hi, hf, -⟩ := qualifierOf?_eq_some_iff.mp hrequired
        have hname : f.name = function := by simpa using List.find?_some hf
        obtain ⟨-, rfl⟩ := mem_of_named? hi
        subst hname
        refine ⟨(i, f), ?_, rfl, (required, declared), ?_⟩
        · exact mem_comparisons_iff.mpr
            ⟨hclashes.above, hclashes.ne.symm, hi, List.mem_of_find?_eq_some hf⟩
        · refine (conflict?_turn_eq_some_iff hds hd hearlier (hds.of_named? hi)).mpr
            ⟨hclashes.stands, hclashes.interfaceStands, hrequired, hdeclared, hauth, haccepts, ?_⟩
          rintro ⟨hprecedes, hinterface⟩
          exact horder.elim hprecedes.asymm (absurd hinterface)

theorem exists_comparisonFinding_iff (hds : ds.Dotless) {id : DeclId} :
    (∃ x ∈ ds.comparisonFindings policy, x.subject = id) ↔
      ∃ name function, id = .member name function ∧ ds.Overruled policy name function := by
  constructor
  · rintro ⟨x, hx, hid⟩
    obtain ⟨d, hd, hx⟩ := List.mem_flatMap.mp hx
    obtain ⟨function, hfunction, hoverruled⟩ := (exactFor hds hd id).mp ⟨x, hx, hid⟩
    exact ⟨d.name, function, hfunction, hoverruled⟩
  · rintro ⟨name, function, hid, hoverruled⟩
    obtain ⟨d, hd⟩ := hoverruled.exists_declaration
    obtain ⟨-, rfl⟩ := mem_of_named? hd
    have hcanonical := mem_canonical_iff.mpr hd
    obtain ⟨x, hx, hsubject⟩ := (exactFor hds hcanonical id).mpr ⟨function, hid, hoverruled⟩
    exact ⟨x, List.mem_flatMap.mpr ⟨d, hcanonical, hx⟩, hsubject⟩

/-- What comparison adds to the rejected set: the overruled functions. -/
theorem rejects_resolve_iff_overruled (hds : ds.Dotless) {id : DeclId} :
    (ds.resolve policy).table.rejects id = true ↔
      (∃ name function, id = .member name function ∧ ds.Overruled policy name function) ∨
        ds.acyclic.table.rejects id = true := by
  rw [resolve_eq hds, rejects_refuseAll, exists_comparisonFinding_iff hds]

theorem rejects_resolve_contract_iff (hds : ds.Dotless) {name : String}
    (hname : AuthorizedCalls.Dotless name) :
    (ds.resolve policy).table.rejects (.contract name) = true ↔ ds.Malformed name := by
  rw [rejects_resolve_iff_overruled hds, rejects_acyclic_contract_iff hds hname]
  apply or_iff_right
  rintro ⟨other, function, hid, -⟩
  exact DeclId.contract_ne_member_of_dotless hname other function hid

theorem rejects_resolve_member_iff (hds : ds.Dotless) {name function : String}
    (hname : AuthorizedCalls.Dotless name) :
    (ds.resolve policy).table.rejects (.member name function) = true ↔
      ds.Overruled policy name function ∨ ds.Ambiguous name function := by
  rw [rejects_resolve_iff_overruled hds, rejects_acyclic_member_iff hds hname]
  apply or_congr_left
  constructor
  · rintro ⟨other, function', hid, hoverruled⟩
    obtain ⟨d, hd⟩ := hoverruled.exists_declaration
    obtain ⟨rfl, rfl⟩ := (DeclId.member_inj hname (hds.of_named? hd)).mp hid
    exact hoverruled
  · intro hoverruled
    exact ⟨name, function, rfl, hoverruled⟩

theorem exists_declaration_of_rejects (hds : ds.Dotless) {id : DeclId}
    (h : (ds.resolve policy).table.rejects id = true) :
    ∃ d, ds.named? id.contractName = some d := by
  rw [rejects_resolve_iff_overruled hds, rejects_acyclic_iff hds] at h
  rcases h with ⟨name, function, rfl, hoverruled⟩ | ⟨name, rfl, hmalformed⟩ |
    ⟨name, function, rfl, d, _, hd, -⟩
  · obtain ⟨d, hd⟩ := hoverruled.exists_declaration
    exact ⟨d, by rwa [DeclId.contractName_member _ (hds.of_named? hd)]⟩
  · obtain ⟨d, hd⟩ := hmalformed.exists_declaration
    exact ⟨d, by rwa [DeclId.contractName_contract (hds.of_named? hd)]⟩
  · exact ⟨d, by rwa [DeclId.contractName_member _ (hds.of_named? hd)]⟩

/-- Exactly the malformed declarations, the functions with several qualifiers and the overruled
functions are rejected. -/
theorem rejects_resolve_iff (hds : ds.Dotless) (policy : Policy) (id : DeclId) :
    (ds.resolve policy).table.rejects id = true ↔
      (∃ name, id = .contract name ∧ ds.Malformed name) ∨
        (∃ name function, id = .member name function ∧ ds.Ambiguous name function) ∨
        ∃ name function, id = .member name function ∧ ds.Overruled policy name function := by
  rw [rejects_resolve_iff_overruled hds, rejects_acyclic_iff hds, or_comm, or_assoc]

/-- An interface whose function is overruled from above, and a contract below both that agrees
with the upper one. -/
def contested : Declarations :=
  [{ kind := .interface, name := "Joinable", address := .ofNat 1,
     functions := [{ name := "join", qualifiers := [.auth] }] },
   { kind := .interface, name := "Stakeable", address := .ofNat 1,
     conforms := ["Joinable"], functions := [{ name := "join" }] },
   { kind := .contract, name := "Vault", address := .ofNat 2, conforms := ["Stakeable"],
     functions := [{ name := "join", qualifiers := [.auth] }] }]

theorem dotless_contested : Declarations.Dotless contested := by
  decide

theorem rejected_acyclic_contested : contested.acyclic.table.rejected = .empty := by
  cbv

theorem not_malformed_contested (name : String) : ¬ contested.Malformed name := by
  intro hmalformed
  have hrejected := (rejects_acyclic_iff dotless_contested).mpr (.inl ⟨name, rfl, hmalformed⟩)
  rw [Table.rejects, rejected_acyclic_contested] at hrejected
  contradiction

theorem not_ambiguous_contested (name function : String) :
    ¬ contested.Ambiguous name function := by
  intro hambiguous
  have hrejected := (rejects_acyclic_iff dotless_contested).mpr
    (.inr ⟨name, function, rfl, hambiguous⟩)
  rw [Table.rejects, rejected_acyclic_contested] at hrejected
  contradiction

theorem clashes_contested : contested.Clashes .exact "Stakeable" "Joinable" "join" where
  stands := not_malformed_contested _
  above := .single ⟨_, _, rfl, List.mem_cons_self, rfl, rfl⟩
  interfaceStands := not_malformed_contested _
  qualifiers := ⟨.auth, .all, rfl, rfl, .inl rfl, rfl⟩

theorem overruled_contested : contested.Overruled .exact "Stakeable" "join" := by
  refine overruled_iff.mpr ⟨"Joinable", clashes_contested, .inr ?_⟩
  intro hoverruled
  obtain ⟨interface, hclashes⟩ := hoverruled.exists_clashes
  have habove := hclashes.mem_above
  have hnone : contested.above "Joinable" = [] := by cbv
  rw [hnone] at habove
  contradiction

theorem not_overruled_contested : ¬ contested.Overruled .exact "Vault" "join" := by
  intro hoverruled
  obtain ⟨interface, hclashes, horder⟩ := overruled_iff.mp hoverruled
  have habove := hclashes.mem_above
  have hboth : contested.above "Vault" = ["Stakeable", "Joinable"] := by cbv
  rw [hboth, List.mem_pair] at habove
  rcases habove with rfl | rfl
  · rcases horder with hprecedes | hstands
    · exact absurd hprecedes (by decide)
    · exact hstands overruled_contested
  · obtain ⟨required, declared, hrequired, hdeclared, -, haccepts⟩ := hclashes.qualifiers
    cases hrequired
    cases hdeclared
    contradiction

theorem contested_rejects :
    Declarations.Dotless contested ∧
      (contested.resolve .exact).table.rejects (.member "Stakeable" "join") = true ∧
      (contested.resolve .exact).table.rejects (.member "Vault" "join") = false := by
  refine ⟨dotless_contested, ?_, ?_⟩
  · exact (rejects_resolve_iff dotless_contested .exact _).mpr
      (.inr (.inr ⟨_, _, rfl, overruled_contested⟩))
  · rw [← Bool.not_eq_true, rejects_resolve_iff dotless_contested]
    rintro (⟨name, -, hmalformed⟩ | ⟨name, function, hid, hambiguous⟩ |
      ⟨name, function, hid, hoverruled⟩)
    · exact not_malformed_contested name hmalformed
    · exact not_ambiguous_contested name function hambiguous
    · obtain ⟨d, hd⟩ := hoverruled.exists_declaration
      obtain ⟨rfl, rfl⟩ :=
        (DeclId.member_inj (by decide) (dotless_contested.of_named? hd)).mp hid
      exact not_overruled_contested hoverruled

end AuthorizedCalls.Declarations
