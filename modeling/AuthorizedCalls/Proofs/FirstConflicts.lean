import AuthorizedCalls.Proofs.DepthFirst
import AuthorizedCalls.Proofs.ReportsByText

namespace AuthorizedCalls

namespace Resolution

variable {policy : Policy} {d : Declaration}

def comparedWith (policy : Policy) (d : Declaration) (r : Resolution) :
    List Declaration → List Declaration
  | [] => []
  | i :: rest =>
    let others := comparedWith policy d (compareWith policy d r i) rest
    if r.table.isRejected i.id then others else i :: others

theorem foldl_comparedWith (r : Resolution) (interfaces : List Declaration) :
    (comparedWith policy d r interfaces).foldl
        (fun r i => i.functions.foldl (compareMember policy d i) r) r =
      interfaces.foldl (compareWith policy d) r := by
  induction interfaces generalizing r with
  | nil => rfl
  | cons i rest ih =>
      rw [List.foldl_cons, ← ih, comparedWith]
      split
      · next hrejected => rw [compareWith, if_pos hrejected]
      · next hstands => rw [List.foldl_cons, compareWith, if_neg hstands]

theorem isRejected_compareWith (r : Resolution) (i : Declaration) {name : String}
    (hname : Dotless name) :
    (compareWith policy d r i).table.isRejected (.contract name) =
      r.table.isRejected (.contract name) := by
  obtain ⟨findings, hrefused, hfound⟩ := exists_refuseAll_compareWith policy d r i
  rw [Table.isRejected_contract _ hname, Table.isRejected_contract _ hname, hrefused,
    Bool.eq_iff_iff, rejects_refuseAll]
  apply or_iff_right
  rintro ⟨x, hx, hid⟩
  obtain ⟨t, p, hx⟩ := hfound x hx
  rw [subject_of_conflictFinding? hx] at hid
  exact DeclId.contract_ne_member_of_dotless hname d.name p.2.name hid.symm

theorem comparedWith_eq (r : Resolution) {interfaces : List Declaration}
    (hinterfaces : ∀ i ∈ interfaces, Dotless i.name) :
    comparedWith policy d r interfaces =
      interfaces.filter fun i => !r.table.isRejected i.id := by
  induction interfaces generalizing r with
  | nil => rfl
  | cons i rest ih =>
      obtain ⟨-, hrest⟩ := List.forall_mem_cons.mp hinterfaces
      have hsame : rest.filter (fun i' => !(compareWith policy d r i).table.isRejected i'.id) =
          rest.filter fun i' => !r.table.isRejected i'.id := by
        apply List.filter_congr
        intro i' hi'
        rw [Declaration.id, isRejected_compareWith r i (hrest i' hi')]
      rw [comparedWith, ih _ hrest, hsame, List.filter_cons]
      cases r.table.isRejected i.id <;> rfl

def namedFinding? (policy : Policy) (d : Declaration) (t : Table) (interface : Declaration)
    (function : String) : Option Finding :=
  conflictFinding? policy d t (interface, { name := function })

theorem find?_namedFindings (t : Table) (i : Declaration) (function : String)
    (names : List String) :
    (names.filterMap (namedFinding? policy d t i)).find?
        (fun x => x.subject = .member d.name function) =
      if function ∈ names then namedFinding? policy d t i function else none := by
  induction names with
  | nil => rfl
  | cons name rest ih =>
      cases hfinding : namedFinding? policy d t i name with
      | none =>
          rw [List.filterMap_cons_none hfinding, ih]
          by_cases hname : function = name
          · subst hname
            simp [hfinding]
          · simp [hname]
      | some x =>
          rw [List.filterMap_cons_some hfinding, List.find?_cons, ih,
            subject_of_conflictFinding? hfinding]
          by_cases hname : function = name
          · subst hname
            simp [hfinding]
          · simp [hname, Ne.symm hname]

end Resolution

namespace Declarations

open Resolution

variable {ds : Declarations} {policy : Policy}

theorem exists_function_of_qualifier? {t : Table} (ht : t.Reflects ds.written?) {d : Declaration}
    (hd : ds.named? d.name = some d) (hdotless : AuthorizedCalls.Dotless d.name)
    {function : String} {qualifier : Access}
    (h : t.qualifier? (.member d.name function) = some qualifier) :
    ∃ f, d.function? function = some f ∧
      (t.get? (.member d.name function)).map Entry.span = some f.span := by
  obtain ⟨entry, hentry, -⟩ := Option.map_eq_some_iff.mp h
  obtain ⟨d', f, hd', hf, -, hwritten⟩ :=
    (written?_eq_some_iff (DeclId.isMember_member _ _)).mp (ht.of_get? hentry).2
  rw [DeclId.contractName_member _ hdotless, hd, Option.some.injEq] at hd'
  rw [← hd', DeclId.memberName_member _ hdotless] at hf
  obtain ⟨qualifier, -, rfl⟩ := Option.map_eq_some_iff.mp hwritten
  exact ⟨f, hf, by rw [hentry, Option.map_some]⟩

def compared (ds : Declarations) (policy : Policy) (d : Declaration) : List Declaration :=
  comparedWith policy d (ds.turn policy d.name) ((ds.above d.name).filterMap ds.named?)

def conflictReport (d i : Declaration) (own : Member) (required declared : Access) :
    Diagnostic where
  kind := .qualifierConflict
  declaration := some (.member d.name own.name)
  location := own.span
  message :=
    s!"`{d.name}.{own.name}` is declared {declared.text} but interface `{i.name}.{own.name}` " ++
      s!"requires {required.text}"

/-- The report on a function of a declaration against the first interface that it conflicts with,
as the table stands when the turn of the declaration comes. -/
def firstConflict? (ds : Declarations) (policy : Policy) (d : Declaration) (function : String) :
    Option Diagnostic :=
  (d.function? function).bind fun own =>
    (ds.compared policy d).findSome? fun i =>
      (conflict? (ds.turn policy d.name).table policy (.member i.name function)
        (.member d.name function)).map fun pair => conflictReport d i own pair.1 pair.2

section Turn

variable {d : Declaration} {r : Resolution}

/-- Of the findings about one function the first comes from the first interface that stands and
that the function conflicts with. -/
theorem find?_conflictFindings (hds : ds.Dotless) (hr : r.table.Reflects ds.written?)
    {interfaces : List Declaration} (hinterfaces : ∀ i ∈ interfaces, ds.named? i.name = some i)
    (function : String) :
    ((interfaces.flatMap fun i => i.functions.map fun f => (i, f)).filterMap
        (conflictFinding? policy d r.table)).find?
          (fun x => x.subject = .member d.name function) =
      (interfaces.filter fun i => !r.table.isRejected i.id).findSome? fun i =>
        namedFinding? policy d r.table i function := by
  rw [List.filterMap_flatMap, List.find?_flatMap, ← List.head?_filterMap, ← List.head?_filterMap,
    List.filterMap_filter]
  congr 1
  apply List.filterMap_congr
  intro i hi
  have hnamed := hinterfaces i hi
  have hdotless := hds.of_named? hnamed
  have hnames : (i.functions.map fun f => (i, f)).filterMap (conflictFinding? policy d r.table) =
      (i.functions.map Member.name).filterMap (namedFinding? policy d r.table i) := by
    rw [List.filterMap_map, List.filterMap_map]
    rfl
  rw [hnames, find?_namedFindings]
  cases hfinding : namedFinding? policy d r.table i function with
  | none => simp
  | some x =>
      -- A conflict is with an entry, which an interface has only where it stands and declares it.
      obtain ⟨pair, hconflict, -⟩ := Option.map_eq_some_iff.mp hfinding
      obtain ⟨hrequired, -⟩ := conflict?_eq_some_iff.mp hconflict
      obtain ⟨f, hf, -⟩ := exists_function_of_qualifier? hr hnamed hdotless hrequired
      have hname : f.name = function := by simpa using List.find?_some hf
      have hmem : function ∈ i.functions.map Member.name :=
        List.mem_map.mpr ⟨f, List.mem_of_find?_eq_some hf, hname⟩
      have hstands : r.table.isRejected i.id = false := by
        rw [← Bool.not_eq_true]
        intro hrejected
        have hsettled : Settled policy d.name i.name r :=
          settled_of_rejected_interface hr hdotless hrejected d.name
        exact Option.some_ne_none pair (hconflict.symm.trans (hsettled function))
      rw [if_pos hmem, hstands]
      rfl

theorem diagnostic_conflict (d i : Declaration) (own : Member) (required declared : Access) :
    (DeclarationViolation.conflict (.member d.name own.name) declared (.member i.name own.name)
      required).diagnostic own.span = conflictReport d i own required declared := by
  simp [DeclarationViolation.diagnostic, DeclarationViolation.kind, DeclarationViolation.subject,
    DeclarationViolation.message, conflictReport, DeclId.member, toString, String.append_assoc]

theorem map_diagnostic_namedFinding? (hr : r.table.Reflects ds.written?)
    (hd : ds.named? d.name = some d) (hdotless : AuthorizedCalls.Dotless d.name)
    (i : Declaration) (function : String) :
    (namedFinding? policy d r.table i function).map Finding.diagnostic =
      (d.function? function).bind fun own =>
        (conflict? r.table policy (.member i.name function) (.member d.name function)).map
          fun pair => conflictReport d i own pair.1 pair.2 := by
  cases hconflict :
      conflict? r.table policy (.member i.name function) (.member d.name function) with
  | none => simp [namedFinding?, conflictFinding?, hconflict]
  | some pair =>
      obtain ⟨-, hdeclared, -⟩ := conflict?_eq_some_iff.mp hconflict
      obtain ⟨own, hown, hspan⟩ := exists_function_of_qualifier? hr hd hdotless hdeclared
      obtain rfl : own.name = function := by simpa using List.find?_some hown
      simp only [namedFinding?, conflictFinding?, hconflict, hown, hspan, Option.map_some,
        Option.bind_some, Option.getD_some, ← diagnostic_conflict]
      rfl

theorem filter_comparisonFindings (hds : ds.Dotless) (hd : d ∈ ds.canonical) (function : String) :
    (ds.comparisonFindings policy).filter (fun x => x.subject = .member d.name function) =
      (ds.conflictFindings policy (ds.turn policy d.name).table d).filter
        fun x => x.subject = .member d.name function := by
  have hdotless := hds.of_named? (mem_canonical_iff.mp hd)
  obtain ⟨before, after, hsplit⟩ := List.append_of_mem hd
  have hother : ∀ e ∈ before ++ after,
      (ds.conflictFindings policy (ds.turn policy e.name).table e).filter
        (fun x => x.subject = .member d.name function) = [] := by
    intro e he
    have hcanonical : e ∈ ds.canonical := by
      rw [hsplit]
      exact (List.perm_middle.mem_iff).mpr (List.mem_cons_of_mem d he)
    rw [List.filter_eq_nil_iff]
    intro x hx
    obtain ⟨p, -, hfinding⟩ := List.mem_filterMap.mp (mem_of_mem_firstsBy hx)
    rw [subject_of_conflictFinding? hfinding, decide_eq_true_eq,
      DeclId.member_inj (hds.of_named? (mem_canonical_iff.mp hcanonical)) hdotless]
    exact fun h => name_ne_of_canonical_eq hsplit he h.1
  obtain ⟨hbefore, hafter⟩ := List.forall_mem_append.mp hother
  rw [comparisonFindings, hsplit, List.flatMap_append, List.flatMap_cons, List.filter_append,
    List.filter_append, List.filter_flatMap, List.filter_flatMap,
    List.flatMap_eq_nil_iff.mpr hbefore, List.flatMap_eq_nil_iff.mpr hafter, List.nil_append,
    List.append_nil]

theorem compared_eq (hds : ds.Dotless) (policy : Policy) (d : Declaration) :
    ds.compared policy d = ((ds.above d.name).filterMap ds.named?).filter fun i =>
      !(ds.turn policy d.name).table.isRejected i.id :=
  comparedWith_eq _ fun _ hi => hds.of_named? (named?_of_mem_above hi)

theorem mem_compared_iff (hds : ds.Dotless) {i : Declaration} :
    i ∈ ds.compared policy d ↔
      ds.named? i.name = some i ∧ ds.ConformsTo d.name i.name ∧ i.name ≠ d.name ∧
        (ds.turn policy d.name).table.isRejected i.id = false := by
  rw [compared_eq hds, List.mem_filter, Bool.not_eq_true', List.mem_filterMap]
  constructor
  · rintro ⟨⟨name, hname, hi⟩, hstands⟩
    obtain ⟨-, rfl⟩ := mem_of_named? hi
    exact ⟨hi, (mem_above_iff.mp hname).1, (mem_above_iff.mp hname).2, hstands⟩
  · rintro ⟨hi, hconforms, hne, hstands⟩
    exact ⟨⟨i.name, mem_above_iff.mpr ⟨hconforms, hne⟩, hi⟩, hstands⟩

theorem nodup_compared (hds : ds.Dotless) (policy : Policy) (d : Declaration) :
    ((ds.compared policy d).map Declaration.name).Nodup := by
  have habove : ((ds.above d.name).filterMap ds.named?).map Declaration.name = ds.above d.name := by
    rw [List.map_filterMap]
    refine (List.filterMap_congr fun name hname => ?_).trans List.filterMap_some
    obtain ⟨i, hi, -⟩ := (mem_above_iff.mp hname).1.exists_interface
    rw [hi, Option.map_some, (mem_of_named? hi).2]
  rw [compared_eq hds]
  refine List.Nodup.sublist (List.filter_sublist.map Declaration.name) ?_
  rw [habove]
  exact ds.nodup_above d.name

theorem filter_conflictFindings (hds : ds.Dotless) (policy : Policy) (d : Declaration)
    (function : String) :
    (ds.conflictFindings policy (ds.turn policy d.name).table d).filter
        (fun x => x.subject = .member d.name function) =
      ((ds.compared policy d).findSome? fun i =>
        namedFinding? policy d (ds.turn policy d.name).table i function).toList := by
  have htexts := filter_firstsBy (fun x : Finding => x.subject.text)
    (DeclId.member d.name function).text
    ((ds.comparisons d).filterMap (conflictFinding? policy d (ds.turn policy d.name).table))
  simp only [DeclId.text_inj] at htexts
  rw [conflictFindings, htexts, comparisons, find?_conflictFindings hds (reflects_turn hds d.name)
    (fun _ hi => named?_of_mem_above hi), compared_eq hds]

theorem firstConflict?_eq (hds : ds.Dotless) (policy : Policy) (hd : ds.named? d.name = some d)
    (function : String) :
    ds.firstConflict? policy d function =
      ((ds.compared policy d).findSome? fun i =>
        namedFinding? policy d (ds.turn policy d.name).table i function).map
          Finding.diagnostic := by
  rw [List.map_findSome?, firstConflict?]
  simp only [Function.comp_def,
    map_diagnostic_namedFinding? (reflects_turn hds d.name) hd (hds.of_named? hd)]
  cases d.function? function with
  | none => exact (List.findSome?_eq_none_iff.mpr fun _ _ => rfl).symm
  | some own => rfl

theorem filter_isConflict_of_member (hds : ds.Dotless) (policy : Policy) (hd : d ∈ ds.canonical)
    (function : String) :
    (ds.resolve policy).diagnostics.filter
        (fun x => x.declaration = some (.member d.name function) && x.isConflict) =
      (ds.firstConflict? policy d function).toList := by
  calc (ds.resolve policy).diagnostics.filter
        (fun x => x.declaration = some (.member d.name function) && x.isConflict)
      = ((ds.comparisonFindings policy).filter
          fun x => x.subject = .member d.name function).map Finding.diagnostic := by
        rw [← List.filter_filter, filter_isConflict_resolve hds, List.filter_map]
        congr 2
        funext x
        exact decide_eq_decide.mpr Option.some_inj
    _ = ((ds.compared policy d).findSome? fun i => namedFinding? policy d
          (ds.turn policy d.name).table i function).toList.map Finding.diagnostic := by
        rw [filter_comparisonFindings hds hd, filter_conflictFindings hds]
    _ = (ds.firstConflict? policy d function).toList := by
        rw [firstConflict?_eq hds policy (mem_canonical_iff.mp hd), Option.toList_map]

end Turn

/-- The comparison of a declaration in its turn goes through the names in this order. -/
structure ComparesInOrder (ds : Declarations) (policy : Policy) (d : Declaration)
    (order : List String) : Prop where
  preorder : ∀ found, DepthFirst ds.parents [] [d.name] found ↔ found = d.name :: order
  search : ∀ found, StackSearch ds.parents [] [d.name] found ↔ found = d.name :: order
  compared : ds.compared policy d = (order.filterMap ds.named?).filter fun i =>
    !(ds.turn policy d.name).table.isRejected i.id
  once : ((ds.compared policy d).map Declaration.name).Nodup
  reached : ∀ i, i ∈ ds.compared policy d ↔
    ds.named? i.name = some i ∧ ds.ConformsTo d.name i.name ∧ i.name ≠ d.name ∧
      (ds.turn policy d.name).table.isRejected i.id = false
  comparison : compareAll ds policy (ds.turn policy d.name) d =
    (ds.compared policy d).foldl (fun r i => i.functions.foldl (compareMember policy d i) r)
      (ds.turn policy d.name)
  reports : ∀ function,
    (ds.resolve policy).diagnostics.filter
        (fun x => x.declaration = some (.member d.name function) && x.isConflict) =
      (ds.firstConflict? policy d function).toList

/-- A declaration that stands in its turn is compared in the order of the recursive preorder, and
each of its functions is reported against the first interface it conflicts with. -/
theorem comparesInOrder_above (hds : ds.Dotless) (policy : Policy) {d : Declaration}
    (hd : d ∈ ds.canonical)
    (hstands : (ds.turn policy d.name).table.isRejected d.id = false) :
    ds.ComparesInOrder policy d (ds.above d.name) where
  preorder _ := ds.depthFirst_above d.name
  search _ := ds.stackSearch_above d.name
  compared := compared_eq hds policy d
  once := nodup_compared hds policy d
  reached _ := mem_compared_iff hds
  comparison := by
    rw [compareAll, if_neg (by simp [hstands]), compared, foldl_comparedWith]
  reports := filter_isConflict_of_member hds policy hd

def crossing : Declaration :=
  { kind := .contract, name := "Vault", address := .ofNat 2,
    conforms := ["Poolable", "Stakeable"], functions := [{ name := "join" }] }

/-- The first interface above the contract lacks the function, the others require it to be
`auth`. -/
def crossed : Declarations :=
  [{ kind := .interface, name := "Joinable", address := .ofNat 1,
     functions := [{ name := "join", qualifiers := [.auth] }] },
   { kind := .interface, name := "Poolable", address := .ofNat 1, conforms := ["Joinable"] },
   { kind := .interface, name := "Stakeable", address := .ofNat 1, conforms := ["Joinable"],
     functions := [{ name := "join", qualifiers := [.auth] }] },
   crossing]

theorem crossed_comparesInOrder :
    Declarations.Dotless crossed ∧ crossing ∈ crossed.canonical ∧
      (crossed.turn .exact "Vault").table.isRejected (.contract "Vault") = false ∧
      DepthFirst crossed.parents [] ["Vault"] ["Vault", "Poolable", "Joinable", "Stakeable"] ∧
      ((crossed.resolve .exact).diagnostics.filter fun x =>
        x.declaration = some (.member "Vault" "join") && x.isConflict).map Diagnostic.message =
          ["`Vault.join` is declared access(all) but interface `Joinable.join` requires auth"] := by
  have hdotless : Declarations.Dotless crossed := by decide
  have hcanonical : crossing ∈ crossed.canonical := mem_canonical_iff.mpr rfl
  have hstands : (crossed.turn .exact "Vault").table.isRejected (.contract "Vault") = false := by
    cbv
  have habove : crossed.above "Vault" = ["Poolable", "Joinable", "Stakeable"] := by cbv
  have hfirst : (crossed.firstConflict? .exact crossing "join").map Diagnostic.message =
      some "`Vault.join` is declared access(all) but interface `Joinable.join` requires auth" := by
    rw [firstConflict?, compared_eq hdotless]
    cbv
  have hcompares := comparesInOrder_above hdotless .exact hcanonical hstands
  refine ⟨hdotless, hcanonical, hstands, ?_, ?_⟩
  · exact (hcompares.preorder _).mpr (congrArg ("Vault" :: ·) habove.symm)
  · exact (congrArg (List.map Diagnostic.message) (hcompares.reports "join")).trans
      (Option.toList_map.symm.trans (congrArg Option.toList hfirst))

end Declarations

end AuthorizedCalls
