import AuthorizedCalls.Proofs.ConformanceGraph
import AuthorizedCalls.Resolution

namespace AuthorizedCalls

/-- A declaration with its place in the batch, which tells it from others that say the same. -/
abbrev Placed := Declaration × Nat

namespace Guarded

def register (byName : SortedMap Placed) : List Placed → Resolution → SortedMap Placed × Resolution
  | [], r => (byName, r)
  | d :: rest, r =>
    if byName.contains d.1.name then
      register byName rest (r.report (.redeclared d.1.kind d.1.name) d.1.span)
    else
      register (byName.insert d.1.name d) rest (r.registerDeclaration d.1)

/-- The declarations that are themselves found under their names. -/
def canonical (byName : SortedMap Placed) : List Placed → Except Halt (List Placed)
  | [] => .ok []
  | d :: rest => do
    let first ← readKey byName d.1.name
    let others ← canonical byName rest
    return if first.2 = d.2 then d :: others else others

def addNodes (s : NameGraph × SortedMap Nat) : Declarations → NameGraph × SortedMap Nat
  | [] => s
  | d :: rest => addNodes (s.1.addNode d.name, s.2.insert d.name s.1.size) rest

/-- Adds the edge to a target that is an interface and refuses the declaration for another. -/
def linkTarget (byName : SortedMap Placed) (nodes : SortedMap Nat) (d : Declaration)
    (s : NameGraph × Resolution) (target : String) : Except Halt (NameGraph × Resolution) :=
  match byName.find? target with
  | none => .ok (s.1, s.2.refuse (.unknownInterface d.name target) d.span)
  | some parent =>
    if parent.1.isInterface then do
      let g ← s.1.addEdge (← readKey nodes d.name) (← readKey nodes target)
      return (g, s.2)
    else
      .ok (s.1, s.2.refuse (.notAnInterface d.name target parent.1.kind) d.span)

def linkTargets (byName : SortedMap Placed) (nodes : SortedMap Nat) (s : NameGraph × Resolution)
    (d : Declaration) : Except Halt (NameGraph × Resolution) :=
  d.conforms.foldlM (linkTarget byName nodes d) s

/-- Whether a component has several nodes, or its first one an edge to itself. -/
def isCyclic (g : NameGraph) (component : List Nat) : Except Halt Bool :=
  if 1 < component.length then .ok true
  else do
    let first ← readAt component 0
    return g.Edge first first

/-- The names on the cyclic ones of the components, those of each sorted. -/
def cyclicNames (g : NameGraph) : List (List Nat) → Except Halt (List (List String))
  | [] => .ok []
  | component :: rest => do
    let cyclic ← isCyclic g component
    let names ← if cyclic then component.mapM (readAt g.names) else .ok []
    let others ← cyclicNames g rest
    return if cyclic then names.mergeSort (fun a b => !decide (b < a)) :: others else others

def refuseCycle (byName : SortedMap Placed) (r : Resolution) (members : List String) :
    Except Halt Resolution :=
  members.foldlM (fun r name => do
    let d ← readKey byName name
    return r.refuse (.cyclic name members) d.1.span) r

def compareAt (byName : SortedMap Placed) (policy : Policy) (g : NameGraph) (d : Declaration)
    (start : Nat) (r : Resolution) (node : Nat) : Except Halt Resolution :=
  if node = start then .ok r
  else do
    let interface ← readKey byName (← readAt g.names node)
    return r.compareWith policy d interface.1

def compareAll (byName : SortedMap Placed) (nodes : SortedMap Nat) (policy : Policy)
    (g : NameGraph) (r : Resolution) (d : Declaration) : Except Halt Resolution :=
  if r.table.isRejected d.id then .ok r
  else do
    let start ← readKey nodes d.name
    let found ← g.search ⟨[start], []⟩
    found.foldlM (compareAt byName policy g d start) r

/-- Resolves declarations, with the components of the graph as `components` lists them. -/
def resolve (components : NameGraph → List (List Nat)) (ds : Declarations) (policy : Policy) :
    Except Halt Resolution := do
  let (byName, registered) := register .empty ds.zipIdx {}
  let placed ← canonical byName ds.zipIdx
  let canonical := placed.map Prod.fst
  let (unlinked, nodes) := addNodes ({}, .empty) canonical
  let (g, targeted) ← canonical.foldlM (linkTargets byName nodes) (unlinked, registered)
  let cycles ← cyclicNames g (components g)
  let sorted := cycles.mergeSort fun a b => !decide (List.Lex (· < ·) b a)
  let acyclic ← sorted.foldlM (refuseCycle byName) targeted
  canonical.foldlM (compareAll byName nodes policy g) acyclic

open Declarations (nameAt_mem readAt_names mapM_readAt)

theorem snd_register {byName : SortedMap Placed} {seen : List String}
    (hseen : ∀ name, byName.contains name = true ↔ name ∈ seen) (placed : List Placed)
    (r : Resolution) :
    (register byName placed r).2 = Resolution.register seen (placed.map Prod.fst) r := by
  induction placed generalizing byName seen r with
  | nil => rfl
  | cons d rest ih =>
      rw [register, List.map_cons, Resolution.register]
      by_cases hname : d.1.name ∈ seen
      · rw [if_pos ((hseen _).mpr hname), if_pos hname]
        exact ih hseen _
      · rw [if_neg (mt (hseen _).mp hname), if_neg hname]
        refine ih (fun name => ?_) _
        rw [SortedMap.contains, SortedMap.find?_insert, List.mem_cons, ← hseen]
        split
        · next heq => simp [heq]
        · next hne => simp [hne, SortedMap.contains]

theorem find?_register (byName : SortedMap Placed) (placed : List Placed) (r : Resolution)
    (name : String) :
    (register byName placed r).1.find? name =
      (byName.find? name).or (placed.find? fun d => d.1.name = name) := by
  induction placed generalizing byName r with
  | nil => simp [register]
  | cons d rest ih =>
      rw [register, List.find?_cons]
      split
      · next hseen =>
          rw [ih]
          by_cases hname : d.1.name = name
          · obtain ⟨first, hfirst⟩ := Option.isSome_iff_exists.mp hseen
            rw [← hname, hfirst]
            rfl
          · simp [hname]
      · next hnew =>
          rw [ih, SortedMap.find?_insert]
          by_cases hname : d.1.name = name
          · have hnone : byName.find? name = none := by
              simpa [SortedMap.contains, hname] using hnew
            simp [hname, hnone]
          · simp [hname, Ne.symm hname]

/-- The map holds the first declaration of every name of a batch. -/
def FindsFirst (byName : SortedMap Placed) (ds : Declarations) : Prop :=
  ∀ name, byName.find? name = ds.zipIdx.find? fun d => d.1.name = name

theorem findsFirst_register (ds : Declarations) :
    FindsFirst (register .empty ds.zipIdx {}).1 ds := by
  intro name
  rw [find?_register, SortedMap.find?_empty, Option.none_or]

theorem register_eq_registered (ds : Declarations) :
    (register .empty ds.zipIdx {}).2 = ds.registered := by
  rw [@snd_register .empty [] (by simp [SortedMap.contains]), List.zipIdx_map_fst]
  rfl

variable {byName : SortedMap Placed} {ds : Declarations}

theorem FindsFirst.map_fst (h : FindsFirst byName ds) (name : String) :
    (byName.find? name).map Prod.fst = ds.named? name := by
  have hfst : ds = ds.zipIdx.map Prod.fst := (List.zipIdx_map_fst 0 ds).symm
  rw [h name, Declarations.named?]
  conv => rhs; rw [hfst, List.find?_map]
  rfl

theorem FindsFirst.exists_placed (h : FindsFirst byName ds) {name : String} {d : Declaration}
    (hd : ds.named? name = some d) : ∃ place, byName.find? name = some (d, place) := by
  rw [← h.map_fst, Option.map_eq_some_iff] at hd
  obtain ⟨⟨_, place⟩, hfind, rfl⟩ := hd
  exact ⟨place, hfind⟩

theorem canonical_eq_filter {placed : List Placed}
    (hfirst : ∀ d ∈ placed, ∃ first, byName.find? d.1.name = some first ∧
      (first.2 = d.2 → first = d)) :
    canonical byName placed =
      .ok (placed.filter fun d => byName.find? d.1.name = some d) := by
  induction placed with
  | nil => rfl
  | cons d rest ih =>
      obtain ⟨⟨first, hfind, hplace⟩, hrest⟩ := List.forall_mem_cons.mp hfirst
      rw [canonical, readKey_eq_ok hfind, ih hrest, List.filter_cons]
      by_cases hsame : first = d
      · simp [bind, Except.bind, pure, Except.pure, hfind, hsame]
      · simp [bind, Except.bind, pure, Except.pure, hfind, hsame, mt hplace hsame]

theorem canonical_eq (h : FindsFirst byName ds) :
    ∃ placed, canonical byName ds.zipIdx = .ok placed ∧ placed.map Prod.fst = ds.canonical := by
  have hnodup : ds.zipIdx.Nodup := by
    apply List.Nodup.of_map Prod.snd
    rw [List.zipIdx_map_snd]
    exact List.nodup_range'
  have hfirst : ∀ d ∈ ds.zipIdx, ∃ first, byName.find? d.1.name = some first ∧
      (first.2 = d.2 → first = d) := by
    intro d hd
    have hsome : (ds.zipIdx.find? fun other => other.1.name = d.1.name).isSome :=
      List.find?_isSome.mpr ⟨d, hd, by simp⟩
    obtain ⟨first, hfind⟩ := Option.isSome_iff_exists.mp hsome
    refine ⟨first, (h _).trans hfind, fun hplace => ?_⟩
    have hmem := List.mem_zipIdx_iff_getElem?.mp (List.mem_of_find?_eq_some hfind)
    rw [List.mem_zipIdx_iff_getElem?, ← hplace, hmem, Option.some.injEq] at hd
    exact Prod.ext hd hplace
  refine ⟨_, canonical_eq_filter hfirst, ?_⟩
  have hkeep : (fun d : Placed => decide (byName.find? d.1.name = some d)) =
      fun d => decide ((ds.zipIdx.find? fun other => other.1.name = d.1.name) = some d) := by
    funext d
    rw [h]
  rw [hkeep, ← firstsBy_eq_filter hnodup]
  refine (firstsBy_map Declaration.name Prod.fst _).symm.trans ?_
  rw [List.zipIdx_map_fst]
  rfl

theorem addNodes_eq {g : NameGraph} {nodes : SortedMap Nat} {more : Declarations}
    (hnodes : ∀ name ∈ g.names, nodes.find? name = some (g.names.idxOf name))
    (hnodup : (g.names ++ more.map Declaration.name).Nodup) :
    (addNodes (g, nodes) more).1 = { g with names := g.names ++ more.map Declaration.name } ∧
      ∀ name ∈ g.names ++ more.map Declaration.name,
        (addNodes (g, nodes) more).2.find? name =
          some ((g.names ++ more.map Declaration.name).idxOf name) := by
  induction more generalizing g nodes with
  | nil => simpa [addNodes] using hnodes
  | cons d rest ih =>
      have hassoc : g.names ++ (d :: rest).map Declaration.name =
          (g.addNode d.name).names ++ rest.map Declaration.name := by
        simp [NameGraph.addNode]
      have hnew : d.name ∉ g.names := by
        intro hmem
        exact (List.nodup_append.mp hnodup).2.2 _ hmem _ (by simp) rfl
      rw [addNodes, hassoc]
      rw [hassoc] at hnodup
      refine ih (fun name hname => ?_) hnodup
      rw [SortedMap.find?_insert]
      rcases List.mem_append.mp hname with hname | hname
      · have hne : name ≠ d.name := by
          rintro rfl
          exact hnew hname
        rw [if_neg hne, hnodes name hname, NameGraph.addNode, List.idxOf_append_of_mem hname]
      · rw [List.mem_singleton] at hname
        rw [if_pos hname, hname, NameGraph.addNode, List.idxOf_append_of_notMem hnew]
        simp [NameGraph.size]

def FindsNodes (nodes : SortedMap Nat) (ds : Declarations) : Prop :=
  ∀ name ∈ ds.names, nodes.find? name = some (ds.names.idxOf name)

variable {nodes : SortedMap Nat}

theorem addNodes_canonical (ds : Declarations) :
    (addNodes ({}, .empty) ds.canonical).1 = ⟨ds.names, []⟩ ∧
      FindsNodes (addNodes ({}, .empty) ds.canonical).2 ds :=
  addNodes_eq (g := {}) (by simp) ds.nodup_names

theorem linkTarget_eq (hnames : FindsFirst byName ds) (hnodes : FindsNodes nodes ds)
    {d : Declaration} (hd : d.name ∈ ds.names) {g : NameGraph} (hg : g.names = ds.names)
    (r : Resolution) (target : String) :
    linkTarget byName nodes d (g, r) target =
      .ok ({ g with edges := g.edges ++
          ([target].filter ds.declaresInterface).map fun target => ds.edge (d.name, target) },
        Resolution.checkTarget ds d r target) := by
  rw [linkTarget, Resolution.checkTarget, ← hnames.map_fst]
  cases hfind : byName.find? target with
  | none =>
      have hnot : ds.declaresInterface target = false := by
        rw [Declarations.declaresInterface, ← hnames.map_fst, hfind]
        rfl
      simp [hnot]
  | some parent =>
      have hnamed : ds.named? target = some parent.1 := by rw [← hnames.map_fst, hfind]; rfl
      have hkind : ds.declaresInterface target = parent.1.isInterface := by
        rw [Declarations.declaresInterface, hnamed]
        rfl
      by_cases hinterface : parent.1.isInterface = true
      · have htarget := Declarations.mem_names_of_named? hnamed
        have hsize : ds.names.idxOf d.name < g.size ∧ ds.names.idxOf target < g.size := by
          rw [NameGraph.size, hg]
          exact ⟨List.idxOf_lt_length_iff.mpr hd, List.idxOf_lt_length_iff.mpr htarget⟩
        simp [hinterface, hkind, readKey_eq_ok (hnodes _ hd), readKey_eq_ok (hnodes _ htarget),
          bind, Except.bind, pure, Except.pure, NameGraph.addEdge, hsize, Declarations.edge]
      · simp [hinterface, hkind]

def edgesTo (ds : Declarations) (d : Declaration) (targets : List String) : List (Nat × Nat) :=
  (targets.filter ds.declaresInterface).map fun target => ds.edge (d.name, target)

theorem foldlM_linkTarget (hnames : FindsFirst byName ds) (hnodes : FindsNodes nodes ds)
    {d : Declaration} (hd : d.name ∈ ds.names) (targets : List String) {g : NameGraph}
    (hg : g.names = ds.names) (r : Resolution) :
    targets.foldlM (linkTarget byName nodes d) (g, r) =
      .ok ({ g with edges := g.edges ++ edgesTo ds d targets },
        targets.foldl (Resolution.checkTarget ds d) r) := by
  induction targets generalizing g r with
  | nil => simp [edgesTo, pure, Except.pure]
  | cons target rest ih =>
      have hedges : edgesTo ds d (target :: rest) =
          edgesTo ds d [target] ++ edgesTo ds d rest := by
        rw [edgesTo, edgesTo, edgesTo, ← List.map_append, ← List.filter_append,
          List.singleton_append]
      rw [List.foldlM_cons, linkTarget_eq hnames hnodes hd hg, List.foldl_cons, hedges,
        ← List.append_assoc]
      exact ih (by exact hg) _

theorem foldlM_linkTargets (hnames : FindsFirst byName ds) (hnodes : FindsNodes nodes ds)
    {part : Declarations} (hpart : ∀ d ∈ part, d.name ∈ ds.names) {g : NameGraph}
    (hg : g.names = ds.names) (r : Resolution) :
    part.foldlM (linkTargets byName nodes) (g, r) =
      .ok ({ g with edges := g.edges ++ part.flatMap fun d => edgesTo ds d d.conforms },
        part.foldl (Resolution.checkTargets ds) r) := by
  induction part generalizing g r with
  | nil => simp [pure, Except.pure]
  | cons d rest ih =>
      obtain ⟨hd, hrest⟩ := List.forall_mem_cons.mp hpart
      rw [List.foldlM_cons, linkTargets, foldlM_linkTarget hnames hnodes hd _ hg, List.foldl_cons,
        List.flatMap_cons, ← List.append_assoc]
      exact ih hrest (by exact hg) _

theorem flatMap_edgesTo (ds : Declarations) :
    ds.canonical.flatMap (fun d => edgesTo ds d d.conforms) = ds.links.map ds.edge := by
  rw [Declarations.links, Declarations.names, List.flatMap_map, List.map_flatMap]
  apply List.flatMap_congr
  intro d hd
  have hparents : ds.parents d.name = d.conforms.filter ds.declaresInterface := by
    rw [Declarations.parents, Declarations.mem_canonical_iff.mp hd]
  rw [hparents, List.map_map]
  rfl

theorem linkTargets_canonical (hnames : FindsFirst byName ds) (hnodes : FindsNodes nodes ds) :
    ds.canonical.foldlM (linkTargets byName nodes) (⟨ds.names, []⟩, ds.registered) =
      .ok (ds.graph, ds.targeted) := by
  have hmem : ∀ d ∈ ds.canonical, d.name ∈ ds.names := fun d hd => List.mem_map_of_mem hd
  rw [foldlM_linkTargets hnames hnodes hmem rfl, flatMap_edgesTo]
  rfl

variable {components : List (List Nat)}

theorem isCyclic_eq {members : List Nat} (hne : members ≠ [])
    (hsize : ∀ node ∈ members, node < ds.graph.size) :
    isCyclic ds.graph members = .ok (ds.isCyclic (members.map ds.graph.nameAt)) := by
  obtain ⟨first, rest, rfl⟩ := List.exists_cons_of_ne_nil hne
  have hfirst := hsize first List.mem_cons_self
  have hloop : ds.graph.Edge first first ↔
      ds.graph.nameAt first ∈ ds.parents (ds.graph.nameAt first) := by
    rw [Declarations.edge_iff, Declarations.mem_parents_iff]
    exact ⟨fun h => h.2.2, fun h => ⟨hfirst, hfirst, h⟩⟩
  rw [isCyclic, Declarations.isCyclic, List.length_map]
  by_cases hseveral : 0 < rest.length
  · simp [hseveral]
  · simp [hseveral, readAt, bind, Except.bind, pure, Except.pure, hloop]

theorem cyclicNames_eq (hne : ∀ members ∈ components, members ≠ [])
    (hsize : ∀ members ∈ components, ∀ node ∈ members, node < ds.graph.size) :
    cyclicNames ds.graph components =
      .ok (((components.map fun members => members.map ds.graph.nameAt).filter ds.isCyclic).map
        fun members => members.mergeSort fun a b => !decide (b < a)) := by
  induction components with
  | nil => rfl
  | cons members rest ih =>
      rw [List.forall_mem_cons] at hne hsize
      rw [cyclicNames, isCyclic_eq hne.1 hsize.1, mapM_readAt hsize.1, ih hne.2 hsize.2,
        List.map_cons, List.filter_cons]
      cases ds.isCyclic (members.map ds.graph.nameAt) <;> rfl

theorem exists_cyclicNames (h : ds.graph.ListsComponents components) :
    ∃ cycles, cyclicNames ds.graph components = .ok cycles ∧
      cycles.mergeSort (fun a b => !decide (List.Lex (· < ·) b a)) = ds.cycles :=
  ⟨_, cyclicNames_eq (fun _ hmembers => h.ne_nil hmembers) fun _ hmembers _ => h.lt_size hmembers,
    (Declarations.listsComponents_map h).cyclesAmong_eq_cycles⟩

theorem refuseCycle_eq (hnames : FindsFirst byName ds) {members : List String}
    (hmembers : members ∈ ds.cycles) (r : Resolution) :
    refuseCycle byName r members = .ok (Resolution.refuseCycle ds r members) := by
  rw [refuseCycle, Resolution.refuseCycle, List.foldl_filterMap]
  refine foldlM_eq_ok (fun name hname r => ?_) r
  have hself := Declarations.exists_mem_cycles_iff.mp ⟨members, hmembers, hname⟩
  obtain ⟨d, hd⟩ := hself.exists_declaration
  obtain ⟨place, hplace⟩ := hnames.exists_placed hd
  have hname : d.name = name := by simpa using List.find?_some hd
  rw [readKey_eq_ok hplace, hd, ← hname]
  rfl

theorem compareAt_eq (hnames : FindsFirst byName ds) (policy : Policy) (d : Declaration)
    {start node : Nat} (hsize : node < ds.graph.size) (hne : node ≠ start) (r : Resolution) :
    ∃ i, ds.named? (ds.graph.nameAt node) = some i ∧
      compareAt byName policy ds.graph d start r node = .ok (r.compareWith policy d i) := by
  obtain ⟨i, hi, hname⟩ := List.mem_map.mp (nameAt_mem hsize)
  have hnamed : ds.named? (ds.graph.nameAt node) = some i :=
    hname ▸ Declarations.mem_canonical_iff.mp hi
  obtain ⟨place, hplace⟩ := hnames.exists_placed hnamed
  refine ⟨i, hnamed, ?_⟩
  rw [compareAt, if_neg hne, readAt_names hsize]
  simp only [bind, Except.bind, readKey_eq_ok hplace]
  rfl

theorem compareAll_eq (hnames : FindsFirst byName ds) (hnodes : FindsNodes nodes ds)
    (policy : Policy) {d : Declaration} (hd : d.name ∈ ds.names) (r : Resolution) :
    compareAll byName nodes policy ds.graph r d = .ok (Resolution.compareAll ds policy r d) := by
  rw [compareAll, Resolution.compareAll]
  split
  · rfl
  · obtain ⟨found, hfound, hothers, habove⟩ := Declarations.exists_search_graph hd
    have hstart : compareAt byName policy ds.graph d (ds.names.idxOf d.name) r
        (ds.names.idxOf d.name) = .ok r := if_pos rfl
    have hrest : found.foldlM (compareAt byName policy ds.graph d (ds.names.idxOf d.name)) r =
        .ok (((ds.above d.name).filterMap ds.named?).foldl
          (Resolution.compareWith policy d) r) := by
      rw [← habove, List.foldl_filterMap, List.foldl_map]
      refine foldlM_eq_ok (fun node hnode r => ?_) r
      obtain ⟨hsize, hne⟩ := hothers node hnode
      obtain ⟨i, hi, hcompared⟩ := compareAt_eq hnames policy d hsize hne r
      rw [hcompared, hi]
    simp only [readKey_eq_ok (hnodes _ hd), hfound, bind, Except.bind]
    rw [List.foldlM_cons, hstart]
    exact hrest

theorem resolve_eq {components : NameGraph → List (List Nat)} (ds : Declarations)
    (h : ds.graph.ListsComponents (components ds.graph)) (policy : Policy) :
    resolve components ds policy = .ok (ds.resolve policy) := by
  have hnames := findsFirst_register ds
  obtain ⟨hgraph, hnodes⟩ := addNodes_canonical ds
  obtain ⟨placed, hplaced, hcanonical⟩ := canonical_eq hnames
  obtain ⟨cycles, hcycles, hsorted⟩ := exists_cyclicNames h
  have hlinked := linkTargets_canonical hnames hnodes
  have hacyclic : ds.cycles.foldlM (refuseCycle (register .empty ds.zipIdx {}).1) ds.targeted =
      .ok ds.acyclic :=
    foldlM_eq_ok (fun members hmembers r => refuseCycle_eq hnames hmembers r) _
  have hcompared : ds.canonical.foldlM (compareAll (register .empty ds.zipIdx {}).1
      (addNodes ({}, .empty) ds.canonical).2 policy ds.graph) ds.acyclic =
      .ok (ds.resolve policy) :=
    foldlM_eq_ok (fun d hd r => compareAll_eq hnames hnodes policy (List.mem_map_of_mem hd) r) _
  simp only [resolve, bind, Except.bind, hplaced, hcanonical, hgraph, register_eq_registered,
    hlinked, hcycles, hsorted, hacyclic, hcompared]

end Guarded

end AuthorizedCalls
