import AuthorizedCalls.Proofs.NameGraph

namespace AuthorizedCalls.Declarations

open Relation (ReflTransGen)

variable {ds : Declarations} {components : List (List Nat)}

/-- The pairs of names that an edge joins, from a declaration to an interface that it names. -/
def links (ds : Declarations) : List (String × String) :=
  ds.names.flatMap fun name => (ds.parents name).map fun target => (name, target)

def edge (ds : Declarations) (link : String × String) : Nat × Nat :=
  (ds.names.idxOf link.1, ds.names.idxOf link.2)

def graph (ds : Declarations) : NameGraph :=
  ⟨ds.names, ds.links.map ds.edge⟩

theorem mem_links_iff {link : String × String} : link ∈ ds.links ↔ ds.Extends link.1 link.2 := by
  obtain ⟨name, target⟩ := link
  rw [← mem_parents_iff]
  simp only [links, List.mem_flatMap, List.mem_map, Prod.mk.injEq]
  constructor
  · rintro ⟨_, -, _, htarget, rfl, rfl⟩
    exact htarget
  · intro htarget
    obtain ⟨d, -, hd, -⟩ := mem_parents_iff.mp htarget
    exact ⟨name, mem_names_of_named? hd, target, htarget, rfl, rfl⟩

theorem mem_names_of_extends {name target : String} (h : ds.Extends name target) :
    name ∈ ds.names ∧ target ∈ ds.names := by
  obtain ⟨_, _, hd, -, hi, -⟩ := h
  exact ⟨mem_names_of_named? hd, mem_names_of_named? hi⟩

theorem nameAt_idxOf {name : String} (h : name ∈ ds.names) :
    ds.graph.nameAt (ds.names.idxOf name) = name := by
  rw [NameGraph.nameAt, graph, List.getElem?_idxOf h, Option.getD_some]

theorem nameAt_mem {node : Nat} (h : node < ds.graph.size) : ds.graph.nameAt node ∈ ds.names := by
  rw [NameGraph.nameAt, List.getElem?_eq_getElem h]
  exact List.getElem_mem h

theorem idxOf_nameAt {node : Nat} (h : node < ds.graph.size) :
    ds.names.idxOf (ds.graph.nameAt node) = node := by
  rw [NameGraph.nameAt, List.getElem?_eq_getElem h]
  exact ds.nodup_names.idxOf_getElem node h

theorem edge_iff {node target : Nat} :
    ds.graph.Edge node target ↔ node < ds.graph.size ∧ target < ds.graph.size ∧
      ds.Extends (ds.graph.nameAt node) (ds.graph.nameAt target) := by
  rw [NameGraph.Edge, graph, List.mem_map]
  constructor
  · rintro ⟨⟨name, other⟩, hlink, hedge⟩
    obtain ⟨rfl, rfl⟩ := Prod.mk.inj hedge
    have hextends := mem_links_iff.mp hlink
    obtain ⟨hname, hother⟩ := mem_names_of_extends hextends
    refine ⟨List.idxOf_lt_length_iff.mpr hname, List.idxOf_lt_length_iff.mpr hother, ?_⟩
    exact (nameAt_idxOf hname).symm ▸ (nameAt_idxOf hother).symm ▸ hextends
  · rintro ⟨hnode, htarget, hextends⟩
    exact ⟨(_, _), mem_links_iff.mpr hextends,
      Prod.ext (idxOf_nameAt hnode) (idxOf_nameAt htarget)⟩

theorem closed_graph (ds : Declarations) : ds.graph.Closed :=
  fun _ _ h => ⟨(edge_iff.mp h).1, (edge_iff.mp h).2.1⟩

theorem map_snd_filter_flatMap {names : List String} (hnodup : names.Nodup)
    (f : String → List String) (name : String) :
    ((names.flatMap fun a => (f a).map fun b => (a, b)).filter fun l => l.1 = name).map Prod.snd =
      if name ∈ names then f name else [] := by
  induction names with
  | nil => rfl
  | cons first rest ih =>
      obtain ⟨hfirst, hrest⟩ := List.nodup_cons.mp hnodup
      rw [List.flatMap_cons, List.filter_append, List.map_append, ih hrest, List.filter_map,
        List.map_map]
      by_cases hname : first = name
      · subst hname
        simp [hfirst, Function.comp_def]
      · simp [hname, Ne.symm hname, Function.comp_def]

theorem parents_nameAt {node : Nat} (h : node < ds.graph.size) :
    ds.parents (ds.graph.nameAt node) =
      (ds.graph.neighbors node).reverse.map ds.graph.nameAt := by
  have hsource : ds.links.filter (fun link => decide ((ds.edge link).1 = node)) =
      ds.links.filter fun link => decide (link.1 = ds.graph.nameAt node) := by
    apply List.filter_congr
    intro link hlink
    have hname := (mem_names_of_extends (mem_links_iff.mp hlink)).1
    rw [edge, decide_eq_decide, ← List.idxOf_inj hname, idxOf_nameAt h]
  have htarget : ∀ link ∈ ds.links, ds.graph.nameAt (ds.edge link).2 = link.2 := fun link hlink =>
    nameAt_idxOf (mem_names_of_extends (mem_links_iff.mp hlink)).2
  have hparents := map_snd_filter_flatMap ds.nodup_names ds.parents (ds.graph.nameAt node)
  rw [if_pos (nameAt_mem h)] at hparents
  rw [← hparents, NameGraph.neighbors, List.reverse_reverse, List.map_map]
  change _ = ((ds.links.map ds.edge).filter fun e => decide (e.1 = node)).map _
  rw [List.filter_map, List.map_map]
  change _ = (ds.links.filter fun link => decide ((ds.edge link).1 = node)).map _
  rw [hsource]
  apply List.map_congr_left
  intro link hlink
  exact (htarget link (List.mem_of_mem_filter hlink)).symm

theorem edge_idxOf {name target : String} (h : ds.Extends name target) :
    ds.graph.Edge (ds.names.idxOf name) (ds.names.idxOf target) :=
  List.mem_map.mpr ⟨(name, target), mem_links_iff.mpr h, rfl⟩

theorem reachable_iff {node other : Nat} (hnode : node < ds.graph.size)
    (hother : other < ds.graph.size) :
    ReflTransGen ds.graph.Edge node other ↔
      ReflTransGen ds.Extends (ds.graph.nameAt node) (ds.graph.nameAt other) := by
  constructor
  · intro h
    exact h.lift ds.graph.nameAt fun _ _ hedge => (edge_iff.mp hedge).2.2
  · intro h
    have hlift : ReflTransGen ds.graph.Edge (ds.names.idxOf (ds.graph.nameAt node))
        (ds.names.idxOf (ds.graph.nameAt other)) :=
      h.lift (fun name => ds.names.idxOf name) fun _ _ => edge_idxOf
    rwa [idxOf_nameAt hnode, idxOf_nameAt hother] at hlift

theorem map_nameAt_range (ds : Declarations) :
    (List.range ds.graph.size).map ds.graph.nameAt = ds.names := by
  apply List.ext_getElem
  · rw [List.length_map, List.length_range]
    rfl
  · intro node hrange hnames
    rw [List.getElem_map, List.getElem_range, NameGraph.nameAt, graph,
      List.getElem?_eq_getElem hnames, Option.getD_some]

/-- The components of the graph are those of conformance. -/
theorem listsComponents_map (h : ds.graph.ListsComponents components) :
    ds.ListsComponents (components.map fun members => members.map ds.graph.nameAt) where
  all := by
    rw [← map_nameAt_range, ← List.map_flatten]
    exact h.all.map _
  exact named hnamed name hname := by
    obtain ⟨members, hmembers, rfl⟩ := List.mem_map.mp hnamed
    obtain ⟨node, hnode, rfl⟩ := List.mem_map.mp hname
    obtain ⟨first, hfirst, hexact⟩ := h.exact members hmembers
    have hsize := h.lt_size hmembers hnode
    have hnode := (hexact node).mp hnode
    ext other
    constructor
    · intro hother
      obtain ⟨target, htarget, rfl⟩ := List.mem_map.mp hother
      have hsize' := h.lt_size hmembers htarget
      have htarget := (hexact target).mp htarget
      exact ⟨nameAt_mem hsize', (reachable_iff hsize hsize').mp (hnode.2.trans htarget.1),
        (reachable_iff hsize' hsize).mp (htarget.2.trans hnode.1)⟩
    · rintro ⟨hother, hto, hback⟩
      have hsize' : ds.names.idxOf other < ds.graph.size := List.idxOf_lt_length_iff.mpr hother
      rw [← nameAt_idxOf hother] at hto hback
      have hmutual : ds.graph.Mutual first (ds.names.idxOf other) :=
        ⟨hnode.1.trans ((reachable_iff hsize hsize').mpr hto),
          ((reachable_iff hsize' hsize).mpr hback).trans hnode.2⟩
      exact List.mem_map.mpr ⟨_, (hexact _).mpr hmutual, nameAt_idxOf hother⟩

theorem readAt_names {node : Nat} (h : node < ds.graph.size) :
    readAt ds.graph.names node = .ok (ds.graph.nameAt node) :=
  readAt_eq_ok (by rw [NameGraph.nameAt, List.getElem?_eq_getElem h, Option.getD_some])

theorem mapM_readAt {members : List Nat} (h : ∀ node ∈ members, node < ds.graph.size) :
    members.mapM (readAt ds.graph.names) = .ok (members.map ds.graph.nameAt) := by
  induction members with
  | nil => rfl
  | cons node rest ih =>
      obtain ⟨hnode, hrest⟩ := List.forall_mem_cons.mp h
      rw [List.mapM_cons, readAt_names hnode, ih hrest]
      rfl

/-- The other nodes that the search finds are, by name, the interfaces above. -/
theorem exists_search_graph {name : String} (h : name ∈ ds.names) :
    ∃ found, ds.graph.search ⟨[ds.names.idxOf name], []⟩ =
        .ok (ds.names.idxOf name :: found) ∧
      (∀ node ∈ found, node < ds.graph.size ∧ node ≠ ds.names.idxOf name) ∧
      found.map ds.graph.nameAt = ds.above name := by
  have hstart : ds.names.idxOf name < ds.graph.size := List.idxOf_lt_length_iff.mpr h
  obtain ⟨found, hfound, hsize, hsearch⟩ := ds.closed_graph.stackSearch_search ds.nodup_names
    (fun _ => parents_nameAt) hstart
  rw [nameAt_idxOf h, ds.stackSearch_above] at hsearch
  obtain ⟨start, rest, rfl, hname, hrest⟩ := List.map_eq_cons_iff.mp hsearch
  rw [List.forall_mem_cons] at hsize
  have hfirst : start = ds.names.idxOf name := by rw [← hname, idxOf_nameAt hsize.1]
  refine ⟨rest, hfirst ▸ hfound, fun node hnode => ⟨hsize.2 node hnode, ?_⟩, hrest⟩
  rintro rfl
  have habove := List.mem_map_of_mem (f := ds.graph.nameAt) hnode
  rw [hrest, nameAt_idxOf h] at habove
  exact (mem_above_iff.mp habove).2 rfl

end AuthorizedCalls.Declarations
