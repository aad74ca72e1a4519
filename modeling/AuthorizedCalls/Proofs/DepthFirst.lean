import AuthorizedCalls.Proofs.Traversal

namespace AuthorizedCalls.Declarations

/-- The recursive depth-first preorder from a list of targets. Of the lists the first holds the
names visited before, the newest first, and the last those that are newly found. -/
inductive DepthFirst (next : String → List String) :
    List String → List String → List String → Prop
  | nil {visited : List String} : DepthFirst next visited [] []
  | seen {visited rest found : List String} {name : String} : name ∈ visited →
      DepthFirst next visited rest found → DepthFirst next visited (name :: rest) found
  | visit {visited rest below behind : List String} {name : String} : name ∉ visited →
      DepthFirst next (name :: visited) (next name) below →
      DepthFirst next (below.reverse ++ name :: visited) rest behind →
      DepthFirst next visited (name :: rest) (name :: below ++ behind)

/-- Pushes names onto a stack, but for those that are visited. -/
def pushUnvisited (visited stack names : List String) : List String :=
  names.foldl (fun stack name => if name ∈ visited then stack else name :: stack) stack

/-- The search with an explicit stack. A name is marked when it comes off the stack and its
successors are then pushed from the last one written to the first. -/
inductive StackSearch (next : String → List String) :
    List String → List String → List String → Prop
  | nil {visited : List String} : StackSearch next visited [] []
  | seen {visited stack found : List String} {name : String} : name ∈ visited →
      StackSearch next visited stack found → StackSearch next visited (name :: stack) found
  | visit {visited stack found : List String} {name : String} : name ∉ visited →
      StackSearch next (name :: visited)
        (pushUnvisited (name :: visited) stack (next name).reverse) found →
      StackSearch next visited (name :: stack) (name :: found)

variable {next : String → List String} {visited : List String}

namespace DepthFirst

theorem unique {targets found found' : List String} (h : DepthFirst next visited targets found)
    (h' : DepthFirst next visited targets found') : found = found' := by
  induction h generalizing found' with
  | nil =>
      cases h'
      rfl
  | seen hseen _ ih =>
      cases h' with
      | seen _ h' => exact ih h'
      | visit hnew => exact absurd hseen hnew
  | visit hnew _ _ ihbelow ihbehind =>
      cases h' with
      | seen hseen => exact absurd hseen hnew
      | visit _ hbelow hbehind =>
          obtain rfl := ihbelow hbelow
          rw [ihbehind hbehind]

theorem exists_of_append {targets targets' found : List String}
    (h : DepthFirst next visited (targets ++ targets') found) :
    ∃ below behind, found = below ++ behind ∧ DepthFirst next visited targets below ∧
      DepthFirst next (below.reverse ++ visited) targets' behind := by
  induction targets generalizing visited found with
  | nil => exact ⟨[], found, rfl, .nil, h⟩
  | cons name rest ih =>
      cases h with
      | seen hseen h =>
          obtain ⟨below, behind, rfl, hbelow, hbehind⟩ := ih h
          exact ⟨below, behind, rfl, .seen hseen hbelow, hbehind⟩
      | @visit _ _ first _ _ hnew hfirst h =>
          obtain ⟨below, behind, rfl, hbelow, hbehind⟩ := ih h
          refine ⟨name :: first ++ below, behind, by simp, .visit hnew hfirst hbelow, ?_⟩
          simpa using hbehind

end DepthFirst

theorem pushUnvisited_reverse (visited stack names : List String) :
    pushUnvisited visited stack names.reverse = names.filter (· ∉ visited) ++ stack := by
  rw [pushUnvisited, List.foldl_reverse]
  induction names with
  | nil => rfl
  | cons name rest ih =>
      rw [List.foldr_cons, ih]
      by_cases hname : name ∈ visited <;> simp [hname]

theorem StackSearch.unique {stack found found' : List String}
    (h : StackSearch next visited stack found) (h' : StackSearch next visited stack found') :
    found = found' := by
  induction h generalizing found' with
  | nil =>
      cases h'
      rfl
  | seen hseen _ ih =>
      cases h' with
      | seen _ h' => exact ih h'
      | visit hnew => exact absurd hseen hnew
  | visit hnew _ ih =>
      cases h' with
      | seen hseen => exact absurd hseen hnew
      | visit _ h' => rw [ih h']

/-- The search with the stack follows the recursive preorder. Of the targets it may lack those that
were visited before they would have been pushed; what it finds behind them it finds last. -/
theorem DepthFirst.stackSearch {targets found : List String}
    (h : DepthFirst next visited targets found) {early : List String} (hearly : early ⊆ visited)
    {stack behind : List String}
    (hbehind : StackSearch next (found.reverse ++ visited) stack behind) :
    StackSearch next visited (targets.filter (· ∉ early) ++ stack) (found ++ behind) := by
  induction h generalizing early stack behind with
  | nil => exact hbehind
  | @seen visited rest found name hseen _ ih =>
      have hrest := ih hearly hbehind
      by_cases hname : name ∈ early
      · rwa [List.filter_cons_of_neg (by simpa using hname)]
      · rw [List.filter_cons_of_pos (by simpa using hname)]
        exact .seen hseen hrest
  | @visit visited rest below found name hnew _ _ ihbelow ihrest =>
      have hname : name ∉ early := fun h => hnew (hearly h)
      rw [List.filter_cons_of_pos (by simpa using hname), List.cons_append, List.cons_append,
        List.cons_append]
      refine .visit hnew ?_
      rw [pushUnvisited_reverse, List.append_assoc]
      -- Below the name nothing is lacking but what is visited now; then come the other targets.
      refine ihbelow (List.Subset.refl _) (ihrest ?_ ?_)
      · exact fun _ h => List.mem_append_right _ (List.mem_cons_of_mem _ (hearly h))
      · simpa using hbehind

theorem depthFirst_walk {all unvisited stack : List String} (hnext : ∀ name, next name ⊆ all)
    (hnodup : unvisited.Nodup)
    (hunvisited : ∀ name ∈ all, name ∈ unvisited ↔ name ∉ visited) (hstack : stack ⊆ all) :
    DepthFirst next visited stack (walk next unvisited stack) := by
  fun_induction walk next unvisited stack generalizing visited with
  | case1 => exact .nil
  | case2 unvisited name stack hmem ih =>
      obtain ⟨hname, hstack⟩ := List.cons_subset.mp hstack
      have hrest : ∀ other ∈ all, other ∈ unvisited.erase name ↔ other ∉ name :: visited := by
        intro other hother
        rw [hnodup.mem_erase_iff, hunvisited other hother, List.mem_cons, not_or]
      have hwalk := ih (hnodup.erase name) hrest (List.append_subset.mpr ⟨hnext name, hstack⟩)
      obtain ⟨below, behind, heq, hbelow, hbehind⟩ := hwalk.exists_of_append
      rw [heq]
      exact .visit ((hunvisited name hname).mp hmem) hbelow hbehind
  | case3 unvisited name stack hmem ih =>
      obtain ⟨hname, hstack⟩ := List.cons_subset.mp hstack
      have hseen : name ∈ visited := by
        by_contra hnew
        exact hmem ((hunvisited name hname).mpr hnew)
      exact .seen hseen (ih hnodup hunvisited hstack)

theorem nodup_walk {unvisited stack : List String} (hnodup : unvisited.Nodup) :
    (walk next unvisited stack).Nodup := by
  fun_induction walk next unvisited stack with
  | case1 => exact .nil
  | case2 unvisited name stack _ ih =>
      refine List.nodup_cons.mpr ⟨fun hmem => ?_, ih (hnodup.erase name)⟩
      obtain ⟨_, -, hpath⟩ := mem_walk_iff.mp hmem
      exact (hnodup.mem_erase_iff.mp hpath.mem_right).1 rfl
  | case3 _ _ _ _ ih => exact ih hnodup

variable {ds : Declarations}

theorem nodup_above (ds : Declarations) (name : String) : (ds.above name).Nodup :=
  nodup_walk (ds.nodup_names.erase name)

theorem parents_subset_names (ds : Declarations) (name : String) : ds.parents name ⊆ ds.names := by
  intro target htarget
  obtain ⟨_, i, _, _, hi, _⟩ := mem_parents_iff.mp htarget
  exact mem_names_of_named? hi

/-- What a declaration is compared with is in the preorder that starts at it. -/
theorem depthFirst_above (ds : Declarations) (name : String) {found : List String} :
    DepthFirst ds.parents [] [name] found ↔ found = name :: ds.above name := by
  have hunvisited : ∀ other ∈ ds.names, other ∈ ds.names.erase name ↔ other ∉ [name] := by
    intro other hother
    simp [ds.nodup_names.mem_erase_iff, hother]
  have habove : DepthFirst ds.parents [name] (ds.parents name) (ds.above name) :=
    depthFirst_walk ds.parents_subset_names (ds.nodup_names.erase name) hunvisited
      (ds.parents_subset_names name)
  have hstart : DepthFirst ds.parents [] [name] (name :: ds.above name ++ []) :=
    .visit List.not_mem_nil habove .nil
  rw [List.append_nil] at hstart
  constructor
  · exact fun h => h.unique hstart
  · rintro rfl
    exact hstart

theorem stackSearch_above (ds : Declarations) (name : String) {found : List String} :
    StackSearch ds.parents [] [name] found ↔ found = name :: ds.above name := by
  have hsearch := ((ds.depthFirst_above name).mpr rfl).stackSearch (List.Subset.refl []) .nil
  rw [List.append_nil, List.append_nil, List.filter_eq_self.mpr (by simp)] at hsearch
  constructor
  · exact fun h => h.unique hsearch
  · rintro rfl
    exact hsearch

end AuthorizedCalls.Declarations
