import AuthorizedCalls.Proofs.Components
import AuthorizedCalls.Proofs.DepthFirst
import AuthorizedCalls.SortedMap
import Mathlib.Data.Finset.Range
import Mathlib.Data.Finset.Card

namespace AuthorizedCalls

open Relation (ReflTransGen)

/-- What stops a check. -/
inductive Halt
  /-- A map was asked for a key that it does not have. -/
  | noKey (key : String)
  | noPlace (place : Nat)
  /-- Items were to be shared out in runs of no items, or among nobody. -/
  | noSize
  /-- The worker that had these units stopped. -/
  | worker (label : String)
deriving DecidableEq

def readKey {β : Type} (m : SortedMap β) (key : String) : Except Halt β :=
  match m.find? key with
  | some value => .ok value
  | none => .error (.noKey key)

def readAt {α : Type} (xs : List α) (place : Nat) : Except Halt α :=
  match xs[place]? with
  | some x => .ok x
  | none => .error (.noPlace place)

theorem readKey_eq_ok {β : Type} {m : SortedMap β} {key : String} {value : β}
    (h : m.find? key = some value) : readKey m key = .ok value := by
  rw [readKey, h]

theorem readAt_eq_ok {α : Type} {xs : List α} {place : Nat} {x : α} (h : xs[place]? = some x) :
    readAt xs place = .ok x := by
  rw [readAt, h]

theorem foldlM_eq_ok {α β : Type} {turn : β → α → Except Halt β} {turn' : β → α → β} {xs : List α}
    (h : ∀ x ∈ xs, ∀ state, turn state x = .ok (turn' state x)) (state : β) :
    xs.foldlM turn state = .ok (xs.foldl turn' state) := by
  induction xs generalizing state with
  | nil => rfl
  | cons x rest ih =>
      rw [List.forall_mem_cons] at h
      rw [List.foldlM_cons, h.1, List.foldl_cons]
      exact ih h.2 _

structure NameGraph where
  names : List String := []
  /-- In the order in which they were added. -/
  edges : List (Nat × Nat) := []

structure Search where
  stack : List Nat
  discovered : List Nat := []

namespace NameGraph

def size (g : NameGraph) : Nat :=
  g.names.length

def addNode (g : NameGraph) (name : String) : NameGraph :=
  { g with names := g.names ++ [name] }

def addEdge (g : NameGraph) (source target : Nat) : Except Halt NameGraph :=
  if source < g.size ∧ target < g.size then .ok { g with edges := g.edges ++ [(source, target)] }
  else .error (.noPlace (max source target))

def neighbors (g : NameGraph) (node : Nat) : List Nat :=
  ((g.edges.filter fun e => e.1 = node).map Prod.snd).reverse

def Edge (g : NameGraph) (source target : Nat) : Prop :=
  (source, target) ∈ g.edges

instance (g : NameGraph) (source target : Nat) : Decidable (g.Edge source target) :=
  inferInstanceAs (Decidable ((source, target) ∈ g.edges))

/-- Pushes nodes onto a stack, but for those that are discovered. -/
def pushNew (discovered stack nodes : List Nat) : List Nat :=
  nodes.foldl (fun stack node => if node ∈ discovered then stack else node :: stack) stack

/-- One turn of the search: a node comes off the stack, and the neighbors of one that is new go
onto it. Nothing is left to do where the stack is empty. -/
def step (g : NameGraph) (s : Search) : Except Halt (Option Search) :=
  match s.stack with
  | [] => .ok none
  | node :: stack =>
    if g.size ≤ node then .error (.noPlace node)
    else if node ∈ s.discovered then .ok (some ⟨stack, s.discovered⟩)
    else
      let discovered := node :: s.discovered
      .ok (some ⟨pushNew discovered stack (g.neighbors node), discovered⟩)

def Next (g : NameGraph) (s' s : Search) : Prop :=
  g.step s = .ok (some s')

def undiscovered (g : NameGraph) (s : Search) : Finset Nat :=
  Finset.range g.size \ s.discovered.toFinset

variable {g : NameGraph} {s s' : Search}

theorem next_cases (h : g.Next s' s) :
    ∃ node stack, s.stack = node :: stack ∧ node < g.size ∧
      ((node ∈ s.discovered ∧ s' = ⟨stack, s.discovered⟩) ∨
        (node ∉ s.discovered ∧
          s' = ⟨pushNew (node :: s.discovered) stack (g.neighbors node),
            node :: s.discovered⟩)) := by
  rw [Next, step] at h
  split at h
  · cases h
  · next node stack hstack =>
      split at h
      · cases h
      · next hsize =>
          refine ⟨node, stack, hstack, Nat.lt_of_not_le hsize, ?_⟩
          split at h
          · next hseen => exact .inl ⟨hseen, (Option.some.inj (Except.ok.inj h)).symm⟩
          · next hnew => exact .inr ⟨hnew, (Option.some.inj (Except.ok.inj h)).symm⟩

/-- Every turn takes a node off the stack or leaves one node less to discover. -/
theorem next_decreases (h : g.Next s' s) :
    Prod.Lex (· < ·) (· < ·) ((g.undiscovered s').card, s'.stack.length)
      ((g.undiscovered s).card, s.stack.length) := by
  obtain ⟨node, stack, hstack, hsize, ⟨-, rfl⟩ | ⟨hnew, rfl⟩⟩ := next_cases h
  · rw [hstack]
    exact .right _ (Nat.lt_succ_self _)
  · apply Prod.Lex.left
    apply Finset.card_lt_card
    rw [Finset.ssubset_iff_of_subset]
    · exact ⟨node, by simp [undiscovered, hsize, hnew], by simp [undiscovered]⟩
    · intro other
      simp only [undiscovered, Finset.mem_sdiff, List.mem_toFinset, List.mem_cons, not_or]
      exact fun h => ⟨h.1, h.2.2⟩

/-- No search goes on forever, whatever the graph. -/
theorem wellFounded_next (g : NameGraph) : WellFounded g.Next :=
  Subrelation.wf (fun {_ _} h => next_decreases h)
    (InvImage.wf (fun s : Search => ((g.undiscovered s).card, s.stack.length))
      (Prod.lex Nat.lt_wfRel Nat.lt_wfRel).wf)

/-- The nodes in the order in which the search discovers them. -/
def search (g : NameGraph) (s : Search) : Except Halt (List Nat) :=
  match _h : g.step s with
  | .error halt => .error halt
  | .ok none => .ok s.discovered.reverse
  | .ok (some s') => g.search s'
termination_by ((g.undiscovered s).card, s.stack.length)
decreasing_by exact next_decreases _h

def Closed (g : NameGraph) : Prop :=
  ∀ source target, g.Edge source target → source < g.size ∧ target < g.size

theorem mem_neighbors_iff {node target : Nat} : target ∈ g.neighbors node ↔ g.Edge node target := by
  simp [neighbors, Edge]

theorem mem_pushNew_iff {discovered stack nodes : List Nat} {node : Nat} :
    node ∈ pushNew discovered stack nodes ↔
      node ∈ stack ∨ (node ∈ nodes ∧ node ∉ discovered) := by
  rw [pushNew]
  induction nodes generalizing stack with
  | nil => simp
  | cons first rest ih =>
      rw [List.foldl_cons, ih]
      by_cases hfirst : first ∈ discovered <;> grind

def Within (g : NameGraph) (s : Search) : Prop :=
  ∀ node ∈ s.stack, node < g.size

theorem search_of_nil (h : s.stack = []) : g.search s = .ok s.discovered.reverse := by
  have hstep : g.step s = .ok none := by rw [step, h]
  rw [search]
  split
  · next hstep' =>
      rw [hstep] at hstep'
      cases hstep'
  · rfl
  · next hstep' =>
      rw [hstep] at hstep'
      cases hstep'

theorem search_of_next (h : g.Next s' s) : g.search s = g.search s' := by
  rw [Next] at h
  rw [search]
  split
  · next hstep =>
      rw [h] at hstep
      cases hstep
  · next hstep =>
      rw [h] at hstep
      cases hstep
  · next hstep =>
      rw [h] at hstep
      cases hstep
      rfl

theorem exists_next {node : Nat} {stack : List Nat} (hstack : s.stack = node :: stack)
    (hsize : node < g.size) : ∃ s', g.Next s' s := by
  simp only [Next, step, hstack, if_neg (Nat.not_le.mpr hsize)]
  split
  · exact ⟨_, rfl⟩
  · exact ⟨_, rfl⟩

theorem Closed.within_next (hg : g.Closed) (hs : g.Within s) (h : g.Next s' s) : g.Within s' := by
  obtain ⟨node, stack, hstack, -, hturn⟩ := next_cases h
  rw [Within, hstack, List.forall_mem_cons] at hs
  obtain ⟨-, rfl⟩ | ⟨-, rfl⟩ := hturn
  · exact hs.2
  · intro other hother
    rcases mem_pushNew_iff.mp hother with hother | ⟨hother, -⟩
    · exact hs.2 other hother
    · exact (hg node other (mem_neighbors_iff.mp hother)).2

/-- A search over nodes ends with what it found; what is claimed of that is claimed of the last
state and, turn by turn, of the states before it. -/
theorem Closed.search_induction {motive : Search → List Nat → Prop} (hg : g.Closed)
    (done : ∀ s, s.stack = [] → motive s s.discovered.reverse)
    (turn : ∀ s s' found, g.Next s' s → motive s' found → motive s found)
    (hs : g.Within s) : ∃ found, g.search s = .ok found ∧ motive s found := by
  induction s using (wellFounded_next g).induction with
  | _ s ih =>
      cases hstack : s.stack with
      | nil => exact ⟨_, search_of_nil hstack, done s hstack⟩
      | cons node stack =>
          obtain ⟨s', hnext⟩ := exists_next hstack (hs node (hstack ▸ List.mem_cons_self))
          obtain ⟨found, hfound, hmotive⟩ := ih s' hnext (hg.within_next hs hnext)
          exact ⟨found, (search_of_next hnext).trans hfound, turn s s' found hnext hmotive⟩

/-- How far the search from a node has come. -/
structure Explores (g : NameGraph) (start : Nat) (s : Search) : Prop where
  begun : start ∈ s.stack ∨ start ∈ s.discovered
  reached : ∀ node, node ∈ s.stack ∨ node ∈ s.discovered → ReflTransGen g.Edge start node
  followed : ∀ node ∈ s.discovered, ∀ target, g.Edge node target →
    target ∈ s.stack ∨ target ∈ s.discovered

theorem Explores.next {start : Nat} (h : g.Explores start s) (hnext : g.Next s' s) :
    g.Explores start s' := by
  obtain ⟨node, stack, hstack, -, hturn⟩ := next_cases hnext
  obtain ⟨begun, reached, followed⟩ := h
  rw [hstack] at begun reached followed
  obtain ⟨hseen, rfl⟩ | ⟨-, rfl⟩ := hturn
  · have hleft (other : Nat) : other ∈ node :: stack ∨ other ∈ s.discovered ↔
        other ∈ stack ∨ other ∈ s.discovered := by
      grind
    constructor
    · exact (hleft start).mp begun
    · exact fun other hother => reached other ((hleft other).mpr hother)
    · exact fun other hother target hedge => (hleft target).mp (followed other hother target hedge)
  · have hkept {other : Nat} (h : other ∈ node :: stack ∨ other ∈ s.discovered) :
        other ∈ pushNew (node :: s.discovered) stack (g.neighbors node) ∨
          other ∈ node :: s.discovered := by
      rw [mem_pushNew_iff]
      grind
    have hnode : ReflTransGen g.Edge start node := reached node (.inl List.mem_cons_self)
    constructor
    · exact hkept begun
    · rintro other (hother | hother)
      · rcases mem_pushNew_iff.mp hother with hother | ⟨hother, -⟩
        · exact reached other (.inl (List.mem_cons_of_mem _ hother))
        · exact hnode.tail (mem_neighbors_iff.mp hother)
      · rcases List.mem_cons.mp hother with rfl | hother
        · exact hnode
        · exact reached other (.inr hother)
    · intro other hother target hedge
      rcases List.mem_cons.mp hother with rfl | hother
      · rw [mem_pushNew_iff, mem_neighbors_iff]
        grind
      · exact hkept (followed other hother target hedge)

theorem Explores.mem_discovered_iff {start node : Nat} (h : g.Explores start s)
    (hstack : s.stack = []) : node ∈ s.discovered ↔ ReflTransGen g.Edge start node := by
  obtain ⟨begun, reached, followed⟩ := h
  simp only [hstack, List.not_mem_nil, false_or] at begun reached followed
  constructor
  · exact reached node
  · intro hpath
    induction hpath with
    | refl => exact begun
    | tail _ hedge ih => exact followed _ ih _ hedge

/-- The search from a node finds the nodes that can be reached. -/
theorem Closed.mem_search_iff (hg : g.Closed) {start : Nat} (hstart : start < g.size) :
    ∃ found, g.search ⟨[start], []⟩ = .ok found ∧
      ∀ node, node ∈ found ↔ ReflTransGen g.Edge start node := by
  have hwithin : g.Within ⟨[start], []⟩ := by
    simpa [Within] using hstart
  have hstarted : g.Explores start ⟨[start], []⟩ := by
    refine ⟨.inl List.mem_cons_self, ?_, by simp⟩
    rintro node (hnode | hnode)
    · rw [List.mem_singleton.mp hnode]
    · contradiction
  obtain ⟨found, hfound, hnodes⟩ := hg.search_induction
    (motive := fun s found => g.Explores start s →
      ∀ node, node ∈ found ↔ ReflTransGen g.Edge start node)
    (fun s hstack h node => List.mem_reverse.trans (h.mem_discovered_iff hstack))
    (fun s s' found hnext ih h => ih (h.next hnext)) hwithin
  exact ⟨found, hfound, hnodes hstarted⟩

def Mutual (g : NameGraph) (node other : Nat) : Prop :=
  ReflTransGen g.Edge node other ∧ ReflTransGen g.Edge other node

/-- The strongly connected components, listed in any order, as are their members. -/
structure ListsComponents (g : NameGraph) (components : List (List Nat)) : Prop where
  all : components.flatten.Perm (List.range g.size)
  exact : ∀ members ∈ components, ∃ node < g.size, ∀ other, other ∈ members ↔ g.Mutual node other

theorem ListsComponents.ne_nil {components : List (List Nat)} (h : g.ListsComponents components)
    {members : List Nat} (hmembers : members ∈ components) : members ≠ [] := by
  obtain ⟨node, -, hexact⟩ := h.exact members hmembers
  exact List.ne_nil_of_mem ((hexact node).mpr ⟨.refl, .refl⟩)

theorem ListsComponents.lt_size {components : List (List Nat)} (h : g.ListsComponents components)
    {members : List Nat} (hmembers : members ∈ components) {node : Nat} (hnode : node ∈ members) :
    node < g.size :=
  List.mem_range.mp (h.all.mem_iff.mp (List.mem_flatten_of_mem hmembers hnode))

def reached (g : NameGraph) (node : Nat) : List Nat :=
  match g.search ⟨[node], []⟩ with
  | .ok found => found
  | .error _ => []

def connected (g : NameGraph) (node other : Nat) : Bool :=
  other ∈ g.reached node && node ∈ g.reached other

/-- The components, found by one search from every node. -/
def components (g : NameGraph) : List (List Nat) :=
  classes (List.range g.size) g.connected

theorem Closed.mem_reached_iff (hg : g.Closed) {node other : Nat} (hnode : node < g.size) :
    other ∈ g.reached node ↔ ReflTransGen g.Edge node other := by
  obtain ⟨found, hfound, hmem⟩ := hg.mem_search_iff hnode
  rw [reached, hfound]
  exact hmem other

theorem Closed.lt_size_of_reachable (hg : g.Closed) {node other : Nat} (hnode : node < g.size)
    (h : ReflTransGen g.Edge node other) : other < g.size := by
  cases h with
  | refl => exact hnode
  | tail _ hedge => exact (hg _ _ hedge).2

theorem Closed.connected_iff (hg : g.Closed) {node other : Nat} (hnode : node < g.size)
    (hother : other < g.size) : g.connected node other = true ↔ g.Mutual node other := by
  rw [connected, Bool.and_eq_true, decide_eq_true_eq, decide_eq_true_eq, hg.mem_reached_iff hnode,
    hg.mem_reached_iff hother, Mutual]

theorem Closed.mem_classOf_iff (hg : g.Closed) {node other : Nat} (hnode : node < g.size) :
    other ∈ classOf (List.range g.size) g.connected node ↔ g.Mutual node other := by
  rw [classOf, List.mem_filter, List.mem_range]
  constructor
  · rintro ⟨hother, hconnected⟩
    exact (hg.connected_iff hnode hother).mp hconnected
  · intro h
    have hother := hg.lt_size_of_reachable hnode h.1
    exact ⟨hother, (hg.connected_iff hnode hother).mpr h⟩

theorem Closed.classOf_eq (hg : g.Closed) {node other : Nat} (hnode : node < g.size)
    (h : g.Mutual node other) :
    classOf (List.range g.size) g.connected other =
      classOf (List.range g.size) g.connected node := by
  have hother := hg.lt_size_of_reachable hnode h.1
  apply List.filter_congr
  intro third hthird
  rw [List.mem_range] at hthird
  rw [Bool.eq_iff_iff, hg.connected_iff hother hthird, hg.connected_iff hnode hthird]
  constructor
  · exact fun hthird => ⟨h.1.trans hthird.1, hthird.2.trans h.2⟩
  · exact fun hthird => ⟨h.2.trans hthird.1, hthird.2.trans h.1⟩

theorem Closed.listsComponents_components (hg : g.Closed) : g.ListsComponents g.components where
  all := by
    apply flatten_classes_perm List.nodup_range
    · intro node hnode
      rw [List.mem_range] at hnode
      exact (hg.connected_iff hnode hnode).mpr ⟨.refl, .refl⟩
    · intro node hnode other hother
      rw [List.mem_range] at hnode
      exact hg.classOf_eq hnode ((hg.mem_classOf_iff hnode).mp hother)
  exact members hmembers := by
    obtain ⟨node, hnode, rfl, -⟩ := mem_classes_iff.mp hmembers
    rw [List.mem_range] at hnode
    exact ⟨node, hnode, fun other => hg.mem_classOf_iff hnode⟩

def nameAt (g : NameGraph) (node : Nat) : String :=
  g.names[node]?.getD ""

theorem pushUnvisited_map {discovered stack nodes : List Nat}
    (hinj : ∀ node ∈ nodes, ∀ other ∈ discovered,
      g.nameAt node = g.nameAt other → node = other) :
    Declarations.pushUnvisited (discovered.map g.nameAt) (stack.map g.nameAt)
        (nodes.map g.nameAt) =
      (pushNew discovered stack nodes).map g.nameAt := by
  rw [Declarations.pushUnvisited, pushNew]
  induction nodes generalizing stack with
  | nil => rfl
  | cons node rest ih =>
      rw [List.forall_mem_cons] at hinj
      have hmem : g.nameAt node ∈ discovered.map g.nameAt ↔ node ∈ discovered := by
        rw [List.mem_map]
        constructor
        · rintro ⟨other, hother, heq⟩
          rwa [hinj.1 other hother heq.symm]
        · exact fun h => ⟨node, h, rfl⟩
      rw [List.map_cons, List.foldl_cons, List.foldl_cons, ← ih hinj.2]
      simp only [hmem]
      split <;> rfl

theorem nameAt_inj (hnodup : g.names.Nodup) {node other : Nat} (hnode : node < g.size)
    (hother : other < g.size) : g.nameAt node = g.nameAt other ↔ node = other := by
  rw [nameAt, nameAt, List.getElem?_eq_getElem hnode, List.getElem?_eq_getElem hother]
  exact hnodup.getElem_inj_iff

/-- What a search finds from here on, by name. -/
def FindsByName (g : NameGraph) (next : String → List String) (s : Search) (found : List Nat) :
    Prop :=
  ∃ rest, found = s.discovered.reverse ++ rest ∧ (∀ node ∈ rest, node < g.size) ∧
    Declarations.StackSearch next (s.discovered.map g.nameAt) (s.stack.map g.nameAt)
      (rest.map g.nameAt)

theorem FindsByName.of_next {next : String → List String} {found : List Nat} (hg : g.Closed)
    (hnodup : g.names.Nodup)
    (hnext : ∀ node < g.size, next (g.nameAt node) = (g.neighbors node).reverse.map g.nameAt)
    (hturn : g.Next s' s) (hs : ∀ node ∈ s.discovered, node < g.size)
    (h : g.FindsByName next s' found) : g.FindsByName next s found := by
  obtain ⟨node, stack, hstack, hsize, ⟨hseen, rfl⟩ | ⟨hnew, rfl⟩⟩ := next_cases hturn
  · obtain ⟨rest, hfound, hrest, hsearch⟩ := h
    refine ⟨rest, hfound, hrest, ?_⟩
    rw [hstack, List.map_cons]
    exact .seen (List.mem_map_of_mem hseen) hsearch
  · obtain ⟨rest, hfound, hrest, hsearch⟩ := h
    refine ⟨node :: rest, by simpa using hfound, List.forall_mem_cons.mpr ⟨hsize, hrest⟩, ?_⟩
    have hname : g.nameAt node ∉ s.discovered.map g.nameAt := by
      rw [List.mem_map]
      rintro ⟨other, hother, heq⟩
      rw [nameAt_inj hnodup (hs other hother) hsize] at heq
      exact hnew (heq ▸ hother)
    have hdiscovered : ∀ other ∈ node :: s.discovered, other < g.size :=
      List.forall_mem_cons.mpr ⟨hsize, hs⟩
    rw [hstack, List.map_cons, List.map_cons]
    refine .visit hname ?_
    rw [hnext node hsize, ← List.map_reverse, List.reverse_reverse, ← List.map_cons,
      pushUnvisited_map]
    · exact hsearch
    · intro target htarget other hother
      have htarget := (hg node target (mem_neighbors_iff.mp htarget)).2
      exact (nameAt_inj hnodup htarget (hdiscovered other hother)).mp

/-- The search finds, in the same order, what the search by names does. -/
theorem Closed.stackSearch_search {next : String → List String} (hg : g.Closed)
    (hnodup : g.names.Nodup)
    (hnext : ∀ node < g.size, next (g.nameAt node) = (g.neighbors node).reverse.map g.nameAt)
    {start : Nat} (hstart : start < g.size) :
    ∃ found, g.search ⟨[start], []⟩ = .ok found ∧ (∀ node ∈ found, node < g.size) ∧
      Declarations.StackSearch next [] [g.nameAt start] (found.map g.nameAt) := by
  have hwithin : g.Within ⟨[start], []⟩ := by
    simpa [Within] using hstart
  have hdiscovered {s s' : Search} (hturn : g.Next s' s)
      (hs : ∀ node ∈ s.discovered, node < g.size) : ∀ node ∈ s'.discovered, node < g.size := by
    obtain ⟨node, stack, -, hsize, ⟨-, rfl⟩ | ⟨-, rfl⟩⟩ := next_cases hturn
    · exact hs
    · exact List.forall_mem_cons.mpr ⟨hsize, hs⟩
  obtain ⟨found, hfound, hnames⟩ := hg.search_induction
    (motive := fun s found => (∀ node ∈ s.discovered, node < g.size) →
      g.FindsByName next s found)
    (fun s hstack _ => ⟨[], by simp, by simp, by simpa [hstack] using .nil⟩)
    (fun s s' found hturn ih hs => .of_next hg hnodup hnext hturn hs (ih (hdiscovered hturn hs)))
    hwithin
  obtain ⟨rest, rfl, hrest, hsearch⟩ := hnames (by simp)
  exact ⟨_, hfound, hrest, hsearch⟩

end NameGraph

end AuthorizedCalls
