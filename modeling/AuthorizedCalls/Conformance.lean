import AuthorizedCalls.Program

/-!
Conformance between declarations. Of several declarations with one name only the first counts.
Its targets that name a declared interface are its parents; following parents gives the
interfaces that it conforms to, and names that reach each other form the cycles.
-/

namespace AuthorizedCalls

/-- Keeps of every run of items with one key the first. -/
def firstsBy {α : Type} (key : α → String) : List α → List α
  | [] => []
  | x :: rest => x :: (firstsBy key rest).filter fun y => key y ≠ key x

theorem mem_of_mem_firstsBy {α : Type} {key : α → String} {x : α} {xs : List α}
    (h : x ∈ firstsBy key xs) : x ∈ xs := by
  induction xs with
  | nil => simp [firstsBy] at h
  | cons y rest ih =>
      simp only [firstsBy, List.mem_cons, List.mem_filter] at h ⊢
      exact h.imp id fun h => ih h.1

abbrev Declarations := List Declaration

namespace Declarations

/-- The declaration that a name stands for: the first of that name. -/
def named? (ds : Declarations) (name : String) : Option Declaration :=
  ds.find? fun d => d.name = name

def canonical (ds : Declarations) : Declarations :=
  firstsBy Declaration.name ds

def names (ds : Declarations) : List String :=
  ds.canonical.map Declaration.name

def declaresInterface (ds : Declarations) (name : String) : Bool :=
  (ds.named? name).any Declaration.isInterface

/-- The declared interfaces among the targets of a name, in written order. -/
def parents (ds : Declarations) (name : String) : List String :=
  match ds.named? name with
  | none => []
  | some d => d.conforms.filter ds.declaresInterface

/-- Depth-first order of what can be reached from the names on a stack through names not yet
visited. A name is visited when it comes off the stack, and its successors go onto the stack in
written order, so the one written first is followed first. -/
def walk (next : String → List String) (unvisited stack : List String) : List String :=
  match stack with
  | [] => []
  | name :: stack =>
    if name ∈ unvisited then
      name :: walk next (unvisited.erase name) (next name ++ stack)
    else
      walk next unvisited stack
termination_by (unvisited.length, stack.length)
decreasing_by
  · next h =>
      have hpos := List.length_pos_of_mem h
      exact Prod.Lex.left _ _ (List.length_erase_of_mem h ▸ Nat.sub_lt hpos Nat.one_pos)
  · exact Prod.Lex.right _ (Nat.lt_succ_self _)

def reachable (ds : Declarations) (name : String) : List String :=
  walk ds.parents ds.names (ds.parents name)

/-- The interfaces that a declaration is compared with, in depth-first order, itself left out. -/
def above (ds : Declarations) (name : String) : List String :=
  walk ds.parents (ds.names.erase name) (ds.parents name)

/-- The groups of names that reach each other and themselves. Each group is in ascending order
and the groups are in the order of their least members. -/
def cycles (ds : Declarations) : List (List String) :=
  let reach := ds.names.map fun name => (name, ds.reachable name)
  let onCycle := (reach.filter fun r => r.1 ∈ r.2).mergeSort fun a b => !decide (b.1 < a.1)
  onCycle.filterMap fun r =>
    let group := (onCycle.filter fun other => other.1 ∈ r.2 && r.1 ∈ other.2).map (·.1)
    if group.head? = some r.1 then some group else none

end Declarations

end AuthorizedCalls
