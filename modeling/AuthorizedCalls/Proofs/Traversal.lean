import AuthorizedCalls.Proofs.FirstOfName
import Mathlib.Logic.Relation

namespace AuthorizedCalls

namespace Declarations

theorem mem_canonical_iff {ds : Declarations} {d : Declaration} :
    d ∈ ds.canonical ↔ ds.named? d.name = some d :=
  mem_firstsBy_iff

theorem mem_names_of_named? {ds : Declarations} {name : String} {d : Declaration}
    (h : ds.named? name = some d) : name ∈ ds.names := by
  have hname : d.name = name := by simpa using List.find?_some h
  exact List.mem_map.mpr ⟨d, mem_canonical_iff.mpr (hname ▸ h), hname⟩

theorem nodup_names (ds : Declarations) : ds.names.Nodup :=
  nodup_map_firstsBy Declaration.name ds

/-- One step of conformance: from the declaration of one name to that of a written target, which
is an interface. -/
def Extends (ds : Declarations) (name target : String) : Prop :=
  ∃ d i, ds.named? name = some d ∧ target ∈ d.conforms ∧
    ds.named? target = some i ∧ i.kind = .interface

/-- One or more steps of conformance, through whatever is on the way. -/
def ConformsTo (ds : Declarations) : String → String → Prop :=
  Relation.TransGen ds.Extends

theorem ConformsTo.exists_declaration {ds : Declarations} {name target : String}
    (h : ds.ConformsTo name target) : ∃ d, ds.named? name = some d := by
  obtain ⟨_, ⟨d, _, hd, _⟩, -⟩ := Relation.TransGen.head'_iff.mp h
  exact ⟨d, hd⟩

theorem ConformsTo.exists_interface {ds : Declarations} {name target : String}
    (h : ds.ConformsTo name target) :
    ∃ i, ds.named? target = some i ∧ i.kind = .interface := by
  obtain ⟨_, -, _, i, _, _, hi, hkind⟩ := Relation.TransGen.tail'_iff.mp h
  exact ⟨i, hi, hkind⟩

theorem mem_parents_iff {ds : Declarations} {name target : String} :
    target ∈ ds.parents name ↔ ds.Extends name target := by
  rw [parents, Extends]
  cases ds.named? name with
  | none => simp
  | some d =>
      simp only [List.mem_filter, declaresInterface, Option.any_eq_true, Declaration.isInterface,
        beq_iff_eq, Option.some.injEq]
      constructor
      · rintro ⟨hwritten, i, hi, hkind⟩
        exact ⟨d, i, rfl, hwritten, hi, hkind⟩
      · rintro ⟨d', i, rfl, hwritten, hi, hkind⟩
        exact ⟨hwritten, i, hi, hkind⟩

/-- A way from one name to another along `next` that stays among the given names. -/
inductive Path (next : String → List String) (within : List String) : String → String → Prop
  | here {a : String} : a ∈ within → Path next within a a
  | step {a b c : String} : a ∈ within → b ∈ next a → Path next within b c → Path next within a c

namespace Path

variable {next : String → List String} {within : List String}

theorem mem_left {a b : String} (h : Path next within a b) : a ∈ within := by
  cases h with
  | here hmem => exact hmem
  | step hmem _ _ => exact hmem

theorem mem_right {a b : String} (h : Path next within a b) : b ∈ within := by
  induction h with
  | here hmem => exact hmem
  | step _ _ _ ih => exact ih

theorem mono {others : List String} (hsub : within ⊆ others) {a b : String}
    (h : Path next within a b) : Path next others a b := by
  induction h with
  | here hmem => exact .here (hsub hmem)
  | step hmem hnext _ ih => exact .step (hsub hmem) hnext ih

/-- A way to another name avoids `name`, or does so after its last visit there. -/
theorem avoid {name a b : String} (h : Path next within a b) (hb : b ≠ name) :
    (a ≠ name ∧ Path next (within.erase name) a b) ∨
      ∃ s ∈ next name, Path next (within.erase name) s b := by
  induction h with
  | here hmem => exact .inl ⟨hb, .here ((List.mem_erase_of_ne hb).mpr hmem)⟩
  | @step a s b hmem hnext _ ih =>
      rcases ih hb with ⟨-, hrest⟩ | hrest
      · by_cases ha : a = name
        · subst ha
          exact .inr ⟨s, hnext, hrest⟩
        · exact .inl ⟨ha, .step ((List.mem_erase_of_ne ha).mpr hmem) hnext hrest⟩
      · exact .inr hrest

end Path

theorem mem_walk_iff {next : String → List String} {unvisited stack : List String}
    {name : String} :
    name ∈ walk next unvisited stack ↔ ∃ s ∈ stack, Path next unvisited s name := by
  fun_induction walk next unvisited stack with
  | case1 => simp
  | case2 unvisited first stack hmem ih =>
      rw [List.mem_cons, ih]
      constructor
      · rintro (rfl | ⟨s, hs, hpath⟩)
        · exact ⟨name, by simp, .here hmem⟩
        · have hpath := hpath.mono List.erase_subset
          rcases List.mem_append.mp hs with hs | hs
          · exact ⟨first, by simp, .step hmem hs hpath⟩
          · exact ⟨s, by simp [hs], hpath⟩
      · rintro ⟨s, hs, hpath⟩
        by_cases hname : name = first
        · exact .inl hname
        · right
          rcases hpath.avoid hname with ⟨hne, hrest⟩ | ⟨s', hs', hrest⟩
          · have hs := (List.mem_cons.mp hs).resolve_left hne
            exact ⟨s, by simp [hs], hrest⟩
          · exact ⟨s', by simp [hs'], hrest⟩
  | case3 unvisited first stack hmem ih =>
      rw [ih]
      constructor
      · rintro ⟨s, hs, hpath⟩
        exact ⟨s, by simp [hs], hpath⟩
      · rintro ⟨s, hs, hpath⟩
        rcases List.mem_cons.mp hs with rfl | hs
        · exact absurd hpath.mem_left hmem
        · exact ⟨s, hs, hpath⟩

theorem Path.conformsTo {ds : Declarations} {within : List String} {name s target : String}
    (hs : s ∈ ds.parents name) (h : Path ds.parents within s target) :
    ds.ConformsTo name target := by
  induction h generalizing name with
  | here _ => exact .single (mem_parents_iff.mp hs)
  | step _ hnext _ ih => exact .head (mem_parents_iff.mp hs) (ih hnext)

theorem ConformsTo.path {ds : Declarations} {name target : String}
    (h : ds.ConformsTo name target) : Path ds.parents ds.names name target := by
  have hstep : ∀ {a b : String}, ds.Extends a b → a ∈ ds.names ∧ b ∈ ds.names := by
    rintro a b ⟨d, i, hd, -, hi, -⟩
    exact ⟨mem_names_of_named? hd, mem_names_of_named? hi⟩
  induction h using Relation.TransGen.head_induction_on with
  | single h =>
      exact .step (hstep h).1 (mem_parents_iff.mpr h) (.here (hstep h).2)
  | head h _ ih => exact .step (hstep h).1 (mem_parents_iff.mpr h) ih

theorem mem_above_iff {ds : Declarations} {name target : String} :
    target ∈ ds.above name ↔ ds.ConformsTo name target ∧ target ≠ name := by
  rw [above, mem_walk_iff]
  constructor
  · rintro ⟨s, hs, hpath⟩
    exact ⟨hpath.conformsTo hs, ((ds.nodup_names.mem_erase_iff).mp hpath.mem_right).1⟩
  · rintro ⟨hconforms, hne⟩
    rcases hconforms.path.avoid hne with ⟨hname, -⟩ | havoid
    · exact absurd rfl hname
    · exact havoid

/-- Names stand for the same kinds of declarations, which are written to conform to the same. -/
structure SameShape (ds ds' : Declarations) : Prop where
  names : ds.names = ds'.names
  shape : ∀ name, (ds.named? name).map (fun d => (d.kind, d.conforms)) =
    (ds'.named? name).map fun d => (d.kind, d.conforms)

namespace SameShape

variable {ds ds' : Declarations}

theorem declaresInterface_eq (h : ds.SameShape ds') :
    ds.declaresInterface = ds'.declaresInterface := by
  funext name
  have hany (d? : Option Declaration) : d?.any Declaration.isInterface =
      (d?.map fun d => (d.kind, d.conforms)).any fun shape => shape.1 == .interface := by
    rw [Option.any_map]
    rfl
  rw [declaresInterface, declaresInterface, hany, hany, h.shape]

theorem parents_eq (h : ds.SameShape ds') : ds.parents = ds'.parents := by
  funext name
  have hshape := h.shape name
  rw [parents, parents, h.declaresInterface_eq]
  cases hd : ds.named? name with
  | none =>
      rw [hd, Option.map_none, eq_comm, Option.map_eq_none_iff] at hshape
      rw [hshape]
  | some d =>
      rw [hd, Option.map_some, eq_comm] at hshape
      obtain ⟨d', hd', heq⟩ := Option.map_eq_some_iff.mp hshape
      rw [hd']
      exact congrArg (fun shape => shape.2.filter ds'.declaresInterface) heq.symm

theorem above_eq (h : ds.SameShape ds') : ds.above = ds'.above := by
  funext name
  rw [above, above, h.parents_eq, h.names]

theorem cycles_eq (h : ds.SameShape ds') : ds.cycles = ds'.cycles := by
  have hreachable : ds.reachable = ds'.reachable := by
    funext name
    rw [reachable, reachable, h.parents_eq, h.names]
  rw [cycles, cycles, hreachable, h.names]

end SameShape

end Declarations

end AuthorizedCalls
