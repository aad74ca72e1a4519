import AuthorizedCalls.Conformance
import Mathlib.Data.List.Nodup

namespace AuthorizedCalls

variable {α β γ : Type} {key : α → String} {xs : List α}

theorem mem_firstsBy_iff {x : α} :
    x ∈ firstsBy key xs ↔ (xs.find? fun y => key y = key x) = some x := by
  induction xs with
  | nil => simp [firstsBy]
  | cons y rest ih =>
      rw [firstsBy, List.mem_cons, List.mem_filter, ih]
      by_cases hkey : key y = key x
      · simp only [hkey, List.find?_cons, decide_true, Option.some.injEq]
        constructor
        · rintro (rfl | ⟨-, hne⟩)
          · rfl
          · simp at hne
        · intro h
          exact .inl h.symm
      · have hne : x ≠ y := by
          rintro rfl
          exact hkey rfl
        simp [hkey, hne, Ne.symm hkey]

theorem exists_mem_firstsBy_iff {k : String} :
    (∃ x ∈ firstsBy key xs, key x = k) ↔ ∃ x ∈ xs, key x = k := by
  constructor
  · rintro ⟨x, hx, hkey⟩
    exact ⟨x, mem_of_mem_firstsBy hx, hkey⟩
  · rintro ⟨x, hx, rfl⟩
    cases hfind : xs.find? fun y => key y = key x with
    | none => simpa using List.find?_eq_none.mp hfind x hx
    | some first =>
        have hkey : key first = key x := by simpa using List.find?_some hfind
        exact ⟨first, mem_firstsBy_iff.mpr (hkey ▸ hfind), hkey⟩

theorem nodup_map_firstsBy (key : α → String) (xs : List α) :
    ((firstsBy key xs).map key).Nodup := by
  induction xs with
  | nil => simp [firstsBy]
  | cons x rest ih =>
      rw [firstsBy, List.map_cons, List.nodup_cons]
      constructor
      · simp
      · exact ih.sublist (List.filter_sublist.map key)

theorem firstsBy_eq_self (h : (xs.map key).Nodup) : firstsBy key xs = xs := by
  induction xs with
  | nil => rfl
  | cons x rest ih =>
      rw [List.map_cons, List.nodup_cons] at h
      have hother : ∀ y ∈ rest, decide (key y ≠ key x) = true := by
        intro y hy
        rw [decide_eq_true_eq]
        intro hkey
        exact h.1 (hkey ▸ List.mem_map_of_mem hy)
      rw [firstsBy, ih h.2, List.filter_eq_self.mpr hother]

theorem find?_key_eq_some_iff (h : (xs.map key).Nodup) {k : String} {x : α} :
    (xs.find? fun y => key y = k) = some x ↔ x ∈ xs ∧ key x = k := by
  constructor
  · intro hfind
    exact ⟨List.mem_of_find?_eq_some hfind, by simpa using List.find?_some hfind⟩
  · rintro ⟨hx, rfl⟩
    rw [← mem_firstsBy_iff, firstsBy_eq_self h]
    exact hx

theorem find?_firstsBy (k : String) (xs : List α) :
    ((firstsBy key xs).find? fun x => key x = k) = xs.find? fun x => key x = k := by
  apply Option.ext
  intro x
  rw [find?_key_eq_some_iff (nodup_map_firstsBy key xs), mem_firstsBy_iff]
  constructor
  · rintro ⟨hx, rfl⟩
    exact hx
  · intro hx
    have hkey : key x = k := by simpa using List.find?_some hx
    exact ⟨hkey ▸ hx, hkey⟩

theorem filter_firstsBy (key : α → String) (k : String) (xs : List α) :
    (firstsBy key xs).filter (fun x => key x = k) = (xs.find? fun x => key x = k).toList := by
  induction xs with
  | nil => rfl
  | cons x rest ih =>
      rw [firstsBy, List.find?_cons]
      by_cases hx : key x = k
      · subst hx
        rw [List.filter_cons_of_pos (by simp), List.filter_filter, List.filter_eq_nil_iff.mpr]
        · simp
        · simp
      · have hsame : (fun y => decide (key y = k) && decide (key y ≠ key x)) =
            fun y => decide (key y = k) := by
          funext y
          by_cases hy : key y = k
          · simp [hy, Ne.symm hx]
          · simp [hy]
        rw [List.filter_cons_of_neg (by simpa using hx), List.filter_filter, hsame, ih]
        simp [hx]

theorem flatMap_firstsBy {k : String} {f : α → List β} (hother : ∀ x ∈ xs, key x ≠ k → f x = []) :
    (firstsBy key xs).flatMap f = (xs.find? fun x => key x = k).toList.flatMap f := by
  have hfilter (ys : List α) (hys : ∀ y ∈ ys, key y ≠ k → f y = []) :
      (ys.filter fun x => key x = k).flatMap f = ys.flatMap f := by
    induction ys with
    | nil => rfl
    | cons y rest ih =>
        rw [List.forall_mem_cons] at hys
        by_cases hy : key y = k
        · rw [List.filter_cons_of_pos (by simpa using hy), List.flatMap_cons, List.flatMap_cons,
            ih hys.2]
        · rw [List.filter_cons_of_neg (by simpa using hy), List.flatMap_cons, hys.1 hy, ih hys.2,
            List.nil_append]
  rw [← filter_firstsBy, hfilter]
  exact fun y hy => hother y (mem_of_mem_firstsBy hy)

theorem firstsBy_filter (key : α → String) (k : String) (xs : List α) :
    firstsBy key (xs.filter fun y => key y ≠ k) = (firstsBy key xs).filter fun y => key y ≠ k := by
  induction xs with
  | nil => rfl
  | cons x rest ih =>
      by_cases hx : key x = k
      · rw [firstsBy, List.filter_cons_of_neg (by simpa using hx),
          List.filter_cons_of_neg (by simpa using hx), ih, List.filter_filter]
        subst hx
        simp
      · rw [firstsBy, List.filter_cons_of_pos (by simpa using hx),
          List.filter_cons_of_pos (by simpa using hx), firstsBy, ih, List.filter_filter,
          List.filter_filter]
        simp only [Bool.and_comm]

theorem firstsBy_map (key : β → String) (f : α → β) (xs : List α) :
    firstsBy key (xs.map f) = (firstsBy (key ∘ f) xs).map f := by
  induction xs with
  | nil => rfl
  | cons x rest ih =>
      rw [List.map_cons, firstsBy, ih, List.filter_map]
      rfl

theorem firstsBy_eq_filter [DecidableEq α] (hnodup : xs.Nodup) :
    firstsBy key xs = xs.filter fun x => (xs.find? fun y => key y = key x) = some x := by
  induction xs with
  | nil => rfl
  | cons x rest ih =>
      obtain ⟨hx, hrest⟩ := List.nodup_cons.mp hnodup
      rw [firstsBy, ih hrest, List.filter_filter, List.filter_cons_of_pos (by simp)]
      congr 1
      apply List.filter_congr
      intro y hy
      have hne : x ≠ y := fun heq => hx (heq ▸ hy)
      by_cases hkey : key x = key y
      · simp [hkey, hne]
      · simp [hkey, Ne.symm hkey]

/-- Where the first item of a name settles it for good, later ones may be left out. -/
theorem foldl_firstsBy (key : α → String) {step : β → α → β} (settled : String → β → Prop)
    (hskip : ∀ b x, settled (key x) b → step b x = b) (hnew : ∀ b x, settled (key x) (step b x))
    (hkeep : ∀ b x k, settled k b → settled k (step b x)) (xs : List α) (b : β) :
    (firstsBy key xs).foldl step b = xs.foldl step b := by
  have hfilter (k : String) : ∀ (xs : List α) (b : β), settled k b →
      (xs.filter fun y => key y ≠ k).foldl step b = xs.foldl step b := by
    intro xs
    induction xs with
    | nil => exact fun _ _ => rfl
    | cons x rest ih =>
        intro b hb
        by_cases hx : key x = k
        · rw [List.filter_cons_of_neg (by simpa using hx), List.foldl_cons,
            hskip b x (hx ▸ hb), ih b hb]
        · rw [List.filter_cons_of_pos (by simpa using hx), List.foldl_cons, List.foldl_cons,
            ih _ (hkeep b x k hb)]
  induction xs generalizing b with
  | nil => rfl
  | cons x rest ih =>
      rw [firstsBy, List.foldl_cons, List.foldl_cons, hfilter (key x) _ _ (hnew b x), ih]

/-- The first items of names that are not seen yet. -/
def unseen (key : α → String) (seen : List String) : List α → List α
  | [] => []
  | x :: rest =>
    if key x ∈ seen then unseen key seen rest else x :: unseen key (key x :: seen) rest

theorem unseen_eq (key : α → String) (seen : List String) (xs : List α) :
    unseen key seen xs = (firstsBy key xs).filter fun x => key x ∉ seen := by
  induction xs generalizing seen with
  | nil => rfl
  | cons x rest ih =>
      rw [unseen, firstsBy]
      split
      · next hseen =>
          rw [ih, List.filter_cons_of_neg (by simpa using hseen), List.filter_filter]
          apply List.filter_congr
          intro y _
          have hother : key y ∉ seen → key y ≠ key x := by
            rintro hy heq
            exact hy (heq ▸ hseen)
          simpa using hother
      · next hnew =>
          rw [ih, List.filter_cons_of_pos (by simpa using hnew), List.filter_filter]
          congr 1
          apply List.filter_congr
          intro y _
          simp [Bool.and_comm]

theorem unseen_nil (key : α → String) (xs : List α) : unseen key [] xs = firstsBy key xs := by
  simp [unseen_eq]

theorem length_unseen_le (key : α → String) (seen : List String) (xs : List α) :
    (unseen key seen xs).length ≤ xs.length := by
  induction xs generalizing seen with
  | nil => exact Nat.le_refl 0
  | cons x rest ih =>
      rw [unseen]
      split
      · exact Nat.le_succ_of_le (ih seen)
      · exact Nat.succ_le_succ (ih _)

/-- Goes through items in order; those whose name is not new are taken by `later`. -/
def foldByName (key : α → String) (first later : β → α → β) (seen : List String) : List α → β → β
  | [], b => b
  | x :: rest, b =>
    if key x ∈ seen then foldByName key first later seen rest (later b x)
    else foldByName key first later (key x :: seen) rest (first b x)

section FoldByName

variable {first later : β → α → β}

theorem foldByName_induction {motive : β → Prop} (hfirst : ∀ b x, motive b → motive (first b x))
    (hlater : ∀ b x, motive b → motive (later b x)) (seen : List String) (xs : List α) {b : β}
    (hb : motive b) : motive (foldByName key first later seen xs b) := by
  induction xs generalizing seen b with
  | nil => exact hb
  | cons x rest ih =>
      rw [foldByName]
      split
      · exact ih seen (hlater b x hb)
      · exact ih _ (hfirst b x hb)

theorem apply_foldByName (f : β → γ) (first' later' : γ → α → γ)
    (hfirst : ∀ b x, f (first b x) = first' (f b) x)
    (hlater : ∀ b x, f (later b x) = later' (f b) x) (seen : List String) (xs : List α) (b : β) :
    f (foldByName key first later seen xs b) =
      foldByName key first' later' seen xs (f b) := by
  induction xs generalizing seen b with
  | nil => rfl
  | cons x rest ih =>
      rw [foldByName, foldByName]
      split
      · rw [ih, hlater]
      · rw [ih, hfirst]

theorem foldByName_map (f : γ → α) (seen : List String) (xs : List γ) (b : β) :
    foldByName key first later seen (xs.map f) b =
      foldByName (key ∘ f) (fun b x => first b (f x)) (fun b x => later b (f x)) seen xs b := by
  induction xs generalizing seen b with
  | nil => rfl
  | cons x rest ih =>
      rw [List.map_cons, foldByName, foldByName, ih, ih]
      rfl

theorem foldByName_eq_foldl (seen : List String) (xs : List α) (b : β) :
    foldByName key first (fun b _ => b) seen xs b = (unseen key seen xs).foldl first b := by
  induction xs generalizing seen b with
  | nil => rfl
  | cons x rest ih =>
      rw [foldByName, unseen]
      split
      · exact ih seen b
      · exact ih _ _

end FoldByName

namespace Declarations

variable {ds : Declarations}

theorem named?_eq_some_iff (h : (ds.map Declaration.name).Nodup) {name : String}
    {d : Declaration} : ds.named? name = some d ↔ d ∈ ds ∧ d.name = name :=
  find?_key_eq_some_iff h

theorem canonical_eq_self (h : (ds.map Declaration.name).Nodup) : ds.canonical = ds :=
  firstsBy_eq_self h

end Declarations

end AuthorizedCalls
