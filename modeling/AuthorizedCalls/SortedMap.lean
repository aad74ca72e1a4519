namespace AuthorizedCalls

structure SortedMap (β : Type) where
  entries : List (String × β)
  sorted : entries.Pairwise (fun a b => a.1 < b.1) := by exact .nil

namespace SortedMap

variable {β : Type}

instance [DecidableEq β] : DecidableEq (SortedMap β) := fun a b =>
  decidable_of_iff (a.entries = b.entries)
    ⟨fun h => by cases a; cases b; simp_all, fun h => h ▸ rfl⟩

def empty : SortedMap β := ⟨[], .nil⟩

def find? (m : SortedMap β) (key : String) : Option β :=
  m.entries.lookup key

def contains (m : SortedMap β) (key : String) : Bool :=
  (m.find? key).isSome

def keys (m : SortedMap β) : List String :=
  m.entries.map (·.1)

def values (m : SortedMap β) : List β :=
  m.entries.map (·.2)

def size (m : SortedMap β) : Nat :=
  m.entries.length

def isEmpty (m : SortedMap β) : Bool :=
  m.entries.isEmpty

private def insertEntry (key : String) (value : β) : List (String × β) → List (String × β)
  | [] => [(key, value)]
  | (k, v) :: rest =>
    if key < k then (key, value) :: (k, v) :: rest
    else if key = k then (key, value) :: rest
    else (k, v) :: insertEntry key value rest

private theorem lt_of_not_lt_of_ne {a b : String} (h : ¬ a < b) (hne : a ≠ b) : b < a := by
  by_cases hlt : b < a
  · exact hlt
  · exact absurd (String.le_antisymm (String.not_lt.mp hlt) (String.not_lt.mp h)) hne

private theorem mem_insertEntry {key : String} {value : β} {e : String × β}
    {entries : List (String × β)} (h : e ∈ insertEntry key value entries) :
    e = (key, value) ∨ e ∈ entries := by
  induction entries with
  | nil => simpa [insertEntry] using h
  | cons head rest ih =>
      simp only [insertEntry] at h
      split at h
      · simpa using h
      · split at h
        · simp_all
          grind
        · simp only [List.mem_cons] at h ⊢
          grind

private theorem sorted_insertEntry (key : String) (value : β) {entries : List (String × β)}
    (h : entries.Pairwise (fun a b => a.1 < b.1)) :
    (insertEntry key value entries).Pairwise (fun a b => a.1 < b.1) := by
  induction entries with
  | nil => simp [insertEntry]
  | cons head rest ih =>
      obtain ⟨hhead, hrest⟩ := List.pairwise_cons.mp h
      simp only [insertEntry]
      split
      · next hlt =>
          refine List.pairwise_cons.mpr ⟨fun e he => ?_, h⟩
          rcases List.mem_cons.mp he with rfl | he
          · exact hlt
          · exact String.lt_trans hlt (hhead e he)
      · next hlt =>
          split
          · next heq => exact List.pairwise_cons.mpr ⟨fun e he => heq ▸ hhead e he, hrest⟩
          · next hne =>
              refine List.pairwise_cons.mpr ⟨fun e he => ?_, ih hrest⟩
              rcases mem_insertEntry he with rfl | he
              · exact lt_of_not_lt_of_ne hlt hne
              · exact hhead e he

/-- Maps the key to the value, whatever it was mapped to before. -/
def insert (m : SortedMap β) (key : String) (value : β) : SortedMap β :=
  ⟨insertEntry key value m.entries, sorted_insertEntry key value m.sorted⟩

def filterKeys (m : SortedMap β) (p : String → Bool) : SortedMap β :=
  ⟨m.entries.filter fun e => p e.1, m.sorted.filter _⟩

@[simp] theorem find?_empty (key : String) : (empty : SortedMap β).find? key = none :=
  rfl

private theorem lookup_eq_none {entries : List (String × β)} {key : String}
    (h : ∀ e ∈ entries, key < e.1) : entries.lookup key = none := by
  induction entries with
  | nil => rfl
  | cons head rest ih =>
      have hne : (key == head.1) = false := by
        have := h head (by simp)
        simp only [beq_eq_false_iff_ne]
        exact fun e => String.lt_irrefl _ (e ▸ this)
      rw [List.lookup_cons, hne]
      exact ih fun e he => h e (by simp [he])

private theorem lookup_insertEntry (key k : String) (value : β) (entries : List (String × β)) :
    (insertEntry key value entries).lookup k =
      if k = key then some value else entries.lookup k := by
  induction entries with
  | nil => by_cases h : k = key <;> simp [insertEntry, List.lookup_cons, h, beq_eq_false_iff_ne.mpr]
  | cons head rest ih =>
      obtain ⟨k', v'⟩ := head
      simp only [insertEntry]
      split
      · by_cases h : k = key <;> simp [List.lookup_cons, h, beq_eq_false_iff_ne.mpr]
      · split
        · next heq =>
            subst heq
            by_cases h : k = key <;> simp [List.lookup_cons, h, beq_eq_false_iff_ne.mpr]
        · next hne =>
            rw [List.lookup_cons, List.lookup_cons, ih]
            by_cases hk : k = key
            · subst hk; simp [beq_eq_false_iff_ne.mpr hne]
            · simp [hk]

theorem find?_insert (m : SortedMap β) (key k : String) (value : β) :
    (m.insert key value).find? k = if k = key then some value else m.find? k :=
  lookup_insertEntry key k value m.entries

private theorem lookup_filterKeys (entries : List (String × β)) (p : String → Bool) (k : String) :
    (entries.filter fun e => p e.1).lookup k = if p k then entries.lookup k else none := by
  induction entries with
  | nil => simp
  | cons head rest ih =>
      obtain ⟨k', v'⟩ := head
      by_cases hk : k = k'
      · subst hk
        by_cases hp : p k <;> simp [hp, ih]
      · by_cases hp : p k' <;>
          simp [List.lookup_cons, hp, beq_eq_false_iff_ne.mpr hk, ih]

theorem find?_filterKeys (m : SortedMap β) (p : String → Bool) (k : String) :
    (m.filterKeys p).find? k = if p k then m.find? k else none :=
  lookup_filterKeys m.entries p k

private theorem eq_of_lookup_eq {a b : List (String × β)}
    (ha : a.Pairwise (fun x y => x.1 < y.1)) (hb : b.Pairwise (fun x y => x.1 < y.1))
    (h : ∀ k, a.lookup k = b.lookup k) : a = b := by
  induction a generalizing b with
  | nil =>
      rcases b with _ | ⟨⟨k, v⟩, _⟩
      · rfl
      · simpa using h k
  | cons x as ih =>
      obtain ⟨kx, vx⟩ := x
      rcases b with _ | ⟨⟨ky, vy⟩, bs⟩
      · simpa using h kx
      · obtain ⟨hx, has⟩ := List.pairwise_cons.mp ha
        obtain ⟨hy, hbs⟩ := List.pairwise_cons.mp hb
        have hkey : kx = ky := by
          by_cases hne : kx = ky
          · exact hne
          · by_cases hlt : kx < ky
            · have hnone := lookup_eq_none fun e he => String.lt_trans hlt (hy e he)
              have := h kx
              simp [List.lookup_cons, beq_eq_false_iff_ne.mpr hne, hnone] at this
            · have hlt' := lt_of_not_lt_of_ne hlt hne
              have hnone := lookup_eq_none fun e he => String.lt_trans hlt' (hx e he)
              have := h ky
              simp [List.lookup_cons, beq_eq_false_iff_ne.mpr (Ne.symm hne), hnone] at this
        subst hkey
        have hvalue : vx = vy := by simpa using h kx
        subst hvalue
        congr 1
        refine ih has hbs fun k => ?_
        by_cases hk : k = kx
        · subst hk
          rw [lookup_eq_none hx, lookup_eq_none hy]
        · have := h k
          simpa [List.lookup_cons, beq_eq_false_iff_ne.mpr hk] using this

private theorem lookup_eq_some_of_mem {entries : List (String × β)}
    (hsorted : entries.Pairwise (fun a b => a.1 < b.1)) {key : String} {value : β}
    (h : (key, value) ∈ entries) : entries.lookup key = some value := by
  induction entries with
  | nil => contradiction
  | cons head rest ih =>
      obtain ⟨hhead, hrest⟩ := List.pairwise_cons.mp hsorted
      rcases List.mem_cons.mp h with rfl | h
      · simp
      · have hne : (key == head.1) = false := by
          rw [beq_eq_false_iff_ne]
          rintro rfl
          exact String.lt_irrefl _ (hhead (head.1, value) h)
        rw [List.lookup_cons, hne]
        exact ih hrest h

theorem exists_find?_of_mem_values {m : SortedMap β} {value : β} (h : value ∈ m.values) :
    ∃ key, m.find? key = some value := by
  obtain ⟨⟨key, _⟩, hmem, rfl⟩ := List.mem_map.mp h
  exact ⟨key, lookup_eq_some_of_mem m.sorted hmem⟩

theorem ext_find? {a b : SortedMap β} (h : ∀ k, a.find? k = b.find? k) : a = b := by
  have := eq_of_lookup_eq a.sorted b.sorted h
  cases a; cases b; simp_all

end SortedMap

/-- A finite set of strings, listed in ascending order. -/
abbrev NameSet := SortedMap Unit

end AuthorizedCalls
