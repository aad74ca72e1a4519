import AuthorizedCalls.Proofs.MemberReading

namespace AuthorizedCalls.Json

namespace Fields

/-- The record is read from items in the order of its fields, and the fields behind the last item
have their defaults. -/
inductive ReadsItems (s : Setting) :
    {αs : List Type} → Fields αs → List Document → Values αs → Prop
  | nil : ReadsItems s nil [] ()
  | item {α : Type} {αs : List Type} {f : Field α} {rest : Fields αs} {d : Document}
      {items : List Document} {a : α} {as : Values αs} (hread : f.read s d = .ok a)
      (hrest : ReadsItems s rest items as) : ReadsItems s (cons f rest) (d :: items) (.cons a as)
  | absent {α : Type} {αs : List Type} {f : Field α} {rest : Fields αs} {a : α} {as : Values αs}
      (hdefault : f.default = some a) (hrest : ReadsItems s rest [] as) :
      ReadsItems s (cons f rest) [] (.cons a as)

section Cons

variable {α : Type} {αs : List Type} {f : Field α} {rest : Fields αs} {s : Setting}
  {d : Document} {items : List Document} {a : α} {as : Values αs}

theorem readsItems_item :
    (cons f rest).ReadsItems s (d :: items) (.cons a as) ↔
      f.read s d = .ok a ∧ rest.ReadsItems s items as := by
  constructor
  · intro h
    cases h with
    | item hread hrest => exact ⟨hread, hrest⟩
  · rintro ⟨hread, hrest⟩
    exact .item hread hrest

theorem readsItems_absent :
    (cons f rest).ReadsItems s [] (.cons a as) ↔
      f.default = some a ∧ rest.ReadsItems s [] as := by
  constructor
  · intro h
    cases h with
    | absent hdefault hrest => exact ⟨hdefault, hrest⟩
  · rintro ⟨hdefault, hrest⟩
    exact .absent hdefault hrest

theorem ofItems_item_eq_ok_iff {wanted : WantedLength} {done : Nat} :
    (cons f rest).ofItems s wanted done (d :: items) none = .ok (.cons a as) ↔
      f.read s d = .ok a ∧ rest.ofItems s wanted (done + 1) items none = .ok as := by
  have hitems : (cons f rest).ofItems s wanted done (d :: items) none =
      (f.read s d).bind fun v =>
        (rest.ofItems s wanted (done + 1) items none).bind fun vs => .ok (.cons v vs) := rfl
  rw [hitems]
  cases f.read s d with
  | error fault => simp [Except.bind]
  | ok v =>
      rw [Except.ok.injEq]
      exact Values.bind_cons_eq_ok_iff

theorem ofItems_absent_eq_ok_iff {wanted : WantedLength} {done : Nat} :
    (cons f rest).ofItems s wanted done [] none = .ok (.cons a as) ↔
      f.default = some a ∧ rest.ofItems s wanted (done + 1) [] none = .ok as := by
  rw [ofItems]
  cases f.default with
  | none => simp [ending, bind, Except.bind]
  | some v =>
      rw [Option.some.injEq]
      exact Values.bind_cons_eq_ok_iff

end Cons

section Items

variable {αs : List Type} {fields : Fields αs} {as : Values αs} {s : Setting}
  {items : List Document} {members : List (Document × Document)}

theorem ofItems_eq_ok_iff {wanted : WantedLength} {done : Nat} :
    fields.ofItems s wanted done items none = .ok as ↔ fields.ReadsItems s items as := by
  induction fields generalizing items done with
  | nil =>
      cases items with
      | nil => exact ⟨fun _ => .nil, fun _ => rfl⟩
      | cons d items =>
          refine ⟨fun h => ?_, nofun⟩
          rw [ofItems.eq_def] at h
          dsimp only at h
          split at h <;> contradiction
  | @cons α αs f rest ih =>
      obtain ⟨a, as, rfl⟩ := as.exists_eq_cons
      cases items with
      | nil => rw [ofItems_absent_eq_ok_iff, ih, readsItems_absent]
      | cons d items => rw [ofItems_item_eq_ok_iff, ih, readsItems_item]

theorem ReadsItems.length_le (h : fields.ReadsItems s items as) :
    items.length ≤ fields.names.length := by
  induction h with
  | nil => exact Nat.le_refl 0
  | item _ _ ih => exact Nat.succ_le_succ ih
  | absent _ _ _ => exact Nat.zero_le _

end Items

end Fields

/-- The members carry the items under names of the list, from the first name on. -/
inductive Labelled : List String → List Document → List (Document × Document) → Prop
  | done {names : List String} : Labelled names [] []
  | more {name : String} {names : List String} {items : List Document} {m : Document × Document}
      {members : List (Document × Document)} (hname : m.1.memberName = .ok name)
      (hrest : Labelled names items members) :
      Labelled (name :: names) (m.2 :: items) (m :: members)

namespace Labelled

theorem exists_name {names : List String} {items : List Document}
    {members : List (Document × Document)} (h : Labelled names items members) :
    ∀ m ∈ members, ∃ name ∈ names, m.1.memberName = .ok name := by
  induction h with
  | done => exact List.forall_mem_nil _
  | more hname _ ih =>
      refine List.forall_mem_cons.mpr ⟨⟨_, List.mem_cons_self, hname⟩, fun m hm => ?_⟩
      obtain ⟨name, hmem, hm⟩ := ih m hm
      exact ⟨name, List.mem_cons_of_mem _ hmem, hm⟩

theorem items_eq {names : List String} {items : List Document}
    {members : List (Document × Document)} (h : Labelled names items members) :
    items = members.map Prod.snd := by
  induction h with
  | done => rfl
  | more _ _ ih => rw [List.map_cons, ← ih]

theorem memberName_ne {names : List String} {items : List Document}
    {members : List (Document × Document)} (h : Labelled names items members) {name : String}
    (hfresh : name ∉ names) : ∀ m ∈ members, m.1.memberName ≠ .ok name := by
  intro m hm heq
  obtain ⟨other, hmem, hother⟩ := h.exists_name m hm
  rw [hother, Except.ok.injEq] at heq
  exact hfresh (heq ▸ hmem)

variable {αs : List Type} {fields : Fields αs} {as : Values αs} {s : Setting}
  {items : List Document} {members : List (Document × Document)}

theorem passes (h : Labelled fields.names items members) : ∀ m ∈ members, fields.Passes m := by
  intro m hm
  obtain ⟨name, hmem, hname⟩ := h.exists_name m hm
  exact ⟨name, hname, fun hfresh => absurd hmem hfresh⟩

/-- What is read by name from the members is read by place from the items. -/
theorem reads_iff (hnames : fields.names.Nodup)
    (h : Labelled fields.names items members) :
    fields.Reads s members as ↔ fields.ReadsItems s items as := by
  induction fields generalizing items members with
  | nil =>
      cases h
      exact ⟨fun h => by cases h; exact .nil, fun h => by cases h; exact .nil⟩
  | @cons α αs f rest ih =>
      obtain ⟨hfresh, hnames⟩ := List.nodup_cons.mp hnames
      obtain ⟨a, as, rfl⟩ := as.exists_eq_cons
      rw [Fields.reads_cons]
      cases h with
      | done =>
          rw [Field.reads_iff_of_none rfl, ih hnames .done, Fields.readsItems_absent]
      | @more _ _ items m members hname h =>
          have hone : valuesOf f.name (m :: members) = [m.2] := by
            rw [valuesOf_cons_of_eq hname, valuesOf_eq_nil_iff.mpr (h.memberName_ne hfresh)]
          have hother : ∀ other ∈ rest.names, m.1.memberName ≠ .ok other := by
            intro other hmem heq
            rw [hname, Except.ok.injEq] at heq
            exact hfresh (heq ▸ hmem)
          rw [Field.reads_iff_of_one hone, Fields.reads_cons_iff hother, ih hnames h,
            Fields.readsItems_item]

theorem readsObject_iff (hnames : fields.names.Nodup) (h : Labelled fields.names items members) :
    fields.ReadsObject s members as ↔ fields.ReadsItems s items as := by
  rw [← h.reads_iff hnames]
  exact ⟨Fields.ReadsObject.reads, fun hreads => ⟨h.passes, hreads⟩⟩

end Labelled

namespace Reader

section Record

variable {αs : List Type} {β : Type} {fields : Fields αs} {make : Maker β αs} {name : String}
  {s : Setting} {b : β}

theorem map_ofItems_eq_ok_iff {items : List Document} {wanted : WantedLength} {done : Nat} :
    (fields.ofItems s wanted done items none).map make.apply = .ok b ↔
      ∃ as, fields.ReadsItems s items as ∧ make.apply as = b := by
  constructor
  · intro h
    obtain ⟨as, hitems, hmake⟩ := map_eq_ok h
    exact ⟨as, Fields.ofItems_eq_ok_iff.mp hitems, hmake⟩
  · rintro ⟨as, hreads, rfl⟩
    rw [Fields.ofItems_eq_ok_iff.mpr hreads]
    rfl

theorem record_array_eq_ok_iff {items : List Document} :
    record name fields make s (.array items none) = .ok b ↔
      ∃ as, fields.ReadsItems s.inner items as ∧ make.apply as = b :=
  map_ofItems_eq_ok_iff

end Record

theorem tagged_array_eq_ok_iff {β : Type} {name tag : String} {known : List (String × Case β)}
    {s : Setting} {first : Document} {items : List Document} {b : β} :
    tagged name tag known s (.array (first :: items) none) = .ok b ↔
      (∀ d ∈ items, d.collect s.inner.room = .ok ()) ∧
        ∃ c, selected known first = .ok c ∧
          c.ofItems { s.inner with collected := true } items = .ok b := by
  have htagged : tagged name tag known s (.array (first :: items) none) =
      (selected known first).bind fun c =>
        (Document.collectItems s.inner.room items).bind fun _ =>
          c.ofItems { s.inner with collected := true } items := rfl
  rw [htagged, ← Document.collectItems_eq_ok_iff]
  constructor
  · intro h
    obtain ⟨c, hselected, h⟩ := bind_eq_ok h
    obtain ⟨_, hcollect, h⟩ := bind_eq_ok h
    exact ⟨hcollect, c, hselected, h⟩
  · rintro ⟨hcollect, c, hselected, h⟩
    rw [hselected, Except.bind, hcollect]
    exact h

end Reader

end AuthorizedCalls.Json
