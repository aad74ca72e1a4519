import AuthorizedCalls.Json.Reader
import AuthorizedCalls.Proofs.Literals

/-!
What readers take from the members of an object, without the order in which they take it. A record
takes for each of its fields the one value that a member of its name carries, or the default where
there is none, and passes over everything else (`Fields.ofMembers_eq_ok_iff`). A tagged value takes
the one value of its tag, collects every other, and reads the other members as the tag says
(`Reader.tagged_object_eq_ok_iff`).
-/

namespace AuthorizedCalls.Json

namespace Document

theorem isNamed_iff {d : Document} {name : String} :
    d.isNamed name = true ↔ d.memberName = .ok name := by
  cases d with
  | string literal =>
      obtain ⟨text, flaw⟩ := literal
      cases text with
      | error flaw => exact ⟨nofun, nofun⟩
      | ok s => simp [isNamed, memberName, ofForm, Except.mapError]
  | _ => exact ⟨nofun, nofun⟩

theorem isNamed_of_error {d : Document} {fault : Fault} (h : d.memberName = .error fault)
    (name : String) : d.isNamed name = false := by
  rw [← Bool.not_eq_true, isNamed_iff, h]
  exact nofun

theorem isNamed_of_memberName {d : Document} {other : String} (h : d.memberName = .ok other)
    (name : String) : d.isNamed name = decide (other = name) := by
  rw [Bool.eq_iff_iff, isNamed_iff, h, Except.ok.injEq, decide_eq_true_eq]

end Document

/-- The values that members of a name carry, in the order of the text. -/
def valuesOf (name : String) (members : List (Document × Document)) : List Document :=
  (members.filter fun m => m.1.isNamed name).map Prod.snd

section ValuesOf

variable {name : String} {m : Document × Document} {members others : List (Document × Document)}

theorem valuesOf_cons_of_eq (h : m.1.memberName = .ok name) :
    valuesOf name (m :: members) = m.2 :: valuesOf name members := by
  simp [valuesOf, Document.isNamed_iff.mpr h]

theorem valuesOf_cons_of_ne (h : m.1.memberName ≠ .ok name) :
    valuesOf name (m :: members) = valuesOf name members := by
  have hname : m.1.isNamed name = false := by
    rw [← Bool.not_eq_true, Document.isNamed_iff]
    exact h
  simp [valuesOf, hname]

theorem valuesOf_append :
    valuesOf name (members ++ others) = valuesOf name members ++ valuesOf name others := by
  rw [valuesOf, List.filter_append, List.map_append]
  rfl

theorem valuesOf_eq_nil_iff :
    valuesOf name members = [] ↔ ∀ m ∈ members, m.1.memberName ≠ .ok name := by
  simp [valuesOf, Document.isNamed_iff]

theorem mem_valuesOf (hmem : m ∈ members) (hm : m.1.memberName = .ok name) :
    m.2 ∈ valuesOf name members :=
  List.mem_map_of_mem (List.mem_filter.mpr ⟨hmem, Document.isNamed_iff.mpr hm⟩)

theorem valuesOf_perm (h : members.Perm others) (name : String) :
    (valuesOf name members).Perm (valuesOf name others) :=
  (h.filter _).map _

theorem valuesOf_perm_of_ne (hm : m.1.memberName = .ok name) (hperm : members.Perm (m :: others))
    {other : String} (hother : other ≠ name) :
    (valuesOf other members).Perm (valuesOf other others) := by
  have hne : m.1.memberName ≠ .ok other := by
    rw [hm, ne_eq, Except.ok.injEq]
    exact hother.symm
  have hvalues := valuesOf_perm hperm other
  rwa [valuesOf_cons_of_ne hne] at hvalues

theorem valuesOf_perm_cons (hm : m.1.memberName = .ok name) (hperm : members.Perm (m :: others)) :
    (valuesOf name members).Perm (m.2 :: valuesOf name others) := by
  have hvalues := valuesOf_perm hperm name
  rwa [valuesOf_cons_of_eq hm] at hvalues

theorem one_lt_length_valuesOf {m' : Document × Document} (hmem : m ∈ members)
    (hm : m.1.memberName = .ok name) (hm' : m'.1.memberName = .ok name)
    (hperm : others.Perm (m' :: members)) :
    1 < (valuesOf name others).length := by
  rw [(valuesOf_perm_cons hm' hperm).length_eq, List.length_cons]
  exact Nat.succ_lt_succ (List.length_pos_of_mem (mem_valuesOf hmem hm))

theorem valuesOf_filter {other : String} (h : name ≠ other) :
    valuesOf name (members.filter fun m => !m.1.isNamed other) = valuesOf name members := by
  rw [valuesOf, List.filter_filter, valuesOf]
  congr 1
  apply List.filter_congr
  intro m _
  cases hname : m.1.isNamed name with
  | false => rfl
  | true => simp [Document.isNamed_of_memberName (Document.isNamed_iff.mp hname), h]

theorem filter_cons_isNamed (hm : m.1.memberName = .ok name)
    (hmembers : ∀ n ∈ members, n.1.memberName ≠ .ok name) :
    (m :: members).filter (fun n => !n.1.isNamed name) = members := by
  rw [List.filter_cons_of_neg (by simp [Document.isNamed_iff.mpr hm]), List.filter_eq_self]
  intro n hn
  rw [Bool.not_eq_true', ← Bool.not_eq_true, Document.isNamed_iff]
  exact hmembers n hn

end ValuesOf

namespace Document

section FoldMembers

variable {σ : Type} (step : σ → String → Document → Except Fault σ) (state : σ)

theorem foldMembers_nil : foldMembers step none [] state = .ok state :=
  rfl

theorem foldMembers_cons (m : Document × Document) (members : List (Document × Document)) :
    foldMembers step none (m :: members) state =
      m.1.memberName.bind fun name =>
        (step state name m.2).bind (foldMembers step none members) :=
  rfl

end FoldMembers

theorem collectItems_eq_ok_iff {room : Nat} {items : List Document} :
    collectItems room items = .ok () ↔ ∀ d ∈ items, d.collect room = .ok () := by
  induction items with
  | nil => exact ⟨fun _ => List.forall_mem_nil _, fun _ => rfl⟩
  | cons d items ih =>
      rw [collectItems, List.forall_mem_cons, ← ih]
      cases d.collect room <;> simp [bind, Except.bind]

theorem collectMembers_eq_ok {room : Nat} {members : List (Document × Document)}
    (hnames : ∀ m ∈ members, ∃ s, m.1 = .string ⟨.ok s, none⟩)
    (hvalues : ∀ m ∈ members, m.2.collect room = .ok ()) :
    collectMembers room members = .ok () := by
  induction members with
  | nil => rfl
  | cons m members ih =>
      obtain ⟨name, value⟩ := m
      obtain ⟨⟨s, rfl⟩, hrest⟩ := List.forall_mem_cons.mp hnames
      obtain ⟨hvalue, hvalues⟩ := List.forall_mem_cons.mp hvalues
      rw [collectMembers, hvalue]
      exact ih hrest hvalues

end Document

def Slots.cons {α : Type} {αs : List Type} (slot : Option α) (slots : Slots αs) :
    Slots (α :: αs) :=
  (slot, slots)

def Values.cons {α : Type} {αs : List Type} (a : α) (as : Values αs) : Values (α :: αs) :=
  (a, as)

theorem Slots.exists_eq_cons {α : Type} {αs : List Type} (slots : Slots (α :: αs)) :
    ∃ slot rest, slots = cons slot rest :=
  ⟨slots.1, slots.2, rfl⟩

theorem Values.exists_eq_cons {α : Type} {αs : List Type} (as : Values (α :: αs)) :
    ∃ a rest, as = cons a rest :=
  ⟨as.1, as.2, rfl⟩

theorem Values.bind_cons_eq_ok_iff {α : Type} {αs : List Type} {a a' : α} {as : Values αs}
    {read : Except Fault (Values αs)} :
    (read.bind fun as => .ok (cons a as)) = .ok (cons a' as) ↔ a = a' ∧ read = .ok as := by
  have hinj (as' : Values αs) : cons a as' = cons a' as ↔ a = a' ∧ as' = as :=
    iff_of_eq (Prod.mk.injEq ..)
  cases read <;> simp [Except.bind, hinj]

theorem Slots.cons_inj {α : Type} {αs : List Type} {slot slot' : Option α}
    {slots slots' : Slots αs} :
    cons slot slots = cons slot' slots' ↔ slot = slot' ∧ slots = slots' :=
  iff_of_eq (Prod.mk.injEq ..)

/-- How a slot is filled from the members of a name: it keeps what it has if there are none, and
takes the value of the only one. -/
inductive Fills {α : Type} (name : String) (read : Document → Except Fault α)
    (members : List (Document × Document)) : Option α → Option α → Prop
  | kept {slot : Option α} (hnone : valuesOf name members = []) :
      Fills name read members slot slot
  | filled {d : Document} {a : α} (hone : valuesOf name members = [d]) (hread : read d = .ok a) :
      Fills name read members none (some a)

section Fills

variable {α : Type} {name : String} {read : Document → Except Fault α} {m : Document × Document}
  {members : List (Document × Document)} {slot slot' : Option α}

theorem fills_nil : Fills name read [] slot slot' ↔ slot = slot' := by
  constructor
  · rintro (_ | ⟨hone, -⟩)
    · rfl
    · contradiction
  · rintro rfl
    exact .kept rfl

theorem Fills.of_eq {others : List (Document × Document)} (h : Fills name read members slot slot')
    (hvalues : valuesOf name others = valuesOf name members) :
    Fills name read others slot slot' := by
  cases h with
  | kept hnone => exact .kept (hvalues.trans hnone)
  | filled hone hread => exact .filled (hvalues.trans hone) hread

theorem fills_cons_of_ne (h : m.1.memberName ≠ .ok name) :
    Fills name read (m :: members) slot slot' ↔ Fills name read members slot slot' :=
  ⟨fun hfills => hfills.of_eq (valuesOf_cons_of_ne h).symm,
    fun hfills => hfills.of_eq (valuesOf_cons_of_ne h)⟩

theorem not_fills_cons {v : α} (h : m.1.memberName = .ok name) :
    ¬ Fills name read (m :: members) (some v) slot' := by
  intro hfills
  cases hfills with
  | kept hnone =>
      rw [valuesOf_cons_of_eq h] at hnone
      contradiction

theorem fills_cons_of_eq (h : m.1.memberName = .ok name) :
    Fills name read (m :: members) none slot' ↔
      ∃ v, read m.2 = .ok v ∧ Fills name read members (some v) slot' := by
  constructor
  · intro hfills
    cases hfills with
    | kept hnone =>
        rw [valuesOf_cons_of_eq h] at hnone
        contradiction
    | @filled d a hone hread =>
        rw [valuesOf_cons_of_eq h] at hone
        obtain ⟨rfl, hnone⟩ := List.cons.inj hone
        exact ⟨a, hread, .kept hnone⟩
  · rintro ⟨v, hread, hfills⟩
    cases hfills with
    | kept hnone => exact .filled (by rw [valuesOf_cons_of_eq h, hnone]) hread

end Fills

/-- The value of a field is that of the only member of its name, or the default if there is none. -/
inductive Field.Reads {α : Type} (f : Field α) (s : Setting)
    (members : List (Document × Document)) : α → Prop
  | present {d : Document} {a : α} (hone : valuesOf f.name members = [d])
      (hread : f.read s d = .ok a) : f.Reads s members a
  | absent {a : α} (hnone : valuesOf f.name members = []) (hdefault : f.default = some a) :
      f.Reads s members a

namespace Field.Reads

variable {α : Type} {f : Field α} {s : Setting} {members others : List (Document × Document)}
  {a : α}

theorem of_perm (h : f.Reads s members a)
    (hperm : (valuesOf f.name members).Perm (valuesOf f.name others)) : f.Reads s others a := by
  cases h with
  | present hone hread =>
      rw [hone] at hperm
      exact .present (List.singleton_perm.mp hperm).symm hread
  | absent hnone hdefault =>
      rw [hnone] at hperm
      exact .absent (List.nil_perm.mp hperm) hdefault

theorem length_valuesOf_le (h : f.Reads s members a) : (valuesOf f.name members).length ≤ 1 := by
  cases h with
  | present hone _ => exact hone ▸ Nat.le_refl 1
  | absent hnone _ => exact hnone ▸ Nat.zero_le 1

end Field.Reads

section FieldReads

variable {α : Type} {f : Field α} {s : Setting} {members : List (Document × Document)} {a : α}

theorem Field.reads_iff_of_one {d : Document} (hone : valuesOf f.name members = [d]) :
    f.Reads s members a ↔ f.read s d = .ok a := by
  constructor
  · rintro (⟨hvalue, hread⟩ | ⟨hnone, -⟩)
    · rw [hone] at hvalue
      cases hvalue
      exact hread
    · rw [hone] at hnone
      contradiction
  · exact .present hone

theorem Field.reads_iff_of_none (hnone : valuesOf f.name members = []) :
    f.Reads s members a ↔ f.default = some a := by
  constructor
  · rintro (⟨hone, -⟩ | ⟨-, hdefault⟩)
    · rw [hnone] at hone
      contradiction
    · exact hdefault
  · exact .absent hnone

end FieldReads

theorem exists_fills_iff {α : Type} {f : Field α} {s : Setting}
    {members : List (Document × Document)} {a : α} :
    (∃ slot, Fills f.name (f.read s) members none slot ∧ slot.or f.default = some a) ↔
      f.Reads s members a := by
  constructor
  · rintro ⟨slot, hfills, hvalue⟩
    cases hfills with
    | kept hnone => exact .absent hnone hvalue
    | filled hone hread =>
        cases hvalue
        exact .present hone hread
  · intro h
    cases h with
    | present hone hread => exact ⟨some a, .filled hone hread, rfl⟩
    | absent hnone hdefault => exact ⟨none, .kept hnone, hdefault⟩

namespace Fields

def names : {αs : List Type} → Fields αs → List String
  | _, nil => []
  | _, cons f rest => f.name :: rest.names

section Cons

variable {α : Type} {αs : List Type} {f : Field α} {rest : Fields αs} {s : Setting}
  {members : List (Document × Document)} {slot slot' : Option α}

theorem offer_cons (slots : Slots αs) (name : String) (d : Document) :
    (cons f rest).offer s (.cons slot slots) name d =
      if name = f.name then
        match slot with
        | some _ => .error (.misfit (.duplicateField f.name))
        | none => (f.read s d).bind fun v => .ok (.cons (some v) slots)
      else (rest.offer s slots name d).bind fun slots => .ok (.cons slot slots) :=
  rfl

theorem finish_cons_eq_ok_iff {slots : Slots αs} {a : α} {as : Values αs} :
    (cons f rest).finish (.cons slot slots) = .ok (.cons a as) ↔
      slot.or f.default = some a ∧ rest.finish slots = .ok as := by
  rw [Slots.cons, finish]
  cases slot.or f.default with
  | none => simp
  | some v =>
      rw [Option.some.injEq]
      exact Values.bind_cons_eq_ok_iff

theorem foldMembers_cons_eq_ok_iff {slots slots' : Slots αs} :
    Document.foldMembers ((cons f rest).offer s) none members (.cons slot slots) =
        .ok (.cons slot' slots') ↔
      Fills f.name (f.read s) members slot slot' ∧
        Document.foldMembers (rest.offer s) none
          (members.filter fun m => !m.1.isNamed f.name) slots = .ok slots' := by
  induction members generalizing slot slots with
  | nil =>
      rw [List.filter_nil, Document.foldMembers_nil, Document.foldMembers_nil, fills_nil,
        Except.ok.injEq, Except.ok.injEq, Slots.cons_inj]
  | cons m members ih =>
      rw [Document.foldMembers_cons]
      cases hname : m.1.memberName with
      | error fault =>
          have hnamed := Document.isNamed_of_error hname f.name
          rw [List.filter_cons_of_pos (by simp [hnamed]), Document.foldMembers_cons, hname]
          exact ⟨nofun, fun h => nomatch h.2⟩
      | ok name =>
          rw [Except.bind, offer_cons]
          by_cases hfield : name = f.name
          · subst hfield
            have hnamed := Document.isNamed_iff.mpr hname
            rw [if_pos rfl, List.filter_cons_of_neg (by simp [hnamed])]
            cases slot with
            | some v => exact ⟨nofun, fun h => absurd h.1 (not_fills_cons hname)⟩
            | none =>
                rw [fills_cons_of_eq hname]
                cases hread : f.read s m.2 with
                | error fault => exact ⟨nofun, fun ⟨⟨_, h, _⟩, _⟩ => nomatch h⟩
                | ok v =>
                    simp only [Except.bind, ih, Except.ok.injEq, exists_eq_left']
          · have hne : m.1.memberName ≠ .ok f.name := by
              rw [hname, ne_eq, Except.ok.injEq]
              exact hfield
            have hnamed := Document.isNamed_of_memberName hname f.name
            rw [if_neg hfield, List.filter_cons_of_pos (by simp [hnamed, hfield]),
              Document.foldMembers_cons, hname, fills_cons_of_ne hne]
            cases hoffer : rest.offer s slots name m.2 with
            | error fault =>
                simp only [Except.bind, hoffer]
                exact ⟨nofun, fun h => nomatch h.2⟩
            | ok next => simp only [Except.bind, ih, hoffer]

end Cons

/-- The record is read from what the members of its fields carry. -/
inductive Reads (s : Setting) (members : List (Document × Document)) :
    {αs : List Type} → Fields αs → Values αs → Prop
  | nil : Reads s members nil ()
  | cons {α : Type} {αs : List Type} {f : Field α} {rest : Fields αs} {a : α} {as : Values αs}
      (hfirst : f.Reads s members a) (hrest : Reads s members rest as) :
      Reads s members (cons f rest) (.cons a as)

theorem reads_cons {α : Type} {αs : List Type} {f : Field α} {rest : Fields αs} {s : Setting}
    {members : List (Document × Document)} {a : α} {as : Values αs} :
    (cons f rest).Reads s members (.cons a as) ↔ f.Reads s members a ∧ rest.Reads s members as := by
  constructor
  · intro h
    cases h with
    | cons hfirst hrest => exact ⟨hfirst, hrest⟩
  · rintro ⟨hfirst, hrest⟩
    exact .cons hfirst hrest

/-- The name of a member is readable, and its value can be passed over if no field takes it. -/
def Passes {αs : List Type} (fields : Fields αs) (m : Document × Document) : Prop :=
  ∃ name, m.1.memberName = .ok name ∧ (name ∉ fields.names → m.2.skip = .ok ())

theorem foldMembers_nil_eq_ok_iff {s : Setting} {members : List (Document × Document)}
    {slots slots' : Slots []} :
    Document.foldMembers (nil.offer s) none members slots = .ok slots' ↔
      ∀ m ∈ members, nil.Passes m := by
  induction members with
  | nil => exact ⟨fun _ => List.forall_mem_nil _, fun _ => rfl⟩
  | cons m members ih =>
      rw [List.forall_mem_cons, ← ih, Document.foldMembers_cons]
      have hpasses : nil.Passes m ↔ ∃ name, m.1.memberName = .ok name ∧ m.2.skip = .ok () := by
        simp [Passes, names]
      rw [hpasses]
      cases m.1.memberName with
      | error fault => exact ⟨nofun, fun ⟨⟨_, h, _⟩, _⟩ => nomatch h⟩
      | ok name =>
          have hoffer : nil.offer s slots name m.2 = m.2.skip.bind fun _ => .ok slots := rfl
          rw [Except.bind, hoffer]
          cases hskip : m.2.skip with
          | error fault => exact ⟨nofun, fun ⟨⟨_, _, h⟩, _⟩ => nomatch h⟩
          | ok _ => simp [Except.bind]

section Reads

variable {αs : List Type} {fields : Fields αs} {as : Values αs} {s : Setting}
  {members others : List (Document × Document)}

/-- Only the values of the fields matter, and they do not change when one is moved past another. -/
theorem Reads.of_perm (h : fields.Reads s members as)
    (hperm : ∀ name ∈ fields.names, (valuesOf name members).Perm (valuesOf name others)) :
    fields.Reads s others as := by
  induction h with
  | nil => exact .nil
  | cons hfirst _ ih =>
      obtain ⟨hname, hnames⟩ := List.forall_mem_cons.mp hperm
      exact .cons (hfirst.of_perm hname) (ih hnames)

theorem reads_congr
    (h : ∀ name ∈ fields.names, valuesOf name members = valuesOf name others) :
    fields.Reads s members as ↔ fields.Reads s others as := by
  constructor
  · intro hreads
    exact hreads.of_perm fun name hname => h name hname ▸ List.Perm.refl _
  · intro hreads
    exact hreads.of_perm fun name hname => (h name hname).symm ▸ List.Perm.refl _

theorem reads_filter_iff {name : String} (hname : name ∉ fields.names) :
    fields.Reads s (members.filter fun m => !m.1.isNamed name) as ↔
      fields.Reads s members as :=
  reads_congr fun _ hother => valuesOf_filter fun heq => hname (heq ▸ hother)

theorem reads_cons_iff {m : Document × Document}
    (h : ∀ name ∈ fields.names, m.1.memberName ≠ .ok name) :
    fields.Reads s (m :: members) as ↔ fields.Reads s members as :=
  reads_congr fun name hname => valuesOf_cons_of_ne (h name hname)

/-- The members are those of an object that is read as the record. -/
structure ReadsObject (s : Setting) {αs : List Type} (fields : Fields αs)
    (members : List (Document × Document)) (as : Values αs) : Prop where
  passes : ∀ m ∈ members, fields.Passes m
  reads : fields.Reads s members as

theorem passes_cons_iff {α : Type} {f : Field α} {m : Document × Document} :
    (cons f fields).Passes m ↔ (m.1.isNamed f.name = false → fields.Passes m) := by
  unfold Passes
  cases hname : m.1.memberName with
  | error fault =>
      have hnamed := Document.isNamed_of_error hname f.name
      constructor
      · rintro ⟨_, h, -⟩
        contradiction
      · intro h
        obtain ⟨_, h, -⟩ := h hnamed
        contradiction
  | ok name =>
      have hnamed := Document.isNamed_of_memberName hname f.name
      by_cases hfield : name = f.name <;> simp [hnamed, hfield, names]

theorem forall_passes_cons_iff {α : Type} {f : Field α} :
    (∀ m ∈ members, (cons f fields).Passes m) ↔
      ∀ m ∈ members.filter fun m => !m.1.isNamed f.name, fields.Passes m := by
  simp only [List.mem_filter, Bool.not_eq_true', and_imp, passes_cons_iff]

theorem exists_slots_iff (hnames : fields.names.Nodup) :
    (∃ slots, Document.foldMembers (fields.offer s) none members (emptySlots αs) = .ok slots ∧
        fields.finish slots = .ok as) ↔
      fields.ReadsObject s members as := by
  induction fields generalizing members with
  | nil =>
      simp only [foldMembers_nil_eq_ok_iff]
      exact ⟨fun ⟨_, hpasses, _⟩ => ⟨hpasses, .nil⟩, fun h => ⟨(), h.passes, rfl⟩⟩
  | @cons α αs f rest ih =>
      obtain ⟨hfresh, hnames⟩ := List.nodup_cons.mp hnames
      obtain ⟨a, as, rfl⟩ := as.exists_eq_cons
      have hempty : emptySlots (α :: αs) = .cons none (emptySlots αs) := rfl
      rw [hempty]
      constructor
      · rintro ⟨slots, hfold, hfinish⟩
        obtain ⟨slot, slots, rfl⟩ := slots.exists_eq_cons
        obtain ⟨hfills, hfold⟩ := foldMembers_cons_eq_ok_iff.mp hfold
        obtain ⟨hvalue, hfinish⟩ := finish_cons_eq_ok_iff.mp hfinish
        obtain ⟨hpasses, hreads⟩ := (ih hnames).mp ⟨slots, hfold, hfinish⟩
        rw [reads_filter_iff hfresh] at hreads
        refine ⟨forall_passes_cons_iff.mpr hpasses, ?_⟩
        exact .cons (exists_fills_iff.mp ⟨slot, hfills, hvalue⟩) hreads
      · rintro ⟨hpasses, hreads⟩
        rw [forall_passes_cons_iff] at hpasses
        rw [reads_cons, ← reads_filter_iff hfresh] at hreads
        obtain ⟨slots, hfold, hfinish⟩ := (ih hnames).mpr ⟨hpasses, hreads.2⟩
        obtain ⟨slot, hfills, hvalue⟩ := exists_fills_iff.mpr hreads.1
        exact ⟨.cons slot slots, foldMembers_cons_eq_ok_iff.mpr ⟨hfills, hfold⟩,
          finish_cons_eq_ok_iff.mpr ⟨hvalue, hfinish⟩⟩

/-- An object is read as the record of the values that the members of its fields carry, in
whatever order these come. -/
theorem ofMembers_eq_ok_iff (hnames : fields.names.Nodup) :
    fields.ofMembers s members none = .ok as ↔ fields.ReadsObject s members as := by
  have hmembers : fields.ofMembers s members none =
      (Document.foldMembers (fields.offer s) none members (emptySlots αs)).bind fields.finish :=
    rfl
  rw [← exists_slots_iff hnames, hmembers]
  cases Document.foldMembers (fields.offer s) none members (emptySlots αs) with
  | error fault => exact ⟨nofun, fun ⟨_, h, _⟩ => nomatch h⟩
  | ok slots => simp [Except.bind]

theorem Reads.length_valuesOf_le (h : fields.Reads s members as) {name : String}
    (hname : name ∈ fields.names) : (valuesOf name members).length ≤ 1 := by
  induction h with
  | nil => contradiction
  | cons hfirst _ ih =>
      rcases List.mem_cons.mp hname with rfl | hname
      · exact hfirst.length_valuesOf_le
      · exact ih hname

end Reads

end Fields

namespace Reader

section Record

variable {αs : List Type} {β : Type} {fields : Fields αs} {make : Maker β αs} {name : String}
  {s : Setting} {b : β}

theorem map_ofMembers_eq_ok_iff (hnames : fields.names.Nodup)
    {members : List (Document × Document)} :
    (fields.ofMembers s members none).map make.apply = .ok b ↔
      ∃ as, fields.ReadsObject s members as ∧ make.apply as = b := by
  constructor
  · intro h
    obtain ⟨as, hmembers, hmake⟩ := map_eq_ok h
    exact ⟨as, (Fields.ofMembers_eq_ok_iff hnames).mp hmembers, hmake⟩
  · rintro ⟨as, hreads, rfl⟩
    rw [(Fields.ofMembers_eq_ok_iff hnames).mpr hreads]
    rfl

theorem record_object_eq_ok_iff (hnames : fields.names.Nodup)
    {members : List (Document × Document)} :
    record name fields make s (.object members none) = .ok b ↔
      ∃ as, fields.ReadsObject s.inner members as ∧ make.apply as = b :=
  map_ofMembers_eq_ok_iff hnames

end Record

section Tagged

variable {β : Type} {name tag : String} {known : List (String × Case β)} {s : Setting}
  {members : List (Document × Document)}

theorem selected_eq_ok_iff {d : Document} {c : Case β} :
    selected known d = .ok c ↔ ∃ label, d.tagName = .ok label ∧ known.lookup label = some c := by
  unfold selected
  cases d.tagName with
  | error fault => exact ⟨nofun, fun ⟨_, h, _⟩ => nomatch h⟩
  | ok label =>
      simp only [bind, Except.bind, Except.ok.injEq, exists_eq_left']
      cases known.lookup label with
      | none => exact ⟨nofun, nofun⟩
      | some c => simp

/-- The name of a member is readable, and its value can be collected unless it is the tag. -/
def CollectsMember (tag : String) (room : Nat) (m : Document × Document) : Prop :=
  ∃ name, m.1.memberName = .ok name ∧ (name ≠ tag → m.2.collect room = .ok ())

theorem offerTag_eq (found : Option (Case β)) (name : String) (d : Document) :
    offerTag tag known s found name d =
      if name = tag then
        match found with
        | some _ => .error (.misfit (.duplicateField tag))
        | none => (selected known d).map some
      else (d.collect s.room).bind fun _ => .ok found :=
  rfl

theorem foldMembers_offerTag_eq_ok_iff {found found' : Option (Case β)} :
    Document.foldMembers (offerTag tag known s) none members found = .ok found' ↔
      (∀ m ∈ members, CollectsMember tag s.room m) ∧
        Fills tag (selected known) members found found' := by
  induction members generalizing found with
  | nil =>
      rw [Document.foldMembers_nil, fills_nil, Except.ok.injEq]
      exact ⟨fun h => ⟨List.forall_mem_nil _, h⟩, And.right⟩
  | cons m members ih =>
      rw [Document.foldMembers_cons, List.forall_mem_cons, CollectsMember]
      cases hname : m.1.memberName with
      | error fault => exact ⟨nofun, fun ⟨⟨⟨_, h, _⟩, _⟩, _⟩ => nomatch h⟩
      | ok label =>
          simp only [Except.bind, offerTag_eq, Except.ok.injEq, exists_eq_left']
          by_cases htag : label = tag
          · subst htag
            rw [if_pos rfl]
            cases found with
            | some c => exact ⟨nofun, fun h => absurd h.2 (not_fills_cons hname)⟩
            | none =>
                rw [fills_cons_of_eq hname]
                cases hselected : selected known m.2 with
                | error fault => exact ⟨nofun, fun ⟨_, _, h, _⟩ => nomatch h⟩
                | ok c => simp [Except.map, ih]
          · have hne : m.1.memberName ≠ .ok tag := by
              rw [hname, ne_eq, Except.ok.injEq]
              exact htag
            rw [if_neg htag, fills_cons_of_ne hne]
            cases hcollect : m.2.collect s.room with
            | error fault => exact ⟨nofun, fun ⟨⟨h, _⟩, _⟩ => nomatch h htag⟩
            | ok _ => simp [ih]

theorem tagged_object_eq_ok_iff {b : β} :
    tagged name tag known s (.object members none) = .ok b ↔
      (∀ m ∈ members, CollectsMember tag s.inner.room m) ∧
        ∃ d c, valuesOf tag members = [d] ∧ selected known d = .ok c ∧
          c.ofMembers { s.inner with collected := true }
            (members.filter fun m => !m.1.isNamed tag) = .ok b := by
  rw [tagged]
  constructor
  · intro h
    obtain ⟨found, hfold, h⟩ := bind_eq_ok h
    obtain ⟨hcollects, hfills⟩ := foldMembers_offerTag_eq_ok_iff.mp hfold
    cases hfills with
    | kept => contradiction
    | filled hone hselected => exact ⟨hcollects, _, _, hone, hselected, h⟩
  · rintro ⟨hcollects, d, c, hone, hselected, h⟩
    rw [foldMembers_offerTag_eq_ok_iff.mpr ⟨hcollects, .filled hone hselected⟩]
    exact h

/-- The members of an object whose tag is this document and that holds a record beside it. -/
structure HoldsTagged (tag : String) (s : Setting) {αs : List Type} (fields : Fields αs)
    (members : List (Document × Document)) (d : Document) (as : Values αs) : Prop where
  collects : ∀ m ∈ members, CollectsMember tag s.room m
  one : valuesOf tag members = [d]
  beside : fields.ReadsObject { s with collected := true }
    (members.filter fun m => !m.1.isNamed tag) as

/-- With its tag known, the members beside it are read as a record. -/
theorem tagged_eq_ok_iff {label : String} {αs : List Type} {fields : Fields αs}
    {make : Maker β αs} {d : Document} {b : β}
    (hselected : selected known d = .ok (.record label fields make))
    (hnames : fields.names.Nodup) (hone : valuesOf tag members = [d]) :
    tagged name tag known s (.object members none) = .ok b ↔
      ∃ as, HoldsTagged tag s.inner fields members d as ∧ make.apply as = b := by
  rw [tagged_object_eq_ok_iff]
  constructor
  · rintro ⟨hcollects, d', c, hone', hselected', hcase⟩
    cases hone.symm.trans hone'
    cases hselected.symm.trans hselected'
    obtain ⟨as, hreads, hmake⟩ := (map_ofMembers_eq_ok_iff hnames).mp hcase
    exact ⟨as, ⟨hcollects, hone, hreads⟩, hmake⟩
  · rintro ⟨as, hholds, hmake⟩
    exact ⟨hholds.collects, d, _, hone, hselected,
      (map_ofMembers_eq_ok_iff hnames).mpr ⟨as, hholds.beside, hmake⟩⟩

end Tagged

end Reader

end AuthorizedCalls.Json
