import AuthorizedCalls.Proofs.CompactText
import AuthorizedCalls.Proofs.MemberReading

/-!
Reading back what is written, by the shape of the reader: a reader that is built of readers that
read their parts back reads the whole back. A record is read back if its members carry its fields
in order, where a field that has its default may be left out (`Fields.Writes`). The only thing
that can stand in the way is the depth to which containers nest in a value that is collected
whole, so every statement says how many containers must still be free to be opened.
-/

namespace AuthorizedCalls.Json

@[simp] theorem Document.memberName_ofString (s : String) :
    (Document.ofString s).memberName = .ok s :=
  rfl

/-- What is written as the value is read as `a` where `room` more containers may be opened. -/
def ReadsAs {α : Type} (room : Nat) (reader : Reader α) (v : Value) (a : α) : Prop :=
  ∀ s : Setting, room ≤ s.room → reader s v.document = .ok a

/-- What is written as the value can be collected whole where `room` containers may be opened. -/
def Collects (room : Nat) (v : Value) : Prop :=
  ∀ r, room ≤ r → v.document.collect r = .ok ()

/-- The compact text of every value is read as that value. -/
def Reader.ReadsBack {α : Type} (reader : Reader α) (toJson : α → Value) : Prop :=
  ∀ a, reader.read (toJson a).compact = .ok a

theorem Setting.le_room_inner {s : Setting} {room : Nat} (h : room + 1 ≤ s.room) :
    room ≤ s.inner.room :=
  Nat.le_sub_of_add_le h

theorem Reader.ReadsBack.of_readsAs {α : Type} {reader : Reader α} {toJson : α → Value}
    (h : ∀ a, ReadsAs 127 reader (toJson a) a) : reader.ReadsBack toJson := by
  intro a
  have hread : reader {} (toJson a).document = .ok a := h a {} (Nat.le_refl _)
  rw [Value.compact, (toJson a).spells.read, hread]

theorem Reader.lookup_map {α β : Type} (known : List (String × α)) (f : α → β) (name : String) :
    (known.map fun k => (k.1, f k.2)).lookup name = (known.lookup name).map f := by
  induction known with
  | nil => rfl
  | cons k known ih =>
      rw [List.map_cons, List.lookup_cons, List.lookup_cons, ih]
      cases name == k.1 <;> rfl

namespace Collects

variable {room : Nat}

theorem string (s : String) : Collects room (.string s) :=
  fun _ _ => rfl

theorem number {n : Nat} (h : n < UInt64.size) : Collects room (.number n) := by
  intro r _
  have hvalue := Numeral.value_ofNat h
  simp only [Value.document, Document.collect, Except.bind, hvalue]
  rfl

theorem collectItems {r : Nat} {items : List Value} (h : ∀ v ∈ items, Collects room v)
    (hr : room ≤ r) : Document.collectItems r (Value.documents items) = .ok () := by
  rw [Value.documents_eq_map, Document.collectItems_eq_ok_iff]
  exact List.forall_mem_map.mpr fun v hv => h v hv r hr

theorem collectMembers {r : Nat} {members : List (String × Value)}
    (h : ∀ m ∈ members, Collects room m.2) (hr : room ≤ r) :
    Document.collectMembers r (Value.memberDocuments members) = .ok () := by
  rw [Value.memberDocuments_eq_map]
  exact Document.collectMembers_eq_ok (List.forall_mem_map.mpr fun m _ => ⟨m.1, rfl⟩)
    (List.forall_mem_map.mpr fun m hm => h m hm r hr)

theorem array {items : List Value} (h : ∀ v ∈ items, Collects room v) :
    Collects (room + 1) (.array items) := by
  intro r hr
  obtain ⟨r, rfl⟩ := Nat.exists_eq_add_of_le' (Nat.le_of_add_left_le hr)
  rw [Value.document, Document.collect, collectItems h (Nat.le_of_succ_le_succ hr)]
  rfl

theorem object {members : List (String × Value)} (h : ∀ m ∈ members, Collects room m.2) :
    Collects (room + 1) (.object members) := by
  intro r hr
  obtain ⟨r, rfl⟩ := Nat.exists_eq_add_of_le' (Nat.le_of_add_left_le hr)
  rw [Value.document, Document.collect, collectMembers h (Nat.le_of_succ_le_succ hr)]
  rfl

end Collects

namespace ReadsAs

variable {room : Nat} {α β : Type}

theorem toJson_inj {reader : Reader α} {toJson : α → Value}
    (h : ∀ a, ReadsAs room reader (toJson a) a) {a b : α} : toJson a = toJson b ↔ a = b := by
  constructor
  · intro hab
    have ha := h a ⟨room, false⟩ (Nat.le_refl room)
    have hb := h b ⟨room, false⟩ (Nat.le_refl room)
    rw [hab, hb, Except.ok.injEq] at ha
    exact ha.symm
  · rintro rfl
    rfl

theorem string (s : String) : ReadsAs room .string (.string s) s :=
  fun _ _ => rfl

theorem bool (b : Bool) : ReadsAs room .bool (.bool b) b :=
  fun _ _ => rfl

theorem word32 (w : UInt32) : ReadsAs room .word32 (.number w.toNat) w := by
  intro s _
  have hfits : w.toNat < UInt64.size := Nat.lt_trans w.toNat_lt (by decide)
  have hword : 0 ≤ (w.toNat : Int) ∧ (w.toNat : Int) < UInt32.size :=
    ⟨Int.natCast_nonneg _, Int.ofNat_lt.mpr w.toNat_lt⟩
  simp only [Value.document, Reader.word32, Except.bind, Numeral.value_ofNat hfits, ofForm,
    Except.mapError, bind]
  rw [if_pos hword, Int.toNat_natCast, UInt32.ofNat_toNat]

theorem address (a : Address) : ReadsAs room .address (.string a.toHex) a := by
  intro s _
  simp only [Value.document, Document.ofString, Reader.address, ofForm, Except.mapError, bind,
    Except.bind, Address.ofHex_toHex]

theorem map {reader : Reader α} {v : Value} {a : α} (f : α → β) (h : ReadsAs room reader v a) :
    ReadsAs room (.map f reader) v (f a) := by
  intro s hs
  rw [Reader.map, h s hs]
  rfl

theorem list {item : Reader α} {toJson : α → Value} (as : List α)
    (h : ∀ a ∈ as, ReadsAs room item (toJson a) a) :
    ReadsAs (room + 1) (.list item) (.array (as.map toJson)) as := by
  intro s hs
  have hitems : (Value.documents (as.map toJson)).mapM (item s.inner) = .ok as := by
    induction as with
    | nil => rfl
    | cons a as ih =>
        have hitem := h a List.mem_cons_self s.inner (Setting.le_room_inner hs)
        have hrest := ih fun b hb => h b (List.mem_cons_of_mem _ hb)
        rw [List.map_cons, Value.documents, List.mapM_cons, hitem]
        simp only [bind, Except.bind, hrest]
        rfl
  simp only [Value.document, Reader.list, hitems, bind, Except.bind]
  rfl

theorem null (reader : Reader α) : ReadsAs room (.nullable reader) .null none :=
  fun _ _ => rfl

theorem nonNull {reader : Reader α} {v : Value} {a : α} (hne : v ≠ .null)
    (h : ReadsAs room reader v a) : ReadsAs room (.nullable reader) v (some a) := by
  intro s hs
  have hread := h s hs
  -- The document of any other value is neither null nor the beginning of it.
  cases v with
  | null => exact absurd rfl hne
  | _ => exact congrArg (Except.map some) hread

theorem nullable {reader : Reader α} {toJson : α → Value} (o : Option α)
    (hne : ∀ a, toJson a ≠ .null) (h : ∀ a, ReadsAs room reader (toJson a) a) :
    ReadsAs room (.nullable reader) ((o.map toJson).getD .null) o := by
  cases o with
  | none => exact null reader
  | some a => exact nonNull (hne a) (h a)

theorem bare {known : List (String × Reader.Alternative α)} {name : String} {a : α}
    (h : known.lookup name = some (.bare a)) : ReadsAs room (.choice known) (.string name) a := by
  intro s _
  simp only [Value.document, Document.ofString, Reader.choice, ofForm, Except.mapError, bind,
    Except.bind, Reader.lookup, h, Reader.Alternative.alone]

theorem names {known : List (String × α)} {name : String} {a : α}
    (h : known.lookup name = some a) : ReadsAs room (.names known) (.string name) a :=
  bare (by rw [Reader.lookup_map, h, Option.map_some])

theorem content {known : List (String × Reader.Alternative α)} {name : String}
    {reader : Reader α} {v : Value} {a : α} (h : known.lookup name = some (.content reader))
    (hread : ReadsAs room reader v a) :
    ReadsAs (room + 1) (.choice known) (.object [(name, v)]) a := by
  intro s hs
  have hinner := hread s.inner (Setting.le_room_inner hs)
  simp only [Value.document, Value.memberDocuments, Reader.choice, Document.memberName_ofString,
    bind, Except.bind, Reader.lookup, h, Reader.Alternative.beside, hinner]
  rfl

end ReadsAs

namespace Fields

/-- The members carry the values of the fields in order; a field that has its default value may
be left out. -/
inductive Writes (room : Nat) :
    {αs : List Type} → Fields αs → Values αs → List (String × Value) → Prop
  | nil : Writes room nil () []
  | member {α : Type} {αs : List Type} {f : Field α} {fields : Fields αs} {json : Value} {a : α}
      {as : Values αs} {members : List (String × Value)} (hread : ReadsAs room f.read json a)
      (hrest : Writes room fields as members) :
      Writes room (cons f fields) (a, as) ((f.name, json) :: members)
  | absent {α : Type} {αs : List Type} {f : Field α} {fields : Fields αs} {a : α}
      {as : Values αs} {members : List (String × Value)} (hdefault : f.default = some a)
      (hrest : Writes room fields as members) : Writes room (cons f fields) (a, as) members

namespace Writes

variable {room : Nat} {αs : List Type} {fields : Fields αs} {as : Values αs}
  {members : List (String × Value)}

theorem sublist_names (h : fields.Writes room as members) :
    (members.map Prod.fst).Sublist fields.names := by
  induction h with
  | nil => exact List.Sublist.refl []
  | member _ _ ih => exact ih.cons_cons _
  | absent _ _ ih => exact ih.cons _

theorem exists_name (h : fields.Writes room as members) :
    ∀ m ∈ Value.memberDocuments members, ∃ name ∈ fields.names, m.1.memberName = .ok name := by
  rw [Value.memberDocuments_eq_map]
  refine List.forall_mem_map.mpr fun m hm => ?_
  exact ⟨m.1, h.sublist_names.mem (List.mem_map_of_mem hm), rfl⟩

theorem memberName_ne (h : fields.Writes room as members) {name : String}
    (hname : name ∉ fields.names) :
    ∀ m ∈ Value.memberDocuments members, m.1.memberName ≠ .ok name := by
  intro m hm heq
  obtain ⟨other, hmem, hother⟩ := h.exists_name m hm
  rw [hother, Except.ok.injEq] at heq
  exact hname (heq ▸ hmem)

theorem passes (h : fields.Writes room as members) :
    ∀ m ∈ Value.memberDocuments members, fields.Passes m := by
  intro m hm
  obtain ⟨name, hmem, hname⟩ := h.exists_name m hm
  exact ⟨name, hname, fun hfresh => absurd hmem hfresh⟩

theorem reads (h : fields.Writes room as members) (hnames : fields.names.Nodup) {s : Setting}
    (hs : room ≤ s.room) : fields.Reads s (Value.memberDocuments members) as := by
  induction h with
  | nil => exact .nil
  | @member α αs f fields json a as members hread hrest ih =>
      obtain ⟨hname, hnames⟩ := List.nodup_cons.mp hnames
      have hnone := valuesOf_eq_nil_iff.mpr (hrest.memberName_ne hname)
      -- The first member is that of the first field, and no other field bears its name.
      have hother : ∀ other ∈ fields.names,
          (Document.ofString f.name).memberName ≠ .ok other := by
        intro other hmem heq
        rw [Document.memberName_ofString, Except.ok.injEq] at heq
        exact hname (heq ▸ hmem)
      have hone : valuesOf f.name (Value.memberDocuments ((f.name, json) :: members)) =
          [json.document] := by
        rw [Value.memberDocuments, valuesOf_cons_of_eq rfl, hnone]
      exact .cons (.present hone (hread s hs)) ((reads_cons_iff hother).mpr (ih hnames))
  | @absent α αs f fields a as members hdefault hrest ih =>
      obtain ⟨hname, hnames⟩ := List.nodup_cons.mp hnames
      have hnone := valuesOf_eq_nil_iff.mpr (hrest.memberName_ne hname)
      exact .cons (.absent hnone hdefault) (ih hnames)

end Writes

end Fields

namespace ReadsAs

variable {room : Nat} {αs : List Type} {β : Type} {fields : Fields αs} {as : Values αs}
  {members : List (String × Value)}

theorem record {name : String} {make : Maker β αs} {b : β} (hnames : fields.names.Nodup)
    (h : fields.Writes room as members) (hmake : make.apply as = b) :
    ReadsAs (room + 1) (.record name fields make) (.object members) b := by
  intro s hs
  exact (Reader.record_object_eq_ok_iff hnames).mpr
    ⟨as, ⟨h.passes, h.reads hnames (Setting.le_room_inner hs)⟩, hmake⟩

theorem tagged {name tag label caseLabel : String} {known : List (String × Reader.Case β)}
    {make : Maker β αs} {b : β} (hknown : known.lookup label = some (.record caseLabel fields make))
    (hnames : (tag :: fields.names).Nodup) (hfields : fields.Writes room as members)
    (hmake : make.apply as = b) (hcollects : ∀ m ∈ members, Collects room m.2) :
    ReadsAs (room + 1) (.tagged name tag known) (.object ((tag, .string label) :: members)) b := by
  intro s hs
  obtain ⟨hfresh, hnames⟩ := List.nodup_cons.mp hnames
  have hroom : room ≤ s.inner.room := Setting.le_room_inner hs
  have htag := hfields.memberName_ne hfresh
  have hone : valuesOf tag (Value.memberDocuments ((tag, .string label) :: members)) =
      [.ofString label] := by
    rw [Value.memberDocuments, valuesOf_cons_of_eq rfl, valuesOf_eq_nil_iff.mpr htag]
    rfl
  have hselected : Reader.selected known (.ofString label) =
      .ok (.record caseLabel fields make) :=
    Reader.selected_eq_ok_iff.mpr ⟨label, rfl, hknown⟩
  have hfilter : (Value.memberDocuments ((tag, .string label) :: members)).filter
      (fun m => !m.1.isNamed tag) = Value.memberDocuments members :=
    filter_cons_isNamed rfl htag
  refine Reader.tagged_object_eq_ok_iff.mpr ⟨?_, _, _, hone, hselected, ?_⟩
  · rw [Value.memberDocuments, Value.memberDocuments_eq_map]
    refine List.forall_mem_cons.mpr ⟨⟨tag, rfl, fun h => absurd rfl h⟩, ?_⟩
    exact List.forall_mem_map.mpr fun m hm => ⟨m.1, rfl, fun _ => hcollects m hm _ hroom⟩
  · rw [hfilter]
    exact (Reader.map_ofMembers_eq_ok_iff hnames).mpr
      ⟨as, ⟨hfields.passes, hfields.reads hnames hroom⟩, hmake⟩

end ReadsAs

end AuthorizedCalls.Json
