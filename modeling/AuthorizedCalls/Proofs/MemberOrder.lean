import AuthorizedCalls.Proofs.RecordLayout
import AuthorizedCalls.Proofs.Spelling

namespace AuthorizedCalls.Json

namespace Document

/-- A value made of null, booleans, integers of 32 bits, strings whose escapes stand for characters,
and containers of such values that are nested no deeper than this. -/
inductive Plain : (depth : Nat) → Document → Prop
  | null {depth : Nat} : Plain depth .null
  | bool {depth : Nat} (b : Bool) : Plain depth (.bool b)
  | number {depth : Nat} {n : Numeral} {i : Int} (hvalue : n.value = .ok (.integer i))
      (hrange : 0 ≤ i ∧ i < UInt32.size) : Plain depth (.number (.ok n))
  | string {depth : Nat} (s : String) : Plain depth (.string ⟨.ok s, none⟩)
  | array {depth : Nat} {items : List Document} (hitems : ∀ d ∈ items, Plain depth d) :
      Plain (depth + 1) (.array items none)
  | object {depth : Nat} {members : List (Document × Document)}
      (hnames : ∀ m ∈ members, ∃ s, m.1 = .string ⟨.ok s, none⟩)
      (hvalues : ∀ m ∈ members, Plain depth m.2) : Plain (depth + 1) (.object members none)

theorem skipItems_eq_ok {items : List Document} (h : ∀ d ∈ items, d.skip = .ok ()) :
    skipItems items = .ok () := by
  induction items with
  | nil => rfl
  | cons d items ih =>
      obtain ⟨hd, hitems⟩ := List.forall_mem_cons.mp h
      rw [skipItems, hd]
      exact ih hitems

theorem skipMembers_eq_ok {members : List (Document × Document)}
    (hnames : ∀ m ∈ members, ∃ s, m.1 = .string ⟨.ok s, none⟩)
    (hvalues : ∀ m ∈ members, m.2.skip = .ok ()) : skipMembers members = .ok () := by
  induction members with
  | nil => rfl
  | cons m members ih =>
      obtain ⟨name, value⟩ := m
      obtain ⟨⟨s, rfl⟩, hrest⟩ := List.forall_mem_cons.mp hnames
      obtain ⟨hvalue, hvalues⟩ := List.forall_mem_cons.mp hvalues
      rw [skipMembers, hvalue]
      exact ih hrest hvalues

namespace Plain

variable {depth : Nat} {d : Document}

theorem skip (h : Plain depth d) : d.skip = .ok () := by
  induction h with
  | null | bool | number | string => rfl
  | array _ ih =>
      rw [Document.skip, skipItems_eq_ok ih]
      rfl
  | object hnames _ ih =>
      rw [Document.skip, skipMembers_eq_ok hnames ih]
      rfl

theorem collect (h : Plain depth d) {room : Nat} (hroom : depth ≤ room) :
    d.collect room = .ok () := by
  induction h generalizing room with
  | null | bool | string => rfl
  | number hvalue =>
      simp only [Document.collect, Except.bind, hvalue]
      rfl
  | array _ ih =>
      obtain ⟨room, rfl⟩ := Nat.exists_eq_add_of_le' (Nat.le_of_add_left_le hroom)
      have hitems := collectItems_eq_ok_iff.mpr fun d hd => ih d hd (Nat.le_of_succ_le_succ hroom)
      rw [Document.collect, hitems]
      rfl
  | object hnames _ ih =>
      obtain ⟨room, rfl⟩ := Nat.exists_eq_add_of_le' (Nat.le_of_add_left_le hroom)
      have hmembers :=
        collectMembers_eq_ok hnames fun m hm => ih m hm (Nat.le_of_succ_le_succ hroom)
      rw [Document.collect, hmembers]
      rfl

end Plain

end Document

namespace Fields

/-- A field of this name has its default in the record. -/
inductive HasDefault (name : String) : {αs : List Type} → Fields αs → Values αs → Prop
  | here {α : Type} {αs : List Type} {f : Field α} {rest : Fields αs} {a : α} {as : Values αs}
      (hname : f.name = name) (hdefault : f.default = some a) :
      HasDefault name (cons f rest) (.cons a as)
  | there {α : Type} {αs : List Type} {f : Field α} {rest : Fields αs} {a : α} {as : Values αs}
      (h : HasDefault name rest as) : HasDefault name (cons f rest) (.cons a as)

section

variable {αs : List Type} {β : Type} {fields : Fields αs} {make : Maker β αs}
  {layout : Layout β} {as : Values αs} {name : String}

theorem HasDefault.mem_names (h : fields.HasDefault name as) : name ∈ fields.names := by
  induction h with
  | here hname _ => exact hname ▸ List.mem_cons_self
  | there _ ih => exact List.mem_cons_of_mem _ ih

theorem Laid.hasDefault (h : fields.Laid make layout) {isDefault : β → Prop}
    (hmem : .optional name isDefault ∈ layout) (hdefault : isDefault (make.apply as)) :
    fields.HasDefault name as := by
  induction h with
  | nil => contradiction
  | @required α αs f rest make layout hrest ih =>
      obtain ⟨a, as⟩ := as
      rcases List.mem_cons.mp hmem with heq | hmem
      · contradiction
      · exact .there (ih a hmem hdefault)
  | @optional α αs f rest make layout isDefault' default hdefault' hsame hrest ih =>
      obtain ⟨a, as⟩ := as
      rcases List.mem_cons.mp hmem with heq | hmem
      · cases heq
        exact .here rfl (hsame a as hdefault ▸ hdefault')
      · exact .there (ih a hmem hdefault)

end

section Objects

variable {αs : List Type} {fields : Fields αs} {as : Values αs} {s : Setting} {name : String}
  {m : Document × Document} {members others extra : List (Document × Document)}

theorem Reads.omitted (h : fields.Reads s members as) (hnames : fields.names.Nodup)
    (hdefault : fields.HasDefault name as) (hm : m.1.memberName = .ok name)
    (hperm : members.Perm (m :: others)) : fields.Reads s others as := by
  induction h with
  | nil => contradiction
  | @cons α αs f rest a as hfirst hrest ih =>
      obtain ⟨hfresh, hnames⟩ := List.nodup_cons.mp hnames
      cases hdefault with
      | here hname hdefault =>
          subst hname
          have hone := hfirst.length_valuesOf_le
          rw [(valuesOf_perm_cons hm hperm).length_eq, List.length_cons] at hone
          have hnone := List.length_eq_zero_iff.mp (Nat.le_zero.mp (Nat.le_of_succ_le_succ hone))
          refine .cons (.absent hnone hdefault) (hrest.of_perm fun other hother => ?_)
          exact valuesOf_perm_of_ne hm hperm fun heq => hfresh (heq ▸ hother)
      | there hdefault =>
          have hne : f.name ≠ name := fun heq => hfresh (heq ▸ hdefault.mem_names)
          exact .cons (hfirst.of_perm (valuesOf_perm_of_ne hm hperm hne)) (ih hnames hdefault)

/-- A member that no field takes and that can be passed over. -/
def Ignores (fields : Fields αs) (m : Document × Document) : Prop :=
  ∃ name, m.1.memberName = .ok name ∧ name ∉ fields.names ∧ m.2.skip = .ok ()

namespace ReadsObject

theorem rearranged (h : fields.ReadsObject s members as) (hextra : ∀ m ∈ extra, fields.Ignores m)
    (hperm : others.Perm (extra ++ members)) : fields.ReadsObject s others as := by
  constructor
  · intro m hm
    rcases List.mem_append.mp (hperm.mem_iff.mp hm) with hm | hm
    · obtain ⟨name, hname, -, hskip⟩ := hextra m hm
      exact ⟨name, hname, fun _ => hskip⟩
    · exact h.passes m hm
  · refine h.reads.of_perm fun name hname => ?_
    have hnone : valuesOf name extra = [] := by
      rw [valuesOf_eq_nil_iff]
      intro m hm heq
      obtain ⟨other, hother, hfresh, -⟩ := hextra m hm
      rw [hother, Except.ok.injEq] at heq
      exact hfresh (heq ▸ hname)
    have hvalues := valuesOf_perm hperm name
    rw [valuesOf_append, hnone, List.nil_append] at hvalues
    exact hvalues.symm

theorem omitted (h : fields.ReadsObject s members as) (hnames : fields.names.Nodup)
    (hdefault : fields.HasDefault name as) (hm : m.1.memberName = .ok name)
    (hperm : members.Perm (m :: others)) : fields.ReadsObject s others as where
  passes m hm := h.passes m (hperm.mem_iff.mpr (List.mem_cons_of_mem _ hm))
  reads := h.reads.omitted hnames hdefault hm hperm

end ReadsObject

end Objects

end Fields

namespace MemberText

/-- A plain value under a name that is not reserved. -/
def Foreign (m : MemberText) (reserved : List String) (limit : Option Nat) : Prop :=
  (∃ name, m.Bears name ∧ name ∉ reserved) ∧
    ∃ depth, m.value.document.Plain depth ∧ ∀ n ∈ limit, depth ≤ n

namespace Foreign

variable {m : MemberText} {reserved : List String} {limit : Option Nat}

theorem ignores {αs : List Type} {fields : Fields αs} (h : m.Foreign reserved limit)
    (hnames : ∀ name ∈ fields.names, name ∈ reserved) : fields.Ignores m.documents := by
  obtain ⟨⟨name, hname, hfresh⟩, depth, hplain, -⟩ := h
  exact ⟨name, hname, fun hmem => hfresh (hnames name hmem), hplain.skip⟩

theorem memberName_ne (h : m.Foreign reserved limit) {name : String} (hname : name ∈ reserved) :
    m.documents.1.memberName ≠ .ok name := by
  obtain ⟨⟨other, hother, hfresh⟩, -⟩ := h
  rw [hother.memberName, ne_eq, Except.ok.injEq]
  exact fun heq => hfresh (heq ▸ hname)

theorem collect {n : Nat} (h : m.Foreign reserved (some n)) {room : Nat} (hroom : n ≤ room) :
    m.documents.2.collect room = .ok () := by
  obtain ⟨-, depth, hplain, hdepth⟩ := h
  exact hplain.collect (Nat.le_trans (hdepth n rfl) hroom)

end Foreign

end MemberText

namespace ObjectText

variable {o o' : ObjectText} {m : MemberText} {extra : List MemberText}

theorem documents_perm_append (h : o'.members.Perm (extra ++ o.members)) :
    o'.documents.Perm (extra.map MemberText.documents ++ o.documents) := by
  rw [documents, documents, ← List.map_append]
  exact h.map _

theorem documents_perm_cons (h : o'.members.Perm (m :: o.members)) :
    o'.documents.Perm (m.documents :: o.documents) :=
  h.map MemberText.documents

end ObjectText

namespace Reader

variable {β : Type}

/-- What is read from an object depends on the values of its members alone. Members of names that
are not reserved do not matter, if their values nest no deeper than the limit; the layout says which
fields a value has. -/
structure ByName (reader : Reader β) (reserved : List String) (limit : Option Nat)
    (layout : β → Layout β) : Prop where
  /-- Members may be put into any order, with others between them. -/
  rearranged {o o' : ObjectText} {extra : List MemberText} {v : β}
    (hread : reader.read o.text = .ok v) (hextra : ∀ m ∈ extra, m.Foreign reserved limit)
    (hperm : o'.members.Perm (extra ++ o.members)) : reader.read o'.text = .ok v
  /-- A member that carries the default of its field may be left out. -/
  omitted {o o' : ObjectText} {m : MemberText} {v : β} {name : String} {isDefault : β → Prop}
    (hread : reader.read o.text = .ok v) (hfield : .optional name isDefault ∈ layout v)
    (hdefault : isDefault v) (hm : m.Bears name) (hperm : o.members.Perm (m :: o'.members)) :
    reader.read o'.text = .ok v
  repeated {o o' : ObjectText} {m m' : MemberText} {v v' : β} {name : String}
    (hread : reader.read o.text = .ok v) (hfield : name ∈ (layout v).names) (hmem : m ∈ o.members)
    (hm : m.Bears name) (hm' : m'.Bears name) (hperm : o'.members.Perm (m' :: o.members)) :
    reader.read o'.text ≠ .ok v'

theorem IsRecord.byName {reader : Reader β} {layout : Layout β} (h : reader.IsRecord layout) :
    reader.ByName layout.names none fun _ => layout := by
  obtain ⟨αs, name, fields, make, rfl, heq, hnames, hlaid⟩ := h
  rw [← heq] at hnames
  constructor
  case rearranged =>
    intro o o' extra v hread hextra hperm
    rw [ObjectText.read_text, record_object_eq_ok_iff hnames] at hread ⊢
    obtain ⟨as, hreads, hmake⟩ := hread
    have hforeign : ∀ m ∈ extra.map MemberText.documents, fields.Ignores m :=
      List.forall_mem_map.mpr fun m hm => (hextra m hm).ignores fun _ hname => heq ▸ hname
    exact ⟨as, hreads.rearranged hforeign (ObjectText.documents_perm_append hperm), hmake⟩
  case omitted =>
    intro o o' m v name isDefault hread hfield hdefault hm hperm
    rw [ObjectText.read_text, record_object_eq_ok_iff hnames] at hread ⊢
    obtain ⟨as, hreads, rfl⟩ := hread
    exact ⟨as, hreads.omitted hnames (hlaid.hasDefault hfield hdefault) hm.memberName
      (ObjectText.documents_perm_cons hperm), rfl⟩
  case repeated =>
    intro o o' m m' v v' name hread hfield hmem hm hm' hperm hread'
    rw [ObjectText.read_text, record_object_eq_ok_iff hnames] at hread'
    obtain ⟨as, hreads, -⟩ := hread'
    rw [← heq] at hfield
    have hlong := one_lt_length_valuesOf (ObjectText.mem_documents hmem) hm.memberName
      hm'.memberName (ObjectText.documents_perm_cons hperm)
    exact absurd (hreads.reads.length_valuesOf_le hfield) (Nat.not_le.mpr hlong)

namespace HoldsTagged

variable {tag : String} {s : Setting} {αs : List Type} {fields : Fields αs} {d : Document}
  {as : Values αs} {m : Document × Document} {members others extra : List (Document × Document)}

theorem rearranged (h : HoldsTagged tag s fields members d as)
    (hextra : ∀ m ∈ extra,
      fields.Ignores m ∧ m.1.memberName ≠ .ok tag ∧ m.2.collect s.room = .ok ())
    (hperm : others.Perm (extra ++ members)) : HoldsTagged tag s fields others d as where
  collects m hm := by
    rcases List.mem_append.mp (hperm.mem_iff.mp hm) with hm | hm
    · obtain ⟨⟨name, hname, -⟩, -, hcollect⟩ := hextra m hm
      exact ⟨name, hname, fun _ => hcollect⟩
    · exact h.collects m hm
  one := by
    have hvalues := valuesOf_perm hperm tag
    rw [valuesOf_append, valuesOf_eq_nil_iff.mpr fun m hm => (hextra m hm).2.1, List.nil_append,
      h.one] at hvalues
    exact List.perm_singleton.mp hvalues
  beside := by
    have hfilter := hperm.filter fun m => !m.1.isNamed tag
    rw [List.filter_append] at hfilter
    exact h.beside.rearranged (fun m hm => (hextra m (List.mem_of_mem_filter hm)).1) hfilter

theorem omitted (h : HoldsTagged tag s fields members d as)
    (hnames : (tag :: fields.names).Nodup) {name : String} (hdefault : fields.HasDefault name as)
    (hm : m.1.memberName = .ok name) (hperm : members.Perm (m :: others)) :
    HoldsTagged tag s fields others d as := by
  obtain ⟨hfresh, hnames⟩ := List.nodup_cons.mp hnames
  have hne : tag ≠ name := fun heq => hfresh (heq ▸ hdefault.mem_names)
  constructor
  case collects =>
    exact fun m hm => h.collects m (hperm.mem_iff.mpr (List.mem_cons_of_mem _ hm))
  case one =>
    have hvalues := valuesOf_perm_of_ne hm hperm hne
    rw [h.one] at hvalues
    exact (List.singleton_perm.mp hvalues).symm
  case beside =>
    have hfilter := hperm.filter fun m => !m.1.isNamed tag
    have hnamed := Document.isNamed_of_memberName hm tag
    rw [List.filter_cons_of_pos (by simp [hnamed, hne.symm])] at hfilter
    exact h.beside.omitted hnames hdefault hm hfilter

theorem not_repeated {β : Type} {name typeName label : String} {known : List (String × Case β)}
    {make : Maker β αs} (hselected : selected known d = .ok (.record label fields make))
    (hnames : (tag :: fields.names).Nodup) (h : HoldsTagged tag s.inner fields members d as)
    (hname : name ∈ tag :: fields.names) {m' : Document × Document} (hmem : m ∈ members)
    (hm : m.1.memberName = .ok name) (hm' : m'.1.memberName = .ok name)
    (hperm : others.Perm (m' :: members)) (v : β) :
    tagged typeName tag known s (.object others none) ≠ .ok v := by
  intro hread
  obtain ⟨hfresh, hnames⟩ := List.nodup_cons.mp hnames
  have hlong := one_lt_length_valuesOf hmem hm hm' hperm
  rcases List.mem_cons.mp hname with rfl | hfield
  · obtain ⟨-, d', c, hone, -, -⟩ := tagged_object_eq_ok_iff.mp hread
    rw [hone] at hlong
    exact absurd hlong (Nat.lt_irrefl 1)
  · -- There is still one tag, so the members beside it are those of the same record.
    have hne : name ≠ tag := fun heq => hfresh (heq ▸ hfield)
    have hone := valuesOf_perm_of_ne hm' hperm hne.symm
    rw [h.one] at hone
    obtain ⟨as', hholds, -⟩ :=
      (tagged_eq_ok_iff hselected hnames (List.perm_singleton.mp hone)).mp hread
    have hshort := hholds.beside.reads.length_valuesOf_le hfield
    rw [valuesOf_filter hne] at hshort
    exact absurd hshort (Nat.not_le.mpr hlong)

end HoldsTagged

theorem exists_holdsTagged {name tag : String} {known : List (String × Case β)}
    {besides : List (String × Layout β)} {layout : β → Layout β} {s : Setting}
    {members : List (Document × Document)} {v : β}
    (hknown : List.Forall₂ (fun k b => k.1 = b.1 ∧ k.2.IsRecord tag layout b.2) known besides)
    (hread : tagged name tag known s (.object members none) = .ok v) :
    ∃ b ∈ besides, ∃ (d : Document) (αs : List Type) (label : String) (fields : Fields αs)
      (make : Maker β αs) (as : Values αs), selected known d = .ok (.record label fields make) ∧
        fields.names = b.2.names ∧ (tag :: fields.names).Nodup ∧ fields.Laid make b.2 ∧
        layout v = .required tag :: b.2 ∧ HoldsTagged tag s.inner fields members d as ∧
        make.apply as = v := by
  obtain ⟨-, d, c, hone, hselected, -⟩ := tagged_object_eq_ok_iff.mp hread
  obtain ⟨b, hb, -, αs, label, fields, make, rfl, heq, hnames, hlaid, hlayout⟩ :=
    exists_beside hknown hselected
  rw [← heq] at hnames
  obtain ⟨as, hholds, rfl⟩ :=
    (tagged_eq_ok_iff hselected (List.nodup_cons.mp hnames).2 hone).mp hread
  exact ⟨b, hb, d, αs, label, fields, make, as, hselected, heq, hnames, hlaid, hlayout as, hholds,
    rfl⟩

theorem IsTagged.byName {reader : Reader β} {tag : String} {besides : List (String × Layout β)}
    {layout : β → Layout β} (h : reader.IsTagged tag besides layout) :
    reader.ByName (tag :: besides.flatMap fun b => b.2.names) (some 126) layout := by
  obtain ⟨name, known, rfl, hknown⟩ := h
  constructor
  case rearranged =>
    intro o o' extra v hread hextra hperm
    rw [ObjectText.read_text] at hread ⊢
    obtain ⟨b, hb, d, αs, label, fields, make, as, hselected, heq, hnames, -, -, hholds, hmake⟩ :=
      exists_holdsTagged hknown hread
    have hforeign : ∀ m ∈ extra.map MemberText.documents, fields.Ignores m ∧
        m.1.memberName ≠ .ok tag ∧ m.2.collect (Setting.inner {}).room = .ok () := by
      refine List.forall_mem_map.mpr fun m hm => ?_
      have hfields : ∀ name ∈ fields.names,
          name ∈ tag :: besides.flatMap fun b => b.2.names := fun name hname =>
        List.mem_cons_of_mem _ (List.mem_flatMap.mpr ⟨b, hb, heq ▸ hname⟩)
      exact ⟨(hextra m hm).ignores hfields, (hextra m hm).memberName_ne List.mem_cons_self,
        (hextra m hm).collect (Nat.le_refl 126)⟩
    have hholds := hholds.rearranged hforeign (ObjectText.documents_perm_append hperm)
    exact (tagged_eq_ok_iff hselected (List.nodup_cons.mp hnames).2 hholds.one).mpr
      ⟨as, hholds, hmake⟩
  case omitted =>
    intro o o' m v name isDefault hread hfield hdefault hm hperm
    rw [ObjectText.read_text] at hread ⊢
    obtain ⟨b, hb, d, αs, label, fields, make, as, hselected, heq, hnames, hlaid, hlayout, hholds,
      rfl⟩ := exists_holdsTagged hknown hread
    rw [hlayout] at hfield
    have hbeside : .optional name isDefault ∈ b.2 := (List.mem_cons.mp hfield).resolve_left nofun
    have hholds := hholds.omitted hnames (hlaid.hasDefault hbeside hdefault) hm.memberName
      (ObjectText.documents_perm_cons hperm)
    exact (tagged_eq_ok_iff hselected (List.nodup_cons.mp hnames).2 hholds.one).mpr
      ⟨as, hholds, rfl⟩
  case repeated =>
    intro o o' m m' v v' name hread hfield hmem hm hm' hperm
    rw [ObjectText.read_text] at hread ⊢
    obtain ⟨b, hb, d, αs, label, fields, make, as, hselected, heq, hnames, -, hlayout, hholds, -⟩ :=
      exists_holdsTagged hknown hread
    have hname : name ∈ tag :: fields.names := by
      rw [heq]
      rw [hlayout] at hfield
      exact hfield
    exact hholds.not_repeated hselected hnames hname (ObjectText.mem_documents hmem) hm.memberName
      hm'.memberName (ObjectText.documents_perm_cons hperm) v'

end Reader

end AuthorizedCalls.Json

namespace AuthorizedCalls

open Json

/-- Objects of every type are read by name. Beside the tag of a kind of unit, containers nest at
most 126 deep. -/
theorem readsByName_schema :
    Batch.reader.ByName Batch.layout.names none (fun _ => Batch.layout) ∧
      Declaration.reader.ByName Declaration.layout.names none (fun _ => Declaration.layout) ∧
      Member.reader.ByName Member.layout.names none (fun _ => Member.layout) ∧
      Param.reader.ByName Param.layout.names none (fun _ => Param.layout) ∧
      CompilationUnit.reader.ByName CompilationUnit.layout.names none
        (fun _ => CompilationUnit.layout) ∧
      UnitKind.reader.ByName ["type", "contract", "authorizers"] (some 126) UnitKind.layout ∧
      AuthorizerParam.reader.ByName AuthorizerParam.layout.names none
        (fun _ => AuthorizerParam.layout) ∧
      Import.reader.ByName Import.layout.names none (fun _ => Import.layout) ∧
      Call.reader.ByName Call.layout.names none (fun _ => Call.layout) ∧
      Span.reader.ByName Span.layout.names none (fun _ => Span.layout) ∧
      Diagnostic.reader.ByName Diagnostic.layout.names none (fun _ => Diagnostic.layout) ∧
      CheckConfig.reader.ByName CheckConfig.layout.names none (fun _ => CheckConfig.layout) :=
  ⟨Batch.isRecord.byName, Declaration.isRecord.byName, Member.isRecord.byName,
    Param.isRecord.byName, CompilationUnit.isRecord.byName, UnitKind.isTagged.byName,
    AuthorizerParam.isRecord.byName, Import.isRecord.byName, Call.isRecord.byName,
    Span.isRecord.byName, Diagnostic.isRecord.byName, CheckConfig.isRecord.byName⟩

/-- A tag behind the field that it selects, and a member that is passed over. -/
example :
    UnitKind.reader.read "\x7b\"note\":[1,null],\"contract\":\"Vault\",\"type\":\"contract\"\x7d" =
      .ok (.contract "Vault") := by
  cbv

end AuthorizedCalls
