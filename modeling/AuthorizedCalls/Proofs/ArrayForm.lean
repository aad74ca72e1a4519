import AuthorizedCalls.Proofs.ItemReading
import AuthorizedCalls.Proofs.RecordLayout
import AuthorizedCalls.Proofs.Spelling

namespace AuthorizedCalls.Json

namespace Reader

variable {β : Type}

/-- The values of an array whose first item, if any, is like this are taken for the fields of these
names, in order. -/
structure ByPlace (reader : Reader β) (first : Document → Prop) (names : List String) : Prop where
  alike {a : ArrayText} {o : ObjectText} (hfirst : ∀ d ∈ a.documents.head?, first d)
    (hlabelled : Labelled names a.documents o.documents) (v : β) :
    reader.read a.text = .ok v ↔ reader.read o.text = .ok v
  tooLong {a : ArrayText} (hfirst : ∀ d ∈ a.documents.head?, first d)
    (hlength : names.length < a.documents.length) (v : β) : reader.read a.text ≠ .ok v

theorem IsRecord.byPlace {reader : Reader β} {layout : Layout β} (h : reader.IsRecord layout) :
    reader.ByPlace (fun _ => True) layout.names := by
  obtain ⟨αs, name, fields, make, rfl, heq, hnames, -⟩ := h
  rw [← heq] at hnames ⊢
  constructor
  case alike =>
    intro a o _ hlabelled v
    rw [ArrayText.read_text, ObjectText.read_text, record_array_eq_ok_iff,
      record_object_eq_ok_iff hnames]
    simp only [hlabelled.readsObject_iff hnames]
  case tooLong =>
    intro a _ hlength v hread
    rw [ArrayText.read_text, record_array_eq_ok_iff] at hread
    obtain ⟨as, hreads, -⟩ := hread
    exact absurd hlength (Nat.not_lt.mpr hreads.length_le)

theorem tagged_array_iff_tagged_object {name tag label : String} {known : List (String × Case β)}
    {αs : List Type} {fields : Fields αs} {make : Maker β αs} {s : Setting}
    {m : Document × Document} {items : List Document} {members : List (Document × Document)}
    (hselected : selected known m.2 = .ok (.record label fields make))
    (hnames : (tag :: fields.names).Nodup) (hm : m.1.memberName = .ok tag)
    (hlabelled : Labelled fields.names items members) (v : β) :
    tagged name tag known s (.array (m.2 :: items) none) = .ok v ↔
      tagged name tag known s (.object (m :: members) none) = .ok v := by
  obtain ⟨hfresh, hnames⟩ := List.nodup_cons.mp hnames
  have hother := hlabelled.memberName_ne hfresh
  have hone : valuesOf tag (m :: members) = [m.2] := by
    rw [valuesOf_cons_of_eq hm, valuesOf_eq_nil_iff.mpr hother]
  rw [tagged_array_eq_ok_iff, tagged_eq_ok_iff hselected hnames hone]
  constructor
  · rintro ⟨hcollect, c, hselected', hcase⟩
    cases hselected.symm.trans hselected'
    obtain ⟨as, hreads, hmake⟩ := map_ofItems_eq_ok_iff.mp hcase
    refine ⟨as, ⟨List.forall_mem_cons.mpr ⟨?_, fun n hn => ?_⟩, hone, ?_⟩, hmake⟩
    · exact ⟨tag, hm, fun h => absurd rfl h⟩
    · obtain ⟨other, -, hother⟩ := hlabelled.exists_name n hn
      rw [hlabelled.items_eq] at hcollect
      exact ⟨other, hother, fun _ => hcollect _ (List.mem_map_of_mem hn)⟩
    · rw [filter_cons_isNamed hm hother]
      exact (hlabelled.readsObject_iff hnames).mpr hreads
  · rintro ⟨as, ⟨hcollects, -, hreads⟩, hmake⟩
    rw [filter_cons_isNamed hm hother, hlabelled.readsObject_iff hnames] at hreads
    refine ⟨?_, _, hselected, map_ofItems_eq_ok_iff.mpr ⟨as, hreads, hmake⟩⟩
    rw [hlabelled.items_eq]
    refine List.forall_mem_map.mpr fun n hn => ?_
    obtain ⟨other, hname, hcollect⟩ := hcollects n (List.mem_cons_of_mem _ hn)
    exact hcollect fun heq => hother n hn (heq ▸ hname)

theorem IsTagged.byPlace {reader : Reader β} {tag : String} {besides : List (String × Layout β)}
    {layout : β → Layout β} (h : reader.IsTagged tag besides layout) (label : String)
    (beside : Layout β) (hlabel : besides.lookup label = some beside) :
    reader.ByPlace (fun d => d.tagName = .ok label) (tag :: beside.names) := by
  obtain ⟨name, known, rfl, hknown⟩ := h
  obtain ⟨c, hcase, αs, caseLabel, fields, make, rfl, heq, hnames, -, -⟩ :=
    exists_case hknown hlabel
  rw [← heq] at hnames ⊢
  constructor
  case alike =>
    intro a o hfirst hlabelled v
    rw [ArrayText.read_text, ObjectText.read_text]
    generalize a.documents = items at hfirst hlabelled
    generalize o.documents = members at hlabelled
    cases hlabelled with
    | done => exact ⟨nofun, nofun⟩
    | more hm hlabelled =>
        have hselected := selected_eq_ok_iff.mpr ⟨label, hfirst _ rfl, hcase⟩
        exact tagged_array_iff_tagged_object hselected hnames hm hlabelled v
  case tooLong =>
    intro a hfirst hlength v hread
    rw [ArrayText.read_text] at hread
    generalize a.documents = items at hfirst hlength hread
    cases items with
    | nil => contradiction
    | cons first items =>
        have hselected := selected_eq_ok_iff.mpr ⟨label, hfirst _ rfl, hcase⟩
        obtain ⟨-, c, hselected', hrecord⟩ := tagged_array_eq_ok_iff.mp hread
        cases hselected.symm.trans hselected'
        obtain ⟨as, hreads, -⟩ := map_ofItems_eq_ok_iff.mp hrecord
        exact absurd hlength (Nat.not_lt.mpr (Nat.succ_le_succ hreads.length_le))

structure RefusesOthers (reader : Reader β) (tag : String) (labels : List String) : Prop where
  array {a : ArrayText} {d : Document} (hfirst : d ∈ a.documents.head?)
    (hother : ∀ label ∈ labels, d.tagName ≠ .ok label) (v : β) : reader.read a.text ≠ .ok v
  object {o : ObjectText} {m : MemberText} (hmem : m ∈ o.members) (hm : m.Bears tag)
    (hother : ∀ label ∈ labels, m.value.document.tagName ≠ .ok label) (v : β) :
    reader.read o.text ≠ .ok v

theorem IsTagged.refusesOthers {reader : Reader β} {tag : String}
    {besides : List (String × Layout β)} {layout : β → Layout β}
    (h : reader.IsTagged tag besides layout) :
    reader.RefusesOthers tag (besides.map Prod.fst) := by
  obtain ⟨name, known, rfl, hknown⟩ := h
  constructor
  case array =>
    intro a d hfirst hother v hread
    rw [ArrayText.read_text] at hread
    obtain ⟨items, hdocuments⟩ := List.head?_eq_some_iff.mp hfirst
    rw [hdocuments] at hread
    obtain ⟨-, c, hselected, -⟩ := tagged_array_eq_ok_iff.mp hread
    obtain ⟨b, hb, htag, -⟩ := exists_beside hknown hselected
    exact hother b.1 (List.mem_map_of_mem hb) htag
  case object =>
    intro o m hmem hm hother v hread
    rw [ObjectText.read_text] at hread
    obtain ⟨-, d, c, hone, hselected, -⟩ := tagged_object_eq_ok_iff.mp hread
    obtain ⟨b, hb, htag, -⟩ := exists_beside hknown hselected
    have hvalue := mem_valuesOf (ObjectText.mem_documents hmem) hm.memberName
    rw [hone, List.mem_singleton] at hvalue
    subst hvalue
    exact hother b.1 (List.mem_map_of_mem hb) htag

end Reader

end AuthorizedCalls.Json

namespace AuthorizedCalls

open Json

/-- Arrays of the fields of every type are read by place. Those of a kind of unit begin with its
tag. -/
theorem readsByPlace_schema :
    Batch.reader.ByPlace (fun _ => True) Batch.layout.names ∧
      Declaration.reader.ByPlace (fun _ => True) Declaration.layout.names ∧
      Member.reader.ByPlace (fun _ => True) Member.layout.names ∧
      Param.reader.ByPlace (fun _ => True) Param.layout.names ∧
      CompilationUnit.reader.ByPlace (fun _ => True) CompilationUnit.layout.names ∧
      AuthorizerParam.reader.ByPlace (fun _ => True) AuthorizerParam.layout.names ∧
      Import.reader.ByPlace (fun _ => True) Import.layout.names ∧
      Call.reader.ByPlace (fun _ => True) Call.layout.names ∧
      Span.reader.ByPlace (fun _ => True) Span.layout.names ∧
      Diagnostic.reader.ByPlace (fun _ => True) Diagnostic.layout.names ∧
      CheckConfig.reader.ByPlace (fun _ => True) CheckConfig.layout.names ∧
      UnitKind.reader.ByPlace (fun d => d.tagName = .ok "contract") ["type", "contract"] ∧
      UnitKind.reader.ByPlace (fun d => d.tagName = .ok "transaction") ["type", "authorizers"] ∧
      UnitKind.reader.ByPlace (fun d => d.tagName = .ok "script") ["type"] ∧
      UnitKind.reader.RefusesOthers "type" ["contract", "transaction", "script"] :=
  ⟨Batch.isRecord.byPlace, Declaration.isRecord.byPlace, Member.isRecord.byPlace,
    Param.isRecord.byPlace, CompilationUnit.isRecord.byPlace, AuthorizerParam.isRecord.byPlace,
    Import.isRecord.byPlace, Call.isRecord.byPlace, Span.isRecord.byPlace,
    Diagnostic.isRecord.byPlace, CheckConfig.isRecord.byPlace,
    UnitKind.isTagged.byPlace "contract" _ rfl,
    UnitKind.isTagged.byPlace "transaction" _ rfl, UnitKind.isTagged.byPlace "script" _ rfl,
    UnitKind.isTagged.refusesOthers⟩

example : UnitKind.reader.read "[\"contract\",\"Vault\"]" = .ok (.contract "Vault") := by
  cbv

end AuthorizedCalls
