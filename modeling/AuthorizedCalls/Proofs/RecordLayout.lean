import AuthorizedCalls.Proofs.MemberReading
import AuthorizedCalls.Schema.Diagnostic

namespace AuthorizedCalls.Json

/-- A field of a record as its texts may show it. -/
inductive FieldLayout (α : Type)
  | required (name : String)
  /-- Where the record has the default there, the member may be left out. -/
  | optional (name : String) (isDefault : α → Prop)

namespace FieldLayout

def name {α : Type} : FieldLayout α → String
  | required name => name
  | optional name _ => name

end FieldLayout

abbrev Layout (α : Type) := List (FieldLayout α)

def Layout.names {α : Type} (layout : Layout α) : List String :=
  layout.map FieldLayout.name

/-- The fields have the names and the defaults of the layout. -/
inductive Fields.Laid {β : Type} :
    {αs : List Type} → Fields αs → Maker β αs → Layout β → Prop
  | nil {make : Maker β []} : Laid nil make []
  | required {α : Type} {αs : List Type} {f : Field α} {rest : Fields αs}
      {make : Maker β (α :: αs)} {layout : Layout β} (hrest : ∀ a, Laid rest (make a) layout) :
      Laid (cons f rest) make (.required f.name :: layout)
  | optional {α : Type} {αs : List Type} {f : Field α} {rest : Fields αs}
      {make : Maker β (α :: αs)} {layout : Layout β} {isDefault : β → Prop} {default : α}
      (hdefault : f.default = some default)
      (hsame : ∀ a as, isDefault (Maker.apply (make a) as) → a = default)
      (hrest : ∀ a, Laid rest (make a) layout) :
      Laid (cons f rest) make (.optional f.name isDefault :: layout)

namespace Reader

variable {β : Type}

/-- The reader is that of records with this layout. -/
def IsRecord (reader : Reader β) (layout : Layout β) : Prop :=
  ∃ (αs : List Type) (name : String) (fields : Fields αs) (make : Maker β αs),
    reader = record name fields make ∧ fields.names = layout.names ∧ layout.names.Nodup ∧
      fields.Laid make layout

def Case.IsRecord (c : Case β) (tag : String) (layout : β → Layout β) (beside : Layout β) : Prop :=
  ∃ (αs : List Type) (label : String) (fields : Fields αs) (make : Maker β αs),
    c = .record label fields make ∧ fields.names = beside.names ∧
      (tag :: beside.names).Nodup ∧ fields.Laid make beside ∧
      ∀ as, layout (make.apply as) = .required tag :: beside

/-- The reader is that of values with this layout, where the tag says what stands beside it. -/
def IsTagged (reader : Reader β) (tag : String) (besides : List (String × Layout β))
    (layout : β → Layout β) : Prop :=
  ∃ (name : String) (known : List (String × Case β)),
    reader = tagged name tag known ∧
      List.Forall₂ (fun k b => k.1 = b.1 ∧ k.2.IsRecord tag layout b.2) known besides

theorem lookup_rel {α γ : Type} {R : α → γ → Prop} {known : List (String × α)}
    {besides : List (String × γ)}
    (h : List.Forall₂ (fun k b => k.1 = b.1 ∧ R k.2 b.2) known besides) (label : String) :
    Option.Rel R (known.lookup label) (besides.lookup label) := by
  induction h with
  | nil => exact .none
  | @cons k b known besides hhead _ ih =>
      obtain ⟨heq, hrel⟩ := hhead
      rw [List.lookup_cons, List.lookup_cons, heq]
      cases label == b.1 with
      | true => exact .some hrel
      | false => exact ih

section Tagged

variable {tag : String} {known : List (String × Case β)} {besides : List (String × Layout β)}
  {layout : β → Layout β}
  (h : List.Forall₂ (fun k b => k.1 = b.1 ∧ k.2.IsRecord tag layout b.2) known besides)

include h

theorem exists_case {label : String} {beside : Layout β}
    (hlabel : besides.lookup label = some beside) :
    ∃ c, known.lookup label = some c ∧ c.IsRecord tag layout beside := by
  have hrel := lookup_rel (R := fun (c : Case β) b => c.IsRecord tag layout b) h label
  rw [hlabel] at hrel
  cases hcase : known.lookup label with
  | none =>
      rw [hcase] at hrel
      contradiction
  | some c =>
      rw [hcase] at hrel
      cases hrel with
      | some hrecord => exact ⟨c, rfl, hrecord⟩

theorem exists_beside {d : Document} {c : Case β} (hselected : selected known d = .ok c) :
    ∃ b ∈ besides, d.tagName = .ok b.1 ∧ c.IsRecord tag layout b.2 := by
  obtain ⟨label, htag, hlabel⟩ := selected_eq_ok_iff.mp hselected
  have hrel := lookup_rel (R := fun (c : Case β) b => c.IsRecord tag layout b) h label
  rw [hlabel] at hrel
  cases hbeside : besides.lookup label with
  | none =>
      rw [hbeside] at hrel
      contradiction
  | some beside =>
      rw [hbeside] at hrel
      obtain ⟨front, behind, rfl, -⟩ := List.lookup_eq_some_iff.mp hbeside
      cases hrel with
      | some hrecord => exact ⟨(label, beside), by simp, htag, hrecord⟩

end Tagged

end Reader

end AuthorizedCalls.Json

namespace AuthorizedCalls

open Json

namespace Span

def layout : Layout Span :=
  [.optional "file" (·.file = ""), .optional "line" (·.line = 0), .optional "column" (·.column = 0)]

theorem isRecord : reader.IsRecord layout := by
  refine ⟨_, _, _, _, rfl, rfl, by decide, ?_⟩
  refine .optional rfl (fun _ _ h => h) fun _ => ?_
  refine .optional rfl (fun _ _ h => h) fun _ => ?_
  refine .optional rfl (fun _ _ h => h) fun _ => ?_
  exact .nil

end Span

namespace Param

def layout : Layout Param :=
  [.required "name", .required "type"]

theorem isRecord : reader.IsRecord layout := by
  refine ⟨_, _, _, _, rfl, rfl, by decide, ?_⟩
  refine .required fun _ => ?_
  refine .required fun _ => ?_
  exact .nil

end Param

namespace Member

def layout : Layout Member :=
  [.required "name", .optional "qualifiers" (·.qualifiers = []), .optional "params" (·.params = []),
    .optional "reads_auth" (·.readsAuth = false), .optional "span" (·.span = ⟨"", 0, 0⟩)]

theorem isRecord : reader.IsRecord layout := by
  refine ⟨_, _, _, _, rfl, rfl, by decide, ?_⟩
  refine .required fun _ => ?_
  refine .optional rfl (fun _ _ h => h) fun _ => ?_
  refine .optional rfl (fun _ _ h => h) fun _ => ?_
  refine .optional rfl (fun _ _ h => h) fun _ => ?_
  refine .optional rfl (fun _ _ h => h) fun _ => ?_
  exact .nil

end Member

namespace Declaration

def layout : Layout Declaration :=
  [.required "kind", .required "name", .required "address",
    .optional "qualifiers" (·.qualifiers = []), .optional "conforms" (·.conforms = []),
    .optional "functions" (·.functions = []), .optional "span" (·.span = ⟨"", 0, 0⟩)]

theorem isRecord : reader.IsRecord layout := by
  refine ⟨_, _, _, _, rfl, rfl, by decide, ?_⟩
  refine .required fun _ => ?_
  refine .required fun _ => ?_
  refine .required fun _ => ?_
  refine .optional rfl (fun _ _ h => h) fun _ => ?_
  refine .optional rfl (fun _ _ h => h) fun _ => ?_
  refine .optional rfl (fun _ _ h => h) fun _ => ?_
  refine .optional rfl (fun _ _ h => h) fun _ => ?_
  exact .nil

end Declaration

namespace AuthorizerParam

def layout : Layout AuthorizerParam :=
  [.required "name", .optional "span" (·.span = ⟨"", 0, 0⟩)]

theorem isRecord : reader.IsRecord layout := by
  refine ⟨_, _, _, _, rfl, rfl, by decide, ?_⟩
  refine .required fun _ => ?_
  refine .optional rfl (fun _ _ h => h) fun _ => ?_
  exact .nil

end AuthorizerParam

namespace UnitKind

def besides : List (String × Layout UnitKind) :=
  [("contract", [.required "contract"]),
    ("transaction", [.optional "authorizers" (· = transaction [])]), ("script", [])]

def layout : UnitKind → Layout UnitKind
  | contract _ => [.required "type", .required "contract"]
  | transaction _ => [.required "type", .optional "authorizers" (· = transaction [])]
  | script => [.required "type"]

theorem isTagged : reader.IsTagged "type" besides layout := by
  refine ⟨_, _, rfl, .cons ?contract (.cons ?transaction (.cons ?script .nil))⟩
  case contract =>
    refine ⟨rfl, _, _, _, _, rfl, rfl, by decide, ?_, fun _ => rfl⟩
    exact .required fun _ => .nil
  case transaction =>
    refine ⟨rfl, _, _, _, _, rfl, rfl, by decide, ?_, fun _ => rfl⟩
    exact .optional rfl (fun _ _ h => transaction.inj h) fun _ => .nil
  case script => exact ⟨rfl, _, _, _, _, rfl, rfl, by decide, .nil, fun _ => rfl⟩

end UnitKind

namespace Import

def layout : Layout Import :=
  [.required "contract", .optional "mode" (·.mode = .plain),
    .optional "span" (·.span = ⟨"", 0, 0⟩)]

theorem isRecord : reader.IsRecord layout := by
  refine ⟨_, _, _, _, rfl, rfl, by decide, ?_⟩
  refine .required fun _ => ?_
  refine .optional rfl (fun _ _ h => h) fun _ => ?_
  refine .optional rfl (fun _ _ h => h) fun _ => ?_
  exact .nil

end Import

namespace Call

def layout : Layout Call :=
  [.required "contract", .required "member", .optional "prefix" (·.authPrefix = none),
    .optional "phase" (·.phase = .body), .optional "function" (·.function = none),
    .optional "span" (·.span = ⟨"", 0, 0⟩)]

theorem isRecord : reader.IsRecord layout := by
  refine ⟨_, _, _, _, rfl, rfl, by decide, ?_⟩
  refine .required fun _ => ?_
  refine .required fun _ => ?_
  refine .optional rfl (fun _ _ h => h) fun _ => ?_
  refine .optional rfl (fun _ _ h => h) fun _ => ?_
  refine .optional rfl (fun _ _ h => h) fun _ => ?_
  refine .optional rfl (fun _ _ h => h) fun _ => ?_
  exact .nil

end Call

namespace CompilationUnit

def layout : Layout CompilationUnit :=
  [.required "name", .required "kind", .optional "imports" (·.imports = []),
    .optional "calls" (·.calls = [])]

theorem isRecord : reader.IsRecord layout := by
  refine ⟨_, _, _, _, rfl, rfl, by decide, ?_⟩
  refine .required fun _ => ?_
  refine .required fun _ => ?_
  refine .optional rfl (fun _ _ h => h) fun _ => ?_
  refine .optional rfl (fun _ _ h => h) fun _ => ?_
  exact .nil

end CompilationUnit

namespace Batch

def layout : Layout Batch :=
  [.optional "declarations" (·.declarations = []), .optional "units" (·.units = [])]

theorem isRecord : reader.IsRecord layout := by
  refine ⟨_, _, _, _, rfl, rfl, by decide, ?_⟩
  refine .optional rfl (fun _ _ h => h) fun _ => ?_
  refine .optional rfl (fun _ _ h => h) fun _ => ?_
  exact .nil

end Batch

namespace CheckConfig

def layout : Layout CheckConfig :=
  [.optional "policy" (·.policy = .exact), .optional "parallel" (·.parallel = true)]

theorem isRecord : reader.IsRecord layout := by
  refine ⟨_, _, _, _, rfl, rfl, by decide, ?_⟩
  refine .optional rfl (fun _ _ h => h) fun _ => ?_
  refine .optional rfl (fun _ _ h => h) fun _ => ?_
  exact .nil

end CheckConfig

namespace Diagnostic

def layout : Layout Diagnostic :=
  [.required "kind", .optional "declaration" (·.declaration = none), .required "location",
    .required "message"]

theorem isRecord : reader.IsRecord layout := by
  refine ⟨_, _, _, _, rfl, rfl, by decide, ?_⟩
  refine .required fun _ => ?_
  refine .optional rfl (fun _ _ h => h) fun _ => ?_
  refine .required fun _ => ?_
  refine .required fun _ => ?_
  exact .nil

end Diagnostic

end AuthorizedCalls
