import AuthorizedCalls.Json.Document
import AuthorizedCalls.Json.Fault

/-!
Readers: what makes a value of a document, or gives the first fault in the order of the text. A
record is read from an object, whose members may stand in any order, or from an array of its
fields; an alternative by its name alone or as an object with one member; a tagged value by the
member that holds its tag, wherever that stands.
-/

namespace AuthorizedCalls.Json

/-- The place of a document among the containers around it. -/
structure Setting where
  /-- How many more containers a value that is collected whole may open. -/
  room : Nat := 127
  /-- Whether the document is part of a value that was collected whole. -/
  collected : Bool := false

namespace Setting

def inner (s : Setting) : Setting :=
  { s with room := s.room - 1 }

end Setting

abbrev Reader (α : Type) := Setting → Document → Except Fault α

def ofForm {α : Type} (result : Except Break α) : Except Fault α :=
  result.mapError .flaw

/-- The end of a container: what stands where a comma or the closing bracket should. -/
def ending : Option Break → Except Fault Unit
  | none => .ok ()
  | some flaw => .error (.flaw flaw)

namespace Document

/-- The fault of a document that is not what is wanted. A literal that is itself at fault does not
get as far as being something else. -/
def unlike (wanted : Wanted) : Document → Fault
  | null => .misfit (.type .null wanted)
  | bool b => .misfit (.type (.bool b) wanted)
  | number numeral =>
    match numeral.bind Numeral.value with
    | .ok n => .misfit (.type (.ofNumber n) wanted)
    | .error flaw => .flaw flaw
  | string literal =>
    match literal.text with
    | .ok s => .misfit (.type (.string s) wanted)
    | .error flaw => .flaw flaw
  | array .. => .misfit (.type .array wanted)
  | object .. => .misfit (.type .object wanted)
  | nothing => .flaw .truncated
  | garbled _ flaw => .flaw flaw

mutual

/-- Passes over a document. Escapes need not stand for characters, numbers may be of any size, and
containers may be nested to any depth. -/
def skip : Document → Except Fault Unit
  | null => .ok ()
  | bool _ => .ok ()
  | number (.ok _) => .ok ()
  | number (.error _) => .error (.flaw .malformed)
  | string literal => ending literal.flaw
  | array items flaw => do
    skipItems items
    ending flaw
  | object members flaw => do
    skipMembers members
    ending flaw
  | nothing => .error (.flaw .truncated)
  | garbled _ flaw => .error (.flaw flaw)

def skipItems : List Document → Except Fault Unit
  | [] => .ok ()
  | item :: rest => do
    skip item
    skipItems rest

def skipMembers : List (Document × Document) → Except Fault Unit
  | [] => .ok ()
  | (name, value) :: rest => do
    match name with
    | string literal => ending literal.flaw
    | nothing => .error (.flaw .truncated)
    | _ => .error (.flaw .malformed)
    skip value
    skipMembers rest

end

def memberName : Document → Except Fault String
  | string literal => ofForm literal.text
  | nothing => .error (.flaw .truncated)
  | _ => .error (.flaw .malformed)

def tagName : Document → Except Fault String
  | string literal => ofForm literal.text
  | d => .error (d.unlike .alternative)

def isNamed (name : String) : Document → Bool
  | string ⟨.ok s, _⟩ => s = name
  | _ => false

mutual

/-- Collects a value whole before it is known what it is for: its literals are read, and `room`
limits how deep its containers are nested. -/
def collect (room : Nat) : Document → Except Fault Unit
  | null => .ok ()
  | bool _ => .ok ()
  | number numeral => (ofForm (numeral.bind Numeral.value)).map fun _ => ()
  | string literal => (ofForm literal.text).map fun _ => ()
  | array items flaw =>
    match room with
    | 0 => .error (.flaw .malformed)
    | room + 1 => do
      collectItems room items
      ending flaw
  | object members flaw =>
    match room with
    | 0 => .error (.flaw .malformed)
    | room + 1 => do
      collectMembers room members
      ending flaw
  | nothing => .error (.flaw .truncated)
  | garbled _ flaw => .error (.flaw flaw)

def collectItems (room : Nat) : List Document → Except Fault Unit
  | [] => .ok ()
  | item :: rest => do
    collect room item
    collectItems room rest

def collectMembers (room : Nat) : List (Document × Document) → Except Fault Unit
  | [] => .ok ()
  | (name, value) :: rest => do
    let _ ← memberName name
    collect room value
    collectMembers room rest

end

def foldMembers {σ : Type} (step : σ → String → Document → Except Fault σ) (flaw : Option Break) :
    List (Document × Document) → σ → Except Fault σ
  | [], state => do
    ending flaw
    .ok state
  | (name, value) :: rest, state => do
    let name ← memberName name
    let state ← step state name value
    foldMembers step flaw rest state

end Document

namespace Reader

def map {α β : Type} (f : α → β) (read : Reader α) : Reader β :=
  fun s d => (read s d).map f

def string : Reader String
  | _, .string literal => ofForm literal.text
  | _, d => .error (d.unlike .string)

def bool : Reader Bool
  | _, .bool b => .ok b
  | _, d => .error (d.unlike .bool)

def word32 : Reader UInt32
  | _, .number numeral => do
    match ← ofForm (numeral.bind Numeral.value) with
    | .integer i =>
      if 0 ≤ i ∧ i < UInt32.size then .ok (UInt32.ofNat i.toNat)
      else .error (.misfit (.range (.integer i) .word32))
    | .float x => .error (.misfit (.type (.float x) .word32))
  | _, d => .error (d.unlike .word32)

def address : Reader Address
  | _, .string literal => do
    match Address.ofHex (← ofForm literal.text) with
    | .ok a => .ok a
    | .error e => .error (.misfit (.address e))
  | _, d => .error (d.unlike .address)

def list {α : Type} (item : Reader α) : Reader (List α)
  | s, .array items flaw => do
    let values ← items.mapM (item s.inner)
    ending flaw
    .ok values
  | _, d => .error (d.unlike .array)

def nullable {α : Type} (value : Reader α) : Reader (Option α)
  | _, .null => .ok none
  | _, .garbled 'n' flaw => .error (.flaw flaw)
  | s, d => (value s d).map some

inductive Alternative (α : Type)
  | bare (value : α)
  | content (read : Reader α)

namespace Alternative

def alone {α : Type} : Alternative α → Except Fault α
  | bare value => .ok value
  | content _ => .error (.misfit (.type .bareAlternative .content))

/-- What the name of an alternative stands for with a document beside it. -/
def beside {α : Type} (s : Setting) (d : Document) : Alternative α → Except Fault α
  | bare value =>
    match d with
    | .null => .ok value
    | d => .error (d.unlike .noContent)
  | content read => read s d

end Alternative

def lookup {α : Type} (known : List (String × Alternative α)) (name : String) :
    Except Fault (Alternative α) :=
  match known.lookup name with
  | some a => .ok a
  | none => .error (.misfit (.unknownAlternative name (known.map (·.1))))

def choice {α : Type} (known : List (String × Alternative α)) : Reader α
  | _, .string literal => do
    let a ← lookup known (← ofForm literal.text)
    a.alone
  | s, .object ((name, value) :: rest) flaw => do
    let a ← lookup known (← name.memberName)
    let chosen ← a.beside s.inner value
    match rest with
    | [] => do
      ending flaw
      .ok chosen
    | _ :: _ => .error (.flaw .malformed)
  | _, .nothing => .error (.flaw .truncated)
  | _, _ => .error (.flaw .malformed)

def names {α : Type} (known : List (String × α)) : Reader α :=
  choice (known.map fun k => (k.1, .bare k.2))

end Reader

/-- A field of a record. One with a default may be left out. -/
structure Field (α : Type) where
  name : String
  read : Reader α
  default : Option α

namespace Field

def required {α : Type} (name : String) (read : Reader α) : Field α :=
  ⟨name, read, none⟩

def optional {α : Type} (name : String) (read : Reader α) (default : α) : Field α :=
  ⟨name, read, some default⟩

end Field

inductive Fields : List Type → Type 1
  | nil : Fields []
  | cons {α : Type} {αs : List Type} (f : Field α) (rest : Fields αs) : Fields (α :: αs)

def Values : List Type → Type
  | [] => Unit
  | α :: αs => α × Values αs

def Slots : List Type → Type
  | [] => Unit
  | α :: αs => Option α × Slots αs

def Maker (β : Type) : List Type → Type
  | [] => β
  | α :: αs => α → Maker β αs

def Maker.apply {β : Type} : {αs : List Type} → Maker β αs → Values αs → β
  | [], make, _ => make
  | _ :: _, make, (v, vs) => Maker.apply (make v) vs

namespace Fields

def count : {αs : List Type} → Fields αs → Nat
  | _, nil => 0
  | _, cons _ rest => rest.count + 1

def emptySlots : (αs : List Type) → Slots αs
  | [] => ()
  | _ :: αs => (none, emptySlots αs)

/-- Takes a member of an object into the field of its name; a member that is none is passed
over. -/
def offer : {αs : List Type} → Fields αs → Setting → Slots αs → String → Document →
    Except Fault (Slots αs)
  | _, nil, _, slots, _, d => do
    d.skip
    .ok slots
  | _, cons f rest, s, (slot, slots), name, d =>
    if name = f.name then
      match slot with
      | some _ => .error (.misfit (.duplicateField f.name))
      | none => do
        let v ← f.read s d
        .ok (some v, slots)
    else do
      let slots ← rest.offer s slots name d
      .ok (slot, slots)

def finish : {αs : List Type} → Fields αs → Slots αs → Except Fault (Values αs)
  | _, nil, _ => .ok ()
  | _, cons f rest, (slot, slots) =>
    match slot.or f.default with
    | none => .error (.misfit (.missingField f.name))
    | some v => do
      let vs ← rest.finish slots
      .ok (v, vs)

def ofMembers {αs : List Type} (fields : Fields αs) (s : Setting)
    (members : List (Document × Document)) (flaw : Option Break) : Except Fault (Values αs) := do
  let slots ← Document.foldMembers (fields.offer s) flaw members (emptySlots αs)
  fields.finish slots

/-- Reads the fields from the items of an array, once so many fields are `done`. An array that is
too short has the length up to the first field that it lacks and that has no default. Items that no
field takes are a misfit where the array was collected, and cannot stand there otherwise. -/
def ofItems : {αs : List Type} → Fields αs → Setting → WantedLength → (done : Nat) →
    List Document → Option Break → Except Fault (Values αs)
  | _, nil, _, _, _, [], flaw => do
    ending flaw
    .ok ()
  | _, nil, s, _, done, items@(_ :: _), _ =>
    if s.collected then .error (.misfit (.length (done + items.length) (.taken done)))
    else .error (.flaw .malformed)
  | _, cons f rest, s, wanted, done, [], flaw => do
    ending flaw
    match f.default with
    | none => .error (.misfit (.length done wanted))
    | some v =>
      let vs ← rest.ofItems s wanted (done + 1) [] flaw
      .ok (v, vs)
  | _, cons f rest, s, wanted, done, item :: items, flaw => do
    let v ← f.read s item
    let vs ← rest.ofItems s wanted (done + 1) items flaw
    .ok (v, vs)

end Fields

namespace Reader

def record {αs : List Type} {β : Type} (name : String) (fields : Fields αs) (make : Maker β αs) :
    Reader β
  | s, .object members flaw => (fields.ofMembers s.inner members flaw).map make.apply
  | s, .array items flaw =>
    (fields.ofItems s.inner (.record name fields.count) 0 items flaw).map make.apply
  | _, d => .error (d.unlike (.record name))

/-- One of the records that a tag selects from, read from what was collected beside the tag. -/
structure Case (β : Type) where
  ofMembers : Setting → List (Document × Document) → Except Fault β
  ofItems : Setting → List Document → Except Fault β

/-- A record with these fields; the label is its name in messages. -/
def Case.record {αs : List Type} {β : Type} (label : String) (fields : Fields αs)
    (make : Maker β αs) : Case β where
  ofMembers s members := (fields.ofMembers s members none).map make.apply
  ofItems s items :=
    (fields.ofItems s (.alternative label fields.count) 0 items none).map make.apply

def selected {β : Type} (known : List (String × Case β)) (d : Document) :
    Except Fault (Case β) := do
  let name ← d.tagName
  match known.lookup name with
  | some c => .ok c
  | none => .error (.misfit (.unknownAlternative name (known.map (·.1))))

/-- Takes a member of a tagged object: the tag selects a case, any other member is collected. -/
def offerTag {β : Type} (tag : String) (known : List (String × Case β)) (s : Setting)
    (found : Option (Case β)) (name : String) (d : Document) : Except Fault (Option (Case β)) :=
  if name = tag then
    match found with
    | some _ => .error (.misfit (.duplicateField tag))
    | none => (selected known d).map some
  else do
    d.collect s.room
    .ok found

/-- A record that a tag selects. In an object the tag is the member named `tag`; since it may come
last, the other members are collected first. In an array the tag is the first item. -/
def tagged {β : Type} (name tag : String) (known : List (String × Case β)) : Reader β
  | s, .object members flaw => do
    match ← Document.foldMembers (offerTag tag known s.inner) flaw members none with
    | none => .error (.misfit (.missingField tag))
    | some c =>
      c.ofMembers { s.inner with collected := true } (members.filter fun m => !m.1.isNamed tag)
  | _, .array [] flaw => do
    ending flaw
    .error (.misfit (.missingField tag))
  | s, .array (first :: items) flaw => do
    let c ← selected known first
    Document.collectItems s.inner.room items
    ending flaw
    c.ofItems { s.inner with collected := true } items
  | _, d => .error (d.unlike (.tagged name))

/-- Reads a whole text. Nothing but space may follow the value. -/
def read {α : Type} (reader : Reader α) (text : String) : Except Fault α := do
  let (d, rest) := Document.scan text
  let v ← reader {} d
  if rest.all Scan.isSpace then .ok v else .error (.flaw .malformed)

end Reader

end AuthorizedCalls.Json
