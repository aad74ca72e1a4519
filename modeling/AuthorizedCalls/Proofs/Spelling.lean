import AuthorizedCalls.Json.Reader
import AuthorizedCalls.Json.Value
import AuthorizedCalls.Proofs.Literals
import Mathlib.Data.List.DropRight

/-!
The texts of JSON documents. A text spells a document (`Spells`) by words, numerals and strings,
each of which its own scanner takes up whole, and by brackets, commas, colons and any space put
around them. Scanning goes the other way: whatever stands behind such a text, if only it does not
go on with a numeral, the document is found and nothing but space is left of the text
(`Spells.finds`). So a text is read as its document is (`Spells.read`).
-/

namespace AuthorizedCalls.Json

/-- A part of a text, with the document that it is meant to spell. -/
structure Piece where
  chars : List Char
  document : Document

def memberChars (m : Piece × Piece) : List Char :=
  m.1.chars ++ ':' :: m.2.chars

theorem intercalate_cons (first : List Char) (rest : List (List Char)) :
    [','].intercalate (first :: rest) = first ++ rest.flatMap (',' :: ·) := by
  induction rest generalizing first with
  | nil => rw [List.intercalate_singleton, List.flatMap_nil, List.append_nil]
  | cons next rest ih =>
      rw [List.intercalate_cons_cons, ih, List.flatMap_cons, List.append_assoc]
      rfl

namespace Scan

def Blank (cs : List Char) : Prop :=
  ∀ c ∈ cs, isSpace c = true

theorem blank_nil : Blank [] :=
  List.forall_mem_nil _

theorem skipSpace_append {space : List Char} (h : Blank space) (cs : List Char) :
    skipSpace (space ++ cs) = skipSpace cs :=
  List.dropWhile_append_of_pos h

theorem skipSpace_cons {c : Char} (cs : List Char) (h : isSpace c = false) :
    skipSpace (c :: cs) = c :: cs := by
  rw [skipSpace, List.dropWhile_cons_of_neg (by simp [h])]

theorem skipSpace_skipSpace (cs : List Char) : skipSpace (skipSpace cs) = skipSpace cs :=
  List.dropWhile_idempotent isSpace cs

theorem isSpace_eq_false {c : Char} (h : c = '-' ∨ Numeral.isDigit c = true) :
    isSpace c = false := by
  rw [← Bool.not_eq_true]
  intro hspace
  simp only [isSpace, Bool.or_eq_true, decide_eq_true_eq] at hspace
  obtain ((rfl | rfl) | rfl) | rfl := hspace <;> exact absurd h (by decide)

theorem ends_of_isSpace {c : Char} (h : isSpace c = true) (cs : List Char) :
    Numeral.Ends (c :: cs) := by
  apply Numeral.ends_cons
  simp only [isSpace, Bool.or_eq_true, decide_eq_true_eq] at h
  obtain ((rfl | rfl) | rfl) | rfl := h <;> decide

theorem value_skipSpace (fuel : Nat) (cs : List Char) :
    value fuel (skipSpace cs) = value fuel cs := by
  cases fuel with
  | zero => rfl
  | succ fuel => rw [value, value, skipSpace_skipSpace]

theorem items_skipSpace (fuel : Nat) (cs : List Char) :
    items fuel (skipSpace cs) = items fuel cs := by
  cases fuel with
  | zero => rfl
  | succ fuel => rw [items, items, value_skipSpace]

theorem members_skipSpace (fuel : Nat) (cs : List Char) :
    members fuel (skipSpace cs) = members fuel cs := by
  cases fuel with
  | zero => rfl
  | succ fuel => rw [members, members, value_skipSpace]

theorem value_number {c : Char} (h : c = '-' ∨ Numeral.isDigit c = true) (fuel : Nat)
    (cs : List Char) : value (fuel + 1) (c :: cs) = numberValue (c :: cs) := by
  rw [value, skipSpace_cons cs (isSpace_eq_false h)]
  split
  · next heq => exact absurd heq (List.cons_ne_nil _ _)
  iterate 6
    · next heq =>
        obtain ⟨rfl, -⟩ := List.cons.inj heq
        exact absurd h (by decide)
  · next heq =>
      obtain ⟨rfl, rfl⟩ := List.cons.inj heq
      rw [if_pos (by simpa using h)]

section Containers

variable {fuel : Nat} {cs behind after : List Char}

theorem value_array_empty (h : skipSpace cs = ']' :: after) :
    value (fuel + 1) ('[' :: cs) = (.array [] none, after) := by
  have hopen : skipSpace ('[' :: cs) = '[' :: cs := skipSpace_cons cs (by decide)
  simp only [value, hopen, h]

theorem value_array {c : Char} {rest : List Char} (h : skipSpace cs = c :: rest) (hc : c ≠ ']') :
    value (fuel + 1) ('[' :: cs) =
      (.array (items fuel cs).1 (items fuel cs).2.1, (items fuel cs).2.2) := by
  have hopen : skipSpace ('[' :: cs) = '[' :: cs := skipSpace_cons cs (by decide)
  have hfirst : items fuel (c :: rest) = items fuel cs := by
    rw [← h, items_skipSpace]
  simp only [value, hopen, h]
  split
  · next heq => exact absurd (List.cons.inj heq).1 hc
  · rw [hfirst]

theorem value_object_empty (h : skipSpace cs = '\x7d' :: after) :
    value (fuel + 1) ('\x7b' :: cs) = (.object [] none, after) := by
  have hopen : skipSpace ('\x7b' :: cs) = '\x7b' :: cs := skipSpace_cons cs (by decide)
  simp only [value, hopen, h]

theorem value_object {c : Char} {rest : List Char} (h : skipSpace cs = c :: rest)
    (hc : c ≠ '\x7d') :
    value (fuel + 1) ('\x7b' :: cs) =
      (.object (members fuel cs).1 (members fuel cs).2.1, (members fuel cs).2.2) := by
  have hopen : skipSpace ('\x7b' :: cs) = '\x7b' :: cs := skipSpace_cons cs (by decide)
  have hfirst : members fuel (c :: rest) = members fuel cs := by
    rw [← h, members_skipSpace]
  simp only [value, hopen, h]
  split
  · next heq => exact absurd (List.cons.inj heq).1 hc
  · rw [hfirst]

theorem items_last {d : Document} (h : value fuel cs = (d, behind))
    (hbehind : skipSpace behind = ']' :: after) : items (fuel + 1) cs = ([d], none, after) := by
  simp only [items, h, hbehind]

theorem items_more {d : Document} (h : value fuel cs = (d, behind))
    (hbehind : skipSpace behind = ',' :: after) :
    items (fuel + 1) cs =
      (d :: (items fuel after).1, (items fuel after).2.1, (items fuel after).2.2) := by
  simp only [items, h, hbehind]

theorem members_last {name d : Document} {between : List Char}
    (hname : value fuel cs = (name, between)) {more : List Char}
    (hcolon : skipSpace between = ':' :: more) (hvalue : value fuel more = (d, behind))
    (hbehind : skipSpace behind = '\x7d' :: after) :
    members (fuel + 1) cs = ([(name, d)], none, after) := by
  simp only [members, hname, hcolon, hvalue, hbehind]

theorem members_more {name d : Document} {between : List Char}
    (hname : value fuel cs = (name, between)) {more : List Char}
    (hcolon : skipSpace between = ':' :: more) (hvalue : value fuel more = (d, behind))
    (hbehind : skipSpace behind = ',' :: after) :
    members (fuel + 1) cs =
      ((name, d) :: (members fuel after).1, (members fuel after).2.1,
        (members fuel after).2.2) := by
  simp only [members, hname, hcolon, hvalue, hbehind]

end Containers

/-- Whatever stands behind a text and does not go on with a numeral, the document is found and only
space is left of the text. A unit of fuel for every character is enough. -/
def Finds (cs : List Char) (d : Document) : Prop :=
  ∃ space, Blank space ∧ ∀ fuel tail, cs.length ≤ fuel → Numeral.Ends tail →
    value fuel (cs ++ tail) = (d, space ++ tail)

theorem skipSpace_before {space : List Char} (h : Blank space) {c : Char}
    (hc : isSpace c = false) (cs : List Char) : skipSpace (space ++ c :: cs) = c :: cs := by
  rw [skipSpace_append h, skipSpace_cons cs hc]

theorem items_intercalate {texts : List Piece} (hne : texts ≠ [])
    (h : ∀ t ∈ texts, Finds t.chars t.document) (fuel : Nat) (tail : List Char)
    (hfuel : ([','].intercalate (texts.map Piece.chars)).length < fuel) :
    items fuel ([','].intercalate (texts.map Piece.chars) ++ ']' :: tail) =
      (texts.map Piece.document, none, tail) := by
  induction texts generalizing fuel with
  | nil => exact absurd rfl hne
  | cons t texts ih =>
      obtain ⟨⟨space, hspace, hvalue⟩, h⟩ := List.forall_mem_cons.mp h
      obtain ⟨fuel, rfl⟩ := Nat.exists_eq_add_of_le' (Nat.zero_lt_of_lt hfuel)
      by_cases hlast : texts = []
      · subst hlast
        rw [List.map_singleton, List.intercalate_singleton] at hfuel ⊢
        exact items_last (hvalue fuel _ (Nat.le_of_lt_succ hfuel) (Numeral.ends_cons (by decide)))
          (skipSpace_before hspace (by decide) tail)
      · have hmap : texts.map Piece.chars ≠ [] := fun hnil => hlast (List.map_eq_nil_iff.mp hnil)
        rw [List.map_cons, List.intercalate_cons_of_ne_nil hmap] at hfuel ⊢
        simp only [List.length_append, List.length_singleton] at hfuel
        have hrest := ih hlast h fuel (by omega)
        rw [List.append_assoc, List.append_assoc, List.singleton_append]
        rw [items_more (hvalue fuel _ (by omega) (Numeral.ends_cons (by decide)))
          (skipSpace_before hspace (by decide) _), hrest, List.map_cons]

theorem members_intercalate {texts : List (Piece × Piece)} (hne : texts ≠ [])
    (h : ∀ t ∈ texts, Finds t.1.chars t.1.document ∧ Finds t.2.chars t.2.document) (fuel : Nat)
    (tail : List Char) (hfuel : ([','].intercalate (texts.map memberChars)).length < fuel) :
    members fuel ([','].intercalate (texts.map memberChars) ++ '\x7d' :: tail) =
      (texts.map fun t => (t.1.document, t.2.document), none, tail) := by
  induction texts generalizing fuel with
  | nil => exact absurd rfl hne
  | cons t texts ih =>
      obtain ⟨⟨⟨between, hbetween, hname⟩, space, hspace, hvalue⟩, h⟩ := List.forall_mem_cons.mp h
      obtain ⟨fuel, rfl⟩ := Nat.exists_eq_add_of_le' (Nat.zero_lt_of_lt hfuel)
      have hcolon (cs : List Char) : Numeral.Ends (':' :: cs) := Numeral.ends_cons (by decide)
      by_cases hlast : texts = []
      · subst hlast
        rw [List.map_singleton, List.intercalate_singleton, memberChars] at hfuel ⊢
        simp only [List.length_append, List.length_cons] at hfuel
        rw [List.append_assoc, List.cons_append]
        exact members_last (hname fuel _ (by omega) (hcolon _))
          (skipSpace_before hbetween (by decide) _)
          (hvalue fuel _ (by omega) (Numeral.ends_cons (by decide)))
          (skipSpace_before hspace (by decide) tail)
      · have hmap : texts.map memberChars ≠ [] := fun hnil => hlast (List.map_eq_nil_iff.mp hnil)
        rw [List.map_cons, List.intercalate_cons_of_ne_nil hmap, memberChars] at hfuel ⊢
        simp only [List.length_append, List.length_cons, List.length_nil] at hfuel
        have hrest := ih hlast h fuel (by omega)
        simp only [List.append_assoc, List.cons_append, List.nil_append]
        rw [members_more (hname fuel _ (by omega) (hcolon _))
          (skipSpace_before hbetween (by decide) _)
          (hvalue fuel _ (by omega) (Numeral.ends_cons (by decide)))
          (skipSpace_before hspace (by decide) _), hrest, List.map_cons]

end Scan

open Scan (Blank Finds)

/-- The texts of a document, with any space around them. -/
inductive Spells : List Char → Document → Prop
  | null : Spells ['n', 'u', 'l', 'l'] .null
  | bool (b : Bool) : Spells (Value.ofBool b) (.bool b)
  | number {cs : List Char} {n : Numeral} (h : Numeral.scan cs = .ok (n, [])) :
      Spells cs (.number (.ok n))
  | string {cs : List Char} (h : Scan.passText cs = .ok []) :
      Spells ('"' :: cs) (.string ⟨(Scan.text cs).map String.ofList, none⟩)
  | array {space : List Char} (hspace : Blank space) (items : List Piece)
      (hitems : ∀ t ∈ items, Spells t.chars t.document) :
      Spells ('[' :: (space ++ ([','].intercalate (items.map Piece.chars) ++ [']'])))
        (.array (items.map Piece.document) none)
  | object {space : List Char} (hspace : Blank space) (members : List (Piece × Piece))
      (hstrings : ∀ t ∈ members, ∃ literal, t.1.document = .string literal)
      (hnames : ∀ t ∈ members, Spells t.1.chars t.1.document)
      (hvalues : ∀ t ∈ members, Spells t.2.chars t.2.document) :
      Spells ('\x7b' :: (space ++ ([','].intercalate (members.map memberChars) ++ ['\x7d'])))
        (.object (members.map fun t => (t.1.document, t.2.document)) none)
  | before {c : Char} (hc : Scan.isSpace c = true) {cs : List Char} {d : Document}
      (h : Spells cs d) : Spells (c :: cs) d
  | after {cs : List Char} {d : Document} (h : Spells cs d) {c : Char}
      (hc : Scan.isSpace c = true) : Spells (cs ++ [c]) d

namespace Spells

variable {cs : List Char} {d : Document}

/-- A text begins with something that neither is space nor closes a container. -/
theorem skipSpace_append (h : Spells cs d) (tail : List Char) :
    ∃ c rest, Scan.skipSpace (cs ++ tail) = c :: rest ∧ c ≠ ']' ∧ c ≠ '\x7d' := by
  induction h generalizing tail with
  | null => exact ⟨_, _, rfl, by decide, by decide⟩
  | bool b => cases b <;> exact ⟨_, _, rfl, by decide, by decide⟩
  | number h =>
      obtain ⟨c, rest, rfl, hc⟩ := Numeral.exists_cons_of_scan h
      refine ⟨c, rest ++ tail, Scan.skipSpace_cons _ (Scan.isSpace_eq_false hc), ?_, ?_⟩ <;>
        · rintro rfl
          exact absurd hc (by decide)
  | string _ | array _ _ _ _ | object _ _ _ _ _ _ _ =>
      exact ⟨_, _, Scan.skipSpace_cons _ (by decide), by decide, by decide⟩
  | @before c hc cs d _ ih =>
      rw [List.cons_append, ← List.singleton_append, Scan.skipSpace_append (by simpa [Blank])]
      exact ih tail
  | @after cs d _ c _ ih =>
      rw [List.append_assoc]
      exact ih _

theorem finds_of {cs : List Char} {d : Document} (hne : cs ≠ [])
    (h : ∀ fuel tail, cs.length ≤ fuel + 1 → Numeral.Ends tail →
      Scan.value (fuel + 1) (cs ++ tail) = (d, tail)) : Finds cs d := by
  refine ⟨[], Scan.blank_nil, fun fuel tail hfuel htail => ?_⟩
  obtain ⟨fuel, rfl⟩ :=
    Nat.exists_eq_add_of_le' (Nat.lt_of_lt_of_le (List.length_pos_iff.mpr hne) hfuel)
  exact h fuel tail hfuel htail

theorem finds_array {space : List Char} (hspace : Blank space)
    {items : List Piece} (hitems : ∀ t ∈ items, Spells t.chars t.document)
    (hfinds : ∀ t ∈ items, Finds t.chars t.document) :
    Finds ('[' :: (space ++ ([','].intercalate (items.map Piece.chars) ++ [']'])))
      (.array (items.map Piece.document) none) := by
  refine finds_of (List.cons_ne_nil _ _) fun fuel tail hfuel _ => ?_
  simp only [List.length_cons, List.length_append] at hfuel
  simp only [List.cons_append, List.append_assoc, List.nil_append]
  cases items with
  | nil => exact Scan.value_array_empty (Scan.skipSpace_before hspace (by decide) tail)
  | cons t items =>
      have hread := Scan.items_intercalate (List.cons_ne_nil t items) hfinds fuel tail (by omega)
      obtain ⟨c, rest, hfirst, hc, -⟩ := (hitems t List.mem_cons_self).skipSpace_append
        ((items.map Piece.chars).flatMap (',' :: ·) ++ ']' :: tail)
      rw [← List.append_assoc, ← intercalate_cons, ← List.map_cons (f := Piece.chars),
        ← Scan.skipSpace_append hspace] at hfirst
      rw [Scan.value_array hfirst hc, ← Scan.items_skipSpace, Scan.skipSpace_append hspace,
        Scan.items_skipSpace, hread]

theorem finds_object {space : List Char} (hspace : Blank space)
    {members : List (Piece × Piece)}
    (hnames : ∀ t ∈ members, Spells t.1.chars t.1.document)
    (hfinds : ∀ t ∈ members, Finds t.1.chars t.1.document ∧ Finds t.2.chars t.2.document) :
    Finds ('\x7b' :: (space ++ ([','].intercalate (members.map memberChars) ++ ['\x7d'])))
      (.object (members.map fun t => (t.1.document, t.2.document)) none) := by
  refine finds_of (List.cons_ne_nil _ _) fun fuel tail hfuel _ => ?_
  simp only [List.length_cons, List.length_append] at hfuel
  simp only [List.cons_append, List.append_assoc, List.nil_append]
  cases members with
  | nil => exact Scan.value_object_empty (Scan.skipSpace_before hspace (by decide) tail)
  | cons t members =>
      have hread :=
        Scan.members_intercalate (List.cons_ne_nil t members) hfinds fuel tail (by omega)
      obtain ⟨c, rest, hfirst, -, hc⟩ := (hnames t List.mem_cons_self).skipSpace_append
        (':' :: t.2.chars ++ ((members.map memberChars).flatMap (',' :: ·) ++ '\x7d' :: tail))
      rw [← List.append_assoc, ← memberChars, ← List.append_assoc, ← intercalate_cons,
        ← List.map_cons (f := memberChars), ← Scan.skipSpace_append hspace] at hfirst
      rw [Scan.value_object hfirst hc, ← Scan.members_skipSpace, Scan.skipSpace_append hspace,
        Scan.members_skipSpace, hread]

/-- Scanning finds what a text spells. -/
theorem finds (h : Spells cs d) : Finds cs d := by
  induction h with
  | null => exact finds_of (List.cons_ne_nil _ _) fun _ _ _ _ => rfl
  | bool b =>
      cases b <;> exact finds_of (List.cons_ne_nil _ _) fun _ _ _ _ => rfl
  | @number cs n h =>
      obtain ⟨c, rest, rfl, hc⟩ := Numeral.exists_cons_of_scan h
      refine finds_of (List.cons_ne_nil _ _) fun fuel tail _ htail => ?_
      have happend := Numeral.scan_append htail h
      rw [List.cons_append] at happend ⊢
      rw [Scan.value_number hc, Scan.numberValue, happend]
      rfl
  | string h =>
      exact finds_of (List.cons_ne_nil _ _) fun _ tail _ _ => Scan.stringValue_append h tail
  | array hspace _ hitems ih => exact finds_array hspace hitems ih
  | object hspace _ _ hnames _ ihNames ihValues =>
      exact finds_object hspace hnames fun t ht => ⟨ihNames t ht, ihValues t ht⟩
  | @before c hc cs d _ ih =>
      obtain ⟨space, hspace, hvalue⟩ := ih
      refine ⟨space, hspace, fun fuel tail hfuel htail => ?_⟩
      have hblank : Blank [c] := List.forall_mem_singleton.mpr hc
      rw [← Scan.value_skipSpace, List.cons_append, ← List.singleton_append,
        Scan.skipSpace_append hblank, Scan.value_skipSpace]
      exact hvalue fuel tail (Nat.le_of_succ_le hfuel) htail
  | @after cs d _ c hc ih =>
      obtain ⟨space, hspace, hvalue⟩ := ih
      refine ⟨space ++ [c], ?_, fun fuel tail hfuel htail => ?_⟩
      · exact List.forall_mem_append.mpr ⟨hspace, List.forall_mem_singleton.mpr hc⟩
      · rw [List.length_append] at hfuel
        rw [List.append_assoc, List.append_assoc]
        exact hvalue fuel _ (Nat.le_of_add_right_le hfuel) (Scan.ends_of_isSpace hc tail)

theorem scan (h : Spells cs d) :
    ∃ space, Blank space ∧ Document.scan (String.ofList cs) = (d, space) := by
  obtain ⟨space, hspace, hvalue⟩ := h.finds
  have hwhole := hvalue (2 * cs.length + 2) [] (by omega) Numeral.ends_nil
  rw [List.append_nil, List.append_nil] at hwhole
  refine ⟨space, hspace, ?_⟩
  rw [Document.scan, String.toList_ofList]
  exact hwhole

theorem unique {other : Document} (h : Spells cs d) (hother : Spells cs other) : d = other := by
  obtain ⟨space, -, hscan⟩ := h.scan
  obtain ⟨otherSpace, -, hscan'⟩ := hother.scan
  rw [hscan] at hscan'
  exact (Prod.mk.inj hscan').1

theorem read {α : Type} (h : Spells cs d) (reader : Reader α) :
    reader.read (String.ofList cs) = reader {} d := by
  obtain ⟨space, hspace, hscan⟩ := h.scan
  have hall : space.all Scan.isSpace = true := List.all_eq_true.mpr hspace
  rw [Reader.read, hscan]
  dsimp only [bind, Except.bind]
  cases reader {} d with
  | error fault => rfl
  | ok v => exact if_pos hall

theorem prepend {space : List Char} (hspace : Blank space) (h : Spells cs d) :
    Spells (space ++ cs) d := by
  induction space with
  | nil => exact h
  | cons c space ih =>
      obtain ⟨hc, hspace⟩ := List.forall_mem_cons.mp hspace
      exact .before hc (ih hspace)

theorem append {space : List Char} (hspace : Blank space) (h : Spells cs d) :
    Spells (cs ++ space) d := by
  induction space generalizing cs with
  | nil => rwa [List.append_nil]
  | cons c space ih =>
      obtain ⟨hc, hspace⟩ := List.forall_mem_cons.mp hspace
      rw [← List.singleton_append, ← List.append_assoc]
      exact ih hspace (.after h hc)

end Spells

structure Space where
  chars : List Char
  blank : Blank chars

structure ValueText extends Piece where
  spells : Spells chars document

structure MemberText where
  name : ValueText
  value : ValueText
  named : ∃ literal, name.document = .string literal

/-- A text of an object, with the space in front of it, behind its opening brace and behind it. -/
structure ObjectText where
  before : Space
  inside : Space
  after : Space
  members : List MemberText

/-- A text of an array, with the space in front of it, behind its opening bracket and behind it. -/
structure ArrayText where
  before : Space
  inside : Space
  after : Space
  items : List ValueText

namespace MemberText

def pieces (m : MemberText) : Piece × Piece :=
  (m.name.toPiece, m.value.toPiece)

def documents (m : MemberText) : Document × Document :=
  (m.name.document, m.value.document)

def Bears (m : MemberText) (name : String) : Prop :=
  m.name.document.memberName = .ok name

theorem Bears.memberName {m : MemberText} {name : String} (h : m.Bears name) :
    m.documents.1.memberName = .ok name :=
  h

end MemberText

namespace ObjectText

def chars (o : ObjectText) : List Char :=
  '\x7b' :: (o.inside.chars ++
    ([','].intercalate (o.members.map fun m => memberChars m.pieces) ++ ['\x7d']))

def text (o : ObjectText) : String :=
  String.ofList (o.before.chars ++ (o.chars ++ o.after.chars))

def documents (o : ObjectText) : List (Document × Document) :=
  o.members.map MemberText.documents

theorem mem_documents {o : ObjectText} {m : MemberText} (h : m ∈ o.members) :
    m.documents ∈ o.documents :=
  List.mem_map_of_mem h

theorem spells (o : ObjectText) : Spells o.chars (.object o.documents none) := by
  have hobject := Spells.object o.inside.blank (o.members.map MemberText.pieces)
    (List.forall_mem_map.mpr fun m _ => m.named)
    (List.forall_mem_map.mpr fun m _ => m.name.spells)
    (List.forall_mem_map.mpr fun m _ => m.value.spells)
  rwa [List.map_map, List.map_map] at hobject

theorem read_text (o : ObjectText) {α : Type} (reader : Reader α) :
    reader.read o.text = reader {} (.object o.documents none) :=
  ((o.spells.append o.after.blank).prepend o.before.blank).read reader

end ObjectText

namespace ArrayText

def chars (a : ArrayText) : List Char :=
  '[' :: (a.inside.chars ++ ([','].intercalate (a.items.map fun v => v.chars) ++ [']']))

def text (a : ArrayText) : String :=
  String.ofList (a.before.chars ++ (a.chars ++ a.after.chars))

def documents (a : ArrayText) : List Document :=
  a.items.map fun v => v.document

theorem spells (a : ArrayText) : Spells a.chars (.array a.documents none) := by
  have harray := Spells.array a.inside.blank (a.items.map ValueText.toPiece)
    (List.forall_mem_map.mpr fun v _ => v.spells)
  rwa [List.map_map, List.map_map] at harray

theorem read_text (a : ArrayText) {α : Type} (reader : Reader α) :
    reader.read a.text = reader {} (.array a.documents none) :=
  ((a.spells.append a.after.blank).prepend a.before.blank).read reader

end ArrayText

end AuthorizedCalls.Json
