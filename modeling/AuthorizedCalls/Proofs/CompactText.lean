import AuthorizedCalls.Proofs.Spelling

namespace AuthorizedCalls.Json

def Numeral.ofNat (n : Nat) : Numeral where
  negative := false
  whole := Nat.toDigits 10 n

def Document.ofString (s : String) : Document :=
  .string ⟨.ok s, none⟩

namespace Value

mutual

def document : Value → Document
  | null => .null
  | bool b => .bool b
  | number n => .number (.ok (.ofNat n))
  | string s => .ofString s
  | array items => .array (documents items) none
  | object members => .object (memberDocuments members) none

def documents : List Value → List Document
  | [] => []
  | item :: rest => document item :: documents rest

def memberDocuments : List (String × Value) → List (Document × Document)
  | [] => []
  | (name, value) :: rest => (.ofString name, document value) :: memberDocuments rest

end

end Value

namespace Numeral

theorem isDigit_of_mem_toDigits {n : Nat} {c : Char} (h : c ∈ Nat.toDigits 10 n) :
    isDigit c = true := by
  have hdigit := Nat.isDigit_of_mem_toDigits (by decide) (by decide) h
  simpa [Char.isDigit, isDigit, Char.le_def] using hdigit

theorem head?_toDigits_ne {n : Nat} (h : 0 < n) : (Nat.toDigits 10 n).head? ≠ some '0' := by
  induction n using Nat.strongRecOn with
  | ind n ih =>
      by_cases hsmall : n < 10
      · have hall : ∀ m : Fin 10, 0 < m.val → Nat.digitChar m ≠ '0' := by decide
        rw [Nat.toDigits_of_lt_base hsmall, List.head?_cons, ne_eq, Option.some.injEq]
        exact hall ⟨n, hsmall⟩ h
      · rw [Nat.toDigits_of_base_le (by decide) (by omega),
          List.head?_append_of_ne_nil _ Nat.toDigits_ne_nil]
        exact ih (n / 10) (by omega) (by omega)

theorem exists_toDigits_eq_cons (n : Nat) :
    ∃ d ds, Nat.toDigits 10 n = d :: ds ∧ isDigit d = true := by
  obtain ⟨d, ds, hds⟩ := List.exists_cons_of_ne_nil (Nat.toDigits_ne_nil (n := n) (b := 10))
  exact ⟨d, ds, hds, isDigit_of_mem_toDigits (hds ▸ List.mem_cons_self)⟩

theorem someDigits_toDigits (n : Nat) :
    someDigits (Nat.toDigits 10 n) = .ok (Nat.toDigits 10 n, []) := by
  have hdigits : digits (Nat.toDigits 10 n) = (Nat.toDigits 10 n, []) := by
    rw [digits, List.span_eq_takeWhile_dropWhile, Prod.mk.injEq, List.takeWhile_eq_self_iff,
      List.dropWhile_eq_nil_iff]
    exact ⟨fun _ => isDigit_of_mem_toDigits, fun _ => isDigit_of_mem_toDigits⟩
  obtain ⟨d, ds, hds, hd⟩ := exists_toDigits_eq_cons n
  rw [hds] at hdigits ⊢
  rw [someDigits, if_pos hd, hdigits]

theorem scanWhole_toDigits (n : Nat) :
    scanWhole (Nat.toDigits 10 n) = .ok (Nat.toDigits 10 n, []) := by
  rw [scanWhole_eq, someDigits_toDigits, Except.bind]
  dsimp only
  split
  · next hzero =>
      rcases Nat.eq_zero_or_pos n with rfl | hpos
      · simp [Nat.toDigits_of_lt_base] at hzero
      · exact absurd (congrArg List.head? hzero) (head?_toDigits_ne hpos)
  · rfl

theorem sign_toDigits (n : Nat) : sign (Nat.toDigits 10 n) = (false, Nat.toDigits 10 n) := by
  obtain ⟨d, ds, hds, hd⟩ := exists_toDigits_eq_cons n
  rw [hds, sign_cons, if_neg]
  rintro rfl
  exact absurd hd (by decide)

theorem scan_toDigits (n : Nat) : scan (Nat.toDigits 10 n) = .ok (ofNat n, []) := by
  rw [scan_eq, sign_toDigits, scanWhole_toDigits]
  rfl

theorem le_ofDigitChars (ds : List Char) (m : Nat) : m ≤ Nat.ofDigitChars 10 ds m := by
  induction ds generalizing m with
  | nil => exact Nat.le_refl m
  | cons d ds ih => exact Nat.le_trans (by omega) (ih (10 * m + (d.toNat - '0'.toNat)))

theorem accumulate_eq_ofDigitChars (ds : List Char) (m : Nat)
    (h : Nat.ofDigitChars 10 ds m < UInt64.size) :
    accumulate m ds = (Nat.ofDigitChars 10 ds m, []) := by
  induction ds generalizing m with
  | nil => rfl
  | cons d ds ih =>
      have hfits : 10 * m + digitValue d < UInt64.size :=
        Nat.lt_of_le_of_lt (le_ofDigitChars ds _) h
      rw [accumulate, if_pos hfits]
      exact ih _ h

theorem value_ofNat {n : Nat} (h : n < UInt64.size) : (ofNat n).value = .ok (.integer n) := by
  have hdigits := Nat.ofDigitChars_toDigits (n := n) (b := 10) (by decide) (by decide)
  have hwhole := accumulate_eq_ofDigitChars (Nat.toDigits 10 n) 0 (hdigits.symm ▸ h)
  rw [hdigits] at hwhole
  simp [value, integer?, ofNat, hwhole]

end Numeral

namespace Scan

theorem fourDigits_digits {n : Nat} (h : n < Text.Hex.count 4) (cs : List Char) :
    fourDigits (Text.Hex.digits 4 n ++ cs) = .ok n := by
  have hall : (Text.Hex.digits 4 n).all Text.Hex.isDigit :=
    List.all_eq_true.mpr fun _ hc => Text.Hex.isDigit_of_mem_digits hc
  have hvalue : Text.Hex.value (Text.Hex.digits 4 n) = n := by
    rw [Text.Hex.value_digits]
    exact Nat.mod_eq_of_lt h
  simp only [Text.Hex.digits] at hall hvalue ⊢
  simp only [List.cons_append, List.nil_append, fourDigits]
  rw [if_pos hall, hvalue]

theorem escape_control {c : Char} (h : c.toNat < 0x20) (cs : List Char) :
    escape ('u' :: (Text.Hex.digits 4 c.toNat ++ cs)) = .ok (c, 5) := by
  have hdigits : fourDigits (Text.Hex.digits 4 c.toNat ++ cs) = .ok c.toNat :=
    fourDigits_digits (Nat.lt_trans h (by decide)) cs
  rw [escape, hdigits]
  have hlow : ¬ (0xdc00 ≤ c.toNat ∧ c.toNat ≤ 0xdfff) := by omega
  have hhigh : ¬ (0xd800 ≤ c.toNat ∧ c.toNat ≤ 0xdbff) := by omega
  dsimp only [bind, Except.bind]
  rw [if_neg hlow, if_neg hhigh, Char.ofNat_toNat]

/-- A character stands for itself, or is spelled after a backslash in a way that both reading and
passing over take for that character. -/
theorem escape_cases (c : Char) :
    (Value.escape c = [c] ∧ c ≠ '"' ∧ c ≠ '\\' ∧ ¬ c.toNat < 0x20) ∨
      ∃ spelling, Value.escape c = '\\' :: spelling ∧
        ∀ cs, escape (spelling ++ cs) = .ok (c, spelling.length) ∧
          passEscape (spelling ++ cs) = .ok spelling.length := by
  unfold Value.escape
  split_ifs with hquote hslash hline hreturn htab hback hfeed hcontrol
  iterate 7
    · subst c
      exact .inr ⟨_, rfl, fun _ => ⟨rfl, rfl⟩⟩
  · refine .inr ⟨_, rfl, fun cs => ⟨escape_control hcontrol cs, ?_⟩⟩
    have hdigits : fourDigits (Text.Hex.digits 4 c.toNat ++ cs) = .ok c.toNat :=
      fourDigits_digits (Nat.lt_trans hcontrol (by decide)) cs
    rw [List.cons_append, passEscape, hdigits]
    rfl
  · exact .inl ⟨rfl, hquote, hslash, hcontrol⟩

theorem text_escape (c : Char) (cs : List Char) :
    text (Value.escape c ++ cs) = (text cs).map (c :: ·) := by
  rcases escape_cases c with ⟨hself, hquote, hslash, hcontrol⟩ | ⟨spelling, hspelling, hread⟩
  · rw [hself, List.singleton_append, text, if_neg hcontrol]
    · exact hquote
    · exact hslash
  · rw [hspelling, List.cons_append, text, (hread cs).1]
    dsimp only
    rw [List.drop_left]

theorem passText_escape (c : Char) (cs : List Char) :
    passText (Value.escape c ++ cs) = passText cs := by
  rcases escape_cases c with ⟨hself, hquote, hslash, hcontrol⟩ | ⟨spelling, hspelling, hread⟩
  · rw [hself, List.singleton_append, passText, if_neg hcontrol]
    · exact hquote
    · exact hslash
  · rw [hspelling, List.cons_append, passText, (hread cs).2]
    dsimp only
    rw [List.drop_left]

theorem text_flatMap_escape (s rest : List Char) :
    text (s.flatMap Value.escape ++ '"' :: rest) = .ok s := by
  induction s with
  | nil => rw [List.flatMap_nil, List.nil_append, text]
  | cons c s ih =>
      rw [List.flatMap_cons, List.append_assoc, text_escape, ih]
      rfl

theorem passText_flatMap_escape (s rest : List Char) :
    passText (s.flatMap Value.escape ++ '"' :: rest) = .ok rest := by
  induction s with
  | nil => rw [List.flatMap_nil, List.nil_append, passText]
  | cons c s ih => rw [List.flatMap_cons, List.append_assoc, passText_escape, ih]

end Scan

namespace Value

theorem documents_eq_map (vs : List Value) : documents vs = vs.map document := by
  induction vs with
  | nil => rfl
  | cons v vs ih => rw [documents, List.map_cons, ih]

theorem memberDocuments_eq_map (ms : List (String × Value)) :
    memberDocuments ms = ms.map fun m => (.ofString m.1, m.2.document) := by
  induction ms with
  | nil => rfl
  | cons m ms ih => rw [memberDocuments, List.map_cons, ih]

def piece (v : Value) : Piece :=
  ⟨v.chars, v.document⟩

def memberPieces (m : String × Value) : Piece × Piece :=
  ((string m.1).piece, m.2.piece)

theorem restItems_eq (items : List Value) :
    restItems items = (items.map chars).flatMap (',' :: ·) ++ [']'] := by
  induction items with
  | nil => rfl
  | cons item items ih =>
      rw [restItems, ih, List.map_cons, List.flatMap_cons, List.append_assoc]
      rfl

theorem restMembers_eq (members : List (String × Value)) :
    restMembers members =
      (members.map fun m => memberChars (memberPieces m)).flatMap (',' :: ·) ++ ['\x7d'] := by
  induction members with
  | nil => rfl
  | cons m members ih =>
      rw [restMembers, ih, List.map_cons, List.flatMap_cons, memberChars, List.append_assoc,
        List.cons_append, List.append_assoc]
      rfl

theorem spells_quoted (s : String) : Spells (quoted s) (.ofString s) := by
  have hspells := Spells.string (Scan.passText_flatMap_escape s.toList [])
  rwa [Scan.text_flatMap_escape, Except.map, String.ofList_toList] at hspells

mutual

/-- The compact text of a value spells its document. -/
theorem spells : ∀ v : Value, Spells v.chars v.document
  | null => .null
  | bool b => .bool b
  | number n => .number (Numeral.scan_toDigits n)
  | string s => spells_quoted s
  | array [] => .array Scan.blank_nil [] (List.forall_mem_nil _)
  | array (item :: items) => by
      have harray := Spells.array Scan.blank_nil ((item :: items).map piece)
        (List.forall_mem_map.mpr (spells_items (item :: items)))
      rw [List.map_map, List.map_map, List.map_cons, intercalate_cons, List.append_assoc] at harray
      rw [chars, restItems_eq, document, documents_eq_map]
      exact harray
  | object [] => .object Scan.blank_nil [] (List.forall_mem_nil _)
      (List.forall_mem_nil _) (List.forall_mem_nil _)
  | object ((name, value) :: members) => by
      have hobject := Spells.object Scan.blank_nil
        (((name, value) :: members).map memberPieces)
        (List.forall_mem_map.mpr fun _ _ => ⟨_, rfl⟩)
        (List.forall_mem_map.mpr fun m _ => spells_quoted m.1)
        (List.forall_mem_map.mpr (spells_members ((name, value) :: members)))
      rw [List.map_map, List.map_map, List.map_cons, intercalate_cons, List.append_assoc,
        Function.comp_apply, memberChars, List.append_assoc, List.cons_append] at hobject
      rw [chars, restMembers_eq, document, memberDocuments_eq_map]
      exact hobject

theorem spells_items : ∀ vs : List Value, ∀ v ∈ vs, Spells v.chars v.document
  | [] => List.forall_mem_nil _
  | v :: vs => List.forall_mem_cons.mpr ⟨spells v, spells_items vs⟩

theorem spells_members : ∀ ms : List (String × Value), ∀ m ∈ ms, Spells m.2.chars m.2.document
  | [] => List.forall_mem_nil _
  | (_, v) :: ms => List.forall_mem_cons.mpr ⟨spells v, spells_members ms⟩

end

end Value

namespace Document

@[simp] theorem ofString_inj {s t : String} : ofString s = ofString t ↔ s = t := by
  simp [ofString]

end Document

theorem Numeral.ofNat_injective : Function.Injective Numeral.ofNat := by
  intro m n h
  have hread (k : Nat) := Nat.ofDigitChars_toDigits (n := k) (b := 10) (by decide) (by decide)
  have hdigits : Nat.toDigits 10 m = Nat.toDigits 10 n := congrArg Numeral.whole h
  rw [← hread m, hdigits, hread n]

namespace Value

mutual

theorem eq_of_document_eq : ∀ {v w : Value}, v.document = w.document → v = w
  | null, w, h => by
      cases w with
      | null => rfl
      | _ => cases h
  | bool b, w, h => by
      cases w with
      | bool c =>
          cases h
          rfl
      | _ => cases h
  | number m, w, h => by
      cases w with
      | number n =>
          simp only [document, Document.number.injEq, Except.ok.injEq] at h
          rw [Numeral.ofNat_injective h]
      | _ => cases h
  | string s, w, h => by
      cases w with
      | string t => rw [Document.ofString_inj.mp h]
      | _ => cases h
  | array items, w, h => by
      cases w with
      | array others =>
          simp only [document, Document.array.injEq, and_true] at h
          rw [eq_of_documents_eq h]
      | _ => cases h
  | object members, w, h => by
      cases w with
      | object others =>
          simp only [document, Document.object.injEq, and_true] at h
          rw [eq_of_memberDocuments_eq h]
      | _ => cases h

theorem eq_of_documents_eq : ∀ {vs ws : List Value}, documents vs = documents ws → vs = ws
  | [], ws, h => by
      cases ws with
      | nil => rfl
      | cons w ws => cases h
  | v :: vs, ws, h => by
      cases ws with
      | nil => cases h
      | cons w ws =>
          obtain ⟨hhead, htail⟩ := List.cons.inj h
          rw [eq_of_document_eq hhead, eq_of_documents_eq htail]

theorem eq_of_memberDocuments_eq : ∀ {ms ns : List (String × Value)},
    memberDocuments ms = memberDocuments ns → ms = ns
  | [], ns, h => by
      cases ns with
      | nil => rfl
      | cons n ns => cases h
  | (name, v) :: ms, ns, h => by
      rcases ns with _ | ⟨⟨other, w⟩, ns⟩
      · cases h
      · obtain ⟨hhead, htail⟩ := List.cons.inj h
        obtain ⟨hname, hvalue⟩ := Prod.mk.inj hhead
        rw [Document.ofString_inj.mp hname, eq_of_document_eq hvalue,
          eq_of_memberDocuments_eq htail]

end

/-- Whatever stands in its strings, a text is that of one value. -/
@[simp] theorem compact_inj {v w : Value} : v.compact = w.compact ↔ v = w := by
  constructor
  · intro h
    have hspells : Spells v.chars w.document := String.ofList_injective h ▸ w.spells
    exact eq_of_document_eq (v.spells.unique hspells)
  · rintro rfl
    rfl

end Value

end AuthorizedCalls.Json
