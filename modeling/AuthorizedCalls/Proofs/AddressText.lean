import Mathlib.Algebra.Order.Floor.Div
import Mathlib.Data.Nat.Digits.Lemmas
import AuthorizedCalls.Address
import AuthorizedCalls.Proofs.Utf8Order

namespace AuthorizedCalls.Address

open Text

/-- The number that digits spell, the most significant first. -/
def number (base : Nat) (digits : List Nat) : Nat :=
  Nat.ofDigits base digits.reverse

theorem number_cons (base d : Nat) (digits : List Nat) :
    number base (d :: digits) = number base digits + base ^ digits.length * d :=
  Nat.ofDigits_reverse_cons digits d

theorem number_eq_foldl (base : Nat) (digits : List Nat) :
    number base digits = digits.foldl (fun n d => base * n + d) 0 := by
  rw [number, Nat.ofDigits_eq_foldr, List.foldr_reverse]
  simp only [Nat.cast_id, Nat.add_comm]

theorem number_lt {base : Nat} {digits : List Nat} (hbase : 1 < base)
    (hdigits : ∀ d ∈ digits, d < base) : number base digits < base ^ digits.length := by
  rw [← List.length_reverse]
  exact Nat.ofDigits_lt_base_pow_length hbase fun d hd => hdigits d (List.mem_reverse.mp hd)

theorem number_dropWhile (base : Nat) (digits : List Nat) :
    number base (digits.dropWhile (· == 0)) = number base digits := by
  induction digits with
  | nil => rfl
  | cons d rest ih =>
      rw [List.dropWhile_cons]
      split
      · next hzero =>
          rw [ih, beq_iff_eq.mp hzero, number_cons, Nat.mul_zero, Nat.add_zero]
      · rfl

theorem digits_number {base : Nat} {digits : List Nat} (hbase : 1 < base)
    (hdigits : ∀ d ∈ digits, d < base) :
    (base.digits (number base digits)).reverse = digits.dropWhile (· == 0) := by
  rw [← number_dropWhile, number, Nat.digits_ofDigits base hbase, List.reverse_reverse]
  · intro d hd
    exact hdigits d ((List.dropWhile_suffix _).subset (List.mem_reverse.mp hd))
  · intro hne
    rw [List.getLast_reverse]
    have hhead := List.head_dropWhile_not (· == 0) (List.reverse_ne_nil_iff.mp hne)
    simpa using hhead

/-- Two numbers are the same where their digits from the first that is not zero are. -/
theorem number_inj {base : Nat} {xs ys : List Nat} (hbase : 1 < base)
    (hxs : ∀ d ∈ xs, d < base) (hys : ∀ d ∈ ys, d < base) :
    number base xs = number base ys ↔ xs.dropWhile (· == 0) = ys.dropWhile (· == 0) := by
  rw [← digits_number hbase hxs, ← digits_number hbase hys, List.reverse_inj, Nat.digits_inj_iff]

theorem leading_lt_iff {q r s x y : Nat} (hr : r < q) (hs : s < q) :
    r + q * x < s + q * y ↔ x < y ∨ x = y ∧ r < s := by
  constructor
  · intro h
    rcases Nat.lt_trichotomy x y with hlt | rfl | hgt
    · exact .inl hlt
    · exact .inr ⟨rfl, by omega⟩
    · have hmul : q * (y + 1) ≤ q * x := Nat.mul_le_mul_left q hgt
      rw [Nat.mul_add] at hmul
      omega
  · rintro (hlt | ⟨rfl, hlt⟩)
    · have hmul : q * (x + 1) ≤ q * y := Nat.mul_le_mul_left q hlt
      rw [Nat.mul_add] at hmul
      omega
    · omega

theorem number_lt_number_iff {base : Nat} {xs ys : List Nat} (hbase : 1 < base)
    (hxs : ∀ d ∈ xs, d < base) (hys : ∀ d ∈ ys, d < base) (hlength : xs.length = ys.length) :
    number base xs < number base ys ↔ xs < ys := by
  induction xs generalizing ys with
  | nil =>
      rw [List.length_nil, eq_comm, List.length_eq_zero_iff] at hlength
      subst hlength
      simp
  | cons x xs ih =>
      obtain ⟨y, ys, rfl⟩ := List.exists_cons_of_length_eq_add_one hlength.symm
      rw [List.forall_mem_cons] at hxs hys
      have hlength : xs.length = ys.length := Nat.succ.inj hlength
      have hs := number_lt hbase hys.2
      rw [← hlength] at hs
      rw [number_cons, number_cons, ← hlength, leading_lt_iff (number_lt hbase hxs.2) hs,
        List.cons_lt_cons_iff, ih hxs.2 hys.2 hlength]

/-- The value of a hex digit of either case, by its code. -/
def codeValue? (code : Nat) : Option Nat :=
  if 0x30 ≤ code ∧ code ≤ 0x39 then some (code - 0x30)
  else if 0x61 ≤ code ∧ code ≤ 0x66 then some (code - 0x61 + 10)
  else if 0x41 ≤ code ∧ code ≤ 0x46 then some (code - 0x41 + 10)
  else none

def nibble? (b : UInt8) : Option Nat :=
  codeValue? b.toNat

theorem digitValue?_eq (c : Char) : Hex.digitValue? c = codeValue? c.toNat := rfl

theorem nibble?_eq_none_of_le {b : UInt8} (h : 0x80 ≤ b.toNat) : nibble? b = none := by
  rw [nibble?, codeValue?, if_neg (by omega), if_neg (by omega), if_neg (by omega)]

/-- The bytes are hex digits with these values. -/
def Spells : List UInt8 → List Nat → Prop :=
  List.Forall₂ fun b v => nibble? b = some v

theorem spells_flatMap_iff {cs : List Char} {vals : List Nat} :
    Spells (cs.flatMap String.utf8EncodeChar) vals ↔
      cs.map Hex.digitValue? = vals.map some := by
  induction cs generalizing vals with
  | nil => cases vals <;> simp [Spells]
  | cons c rest ih =>
      rcases Nat.lt_or_ge c.toNat 0x80 with hlt | hle
      · have hbyte : nibble? (.ofNat c.toNat) = Hex.digitValue? c := by
          rw [nibble?, UInt8.toNat_ofNat', Nat.mod_eq_of_lt (by omega), digitValue?_eq]
        rw [List.flatMap_cons, Utf8.utf8EncodeChar_of_lt hlt, List.singleton_append]
        cases vals with
        | nil => simp [Spells]
        | cons v vals =>
            rw [Spells, List.forall₂_cons, hbyte, List.map_cons, List.map_cons, List.cons.injEq]
            exact and_congr_right fun _ => ih
      · obtain ⟨b, others, hencode⟩ :=
          List.exists_cons_of_ne_nil (@String.utf8EncodeChar_ne_nil c)
        have hb : nibble? b = none := nibble?_eq_none_of_le <|
          Utf8.le_toNat_of_mem_utf8EncodeChar hle (hencode ▸ List.mem_cons_self)
        have hc : Hex.digitValue? c = none := by
          rw [digitValue?_eq, codeValue?, if_neg (by omega), if_neg (by omega),
            if_neg (by omega)]
        rw [List.flatMap_cons, hencode]
        cases vals <;> simp [Spells, hb, hc]

theorem exists_spells_iff {digits : List UInt8} :
    (∃ vals, Spells digits vals) ↔ ∀ b ∈ digits, nibble? b ≠ none := by
  induction digits with
  | nil => exact iff_of_true ⟨[], .nil⟩ (by simp)
  | cons b rest ih =>
      rw [List.forall_mem_cons, ← ih]
      constructor
      · rintro ⟨_, h⟩
        cases h with
        | cons hb hrest => exact ⟨by simp [hb], _, hrest⟩
      · rintro ⟨hb, vals, hrest⟩
        obtain ⟨v, hv⟩ := Option.ne_none_iff_exists'.mp hb
        exact ⟨v :: vals, .cons hv hrest⟩

theorem Spells.lt {digits : List UInt8} {vals : List Nat} (h : Spells digits vals) :
    ∀ v ∈ vals, v < 16 := by
  induction h with
  | nil => simp
  | @cons b v _ _ hb _ ih =>
      rw [List.forall_mem_cons]
      refine ⟨?_, ih⟩
      rw [nibble?, codeValue?] at hb
      grind

/-- A text and what is left of it without the one mark it may begin with. -/
inductive Unmarked : String → String → Prop
  | marked (rest : String) : Unmarked ("0x" ++ rest) rest
  | bare {text : String} : (∀ rest, text ≠ "0x" ++ rest) → Unmarked text text

theorem unmarked_iff {text rest : String} :
    Unmarked text rest ↔ rest.toList = digitsOf text.toList := by
  have hmark (rest : String) : ("0x" ++ rest).toList = '0' :: 'x' :: rest.toList :=
    String.toList_append
  constructor
  · rintro (_ | hbare)
    · rw [hmark, digitsOf]
    · unfold digitsOf
      split
      · next digits hdigits =>
          refine absurd (String.toList_injective ?_) (hbare (.ofList digits))
          rw [hmark, String.toList_ofList, hdigits]
      · rfl
  · intro h
    unfold digitsOf at h
    split at h
    · next hdigits =>
        have htext : text = "0x" ++ rest :=
          String.toList_injective (by rw [hmark, h, hdigits])
        rw [htext]
        exact .marked rest
    · next hother =>
        rw [String.toList_injective h]
        refine .bare fun other htext => hother other.toList ?_
        rw [htext, hmark]

/-- The text is made of hex digits with these values, but for its mark. -/
def HasDigits (text : String) (vals : List Nat) : Prop :=
  ∃ rest, Unmarked text rest ∧ Spells (Utf8.bytes rest) vals

theorem HasDigits.lt {text : String} {vals : List Nat} : HasDigits text vals → ∀ v ∈ vals, v < 16
  | ⟨_, _, hspells⟩ => hspells.lt

theorem hasDigits_iff {text : String} {vals : List Nat} :
    HasDigits text vals ↔
      (digitsOf text.toList).map Hex.digitValue? = vals.map some := by
  rw [← spells_flatMap_iff]
  constructor
  · rintro ⟨rest, hrest, hvals⟩
    rwa [Utf8.bytes_eq_flatMap, unmarked_iff.mp hrest] at hvals
  · intro h
    have hrest : (String.ofList (digitsOf text.toList)).toList = digitsOf text.toList :=
      String.toList_ofList
    exact ⟨_, unmarked_iff.mpr hrest, by rwa [Utf8.bytes_eq_flatMap, hrest]⟩

def bytesNumber (a : Address) : Nat :=
  number 256 (a.bytes.map UInt8.toNat)

/-- What a text is read as. -/
inductive Reads (text : String) : Except AddressError Address → Prop
  | address {vals : List Nat} {a : Address} : HasDigits text vals → vals ≠ [] →
      vals.length ≤ 16 → a.bytesNumber = number 16 vals → Reads text (.ok a)
  | empty : Unmarked text "" → Reads text (.error (.notHex text))
  | notHex {rest : String} {b : UInt8} : Unmarked text rest → b ∈ Utf8.bytes rest →
      nibble? b = none → Reads text (.error (.notHex text))
  | tooLong {vals : List Nat} : HasDigits text vals → 16 < vals.length →
      Reads text (.error (.tooLong (vals.length ⌈/⌉ 2)))

theorem bytesNumber_eq (a : Address) : a.bytesNumber = a.value := by
  -- What is above a byte, with that byte behind it, is what is above the next one.
  have hbyte (bits : Nat) :
      256 * (a.value / 2 ^ (bits + 8)) + a.value / 2 ^ bits % 256 = a.value / 2 ^ bits := by
    rw [Nat.pow_add, ← Nat.div_div_eq_div_mul]
    exact Nat.div_add_mod _ _
  have hfirst : 256 * 0 + a.value / 2 ^ 56 % 256 = a.value / 2 ^ 56 := by
    have hnone : a.value / 2 ^ (56 + 8) = 0 := Nat.div_eq_of_lt a.value_lt
    rw [← hnone, hbyte]
  simp only [bytesNumber, number_eq_foldl, bytes, List.map_cons, List.map_nil, List.foldl_cons,
    List.foldl_nil, UInt8.toNat_ofNat', Nat.shiftRight_eq_div_pow]
  rw [hfirst, hbyte 48, hbyte 40, hbyte 32, hbyte 24, hbyte 16, hbyte 8, hbyte 0,
    Nat.pow_zero, Nat.div_one]

theorem length_map_bytes (a : Address) : (a.bytes.map UInt8.toNat).length = 8 := by
  rw [List.length_map, bytes, List.length_map]
  rfl

theorem value_eq_number {digits : List Char} {vals : List Nat}
    (h : digits.map Hex.digitValue? = vals.map some) : Hex.value digits = number 16 vals := by
  have hvals : digits.map (fun c => (Hex.digitValue? c).getD 0) = vals := by
    have hget := congrArg (List.map (Option.getD · 0)) h
    simpa [Function.comp_def] using hget
  rw [Hex.value, number_eq_foldl, ← hvals, List.foldl_map]

theorem all_isDigit_iff {text : String} :
    (digitsOf text.toList).all Hex.isDigit = true ↔ ∃ vals, HasDigits text vals := by
  simp only [hasDigits_iff]
  generalize digitsOf text.toList = digits
  induction digits with
  | nil => exact iff_of_true rfl ⟨[], rfl⟩
  | cons c rest ih =>
      rw [List.all_cons, Bool.and_eq_true, ih, Hex.isDigit, Option.isSome_iff_exists]
      constructor
      · rintro ⟨⟨v, hv⟩, vals, hvals⟩
        exact ⟨v :: vals, by rw [List.map_cons, List.map_cons, hv, hvals]⟩
      · rintro ⟨_ | ⟨v, vals⟩, h⟩
        · contradiction
        · obtain ⟨hv, hvals⟩ := List.cons.inj h
          exact ⟨⟨v, hv⟩, vals, hvals⟩

theorem Reads.ofHex_eq {text : String} {r : Except AddressError Address} (h : Reads text r) :
    ofHex text = r := by
  have hdigits {vals : List Nat} (h : HasDigits text vals) (hne : vals ≠ []) :
      ¬ (digitsOf text.toList = [] ∨ ¬ (digitsOf text.toList).all Hex.isDigit = true) ∧
        (digitsOf text.toList).length = vals.length := by
    have hlength := congrArg List.length (hasDigits_iff.mp h)
    rw [List.length_map, List.length_map] at hlength
    have hfilled : digitsOf text.toList ≠ [] := by
      rwa [ne_eq, ← List.length_eq_zero_iff, hlength, List.length_eq_zero_iff]
    exact ⟨not_or.mpr ⟨hfilled, not_not.mpr (all_isDigit_iff.mpr ⟨vals, h⟩)⟩, hlength⟩
  rw [ofHex]
  cases h with
  | @address vals a hvals hne hshort hnumber =>
      obtain ⟨hgood, hlength⟩ := hdigits hvals hne
      rw [if_neg hgood, dif_pos (hlength ▸ hshort)]
      have hvalue : Hex.value (digitsOf text.toList) = a.value := by
        rw [value_eq_number (hasDigits_iff.mp hvals), ← hnumber, bytesNumber_eq]
      exact congrArg Except.ok (Address.ext hvalue)
  | empty hrest =>
      rw [if_pos (.inl (unmarked_iff.mp hrest).symm)]
  | @notHex rest b hrest hmem hb =>
      refine if_pos (.inr fun hall => ?_)
      obtain ⟨vals, rest', hrest', hvals⟩ := all_isDigit_iff.mp hall
      have hsame : rest' = rest := String.toList_injective <| by
        rw [unmarked_iff.mp hrest, unmarked_iff.mp hrest']
      exact exists_spells_iff.mp ⟨vals, hvals⟩ b (hsame ▸ hmem) hb
  | @tooLong vals hvals hlong =>
      obtain ⟨hgood, hlength⟩ := hdigits hvals (List.ne_nil_of_length_pos (by omega))
      rw [if_neg hgood, dif_neg (by omega), hlength, Nat.ceilDiv_eq_add_pred_div]
      rfl

theorem HasDigits.reads {text : String} {vals : List Nat} (h : HasDigits text vals)
    (hne : vals ≠ []) (hshort : vals.length ≤ 16) :
    ∃ a : Address, a.bytesNumber = number 16 vals ∧ Reads text (.ok a) := by
  have hlt : number 16 vals < UInt64.size :=
    Nat.lt_of_lt_of_le (number_lt (by decide) h.lt)
      (Nat.pow_le_pow_right (by decide) hshort)
  have hnumber := bytesNumber_eq ⟨number 16 vals, hlt⟩
  exact ⟨_, hnumber, .address h hne hshort hnumber⟩

theorem exists_reads (text : String) : ∃ r, Reads text r := by
  have hrest : Unmarked text (.ofList (digitsOf text.toList)) :=
    unmarked_iff.mpr String.toList_ofList
  by_cases hdigits : ∃ vals, Spells (Utf8.bytes (.ofList (digitsOf text.toList))) vals
  · obtain ⟨vals, hvals⟩ := hdigits
    have htext : HasDigits text vals := ⟨_, hrest, hvals⟩
    rcases eq_or_ne vals [] with rfl | hne
    · have hempty : digitsOf text.toList = [] := by
        simpa using hasDigits_iff.mp htext
      rw [hempty] at hrest
      exact ⟨_, .empty hrest⟩
    · rcases Nat.lt_or_ge 16 vals.length with hlong | hshort
      · exact ⟨_, .tooLong htext hlong⟩
      · obtain ⟨a, -, ha⟩ := htext.reads hne hshort
        exact ⟨_, ha⟩
  · rw [exists_spells_iff] at hdigits
    push Not at hdigits
    obtain ⟨b, hmem, hb⟩ := hdigits
    exact ⟨_, .notHex hrest hmem hb⟩

theorem ofHex_eq_iff {text : String} {r : Except AddressError Address} :
    ofHex text = r ↔ Reads text r := by
  obtain ⟨r', h⟩ := exists_reads text
  constructor
  · rintro rfl
    rwa [h.ofHex_eq]
  · exact Reads.ofHex_eq

theorem ofHex_eq_ok_iff {text : String} :
    (∃ a, ofHex text = .ok a) ↔
      ∃ vals, HasDigits text vals ∧ 1 ≤ vals.length ∧ vals.length ≤ 16 := by
  constructor
  · rintro ⟨a, h⟩
    cases ofHex_eq_iff.mp h with
    | address hvals hne hshort => exact ⟨_, hvals, List.length_pos_of_ne_nil hne, hshort⟩
  · rintro ⟨vals, hvals, hfilled, hshort⟩
    obtain ⟨a, -, ha⟩ := hvals.reads (List.ne_nil_of_length_pos hfilled) hshort
    exact ⟨a, ha.ofHex_eq⟩

theorem HasDigits.number_eq {text : String} {vals : List Nat} {a : Address}
    (h : HasDigits text vals) (ha : ofHex text = .ok a) : a.bytesNumber = number 16 vals := by
  cases ofHex_eq_iff.mp ha with
  | @address vals' _ h' _ _ hnumber =>
      have hsome := (hasDigits_iff.mp h').symm.trans (hasDigits_iff.mp h)
      rw [hnumber, List.map_injective_iff.mpr (Option.some_injective _) hsome]

theorem nine_le_of_tooLong {text : String} {n : Nat} (h : ofHex text = .error (.tooLong n)) :
    9 ≤ n := by
  cases ofHex_eq_iff.mp h with
  | tooLong hvals hlong =>
      rw [Nat.ceilDiv_eq_add_pred_div]
      omega

/-- Neither the case of digits nor zeros in front of them make another address. -/
theorem eq_iff_of_hasDigits {s t : String} {vs ws : List Nat} {a b : Address}
    (hs : HasDigits s vs) (ht : HasDigits t ws) (ha : ofHex s = .ok a) (hb : ofHex t = .ok b) :
    a = b ↔ vs.dropWhile (· == 0) = ws.dropWhile (· == 0) := by
  rw [← number_inj (by decide) hs.lt ht.lt, ← hs.number_eq ha, ← ht.number_eq hb,
    bytesNumber_eq, bytesNumber_eq, Address.ext_iff]

/-- The bytes that the values of digits give two by two. -/
def pairBytes : List Nat → List UInt8
  | high :: low :: rest => .ofNat (16 * high + low) :: pairBytes rest
  | [_] => []
  | [] => []

theorem length_pairBytes (vals : List Nat) : (pairBytes vals).length = vals.length / 2 := by
  fun_induction pairBytes with
  | case1 high low rest ih =>
      rw [List.length_cons, ih, List.length_cons, List.length_cons]
      omega
  | case2 v => simp
  | case3 => rfl

theorem number_pairBytes {vals : List Nat} (hvals : ∀ v ∈ vals, v < 16)
    (heven : 2 ∣ vals.length) :
    number 256 ((pairBytes vals).map UInt8.toNat) = number 16 vals := by
  fun_induction pairBytes with
  | case1 high low rest ih =>
      rw [List.forall_mem_cons, List.forall_mem_cons] at hvals
      obtain ⟨hhigh, hlow, hrest⟩ := hvals
      have heven : 2 ∣ rest.length := by
        rw [List.length_cons, List.length_cons] at heven
        omega
      have hpow : 256 ^ (pairBytes rest).length = 16 ^ rest.length := by
        rw [length_pairBytes, show 256 = 16 ^ 2 from rfl, ← Nat.pow_mul,
          Nat.mul_div_cancel' heven]
      rw [List.map_cons, number_cons, number_cons, number_cons, ih hrest heven, List.length_map,
        hpow, UInt8.toNat_ofNat', Nat.mod_eq_of_lt (by omega), List.length_cons, Nat.pow_succ]
      ring
  | case2 v => simp at heven
  | case3 => rfl

/-- What a decoder does with twice as many digits as it is asked for bytes. -/
def DecodesPairs (decode : List UInt8 → Nat → Option (List UInt8)) : Prop :=
  ∀ {digits : List UInt8} {vals : List Nat} {width : Nat}, Spells digits vals →
    digits.length = 2 * width → decode digits width = some (pairBytes vals)

/-- Why a text is refused by a reader that decodes pair by pair. -/
inductive PairFault
  | address (e : AddressError)
  | undecodable

/-- Reads the bytes of an address, with zeros in front for digits that are left out. -/
def readPairs (decode : List UInt8 → Nat → Option (List UInt8)) (text : String) :
    Except PairFault (List UInt8) :=
  let digits := Utf8.bytes (.ofList (digitsOf text.toList))
  if digits = [] ∨ ¬ digits.all fun b => (nibble? b).isSome then
    .error (.address (.notHex text))
  else if 16 < digits.length then
    .error (.address (.tooLong (digits.length ⌈/⌉ 2)))
  else
    match decode (List.replicate (16 - digits.length) 0x30 ++ digits) 8 with
    | some bytes => .ok bytes
    | none => .error .undecodable

theorem Spells.zeros_append {digits : List UInt8} {vals : List Nat} (h : Spells digits vals)
    (n : Nat) : Spells (List.replicate n 0x30 ++ digits) (List.replicate n 0 ++ vals) := by
  induction n with
  | zero => exact h
  | succ n ih => exact .cons rfl ih

theorem number_zeros_append (base n : Nat) (digits : List Nat) :
    number base (List.replicate n 0 ++ digits) = number base digits := by
  rw [number, List.reverse_append, List.reverse_replicate, Nat.ofDigits_append_replicate_zero,
    number]

/-- Sixteen digits with the number of an address give its bytes. -/
theorem pairBytes_eq_bytes {vals : List Nat} {a : Address} (hvals : ∀ v ∈ vals, v < 16)
    (hlength : vals.length = 16) (hnumber : a.bytesNumber = number 16 vals) :
    pairBytes vals = a.bytes := by
  have heven : 2 ∣ vals.length := ⟨8, hlength⟩
  rw [bytesNumber, ← number_pairBytes hvals heven, number, number] at hnumber
  have hsame := Nat.ofDigits_inj_of_len_eq (by decide) ?_ ?_ ?_ hnumber
  · exact (List.map_injective_iff.mpr (fun _ _ => UInt8.toNat_inj.mp)
      (List.reverse_injective hsame)).symm
  · rw [List.length_reverse, List.length_reverse, length_map_bytes, List.length_map,
      length_pairBytes, hlength]
  all_goals
    intro d hd
    rw [List.mem_reverse] at hd
    obtain ⟨byte, -, rfl⟩ := List.mem_map.mp hd
    exact byte.toNat_lt

theorem Spells.not_refused {digits : List UInt8} {vals : List Nat} (h : Spells digits vals)
    (hne : vals ≠ []) : ¬ (digits = [] ∨ ¬ digits.all (fun b => (nibble? b).isSome) = true) := by
  have hall : digits.all (fun b => (nibble? b).isSome) = true :=
    List.all_eq_true.mpr fun b hb =>
      Option.isSome_iff_ne_none.mpr (exists_spells_iff.mp ⟨vals, h⟩ b hb)
  refine not_or.mpr ⟨fun hempty => ?_, not_not.mpr hall⟩
  subst hempty
  cases h
  contradiction

theorem readPairs_eq {decode : List UInt8 → Nat → Option (List UInt8)}
    (hdecode : DecodesPairs decode) (text : String) :
    readPairs decode text = ((ofHex text).map bytes).mapError .address := by
  obtain ⟨r, h⟩ := exists_reads text
  have hbytes {rest : String} (hrest : Unmarked text rest) :
      Utf8.bytes (.ofList (digitsOf text.toList)) = Utf8.bytes rest := by
    rw [← unmarked_iff.mp hrest, String.ofList_toList]
  rw [h.ofHex_eq, readPairs]
  cases h with
  | @address vals a hvals hne hshort hnumber =>
      obtain ⟨rest, hrest, hspells⟩ := hvals
      have hlength := hspells.length_eq
      have hpadded : (List.replicate (16 - vals.length) 0 ++ vals).length = 16 := by
        rw [List.length_append, List.length_replicate]
        omega
      have hdecoded := @hdecode _ _ 8 (hspells.zeros_append (16 - vals.length)) ?_
      · rw [hbytes hrest, if_neg (hspells.not_refused hne), if_neg (by omega), hlength, hdecoded,
          pairBytes_eq_bytes (hspells.zeros_append _).lt hpadded]
        · rfl
        · rw [hnumber, number_zeros_append]
      · rw [(hspells.zeros_append _).length_eq, hpadded]
  | empty hrest =>
      rw [hbytes hrest, Utf8.bytes_eq_flatMap]
      exact if_pos (.inl rfl)
  | @notHex rest b hrest hmem hb =>
      rw [hbytes hrest]
      refine if_pos (.inr fun hall => ?_)
      have hsome := List.all_eq_true.mp hall b hmem
      rw [hb] at hsome
      contradiction
  | @tooLong vals hvals hlong =>
      obtain ⟨rest, hrest, hspells⟩ := hvals
      have hne : vals ≠ [] := List.ne_nil_of_length_pos (by omega)
      rw [hbytes hrest, if_neg (hspells.not_refused hne), hspells.length_eq, if_pos hlong]
      rfl

def decodePairs : List UInt8 → Nat → Option (List UInt8)
  | [], 0 => some []
  | high :: low :: rest, width + 1 =>
      match nibble? high, nibble? low, decodePairs rest width with
      | some h, some l, some others => some (.ofNat (16 * h + l) :: others)
      | _, _, _ => none
  | _, _ => none

theorem decodesPairs_decodePairs : DecodesPairs decodePairs := by
  intro digits vals width hspells hlength
  induction width generalizing digits vals with
  | zero =>
      rw [Nat.mul_zero, List.length_eq_zero_iff] at hlength
      subst hlength
      cases hspells
      rfl
  | succ width ih =>
      match digits, hlength with
      | high :: low :: rest, hlength =>
          cases hspells with
          | cons hhigh hrest =>
              cases hrest with
              | cons hlow hrest =>
                  have hlength : rest.length = 2 * width := by
                    rw [List.length_cons, List.length_cons] at hlength
                    omega
                  rw [decodePairs, hhigh, hlow, ih hrest hlength, pairBytes]

theorem digits_add_two (width n : Nat) :
    Hex.digits (width + 2) n =
      Hex.digits 2 (n / Hex.count width % 256) ++ Hex.digits width n := by
  have hhigh : n / Hex.count (width + 1) % 16 = n / Hex.count width % 256 / 16 % 16 := by
    rw [Hex.count_succ, ← Nat.div_div_eq_div_mul]
    omega
  have hlow : n / Hex.count width % 16 = n / Hex.count width % 256 % 16 := by omega
  have htwo (m : Nat) : Hex.digits 2 m = [Hex.digit (m / 16 % 16), Hex.digit (m % 16)] := by
    rw [Hex.digits, Hex.digits, Hex.digits, Hex.count_zero, Nat.div_one]
    rfl
  rw [htwo, ← hhigh, ← hlow]
  rfl

theorem toHex_eq (a : Address) :
    a.toHex = String.ofList ('0' :: 'x' :: a.bytes.flatMap fun b => Hex.digits 2 b.toNat) := by
  have hbyte (bits : Nat) : (UInt8.ofNat (a.value >>> bits)).toNat = a.value / 2 ^ bits % 256 := by
    rw [UInt8.toNat_ofNat', Nat.shiftRight_eq_div_pow]
  rw [toHex, digits_add_two 14, digits_add_two 12, digits_add_two 10, digits_add_two 8,
    digits_add_two 6, digits_add_two 4, digits_add_two 2, digits_add_two 0 a.value]
  simp only [bytes, List.map_cons, List.map_nil, List.flatMap_cons, List.flatMap_nil, hbyte]
  rfl

theorem map_toNat_lt_iff {xs ys : List UInt8} :
    xs.map UInt8.toNat < ys.map UInt8.toNat ↔ xs < ys := by
  induction xs generalizing ys with
  | nil => cases ys <;> simp
  | cons x xs ih =>
      cases ys with
      | nil => simp
      | cons y ys =>
          rw [List.map_cons, List.map_cons, List.cons_lt_cons_iff, List.cons_lt_cons_iff, ih,
            UInt8.lt_iff_toNat_lt, UInt8.toNat_inj]

theorem lt_iff_bytesNumber_lt {a b : Address} : a < b ↔ a.bytesNumber < b.bytesNumber := by
  have hbytes (a : Address) : ∀ d ∈ a.bytes.map UInt8.toNat, d < 256 := by
    intro d hd
    obtain ⟨byte, -, rfl⟩ := List.mem_map.mp hd
    exact byte.toNat_lt
  have hlength : (a.bytes.map UInt8.toNat).length = (b.bytes.map UInt8.toNat).length := by
    rw [length_map_bytes, length_map_bytes]
  rw [bytesNumber, bytesNumber, number_lt_number_iff (by decide) (hbytes a) (hbytes b) hlength,
    map_toNat_lt_iff]
  exact Iff.rfl

theorem digit_lt_digit_iff {m n : Nat} (hm : m < 16) (hn : n < 16) :
    Hex.digit m < Hex.digit n ↔ m < n := by
  have all : ∀ i j : Fin 16, Hex.digit i < Hex.digit j ↔ i.val < j.val := by decide
  exact all ⟨m, hm⟩ ⟨n, hn⟩

theorem digit_inj {m n : Nat} (hm : m < 16) (hn : n < 16) :
    Hex.digit m = Hex.digit n ↔ m = n := by
  constructor
  · intro h
    have hvalue := Hex.digitValue?_digit hm
    rw [h, Hex.digitValue?_digit hn] at hvalue
    exact (Option.some.inj hvalue).symm
  · rintro rfl
    rfl

theorem digits_lt_digits_iff {width m n : Nat} :
    Hex.digits width m < Hex.digits width n ↔ m % Hex.count width < n % Hex.count width := by
  induction width with
  | zero => simp [Hex.digits, Hex.count_zero, Nat.mod_one]
  | succ width ih =>
      have hcount : 0 < Hex.count width := Nat.pow_pos (by decide)
      have hmod (k : Nat) : k / Hex.count width % 16 < 16 := Nat.mod_lt _ (by decide)
      rw [Hex.digits, Hex.digits, List.cons_lt_cons_iff, digit_lt_digit_iff (hmod m) (hmod n),
        digit_inj (hmod m) (hmod n), ih, Hex.count_succ, Nat.mod_mul, Nat.mod_mul,
        leading_lt_iff (Nat.mod_lt _ hcount) (Nat.mod_lt _ hcount)]

theorem bytes_toHex_lt_iff {a b : Address} :
    Utf8.bytes a.toHex < Utf8.bytes b.toHex ↔ a.bytesNumber < b.bytesNumber := by
  have hvalue (a : Address) : a.value % Hex.count 16 = a.value := Nat.mod_eq_of_lt a.value_lt
  have htexts : a.toHex < b.toHex ↔
      '0' :: 'x' :: Hex.digits 16 a.value < '0' :: 'x' :: Hex.digits 16 b.value := by
    rw [String.lt_iff, toHex, toHex, String.toList_ofList, String.toList_ofList]
  rw [Utf8.bytes_lt_bytes_iff, htexts, List.cons_lt_cons_self, List.cons_lt_cons_self,
    digits_lt_digits_iff, hvalue, hvalue, bytesNumber_eq, bytesNumber_eq]

/-- What is read, whatever decoder of pairs is used: which texts are addresses, which of the
refusals the others meet, and that the three orders are one. -/
theorem read_exactly {decode : List UInt8 → Nat → Option (List UInt8)}
    (hdecode : DecodesPairs decode) :
    (∀ text r, ofHex text = r ↔ Reads text r) ∧
      (∀ text, (∃ a, ofHex text = .ok a) ↔
        ∃ vals, HasDigits text vals ∧ 1 ≤ vals.length ∧ vals.length ≤ 16) ∧
      (∀ text, readPairs decode text = ((ofHex text).map bytes).mapError .address) ∧
      (∀ text n, ofHex text = .error (.tooLong n) → 9 ≤ n) ∧
      (∀ s t vs ws a b, HasDigits s vs → HasDigits t ws → ofHex s = .ok a → ofHex t = .ok b →
        (a = b ↔ vs.dropWhile (· == 0) = ws.dropWhile (· == 0))) ∧
      (∀ a, ofHex a.toHex = .ok a ∧
        a.toHex = String.ofList ('0' :: 'x' :: a.bytes.flatMap fun b => Hex.digits 2 b.toNat)) ∧
      ∀ a b : Address, (a < b ↔ a.bytesNumber < b.bytesNumber) ∧
        (Utf8.bytes a.toHex < Utf8.bytes b.toHex ↔ a.bytesNumber < b.bytesNumber) :=
  ⟨fun _ _ => ofHex_eq_iff, fun _ => ofHex_eq_ok_iff, readPairs_eq hdecode,
    fun _ _ => nine_le_of_tooLong, fun _ _ _ _ _ _ => eq_iff_of_hasDigits,
    fun a => ⟨ofHex_toHex a, toHex_eq a⟩, fun _ _ => ⟨lt_iff_bytesNumber_lt, bytes_toHex_lt_iff⟩⟩

/-- An odd digit in capitals is filled up in front, and a second mark is no digit. -/
theorem short_text_decoded :
    DecodesPairs decodePairs ∧ readPairs decodePairs "0xA" = .ok [0, 0, 0, 0, 0, 0, 0, 10] ∧
      Reads "0x0x1" (.error (.notHex "0x0x1")) := by
  obtain ⟨hreads, -, hpairs, -⟩ := read_exactly decodesPairs_decodePairs
  refine ⟨decodesPairs_decodePairs, ?_, (hreads _ _).mp rfl⟩
  rw [hpairs]
  rfl

end AuthorizedCalls.Address
