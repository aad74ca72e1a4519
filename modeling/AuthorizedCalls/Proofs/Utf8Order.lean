import Mathlib.Order.Defs.LinearOrder

namespace AuthorizedCalls.Text.Utf8

def bytes (s : String) : List UInt8 :=
  s.toUTF8.toList

theorem toList_loop (bytes : ByteArray) (start : Nat) (before : List UInt8) :
    ByteArray.toList.loop bytes start before = before.reverse ++ bytes.data.toList.drop start := by
  fun_induction ByteArray.toList.loop bytes start before with
  | case1 start before hstart ih =>
      have hlength : start < bytes.data.toList.length := hstart
      have hget : bytes.get! start = bytes.data.toList[start] :=
        getElem!_pos bytes.data start hstart
      rw [ih, List.drop_eq_getElem_cons hlength, hget, List.reverse_cons, List.append_assoc]
      rfl
  | case2 start before hend =>
      have hlength : bytes.data.toList.length ≤ start := Nat.le_of_not_lt hend
      rw [List.drop_eq_nil_of_le hlength, List.append_nil]

theorem toList_toUTF8 (s : String) : s.toUTF8.toList = s.toUTF8.data.toList := by
  rw [ByteArray.toList, toList_loop, List.reverse_nil, List.nil_append, List.drop_zero]

theorem bytes_injective : Function.Injective bytes := by
  intro s t h
  rw [bytes, bytes, toList_toUTF8, toList_toUTF8, Array.toList_inj] at h
  exact String.toByteArray_inj.mp (ByteArray.ext h)

theorem bytes_eq_flatMap (s : String) : bytes s = s.toList.flatMap String.utf8EncodeChar := by
  have hencode : s.toUTF8 = (s.toList.flatMap String.utf8EncodeChar).toByteArray :=
    String.utf8Encode_toList.symm
  rw [bytes, toList_toUTF8, hencode, List.toList_data_toByteArray]

/-- Bytes that are the same up to a place where the first list has the lesser one. -/
inductive Departs : List UInt8 → List UInt8 → Prop
  | here {a b : UInt8} {xs ys : List UInt8} : a < b → Departs (a :: xs) (b :: ys)
  | after {a : UInt8} {xs ys : List UInt8} : Departs xs ys → Departs (a :: xs) (a :: ys)

namespace Departs

variable {x y : Nat} {xs ys : List UInt8}

theorem append_lt (h : Departs xs ys) (xs' ys' : List UInt8) : xs ++ xs' < ys ++ ys' := by
  induction h with
  | here hlt => exact .rel hlt
  | after _ ih => exact .cons ih

theorem of_lt (hlt : x < y) (hy : y < 256) :
    Departs (UInt8.ofNat x :: xs) (UInt8.ofNat y :: ys) := by
  apply here
  rw [UInt8.lt_iff_toNat_lt, UInt8.toNat_ofNat', UInt8.toNat_ofNat']
  omega

theorem of_le (hle : x ≤ y) (hy : y < 256) (hrest : x = y → Departs xs ys) :
    Departs (UInt8.ofNat x :: xs) (UInt8.ofNat y :: ys) := by
  rcases Nat.lt_or_eq_of_le hle with hlt | rfl
  · exact of_lt hlt hy
  · exact after (hrest rfl)

end Departs

/-- The encoding of a code point, in one byte, two, three or four. -/
inductive Encodes (v : Nat) : List UInt8 → Prop
  | one : v ≤ 0x7f → Encodes v [.ofNat v]
  | two : 0x7f < v → v ≤ 0x7ff →
      Encodes v [.ofNat (v / 64 % 32 + 0xc0), .ofNat (v % 64 + 0x80)]
  | three : 0x7ff < v → v ≤ 0xffff →
      Encodes v [.ofNat (v / 4096 % 16 + 0xe0), .ofNat (v / 64 % 64 + 0x80),
        .ofNat (v % 64 + 0x80)]
  | four : 0xffff < v → v < 0x110000 →
      Encodes v [.ofNat (v / 262144 % 8 + 0xf0), .ofNat (v / 4096 % 64 + 0x80),
        .ofNat (v / 64 % 64 + 0x80), .ofNat (v % 64 + 0x80)]

theorem encodes_utf8EncodeChar (c : Char) : Encodes c.toNat (String.utf8EncodeChar c) := by
  have hmax : c.toNat < 0x110000 := by
    rcases c.valid with h | ⟨-, h⟩ <;> unfold Char.toNat <;> omega
  rw [String.utf8EncodeChar]
  split
  · exact .one ‹_›
  · split
    · exact .two (Nat.lt_of_not_le ‹_›) ‹_›
    · split
      · exact .three (Nat.lt_of_not_le ‹_›) ‹_›
      · exact .four (Nat.lt_of_not_le ‹_›) hmax

theorem utf8EncodeChar_of_lt {c : Char} (h : c.toNat < 0x80) :
    String.utf8EncodeChar c = [.ofNat c.toNat] := by
  rw [String.utf8EncodeChar]
  exact if_pos (Nat.le_of_lt_succ h)

theorem le_toNat_of_mem_utf8EncodeChar {c : Char} (h : 0x80 ≤ c.toNat) {b : UInt8}
    (hb : b ∈ String.utf8EncodeChar c) : 0x80 ≤ b.toNat := by
  have hencodes := encodes_utf8EncodeChar c
  generalize String.utf8EncodeChar c = encoding at hencodes hb
  cases hencodes with
  | one => omega
  | two | three | four =>
      simp only [List.mem_cons, List.not_mem_nil, or_false] at hb
      rcases hb with rfl | rfl | rfl | rfl <;> rw [UInt8.toNat_ofNat'] <;> omega

/-- More bytes begin with a greater one, and as many are compared from the front. -/
theorem Encodes.departs {v w : Nat} {xs ys : List UInt8} (hv : Encodes v xs) (hw : Encodes w ys)
    (hlt : v < w) : Departs xs ys := by
  cases hv with
  | one =>
      cases hw with
      | one => exact .of_lt hlt (by omega)
      | two | three | four => exact .of_lt (by omega) (by omega)
  | two =>
      cases hw with
      | one => omega
      | two => exact .of_le (by omega) (by omega) fun _ => .of_lt (by omega) (by omega)
      | three | four => exact .of_lt (by omega) (by omega)
  | three =>
      cases hw with
      | one | two => omega
      | three =>
          refine .of_le (by omega) (by omega) fun _ => ?_
          exact .of_le (by omega) (by omega) fun _ => .of_lt (by omega) (by omega)
      | four => exact .of_lt (by omega) (by omega)
  | four =>
      cases hw with
      | one | two | three => omega
      | four =>
          refine .of_le (by omega) (by omega) fun _ => ?_
          refine .of_le (by omega) (by omega) fun _ => ?_
          exact .of_le (by omega) (by omega) fun _ => .of_lt (by omega) (by omega)

theorem flatMap_utf8EncodeChar_lt {cs ds : List Char} (h : cs < ds) :
    cs.flatMap String.utf8EncodeChar < ds.flatMap String.utf8EncodeChar := by
  induction h with
  | @nil d ds =>
      obtain ⟨b, rest, hencode⟩ :=
        List.exists_cons_of_ne_nil (@String.utf8EncodeChar_ne_nil d)
      rw [List.flatMap_cons, hencode]
      exact .nil
  | rel hlt =>
      rw [List.flatMap_cons, List.flatMap_cons]
      exact ((encodes_utf8EncodeChar _).departs (encodes_utf8EncodeChar _) hlt).append_lt _ _
  | cons _ ih =>
      rw [List.flatMap_cons, List.flatMap_cons]
      exact List.append_left_lt ih

/-- The order of texts is that of their bytes. -/
theorem bytes_lt_bytes_iff {s t : String} : bytes s < bytes t ↔ s < t := by
  have hmono {s t : String} (h : s < t) : bytes s < bytes t := by
    rw [bytes_eq_flatMap, bytes_eq_flatMap]
    exact flatMap_utf8EncodeChar_lt h
  constructor
  · intro h
    by_contra hnot
    rcases Std.le_iff_lt_or_eq.mp (String.not_lt.mp hnot) with hlt | heq
    · exact List.lt_asymm h (hmono hlt)
    · subst heq
      exact List.lt_irrefl _ h
  · exact hmono

end AuthorizedCalls.Text.Utf8
