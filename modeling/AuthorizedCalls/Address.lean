import AuthorizedCalls.Text.Hex

namespace AuthorizedCalls

/-- The number that the eight bytes spell, most significant byte first. -/
structure Address where
  value : Nat
  value_lt : value < UInt64.size := by decide
deriving DecidableEq

inductive AddressError
  /-- The text is empty after its mark, or has a character that is no hex digit. -/
  | notHex (text : String)
  /-- The digits fill this many bytes, which is more than eight. -/
  | tooLong (bytes : Nat)
deriving DecidableEq

namespace AddressError

def message : AddressError → String
  | notHex text => s!"invalid address hex: {text}"
  | tooLong bytes => s!"invalid address length: expected at most 8 bytes, got {bytes}"

end AddressError

namespace Address

instance : Inhabited Address := ⟨⟨0, by decide⟩⟩

@[ext] theorem ext {a b : Address} (h : a.value = b.value) : a = b := by
  cases a; cases b; simp_all

def ofNat (n : Nat) : Address :=
  ⟨n % UInt64.size, Nat.mod_lt _ (by decide)⟩

/-- The address with these bytes, most significant first; of more than eight the last count. -/
def ofBytes (bytes : List UInt8) : Address :=
  ofNat (bytes.foldl (fun n b => 256 * n + b.toNat) 0)

def bytes (a : Address) : List UInt8 :=
  [56, 48, 40, 32, 24, 16, 8, 0].map fun bits => UInt8.ofNat (a.value >>> bits)

instance : LT Address := ⟨fun a b => a.bytes < b.bytes⟩

instance (a b : Address) : Decidable (a < b) :=
  inferInstanceAs (Decidable (a.bytes < b.bytes))

def sort (addresses : List Address) : List Address :=
  addresses.mergeSort fun a b => !decide (b < a)

/-- The digits of an address text: one leading `0x` is not part of them. -/
def digitsOf : List Char → List Char
  | '0' :: 'x' :: digits => digits
  | digits => digits

/-- Reads an address. Digits may be left out at the front and are then zero. -/
def ofHex (text : String) : Except AddressError Address :=
  let digits := digitsOf text.toList
  if digits = [] ∨ ¬ digits.all Text.Hex.isDigit then
    .error (.notHex text)
  else if h : digits.length ≤ 16 then
    .ok ⟨Text.Hex.value digits, Nat.lt_of_lt_of_le (Text.Hex.value_lt digits)
      (Text.Hex.count_le_count h)⟩
  else
    .error (.tooLong ((digits.length + 1) / 2))

def toHex (a : Address) : String :=
  String.ofList ('0' :: 'x' :: Text.Hex.digits 16 a.value)

theorem ofHex_toHex (a : Address) : ofHex a.toHex = .ok a := by
  have hall : (Text.Hex.digits 16 a.value).all Text.Hex.isDigit :=
    List.all_eq_true.mpr fun _ h => Text.Hex.isDigit_of_mem_digits h
  have hne : Text.Hex.digits 16 a.value ≠ [] := by simp [Text.Hex.digits]
  have hv : Text.Hex.value (Text.Hex.digits 16 a.value) = a.value := by
    rw [Text.Hex.value_digits]; exact Nat.mod_eq_of_lt a.value_lt
  simp [ofHex, toHex, digitsOf, hall, hne, hv]

def debugText (a : Address) : String :=
  s!"Address({a.toHex})"

end Address

end AuthorizedCalls
