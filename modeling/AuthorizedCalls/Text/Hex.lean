namespace AuthorizedCalls.Text.Hex

/-- The value of a hex digit of either case. -/
def digitValue? (c : Char) : Option Nat :=
  if '0' ≤ c ∧ c ≤ '9' then some (c.toNat - '0'.toNat)
  else if 'a' ≤ c ∧ c ≤ 'f' then some (c.toNat - 'a'.toNat + 10)
  else if 'A' ≤ c ∧ c ≤ 'F' then some (c.toNat - 'A'.toNat + 10)
  else none

def isDigit (c : Char) : Bool :=
  (digitValue? c).isSome

def digit (n : Nat) : Char :=
  if n < 10 then Char.ofNat ('0'.toNat + n) else Char.ofNat ('a'.toNat + (n - 10))

theorem digitValue?_digit {n : Nat} (h : n < 16) : digitValue? (digit n) = some n := by
  have all : ∀ m : Fin 16, digitValue? (digit m) = some m.val := by decide
  exact all ⟨n, h⟩

theorem digitValue?_lt {c : Char} {n : Nat} (h : digitValue? c = some n) : n < 16 := by
  have le_iff (a b : Char) : a ≤ b ↔ a.toNat ≤ b.toNat := Iff.rfl
  have vals : '9'.toNat = 57 ∧ 'f'.toNat = 102 ∧ 'F'.toNat = 70 ∧ '0'.toNat = 48 ∧
      'a'.toNat = 97 ∧ 'A'.toNat = 65 := by decide
  simp only [digitValue?, le_iff] at h
  split at h
  · simp only [Option.some.injEq] at h; omega
  · split at h
    · simp only [Option.some.injEq] at h; omega
    · split at h
      · simp only [Option.some.injEq] at h; omega
      · simp at h

/-- How many numbers runs of a width can spell. -/
def count (width : Nat) : Nat :=
  Nat.pow 16 width

theorem count_zero : count 0 = 1 := rfl

theorem count_succ (width : Nat) : count (width + 1) = count width * 16 := rfl

theorem count_le_count {v w : Nat} (h : v ≤ w) : count v ≤ count w :=
  Nat.pow_le_pow_right (by decide) h

/-- The number that a run of digits spells, most significant digit first. A character that is no
digit counts as zero; callers ask `isDigit` first. -/
def value (cs : List Char) : Nat :=
  cs.foldl (fun n c => 16 * n + (digitValue? c).getD 0) 0

private theorem foldl_lt (cs : List Char) (n : Nat) :
    cs.foldl (fun n c => 16 * n + (digitValue? c).getD 0) n < (n + 1) * count cs.length := by
  induction cs generalizing n with
  | nil => simp [count_zero]
  | cons c cs ih =>
      have hc : (digitValue? c).getD 0 < 16 := by
        cases h : digitValue? c with
        | none => decide
        | some d => exact digitValue?_lt h
      refine Nat.lt_of_lt_of_le (ih _) ?_
      rw [List.length_cons, count_succ, Nat.mul_comm (count cs.length) 16, ← Nat.mul_assoc]
      exact Nat.mul_le_mul_right _ (by dsimp only; omega)

theorem value_lt (cs : List Char) : value cs < count cs.length := by
  simpa [value] using foldl_lt cs 0

/-- The last `width` digits of a number. -/
def digits : (width : Nat) → (n : Nat) → List Char
  | 0, _ => []
  | width + 1, n => digit (n / count width % 16) :: digits width n

@[simp] theorem length_digits (width n : Nat) : (digits width n).length = width := by
  induction width with
  | zero => rfl
  | succ width ih => simp [digits, ih]

private theorem foldl_digits (width n m : Nat) :
    (digits width n).foldl (fun n c => 16 * n + (digitValue? c).getD 0) m =
      m * count width + n % count width := by
  induction width generalizing m with
  | zero => simp [digits, count_zero, Nat.mod_one]
  | succ width ih =>
      have hd : n / count width % 16 < 16 := Nat.mod_lt _ (by decide)
      rw [digits, List.foldl_cons, ih, digitValue?_digit hd, Option.getD_some,
        count_succ, Nat.mod_mul]
      grind

theorem value_digits (width n : Nat) : value (digits width n) = n % count width := by
  simpa [value] using foldl_digits width n 0

theorem isDigit_of_mem_digits {width n : Nat} {c : Char} (h : c ∈ digits width n) :
    isDigit c := by
  induction width with
  | zero => simp [digits] at h
  | succ width ih =>
      rcases List.mem_cons.mp h with rfl | h
      · simp [isDigit, digitValue?_digit (Nat.mod_lt _ (by decide : 0 < 16))]
      · exact ih h

end AuthorizedCalls.Text.Hex
