namespace AuthorizedCalls

structure Span where
  file : String := ""
  line : UInt32 := 0
  column : UInt32 := 0
deriving DecidableEq

namespace Span

def text (s : Span) : String :=
  s.file ++ ":" ++ toString s.line.toNat ++ ":" ++ toString s.column.toNat

/-- Whether `a` lies strictly before `b`. File names compare by code points. -/
def before (a b : Span) : Bool :=
  if a.file = b.file then
    if a.line = b.line then decide (a.column < b.column) else decide (a.line < b.line)
  else decide (a.file < b.file)

def notAfter (a b : Span) : Bool :=
  !b.before a

theorem before_iff {a b : Span} : a.before b = true ↔
    a.file < b.file ∨ a.file = b.file ∧
      (a.line < b.line ∨ a.line = b.line ∧ a.column < b.column) := by
  have hfile : ¬ b.file < b.file := String.lt_irrefl b.file
  have hline : ¬ b.line < b.line := UInt32.lt_irrefl b.line
  by_cases hf : a.file = b.file
  · by_cases hl : a.line = b.line
    · rw [before, if_pos hf, if_pos hl, hf, hl]
      grind
    · rw [before, if_pos hf, if_neg hl, hf]
      grind
  · rw [before, if_neg hf]
    grind

theorem notAfter_total (a b : Span) : (a.notAfter b || b.notAfter a) = true := by
  have hfile := @String.lt_asymm a.file b.file
  have hirrefl := String.lt_irrefl a.file
  simp only [notAfter, Bool.or_eq_true, Bool.not_eq_true', ← Bool.not_eq_true, before_iff]
  grind

theorem notAfter_trans (a b c : Span) (hab : a.notAfter b = true) (hbc : b.notAfter c = true) :
    a.notAfter c = true := by
  simp only [notAfter, Bool.not_eq_true', ← Bool.not_eq_true, before_iff] at *
  have h1 := @String.lt_trans c.file a.file b.file
  have h2 : ∀ x y : String, x < y ∨ x = y ∨ y < x := fun x y => by
    by_cases hxy : x < y
    · exact .inl hxy
    · by_cases hyx : y < x
      · exact .inr (.inr hyx)
      · exact .inr (.inl (String.le_antisymm (String.not_lt.mp hyx) (String.not_lt.mp hxy)))
  have h3 := h2 a.file b.file
  have h4 := @String.lt_trans c.file b.file a.file
  have h5 := h2 b.file c.file
  grind

end Span

end AuthorizedCalls
