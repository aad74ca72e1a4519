import AuthorizedCalls.Json.Document
import Mathlib.Data.List.Basic
import Mathlib.Data.List.TakeDrop

namespace AuthorizedCalls.Json

theorem bind_eq_ok {ε α β : Type} {x : Except ε α} {f : α → Except ε β} {b : β}
    (h : x.bind f = .ok b) : ∃ a, x = .ok a ∧ f a = .ok b := by
  cases x with
  | error e => contradiction
  | ok a => exact ⟨a, rfl, h⟩

theorem map_eq_ok {ε α β : Type} {x : Except ε α} {f : α → β} {b : β}
    (h : x.map f = .ok b) : ∃ a, x = .ok a ∧ f a = b := by
  cases x with
  | error e => contradiction
  | ok a => exact ⟨a, rfl, Except.ok.inj h⟩

namespace Numeral

/-- A text that does not go on with a numeral before it. -/
def Ends (rest : List Char) : Prop :=
  ∀ c, rest.head? = some c → isDigit c = false ∧ c ≠ '.' ∧ c ≠ 'e' ∧ c ≠ 'E'

theorem ends_nil : Ends [] := by
  simp [Ends]

theorem ends_cons {c : Char} {rest : List Char}
    (h : isDigit c = false ∧ c ≠ '.' ∧ c ≠ 'e' ∧ c ≠ 'E') : Ends (c :: rest) := by
  intro d hd
  rw [List.head?_cons, Option.some.injEq] at hd
  exact hd ▸ h

theorem scanWhole_eq (cs : List Char) :
    scanWhole cs = (someDigits cs).bind fun pair =>
      match pair.1 with
      | '0' :: _ :: _ => .error .malformed
      | _ => .ok (pair.1, pair.2) :=
  rfl

theorem scanFraction_cons (c : Char) (cs : List Char) :
    scanFraction (c :: cs) = if c = '.' then someDigits cs else .ok ([], c :: cs) := by
  unfold scanFraction
  split
  · next heq =>
      obtain ⟨rfl, rfl⟩ := List.cons.inj heq
      rw [if_pos rfl]
  · next hpoint =>
      rw [if_neg]
      rintro rfl
      exact hpoint cs rfl

theorem scanFraction_of_ends {rest : List Char} (h : Ends rest) :
    scanFraction rest = .ok ([], rest) := by
  cases rest with
  | nil => rfl
  | cons c rest => rw [scanFraction_cons, if_neg (h c rfl).2.1]

def sign : List Char → Bool × List Char
  | '-' :: rest => (true, rest)
  | rest => (false, rest)

def exponentSign : List Char → Bool × List Char
  | '+' :: rest => (false, rest)
  | '-' :: rest => (true, rest)
  | rest => (false, rest)

theorem sign_cons (c : Char) (cs : List Char) :
    sign (c :: cs) = if c = '-' then (true, cs) else (false, c :: cs) := by
  unfold sign
  split <;> simp_all

theorem exponentSign_cons (c : Char) (cs : List Char) :
    exponentSign (c :: cs) =
      if c = '+' then (false, cs) else if c = '-' then (true, cs) else (false, c :: cs) := by
  unfold exponentSign
  split <;> simp_all

theorem scanExponent_cons (c : Char) (cs : List Char) :
    scanExponent (c :: cs) =
      if c = 'e' ∨ c = 'E' then
        (someDigits (exponentSign cs).2).bind fun pair =>
          .ok (((exponentSign cs).1, pair.1), pair.2)
      else .ok ((false, []), c :: cs) :=
  rfl

theorem scan_eq (cs : List Char) :
    scan cs = (scanWhole (sign cs).2).bind fun whole =>
      (scanFraction whole.2).bind fun fraction =>
        (scanExponent fraction.2).bind fun exponent =>
          .ok (⟨(sign cs).1, whole.1, fraction.1, exponent.1.1, exponent.1.2⟩, exponent.2) :=
  rfl

theorem scanExponent_of_ends {rest : List Char} (h : Ends rest) :
    scanExponent rest = .ok ((false, []), rest) := by
  cases rest with
  | nil => rfl
  | cons c rest => rw [scanExponent_cons, if_neg (not_or.mpr (h c rfl).2.2)]

theorem sign_append {cs : List Char} (hne : cs ≠ []) (tail : List Char) :
    sign (cs ++ tail) = ((sign cs).1, (sign cs).2 ++ tail) := by
  obtain ⟨c, cs, rfl⟩ := List.exists_cons_of_ne_nil hne
  rw [List.cons_append, sign_cons, sign_cons]
  split <;> rfl

theorem exponentSign_append {cs : List Char} (hne : cs ≠ []) (tail : List Char) :
    exponentSign (cs ++ tail) = ((exponentSign cs).1, (exponentSign cs).2 ++ tail) := by
  obtain ⟨c, cs, rfl⟩ := List.exists_cons_of_ne_nil hne
  rw [List.cons_append, exponentSign_cons, exponentSign_cons]
  split
  · rfl
  · split <;> rfl

section Append

variable {cs ds rest tail : List Char} (htail : Ends tail)

include htail

theorem digits_append (cs : List Char) :
    digits (cs ++ tail) = ((digits cs).1, (digits cs).2 ++ tail) := by
  simp only [digits, List.span_eq_takeWhile_dropWhile]
  induction cs with
  | nil =>
      cases tail with
      | nil => rfl
      | cons c tail => simp [(htail c rfl).1]
  | cons c cs ih =>
      rw [Prod.mk.injEq] at ih
      cases hc : isDigit c <;> simp [hc, ih]

theorem someDigits_append (h : someDigits cs = .ok (ds, rest)) :
    someDigits (cs ++ tail) = .ok (ds, rest ++ tail) := by
  cases cs with
  | nil => contradiction
  | cons c cs =>
      rw [someDigits] at h
      split at h
      · next hdigit =>
          have happend := digits_append htail (c :: cs)
          rw [Except.ok.inj h, List.cons_append] at happend
          rw [List.cons_append, someDigits, if_pos hdigit, happend]
      · contradiction

theorem scanWhole_append (h : scanWhole cs = .ok (ds, rest)) :
    scanWhole (cs ++ tail) = .ok (ds, rest ++ tail) := by
  rw [scanWhole_eq] at h
  obtain ⟨pair, hdigits, h⟩ := bind_eq_ok h
  rw [scanWhole_eq, someDigits_append htail hdigits, Except.bind]
  dsimp only at h ⊢
  split at h
  · contradiction
  · cases h
    rfl

theorem scanFraction_append (h : scanFraction cs = .ok (ds, rest)) :
    scanFraction (cs ++ tail) = .ok (ds, rest ++ tail) := by
  cases cs with
  | nil =>
      cases h
      exact scanFraction_of_ends htail
  | cons c cs =>
      rw [List.cons_append, scanFraction_cons]
      rw [scanFraction_cons] at h
      split at h
      · next hpoint =>
          rw [if_pos hpoint]
          exact someDigits_append htail h
      · next hpoint =>
          rw [if_neg hpoint]
          cases h
          rfl

theorem scanExponent_append {negative : Bool} (h : scanExponent cs = .ok ((negative, ds), rest)) :
    scanExponent (cs ++ tail) = .ok ((negative, ds), rest ++ tail) := by
  cases cs with
  | nil =>
      cases h
      exact scanExponent_of_ends htail
  | cons c cs =>
      rw [List.cons_append, scanExponent_cons]
      rw [scanExponent_cons] at h
      split at h
      · next hletter =>
          obtain ⟨pair, hdigits, hpair⟩ := bind_eq_ok h
          cases hpair
          have hne : cs ≠ [] := by
            rintro rfl
            contradiction
          rw [if_pos hletter, exponentSign_append hne tail, someDigits_append htail hdigits]
          rfl
      · next hletter =>
          rw [if_neg hletter]
          cases h
          rfl

theorem scan_append {n : Numeral} (h : scan cs = .ok (n, rest)) :
    scan (cs ++ tail) = .ok (n, rest ++ tail) := by
  rw [scan_eq] at h
  obtain ⟨whole, hwhole, h⟩ := bind_eq_ok h
  obtain ⟨fraction, hfraction, h⟩ := bind_eq_ok h
  obtain ⟨exponent, hexponent, h⟩ := bind_eq_ok h
  cases h
  have hne : cs ≠ [] := by
    rintro rfl
    contradiction
  rw [scan_eq, sign_append hne tail, scanWhole_append htail hwhole, Except.bind,
    scanFraction_append htail hfraction, Except.bind, scanExponent_append htail hexponent]
  rfl

end Append

theorem exists_cons_of_scan {cs rest : List Char} {n : Numeral} (h : scan cs = .ok (n, rest)) :
    ∃ c tail, cs = c :: tail ∧ (c = '-' ∨ isDigit c = true) := by
  rw [scan_eq] at h
  obtain ⟨whole, hwhole, -⟩ := bind_eq_ok h
  cases cs with
  | nil => contradiction
  | cons c tail =>
      refine ⟨c, tail, rfl, ?_⟩
      rw [sign_cons] at hwhole
      split at hwhole
      · next hminus => exact .inl hminus
      · rw [scanWhole_eq] at hwhole
        obtain ⟨pair, hdigits, -⟩ := bind_eq_ok hwhole
        rw [someDigits] at hdigits
        split at hdigits
        · next hdigit => exact .inr hdigit
        · contradiction

end Numeral

namespace Scan

theorem passText_cons (c : Char) (cs : List Char) :
    passText (c :: cs) =
      if c = '"' then .ok cs
      else if c = '\\' then (passEscape cs).bind fun length => passText (cs.drop length)
      else if c.toNat < 0x20 then .error .malformed else passText cs := by
  rw [passText.eq_def]
  split
  · contradiction
  · next heq =>
      obtain ⟨rfl, rfl⟩ := List.cons.inj heq
      rfl
  · next heq =>
      obtain ⟨rfl, rfl⟩ := List.cons.inj heq
      cases passEscape cs <;> rfl
  · next hquote hslash heq =>
      obtain ⟨rfl, rfl⟩ := List.cons.inj heq
      rw [if_neg hquote, if_neg hslash]

theorem text_cons (c : Char) (cs : List Char) :
    text (c :: cs) =
      if c = '"' then .ok []
      else if c = '\\' then
        (escape cs).bind fun spelled => (text (cs.drop spelled.2)).map (spelled.1 :: ·)
      else if c.toNat < 0x20 then .error .malformed else (text cs).map (c :: ·) := by
  rw [text.eq_def]
  split
  · contradiction
  · next heq =>
      obtain ⟨rfl, rfl⟩ := List.cons.inj heq
      rfl
  · next heq =>
      obtain ⟨rfl, rfl⟩ := List.cons.inj heq
      cases escape cs <;> rfl
  · next hquote hslash heq =>
      obtain ⟨rfl, rfl⟩ := List.cons.inj heq
      rw [if_neg hquote, if_neg hslash]

theorem fourDigits_append {cs : List Char} {unit : Nat} (h : fourDigits cs = .ok unit)
    (tail : List Char) : 4 ≤ cs.length ∧ fourDigits (cs ++ tail) = .ok unit := by
  unfold fourDigits at h
  split at h
  · exact ⟨Nat.le_add_left 4 _, h⟩
  · split at h <;> contradiction

theorem passEscape_cons (c : Char) (cs : List Char) :
    passEscape (c :: cs) =
      if c = 'u' then (fourDigits cs).map fun _ => 5
      else if (simpleEscape? c).isSome then .ok 1 else .error .malformed := by
  unfold passEscape
  split
  · contradiction
  · next heq =>
      obtain ⟨rfl, rfl⟩ := List.cons.inj heq
      rfl
  · next hunit heq =>
      obtain ⟨rfl, rfl⟩ := List.cons.inj heq
      exact (if_neg hunit).symm

theorem escape_cons (c : Char) (cs : List Char) :
    escape (c :: cs) =
      if c = 'u' then (fourDigits cs).bind fun unit =>
        if 0xdc00 ≤ unit ∧ unit ≤ 0xdfff then .error .malformed
        else if 0xd800 ≤ unit ∧ unit ≤ 0xdbff then
          (trailing unit (cs.drop 4)).map fun c => (c, 11)
        else .ok (Char.ofNat unit, 5)
      else
        match simpleEscape? c with
        | some c => .ok (c, 1)
        | none => .error .malformed := by
  unfold escape
  split
  · contradiction
  · next heq =>
      obtain ⟨rfl, rfl⟩ := List.cons.inj heq
      rfl
  · next hunit heq =>
      obtain ⟨rfl, rfl⟩ := List.cons.inj heq
      exact (if_neg hunit).symm

theorem passEscape_append {cs : List Char} {length : Nat} (h : passEscape cs = .ok length)
    (tail : List Char) : length ≤ cs.length ∧ passEscape (cs ++ tail) = .ok length := by
  cases cs with
  | nil => contradiction
  | cons c cs =>
      rw [List.cons_append, passEscape_cons]
      rw [passEscape_cons] at h
      split at h
      · next hunit =>
          obtain ⟨unit, hdigits, rfl⟩ := map_eq_ok h
          obtain ⟨hlong, happend⟩ := fourDigits_append hdigits tail
          rw [if_pos hunit, happend]
          exact ⟨Nat.succ_le_succ hlong, rfl⟩
      · next hunit =>
          split at h
          · next hsimple =>
              cases h
              rw [if_neg hunit, if_pos hsimple]
              exact ⟨Nat.le_add_left 1 _, rfl⟩
          · contradiction

theorem passText_cons_eq_ok {c : Char} {cs rest : List Char} (h : passText (c :: cs) = .ok rest) :
    (c = '"' ∧ rest = cs) ∨
      (c = '\\' ∧ ∃ length, passEscape cs = .ok length ∧ passText (cs.drop length) = .ok rest) ∨
      (c ≠ '"' ∧ c ≠ '\\' ∧ ¬ c.toNat < 0x20 ∧ passText cs = .ok rest) := by
  rw [passText_cons] at h
  split_ifs at h with hquote hslash hcontrol
  · cases h
    exact .inl ⟨hquote, rfl⟩
  · exact .inr (.inl ⟨hslash, bind_eq_ok h⟩)
  · exact .inr (.inr ⟨hquote, hslash, hcontrol, h⟩)

theorem passText_nil : passText [] = .error .truncated := by
  rw [passText]

theorem passText_append {cs rest : List Char} (h : passText cs = .ok rest) (tail : List Char) :
    passText (cs ++ tail) = .ok (rest ++ tail) := by
  induction hlength : cs.length using Nat.strongRecOn generalizing cs with
  | ind n ih =>
      cases cs with
      | nil =>
          rw [passText_nil] at h
          contradiction
      | cons c cs =>
          have hshort (k : Nat) : (cs.drop k).length < n := by
            rw [List.length_drop, ← hlength, List.length_cons]
            omega
          rw [List.cons_append, passText_cons]
          rcases passText_cons_eq_ok h with
            ⟨hquote, rfl⟩ | ⟨rfl, length, hescape, hrest⟩ | ⟨hquote, hslash, hcontrol, hrest⟩
          · rw [if_pos hquote]
          · obtain ⟨hlong, happend⟩ := passEscape_append hescape tail
            have hnext := ih _ (hshort length) hrest rfl
            rw [if_neg (by decide), if_pos rfl, happend, Except.bind,
              List.drop_append_of_le_length hlong, hnext]
          · rw [if_neg hquote, if_neg hslash, if_neg hcontrol]
            exact ih _ (hshort 0) hrest rfl

theorem trailing_of_ne {c : Char} (h : c ≠ '\\') (leading : Nat) (cs : List Char) :
    trailing leading (c :: cs) = .error .malformed := by
  unfold trailing
  split <;> simp_all

theorem trailing_slash (d : Char) (leading : Nat) (cs : List Char) :
    trailing leading ('\\' :: d :: cs) =
      if d = 'u' then (fourDigits cs).bind fun unit =>
        if 0xdc00 ≤ unit ∧ unit ≤ 0xdfff then
          .ok (Char.ofNat (0x10000 + (leading - 0xd800) * 0x400 + (unit - 0xdc00)))
        else .error .malformed
      else .error .malformed := by
  by_cases hunit : d = 'u'
  · subst d
    rfl
  · rw [if_neg hunit]
    unfold trailing
    split <;> simp_all

section Text

variable {cs rest : List Char} (hpass : passText cs = .ok rest)

include hpass

theorem trailing_append (leading : Nat) (tail : List Char) :
    trailing leading (cs ++ tail) = trailing leading cs := by
  cases cs with
  | nil =>
      rw [passText_nil] at hpass
      contradiction
  | cons c cs =>
      rcases passText_cons_eq_ok hpass with
        ⟨rfl, -⟩ | ⟨rfl, length, hescape, -⟩ | ⟨-, hslash, -, -⟩
      · rfl
      · cases cs with
        | nil => contradiction
        | cons d cs =>
            rw [List.cons_append, List.cons_append, trailing_slash, trailing_slash]
            split
            · next hunit =>
                rw [passEscape_cons, if_pos hunit] at hescape
                obtain ⟨unit, hdigits, -⟩ := map_eq_ok hescape
                rw [(fourDigits_append hdigits tail).2, hdigits]
            · rfl
      · rw [List.cons_append, trailing_of_ne hslash, trailing_of_ne hslash]

theorem passText_drop_of_trailing {leading : Nat} {c : Char}
    (h : trailing leading cs = .ok c) : 6 ≤ cs.length ∧ passText (cs.drop 6) = .ok rest := by
  cases cs with
  | nil => contradiction
  | cons first cs =>
      by_cases hslash : first = '\\'
      · subst first
        cases cs with
        | nil => contradiction
        | cons d cs =>
            rw [trailing_slash] at h
            split at h
            · next hunit =>
                subst d
                obtain ⟨unit, hdigits, -⟩ := bind_eq_ok h
                have hlong := (fourDigits_append hdigits []).1
                rw [passText_cons, if_neg (by decide), if_pos rfl, passEscape_cons, if_pos rfl,
                  hdigits] at hpass
                exact ⟨Nat.add_le_add_right hlong 2, hpass⟩
            · contradiction
      · rw [trailing_of_ne hslash] at h
        contradiction

end Text

section Escape

variable {cs rest : List Char} {length : Nat} (hescape : passEscape cs = .ok length)
  (hpass : passText (cs.drop length) = .ok rest)

include hescape hpass

theorem escape_append (tail : List Char) : escape (cs ++ tail) = escape cs := by
  cases cs with
  | nil => contradiction
  | cons c cs =>
      rw [List.cons_append, escape_cons, escape_cons]
      split
      · next hunit =>
          rw [passEscape_cons, if_pos hunit] at hescape
          obtain ⟨unit, hdigits, rfl⟩ := map_eq_ok hescape
          obtain ⟨hlong, happend⟩ := fourDigits_append hdigits tail
          have hpair : trailing unit ((cs ++ tail).drop 4) = trailing unit (cs.drop 4) := by
            rw [List.drop_append_of_le_length hlong]
            exact trailing_append hpass unit tail
          rw [happend, hdigits, Except.bind, Except.bind, hpair]
      · rfl

/-- Reading an escape takes up as much as passing over it, or two escapes at once. -/
theorem passText_drop_of_escape {c : Char} {spelled : Nat} (h : escape cs = .ok (c, spelled)) :
    spelled ≤ cs.length ∧ passText (cs.drop spelled) = .ok rest := by
  cases cs with
  | nil => contradiction
  | cons first cs =>
      have hlength := (passEscape_append hescape []).1
      rw [escape_cons] at h
      rw [passEscape_cons] at hescape
      split at h
      · next hunit =>
          rw [if_pos hunit] at hescape
          obtain ⟨unit, hdigits, rfl⟩ := map_eq_ok hescape
          rw [hdigits, Except.bind] at h
          split_ifs at h with hlow hhigh
          · obtain ⟨d, htrailing, heq⟩ := map_eq_ok h
            cases heq
            obtain ⟨hlong, hrest⟩ := passText_drop_of_trailing hpass htrailing
            rw [List.length_drop, List.length_cons] at hlong
            rw [List.drop_succ_cons, List.drop_drop] at hrest
            exact ⟨by rw [List.length_cons]; omega, hrest⟩
          · cases h
            exact ⟨hlength, hpass⟩
      · next hunit =>
          rw [if_neg hunit] at hescape
          split at h
          · next hsimple =>
              rw [hsimple] at hescape
              cases h
              cases hescape
              exact ⟨hlength, hpass⟩
          · contradiction

end Escape

/-- Whatever stands behind the closing quote does not change what is read. -/
theorem text_append {cs rest : List Char} (h : passText cs = .ok rest) (tail : List Char) :
    text (cs ++ tail) = text cs := by
  induction hlength : cs.length using Nat.strongRecOn generalizing cs with
  | ind n ih =>
      cases cs with
      | nil =>
          rw [passText_nil] at h
          contradiction
      | cons c cs =>
          have hshort (k : Nat) : (cs.drop k).length < n := by
            rw [List.length_drop, ← hlength, List.length_cons]
            omega
          rw [List.cons_append, text_cons, text_cons]
          rcases passText_cons_eq_ok h with
            ⟨hquote, rfl⟩ | ⟨rfl, length, hescape, hrest⟩ | ⟨hquote, hslash, hcontrol, hrest⟩
          · rw [if_pos hquote, if_pos hquote]
          · rw [if_neg (by decide), if_pos rfl, if_neg (by decide), if_pos rfl,
              escape_append hescape hrest]
            cases hspelled : escape cs with
            | error flaw => rfl
            | ok spelled =>
                obtain ⟨hlong, hbehind⟩ := passText_drop_of_escape hescape hrest hspelled
                have hnext := ih _ (hshort spelled.2) hbehind rfl
                rw [Except.bind, Except.bind, List.drop_append_of_le_length hlong, hnext]
          · have hnext := ih _ (hshort 0) hrest rfl
            rw [if_neg hquote, if_neg hslash, if_neg hcontrol, if_neg hquote, if_neg hslash,
              if_neg hcontrol]
            exact congrArg _ hnext

theorem stringValue_append {cs : List Char} (h : passText cs = .ok []) (tail : List Char) :
    stringValue (cs ++ tail) = (.string ⟨(text cs).map String.ofList, none⟩, tail) := by
  rw [stringValue, text_append h, passText_append h]
  rfl

end Scan
end AuthorizedCalls.Json
