import AuthorizedCalls.Decimal.Shortest

namespace AuthorizedCalls.Json

inductive Break
  | malformed
  | truncated
deriving DecidableEq

/-- A number as it is written. Of the digits only those before the point are never missing. -/
structure Numeral where
  negative : Bool
  whole : List Char
  fraction : List Char := []
  exponentNegative : Bool := false
  exponent : List Char := []

inductive Number
  | integer (value : Int)
  | float (value : Float)

namespace Number

/-- Positional from `10 ^ (-5)` up to below `10 ^ 16`; every exponent has a sign. -/
def layout : Decimal.Layout :=
  ⟨-5, 16, "+"⟩

def floatText (x : Float) : String :=
  layout.floatText x

end Number

namespace Numeral

def isDigit (c : Char) : Bool :=
  '0' ≤ c && c ≤ '9'

def digitValue (c : Char) : Nat :=
  c.toNat - '0'.toNat

def digits (cs : List Char) : List Char × List Char :=
  cs.span isDigit

def someDigits (cs : List Char) : Except Break (List Char × List Char) :=
  match cs with
  | [] => .error .truncated
  | c :: _ => if isDigit c then .ok (digits cs) else .error .malformed

/-- A whole part: digits without a needless zero in front. -/
def scanWhole (cs : List Char) : Except Break (List Char × List Char) := do
  let (whole, rest) ← someDigits cs
  match whole with
  | '0' :: _ :: _ => .error .malformed
  | _ => .ok (whole, rest)

def scanFraction : List Char → Except Break (List Char × List Char)
  | '.' :: rest => someDigits rest
  | rest => .ok ([], rest)

def scanExponent : List Char → Except Break ((Bool × List Char) × List Char)
  | c :: rest =>
    if c = 'e' ∨ c = 'E' then do
      let (negative, rest) :=
        match rest with
        | '+' :: rest => (false, rest)
        | '-' :: rest => (true, rest)
        | rest => (false, rest)
      let (digits, rest) ← someDigits rest
      .ok ((negative, digits), rest)
    else .ok ((false, []), c :: rest)
  | [] => .ok ((false, []), [])

/-- Reads a numeral from the front of a text, as far as it goes. -/
def scan (cs : List Char) : Except Break (Numeral × List Char) := do
  let (negative, cs) :=
    match cs with
    | '-' :: rest => (true, rest)
    | rest => (false, rest)
  let (whole, cs) ← scanWhole cs
  let (fraction, cs) ← scanFraction cs
  let ((exponentNegative, exponent), cs) ← scanExponent cs
  .ok (⟨negative, whole, fraction, exponentNegative, exponent⟩, cs)

/-- Takes digits into a number for as long as it stays below `2 ^ 64`; gives the number and the
digits that are left. -/
def accumulate (n : Nat) : List Char → Nat × List Char
  | [] => (n, [])
  | c :: rest =>
    if 10 * n + digitValue c < UInt64.size then accumulate (10 * n + digitValue c) rest
    else (n, c :: rest)

def powerOfTen (k : Nat) : Float :=
  Float.ofScientific 1 false k

/-- Divides by `10 ^ k` in steps of at most `10 ^ 308`, the greatest power of ten there is. -/
def scaleDown (x : Float) (k : Nat) : Float :=
  if k ≤ 308 then x / powerOfTen k
  else if x == 0 then x
  else scaleDown (x / powerOfTen 308) (k - 308)
termination_by k

/-- The floating-point number `significand * 10 ^ power`, rounded once for the significand and
once for each step of the power; none if it would be infinite. -/
def scaled? (significand : Nat) (power : Int) : Option Float :=
  let x := significand.toUInt64.toFloat
  if significand = 0 then some x
  else if power < 0 then some (scaleDown x power.natAbs)
  else if 308 < power then none
  else
    let y := x * powerOfTen power.natAbs
    if y.isInf then none else some y

/-- The significand and the power of ten of a numeral. Digits that would make the significand too
great are dropped; those before the point still count as places. -/
def parts (n : Numeral) : Nat × Int :=
  let (whole, dropped) := accumulate 0 n.whole
  let (significand, unread) := accumulate whole n.fraction
  let written : Nat := n.exponent.foldl (fun e c => 10 * e + digitValue c) 0
  let exponent : Int := if n.exponentNegative then -(written : Int) else written
  (significand, dropped.length - (n.fraction.length - unread.length : Nat) + exponent)

/-- The integer of a numeral that has neither fraction nor exponent and fits. -/
def integer? (n : Numeral) : Option Int :=
  match n.fraction, n.exponent, accumulate 0 n.whole with
  | [], [], (value, []) =>
    if !n.negative then some value
    else if 0 < value && value ≤ 0x8000000000000000 then some (-value)
    else none
  | _, _, _ => none

def value (n : Numeral) : Except Break Number :=
  match n.integer? with
  | some i => .ok (.integer i)
  | none =>
    match scaled? n.parts.1 n.parts.2 with
    | some x => .ok (.float (if n.negative then -x else x))
    | none => .error .malformed

end Numeral

end AuthorizedCalls.Json
