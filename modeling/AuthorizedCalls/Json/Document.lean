import AuthorizedCalls.Json.Number
import AuthorizedCalls.Text.Hex

/-!
What a text says when it is taken for JSON. A document is the tree of everything that a text says
up to the first place where it stops making sense, and that place is part of the tree. A reader
that walks a document from left to right therefore meets every problem of the text, be it one of
form or one of meaning, in the order in which they stand in the text.

Two things are left to the reader, because they depend on what is asked for. Strings and numbers
that are passed over are held to fewer rules than those that are read, so a literal carries both
outcomes. And an object member is kept even where its name is no string.
-/

namespace AuthorizedCalls.Json

structure StringLiteral where
  /-- Its characters, if every escape stands for one. -/
  text : Except Break String
  /-- What is wrong with it even if it is passed over. -/
  flaw : Option Break

inductive Document
  | null
  | bool (b : Bool)
  | number (numeral : Except Break Numeral)
  | string (literal : StringLiteral)
  /-- The items, and what stands where a comma or the closing bracket should. -/
  | array (items : List Document) (flaw : Option Break)
  /-- Names with their values, and what stands where a comma or the closing brace should. -/
  | object (members : List (Document × Document)) (flaw : Option Break)
  | nothing
  /-- Something that begins with this character and is no value. -/
  | garbled (first : Char) (flaw : Break)

namespace Scan

def isSpace (c : Char) : Bool :=
  c = ' ' || c = '\t' || c = '\n' || c = '\r'

def skipSpace (cs : List Char) : List Char :=
  cs.dropWhile isSpace

def word : (expected cs : List Char) → Except Break (List Char)
  | [], cs => .ok cs
  | _ :: _, [] => .error .truncated
  | e :: es, c :: cs => if c = e then word es cs else .error .malformed

/-- The value of the four hex digits at the front of a text. The text counts as ended if fewer than
four bytes of it are left, whatever they are. -/
def fourDigits : List Char → Except Break Nat
  | a :: b :: c :: d :: _ =>
    if [a, b, c, d].all Text.Hex.isDigit then .ok (Text.Hex.value [a, b, c, d])
    else .error .malformed
  | cs => if (String.ofList cs).utf8ByteSize < 4 then .error .truncated else .error .malformed

def simpleEscape? : Char → Option Char
  | '"' => some '"'
  | '\\' => some '\\'
  | '/' => some '/'
  | 'b' => some '\x08'
  | 'f' => some '\x0c'
  | 'n' => some '\n'
  | 'r' => some '\r'
  | 't' => some '\t'
  | _ => none

/-- The character of a pair of code units, of which the first is a leading surrogate and the text
after it follows. -/
def trailing (leading : Nat) : List Char → Except Break Char
  | [] => .error .truncated
  | ['\\'] => .error .truncated
  | '\\' :: 'u' :: rest => do
    let unit ← fourDigits rest
    if 0xdc00 ≤ unit ∧ unit ≤ 0xdfff then
      .ok (Char.ofNat (0x10000 + (leading - 0xd800) * 0x400 + (unit - 0xdc00)))
    else .error .malformed
  | _ => .error .malformed

/-- Reads an escape after its backslash: the character, and how many characters spell it. -/
def escape : List Char → Except Break (Char × Nat)
  | [] => .error .truncated
  | 'u' :: rest => do
    let unit ← fourDigits rest
    if 0xdc00 ≤ unit ∧ unit ≤ 0xdfff then .error .malformed
    else if 0xd800 ≤ unit ∧ unit ≤ 0xdbff then do
      let c ← trailing unit (rest.drop 4)
      .ok (c, 11)
    else .ok (Char.ofNat unit, 5)
  | c :: _ =>
    match simpleEscape? c with
    | some c => .ok (c, 1)
    | none => .error .malformed

/-- Passes over an escape after its backslash: how many characters spell it. Surrogates need not
be paired. -/
def passEscape : List Char → Except Break Nat
  | [] => .error .truncated
  | 'u' :: rest => (fourDigits rest).map fun _ => 5
  | c :: _ => if (simpleEscape? c).isSome then .ok 1 else .error .malformed

/-- Reads a string after its opening quote: its characters. -/
def text (cs : List Char) : Except Break (List Char) :=
  match cs with
  | [] => .error .truncated
  | '"' :: _ => .ok []
  | '\\' :: rest =>
    match escape rest with
    | .ok (c, length) => (text (rest.drop length)).map (c :: ·)
    | .error flaw => .error flaw
  | c :: rest => if c.toNat < 0x20 then .error .malformed else (text rest).map (c :: ·)
termination_by cs.length
decreasing_by
  · exact Nat.lt_succ_of_le (List.length_drop ▸ Nat.sub_le ..)
  · exact Nat.lt_succ_self _

/-- Passes over a string after its opening quote: what follows the closing one. -/
def passText (cs : List Char) : Except Break (List Char) :=
  match cs with
  | [] => .error .truncated
  | '"' :: rest => .ok rest
  | '\\' :: rest =>
    match passEscape rest with
    | .ok length => passText (rest.drop length)
    | .error flaw => .error flaw
  | c :: rest => if c.toNat < 0x20 then .error .malformed else passText rest
termination_by cs.length
decreasing_by
  · exact Nat.lt_succ_of_le (List.length_drop ▸ Nat.sub_le ..)
  · exact Nat.lt_succ_self _

def wordValue (first : Char) (expected rest : List Char) (d : Document) : Document × List Char :=
  match word expected rest with
  | .ok rest => (d, rest)
  | .error flaw => (.garbled first flaw, [])

def stringValue (rest : List Char) : Document × List Char :=
  let characters := (text rest).map String.ofList
  match passText rest with
  | .ok rest => (.string ⟨characters, none⟩, rest)
  | .error flaw => (.string ⟨characters, some flaw⟩, [])

def numberValue (cs : List Char) : Document × List Char :=
  match Numeral.scan cs with
  | .ok (numeral, rest) => (.number (.ok numeral), rest)
  | .error flaw => (.number (.error flaw), [])

mutual

/-- The value at the front of a text, and what follows it; after a flaw nothing follows. Each
bracket and each comma costs a unit of fuel, and so does the value behind it. -/
def value : (fuel : Nat) → List Char → Document × List Char
  | 0, _ => (.nothing, [])
  | fuel + 1, cs =>
    match skipSpace cs with
    | [] => (.nothing, [])
    | 'n' :: rest => wordValue 'n' ['u', 'l', 'l'] rest .null
    | 't' :: rest => wordValue 't' ['r', 'u', 'e'] rest (.bool true)
    | 'f' :: rest => wordValue 'f' ['a', 'l', 's', 'e'] rest (.bool false)
    | '"' :: rest => stringValue rest
    | '[' :: rest =>
      match skipSpace rest with
      | ']' :: rest => (.array [] none, rest)
      | rest =>
        let (items, flaw, rest) := items fuel rest
        (.array items flaw, rest)
    | '\x7b' :: rest =>
      match skipSpace rest with
      | '\x7d' :: rest => (.object [] none, rest)
      | rest =>
        let (members, flaw, rest) := members fuel rest
        (.object members flaw, rest)
    | c :: rest =>
      if c = '-' || Numeral.isDigit c then numberValue (c :: rest)
      else (.garbled c .malformed, [])

/-- The items of an array from one of them on, the flaw after the last, and what follows. -/
def items : (fuel : Nat) → List Char → List Document × Option Break × List Char
  | 0, _ => ([], some .truncated, [])
  | fuel + 1, cs =>
    let (item, rest) := value fuel cs
    match skipSpace rest with
    | ',' :: rest =>
      let (items, flaw, rest) := items fuel rest
      (item :: items, flaw, rest)
    | ']' :: rest => ([item], none, rest)
    | [] => ([item], some .truncated, [])
    | _ => ([item], some .malformed, [])

/-- The members of an object from one of them on, the flaw after the last, and what follows. A
value without a colon before it is none. -/
def members : (fuel : Nat) → List Char → List (Document × Document) × Option Break × List Char
  | 0, _ => ([], some .truncated, [])
  | fuel + 1, cs =>
    let (name, rest) := value fuel cs
    match skipSpace rest with
    | ':' :: rest =>
      let (member, rest) := value fuel rest
      match skipSpace rest with
      | ',' :: rest =>
        let (members, flaw, rest) := members fuel rest
        ((name, member) :: members, flaw, rest)
      | '\x7d' :: rest => ([(name, member)], none, rest)
      | [] => ([(name, member)], some .truncated, [])
      | _ => ([(name, member)], some .malformed, [])
    | [] => ([(name, .nothing)], some .truncated, [])
    | c :: _ => ([(name, .garbled c .malformed)], some .malformed, [])

end

end Scan

namespace Document

def scan (text : String) : Document × List Char :=
  let cs := text.toList
  Scan.value (2 * cs.length + 2) cs

end Document

end AuthorizedCalls.Json
