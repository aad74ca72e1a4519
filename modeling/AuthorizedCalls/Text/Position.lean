namespace AuthorizedCalls.Text.Position

def value (digits : List Char) : Nat :=
  digits.foldl (fun n c => 10 * n + (c.toNat - '0'.toNat)) 0

/-- Whether digits spell a number, and one that fits. -/
def isNumber (digits : List Char) : Bool :=
  !digits.isEmpty && digits.all Char.isDigit && decide (value digits < UInt64.size)

/-- What stands before an ending, in a text that is given from its last character to its first. -/
def before? (ending : String) (reversed : List Char) : Option (List Char) :=
  ending.toList.reverse.isPrefixOf? reversed

/-- What stands before the place at the end of a text, both from the last character to the
first. -/
def beforePlace? (reversed : List Char) : Option (List Char) := do
  let (column, rest) := reversed.span Char.isDigit
  let rest ← before? " column " rest
  let (line, rest) := rest.span Char.isDigit
  let rest ← before? " at line " rest
  if isNumber line.reverse && isNumber column.reverse then some rest else none

def dropped (text : String) : String :=
  match beforePlace? text.toList.reverse with
  | some reversed => String.ofList reversed.reverse
  | none => text

end AuthorizedCalls.Text.Position
