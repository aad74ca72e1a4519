import AuthorizedCalls.Text.Hex

namespace AuthorizedCalls.Json

/-- A value to be written. The only numbers are natural ones. -/
inductive Value
  | null
  | bool (b : Bool)
  | number (n : Nat)
  | string (s : String)
  | array (items : List Value)
  | object (members : List (String × Value))

namespace Value

/-- The characters that stand for one character of a string. Quotes, backslashes and controls are
escaped; all else stands for itself. -/
def escape (c : Char) : List Char :=
  if c = '"' then ['\\', '"']
  else if c = '\\' then ['\\', '\\']
  else if c = '\n' then ['\\', 'n']
  else if c = '\r' then ['\\', 'r']
  else if c = '\t' then ['\\', 't']
  else if c = '\x08' then ['\\', 'b']
  else if c = '\x0c' then ['\\', 'f']
  else if c.toNat < 0x20 then '\\' :: 'u' :: Text.Hex.digits 4 c.toNat
  else [c]

def quoted (s : String) : List Char :=
  '"' :: (s.toList.flatMap escape ++ ['"'])

def ofBool (b : Bool) : List Char :=
  if b then "true".toList else "false".toList

mutual

/-- The compact text. -/
def chars : Value → List Char
  | null => "null".toList
  | bool b => ofBool b
  | number n => Nat.toDigits 10 n
  | string s => quoted s
  | array [] => ['[', ']']
  | array (item :: rest) => '[' :: (chars item ++ restItems rest)
  | object [] => ['\x7b', '\x7d']
  | object ((name, value) :: rest) =>
    '\x7b' :: (quoted name ++ ':' :: (chars value ++ restMembers rest))

def restItems : List Value → List Char
  | [] => [']']
  | item :: rest => ',' :: (chars item ++ restItems rest)

def restMembers : List (String × Value) → List Char
  | [] => ['\x7d']
  | (name, value) :: rest => ',' :: (quoted name ++ ':' :: (chars value ++ restMembers rest))

end

def compact (v : Value) : String :=
  String.ofList v.chars

mutual

/-- The same value with the members of every object in ascending order of their names. -/
def sorted : Value → Value
  | array items => array (sortedItems items)
  | object members =>
    object ((sortedMembers members).mergeSort fun a b => !decide (b.1 < a.1))
  | other => other

def sortedItems : List Value → List Value
  | [] => []
  | item :: rest => sorted item :: sortedItems rest

def sortedMembers : List (String × Value) → List (String × Value)
  | [] => []
  | (name, value) :: rest => (name, sorted value) :: sortedMembers rest

end

/-- A line break, and the indentation of a line at a depth. -/
def newLine (depth : Nat) : List Char :=
  '\n' :: List.replicate (2 * depth) ' '

mutual

/-- The text of a value that stands at a depth, members as they come. -/
def indented (depth : Nat) : Value → List Char
  | null => "null".toList
  | bool b => ofBool b
  | number n => Nat.toDigits 10 n
  | string s => quoted s
  | array [] => ['[', ']']
  | array (item :: rest) =>
    '[' :: (newLine (depth + 1) ++ indented (depth + 1) item ++ indentedItems depth rest)
  | object [] => ['\x7b', '\x7d']
  | object ((name, value) :: rest) =>
    '\x7b' :: (newLine (depth + 1) ++ quoted name ++ ':' :: ' ' :: indented (depth + 1) value ++
      indentedMembers depth rest)

def indentedItems (depth : Nat) : List Value → List Char
  | [] => newLine depth ++ [']']
  | item :: rest =>
    ',' :: (newLine (depth + 1) ++ indented (depth + 1) item ++ indentedItems depth rest)

def indentedMembers (depth : Nat) : List (String × Value) → List Char
  | [] => newLine depth ++ ['\x7d']
  | (name, value) :: rest =>
    ',' :: (newLine (depth + 1) ++ quoted name ++ ':' :: ' ' :: indented (depth + 1) value ++
      indentedMembers depth rest)

end

def pretty (v : Value) : String :=
  String.ofList (v.sorted.indented 0)

end Value

end AuthorizedCalls.Json
