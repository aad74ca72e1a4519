import AuthorizedCalls.Address
import AuthorizedCalls.Json.Number
import AuthorizedCalls.Text.Position
import AuthorizedCalls.Text.Quoted

namespace AuthorizedCalls.Json

inductive Found
  | integer (value : Int)
  | float (value : Float)
  | bool (b : Bool)
  | string (s : String)
  | null
  | array
  | object
  | bareAlternative

namespace Found

def text : Found → String
  | integer value => s!"integer `{value}`"
  | float value => s!"floating point `{Number.floatText value}`"
  | bool b => s!"boolean `{b}`"
  | string s => s!"string {Text.Quoted.text s}"
  | null => "null"
  | array => "sequence"
  | object => "map"
  | bareAlternative => "unit variant"

def ofNumber : Number → Found
  | .integer value => integer value
  | .float value => float value

end Found

inductive Wanted
  | string
  | array
  | bool
  | word32
  | address
  | alternative
  /-- The value that stands beside the name of an alternative without content. -/
  | noContent
  | content
  | record (name : String)
  | tagged (name : String)

namespace Wanted

def text : Wanted → String
  | string => "a string"
  | array => "a sequence"
  | bool => "a boolean"
  | word32 => "u32"
  | address => "a 0x-prefixed hex account address"
  | alternative => "variant identifier"
  | noContent => "unit"
  | content => "newtype variant"
  | record name => s!"struct {name}"
  | tagged name => s!"internally tagged enum {name}"

end Wanted

inductive WantedLength
  /-- As many as a record has fields. -/
  | record (name : String) (fields : Nat)
  /-- As many as the alternative of a tagged value has fields. -/
  | alternative (name : String) (fields : Nat)
  /-- No more than were taken. -/
  | taken (items : Nat)

namespace WantedLength

def elements (n : Nat) : String :=
  if n = 1 then "1 element" else s!"{n} elements"

def text : WantedLength → String
  | record name fields => s!"struct {name} with {elements fields}"
  | alternative name fields => s!"struct variant {name} with {elements fields}"
  | taken items => s!"{elements items} in sequence"

end WantedLength

/-- What is wrong with the shape of a text that makes sense so far. -/
inductive Misfit
  | type (found : Found) (wanted : Wanted)
  | range (found : Found) (wanted : Wanted)
  | length (items : Nat) (wanted : WantedLength)
  | unknownAlternative (name : String) (known : List String)
  | missingField (name : String)
  | duplicateField (name : String)
  | address (error : AddressError)

namespace Misfit

def alternatives (known : List String) : String :=
  match known.map fun name => s!"`{name}`" with
  | [a, b] => s!"{a} or {b}"
  | names => "one of " ++ String.intercalate ", " names

def text : Misfit → String
  | type found wanted => s!"invalid type: {found.text}, expected {wanted.text}"
  | range found wanted => s!"invalid value: {found.text}, expected {wanted.text}"
  | length items wanted => s!"invalid length {items}, expected {wanted.text}"
  | unknownAlternative name known =>
    s!"unknown variant `{name}`, expected {alternatives known}"
  | missingField name => s!"missing field `{name}`"
  | duplicateField name => s!"duplicate field `{name}`"
  | address error => error.message

/-- The words without a position at their end: a message names no place, and words that already
do lose that part. -/
def message (m : Misfit) : String :=
  Text.Position.dropped m.text

end Misfit

inductive Fault
  | flaw (flaw : Break)
  | misfit (misfit : Misfit)

end AuthorizedCalls.Json
