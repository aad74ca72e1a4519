import AuthorizedCalls.Address

namespace AuthorizedCalls

inductive Token
  /-- The account of the calling contract. -/
  | contract (name : String) (address : Address)
  /-- The authorizer at a position among those that `prepare` declares. -/
  | authorizer (name : String) (count : Nat) (position : Fin count)
deriving DecidableEq

inductive HiddenArgument
  | address (address : Address)
  /-- The account is taken from this position of the submission. -/
  | slot (position : Nat)
deriving DecidableEq

inductive TokenError
  | countMismatch (expected actual : Nat)
deriving DecidableEq

namespace TokenError

def message : TokenError → String
  | countMismatch expected actual =>
    s!"authorizer count mismatch: prepare declares {expected}, transaction carries {actual}"

end TokenError

namespace Token

/-- The account, where it is known before submission. -/
def staticAddress? : Token → Option Address
  | contract _ address => some address
  | authorizer .. => none

def hiddenArgument : Token → HiddenArgument
  | contract _ address => .address address
  | authorizer _ _ position => .slot position

/-- The account that the token stands for when a transaction is submitted with these authorizers.
Their number must be the declared one; the token of a contract does not look at them. -/
def bind (submitted : List Address) : Token → Except TokenError Address
  | contract _ address => .ok address
  | authorizer _ count position =>
    if h : submitted.length = count then .ok submitted[position.val]
    else .error (.countMismatch count submitted.length)

end Token

end AuthorizedCalls
