/-!
Identifiers of declarations. The identifier of a contract or interface is its name; that of a
member is the name of its contract, a dot and its own name. The contract is recovered as the text
before the first dot, so identifiers are unambiguous where names of contracts hold no dot.
-/

namespace AuthorizedCalls

structure DeclId where
  text : String
deriving DecidableEq

namespace DeclId

def contract (name : String) : DeclId :=
  ⟨name⟩

def member (contract name : String) : DeclId :=
  ⟨contract ++ "." ++ name⟩

/-- The text before the first dot. -/
def contractName (id : DeclId) : String :=
  String.ofList (id.text.toList.takeWhile (· ≠ '.'))

def isMember (id : DeclId) : Bool :=
  id.text.toList.contains '.'

/-- The runs of characters between dots; a text without dots is one run. -/
def segments : List Char → List (List Char)
  | [] => [[]]
  | c :: rest =>
    if c = '.' then [] :: segments rest
    else
      match segments rest with
      | [] => [[c]]
      | first :: others => (c :: first) :: others

/-- An identifier that may come from outside: no run between its dots may be empty. -/
def ofText? (text : String) : Option DeclId :=
  if (segments text.toList).any List.isEmpty then none else some ⟨text⟩

theorem isMember_member (c m : String) : (member c m).isMember := by
  simp [isMember, member]

private theorem takeWhile_dotless (name rest : List Char) (h : '.' ∉ name) :
    (name ++ '.' :: rest).takeWhile (· ≠ '.') = name := by
  have hall : ∀ c ∈ name, decide (c ≠ '.') = true := fun c hc =>
    decide_eq_true fun e => h (e ▸ hc)
  rw [List.takeWhile_append_of_pos hall]
  simp

theorem contractName_member {c : String} (m : String) (h : '.' ∉ c.toList) :
    (member c m).contractName = c := by
  have htext : (member c m).text.toList = c.toList ++ '.' :: m.toList := by
    simp [member]
  rw [contractName, htext, takeWhile_dotless _ _ h, String.ofList_toList]

theorem contractName_contract {c : String} (h : '.' ∉ c.toList) :
    (contract c).contractName = c := by
  have hall : ∀ x ∈ c.toList, decide (x ≠ '.') = true := fun x hx =>
    decide_eq_true fun e => h (e ▸ hx)
  have htake : (c.toList ++ []).takeWhile (· ≠ '.') = c.toList ++ [] :=
    List.takeWhile_append_of_pos hall
  rw [List.append_nil] at htake
  rw [contractName, contract, htake, String.ofList_toList]

end DeclId

end AuthorizedCalls
