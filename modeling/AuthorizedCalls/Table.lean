import AuthorizedCalls.Program
import AuthorizedCalls.SortedMap

namespace AuthorizedCalls

/-- The signature of an `auth` function as it is compiled: in front of the declared parameters
stands one for the authorizing account. -/
structure LoweredSignature where
  function : DeclId
  declared : List Param
deriving DecidableEq

namespace LoweredSignature

/-- The injected parameter. No name in source code can begin with `$`, so it shadows none. -/
def hidden : Param :=
  ⟨"$auth", "AuthAccount"⟩

def params (s : LoweredSignature) : List Param :=
  hidden :: s.declared

def ofMember (id : DeclId) (f : Member) : LoweredSignature :=
  ⟨id, f.params⟩

end LoweredSignature

inductive EntryKind
  | contract
  | interface
  | function
deriving DecidableEq

namespace EntryKind

def ofDeclKind : DeclKind → EntryKind
  | .contract => contract
  | .interface => interface

def name : EntryKind → String
  | contract => "contract"
  | interface => "interface"
  | function => "function"

end EntryKind

structure Entry where
  kind : EntryKind
  qualifier : Access
  /-- The account of the contract or interface that declares it. -/
  address : Address
  span : Span
deriving DecidableEq

structure Table where
  entries : SortedMap Entry := .empty
  rejected : NameSet := .empty
  lowered : SortedMap LoweredSignature := .empty
deriving DecidableEq

namespace Table

def get? (t : Table) (id : DeclId) : Option Entry :=
  t.entries.find? id.text

def contract? (t : Table) (name : String) : Option Entry :=
  t.get? (.contract name)

def qualifier? (t : Table) (id : DeclId) : Option Access :=
  (t.get? id).map Entry.qualifier

def lowered? (t : Table) (id : DeclId) : Option LoweredSignature :=
  t.lowered.find? id.text

/-- Whether the declaration, or the contract that declares it, was rejected. -/
def isRejected (t : Table) (id : DeclId) : Bool :=
  t.rejected.contains id.text || t.rejected.contains id.contractName

def setEntry (t : Table) (id : DeclId) (entry : Entry) : Table :=
  { t with entries := t.entries.insert id.text entry }

def setLowered (t : Table) (signature : LoweredSignature) : Table :=
  { t with lowered := t.lowered.insert signature.function.text signature }

/-- Records a rejection of something that has no entry yet. -/
def markRejected (t : Table) (id : DeclId) : Table :=
  { t with rejected := t.rejected.insert id.text () }

/-- Whether the rejection of `id` takes the entry under `key` out. -/
def dropsWith (id : DeclId) (key : String) : Bool :=
  if id.isMember then key == id.text else (DeclId.mk key).contractName == id.text

/-- Rejects a declaration and takes out what it declares. -/
def reject (t : Table) (id : DeclId) : Table :=
  markRejected
    { t with
      entries := t.entries.filterKeys fun key => !dropsWith id key
      lowered := t.lowered.filterKeys fun key => !dropsWith id key }
    id

theorem get?_setEntry (t : Table) (id other : DeclId) (entry : Entry) :
    (t.setEntry id entry).get? other = if other = id then some entry else t.get? other := by
  cases id; cases other
  simp [get?, setEntry, SortedMap.find?_insert]

theorem get?_reject (t : Table) (id other : DeclId) :
    (t.reject id).get? other = if dropsWith id other.text then none else t.get? other := by
  simp only [get?, reject, markRejected, SortedMap.find?_filterKeys]
  cases dropsWith id other.text <;> simp

end Table

end AuthorizedCalls
