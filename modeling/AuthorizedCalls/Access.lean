namespace AuthorizedCalls

inductive Access
  | all
  | account
  | self
  /-- Calls carry a hidden authorization token; a contract so marked needs an authorized import. -/
  | auth
deriving DecidableEq

namespace Access

def keyword : Access → String
  | all => "all"
  | account => "account"
  | self => "self"
  | auth => "auth"

def text : Access → String
  | auth => "auth"
  | other => s!"access({other.keyword})"

def ofKeyword? : String → Option Access
  | "all" => some all
  | "account" => some account
  | "self" => some self
  | "auth" => some auth
  | _ => none

@[simp] theorem ofKeyword?_keyword (a : Access) : ofKeyword? a.keyword = some a := by
  cases a <;> rfl

def isAuth : Access → Bool
  | auth => true
  | _ => false

@[simp] theorem isAuth_iff {a : Access} : a.isAuth = true ↔ a = auth := by
  cases a <;> simp [isAuth]

/-- Whether `a` admits no caller that `b` would turn away. The levels `all`, `account` and `self`
form a chain; `auth` lies above `all` alone, since a token says nothing about where its caller
lives. -/
def isStricterOrEqual (a b : Access) : Bool :=
  a == b || b == all || (a == self && b == account)

/-- The qualifier that the written ones amount to: none written means `all`, and between several
nothing is chosen. -/
def effective : List Access → Option Access
  | [] => some all
  | [single] => some single
  | _ => none

theorem effective_isSome_iff {written : List Access} :
    (effective written).isSome ↔ written.length ≤ 1 := by
  rcases written with _ | ⟨_, _ | _⟩ <;> simp [effective]

theorem effective_eq_none_iff {written : List Access} :
    effective written = none ↔ 2 ≤ written.length := by
  rcases written with _ | ⟨_, _ | _⟩ <;> simp [effective]

theorem effective_eq_auth_iff {written : List Access} :
    effective written = some auth ↔ written = [auth] := by
  rcases written with _ | ⟨_, _ | _⟩ <;> simp [effective]

end Access

inductive ImportMode
  | plain
  | authorized
deriving DecidableEq

namespace ImportMode

def text : ImportMode → String
  | plain => "plain"
  | authorized => "auth"

end ImportMode

/-- How the qualifier of an implementation must relate to that of its interface. -/
inductive Policy
  | exact
  | allowStricter
deriving DecidableEq

namespace Policy

def name : Policy → String
  | exact => "exact"
  | allowStricter => "allow-stricter"

def ofName? : String → Option Policy
  | "exact" => some exact
  | "allow-stricter" => some allowStricter
  | _ => none

@[simp] theorem ofName?_name (p : Policy) : ofName? p.name = some p := by
  cases p <;> rfl

def accepts (p : Policy) (required implementation : Access) : Bool :=
  match p with
  | exact => required == implementation
  | allowStricter => implementation.isStricterOrEqual required

theorem accepts_self (p : Policy) (a : Access) : p.accepts a a := by
  cases p <;> simp [accepts, Access.isStricterOrEqual]

theorem accepts_of_exact {required implementation : Access}
    (h : exact.accepts required implementation) (p : Policy) :
    p.accepts required implementation := by
  have hsame : required = implementation := by simpa [accepts] using h
  exact hsame ▸ accepts_self p required

theorem eq_auth_of_accepts {p : Policy} {implementation : Access}
    (h : p.accepts .auth implementation = true) : implementation = .auth := by
  cases p <;> cases implementation <;> simp_all [accepts, Access.isStricterOrEqual]

end Policy

end AuthorizedCalls
