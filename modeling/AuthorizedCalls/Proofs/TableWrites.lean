import AuthorizedCalls.Resolution
import AuthorizedCalls.Proofs.FirstOfName
import AuthorizedCalls.Proofs.TableLookup

namespace AuthorizedCalls

namespace Declaration

/-- The function that a name stands for: the first of that name. -/
def function? (d : Declaration) (name : String) : Option Member :=
  d.functions.find? fun f => f.name = name

theorem function?_eq_some_iff {d : Declaration} (h : (d.functions.map Member.name).Nodup)
    {name : String} {f : Member} : d.function? name = some f ↔ f ∈ d.functions ∧ f.name = name :=
  find?_key_eq_some_iff h

def entry? (d : Declaration) : Option Entry :=
  (Access.effective d.qualifiers).map fun qualifier =>
    ⟨.ofDeclKind d.kind, qualifier, d.address, d.span⟩

def memberEntry? (d : Declaration) (f : Member) : Option Entry :=
  (Access.effective f.qualifiers).map fun qualifier =>
    ⟨.function, qualifier, d.address, f.span⟩

end Declaration

namespace Declarations

/-- Names of declarations without dots: what keeps the identifiers of different declarations
apart. -/
def Dotless (ds : Declarations) : Prop :=
  ∀ d ∈ ds, AuthorizedCalls.Dotless d.name

instance (ds : Declarations) : Decidable ds.Dotless :=
  inferInstanceAs (Decidable (∀ d ∈ ds, AuthorizedCalls.Dotless d.name))

theorem mem_of_named? {ds : Declarations} {name : String} {d : Declaration}
    (h : ds.named? name = some d) : d ∈ ds ∧ d.name = name :=
  ⟨List.mem_of_find?_eq_some h, by simpa using List.find?_some h⟩

end Declarations

/-- What registration writes into a table. -/
inductive Write
  | entry (id : DeclId) (entry : Entry)
  | rejection (id : DeclId)
  | signature (signature : LoweredSignature)

namespace Write

/-- An entry is written under the identifier or, where there is none, its rejection. -/
def outcome (id : DeclId) : Option Entry → Write
  | some written => entry id written
  | none => rejection id

def id : Write → DeclId
  | entry id _ | rejection id => id
  | signature lowered => lowered.function

end Write

def Table.write (t : Table) : Write → Table
  | .entry id entry => t.setEntry id entry
  | .rejection id => t.markRejected id
  | .signature signature => t.setLowered signature

/-- The signature that a function gets under an identifier; none unless it is `auth`. -/
def Member.signature? (f : Member) (id : DeclId) : Option LoweredSignature :=
  if Access.effective f.qualifiers = some .auth then some (.ofMember id f) else none

namespace Declaration

def memberWrites (d : Declaration) (f : Member) : List Write :=
  let id := DeclId.member d.name f.name
  (f.signature? id).toList.map Write.signature ++ [.outcome id (d.memberEntry? f)]

def writes (d : Declaration) : List Write :=
  .outcome d.id d.entry? ::
    if d.entry?.isSome then (firstsBy Member.name d.functions).flatMap d.memberWrites else []

end Declaration

def Declarations.writes (ds : Declarations) : List Write :=
  ds.canonical.flatMap Declaration.writes

theorem Write.id_outcome (id : DeclId) (entry : Option Entry) : (outcome id entry).id = id := by
  cases entry <;> rfl

theorem Declaration.id_of_mem_memberWrites {d : Declaration} {f : Member} {w : Write}
    (h : w ∈ d.memberWrites f) : w.id = .member d.name f.name := by
  rw [memberWrites, List.mem_append, List.mem_map, List.mem_singleton] at h
  rcases h with ⟨signature, hsignature, rfl⟩ | rfl
  · rw [Option.mem_toList, Member.signature?, Option.ite_none_right_eq_some] at hsignature
    obtain ⟨-, ⟨⟩⟩ := hsignature
    rfl
  · exact Write.id_outcome _ _

namespace Resolution

theorem table_registerMember (d : Declaration) (r : Resolution) (f : Member) :
    (registerMember d r f).table = (d.memberWrites f).foldl Table.write r.table := by
  simp only [registerMember, Declaration.memberWrites, Declaration.memberEntry?,
    Member.signature?]
  cases Access.effective f.qualifiers with
  | none => rfl
  | some qualifier => cases qualifier <;> cases f.readsAuth <;> rfl

theorem registerMembers_eq (d : Declaration) (seen : List String) (fs : List Member)
    (r : Resolution) :
    registerMembers d seen fs r =
      foldByName Member.name (registerMember d)
        (fun r f => r.report (.redeclaredFunction (.member d.name f.name)) f.span) seen fs r := by
  induction fs generalizing seen r with
  | nil => rfl
  | cons f rest ih => rw [registerMembers, foldByName, ih, ih]

theorem register_eq (seen : List String) (ds : Declarations) (r : Resolution) :
    register seen ds r =
      foldByName Declaration.name registerDeclaration
        (fun r d => r.report (.redeclared d.kind d.name) d.span) seen ds r := by
  induction ds generalizing seen r with
  | nil => rfl
  | cons d rest ih => rw [register, foldByName, ih, ih]

theorem table_foldByName {α : Type} {key : α → String} {first later : Resolution → α → Resolution}
    {writes : α → List Write}
    (hfirst : ∀ r x, (first r x).table = (writes x).foldl Table.write r.table)
    (hlater : ∀ r x, (later r x).table = r.table) (seen : List String) (xs : List α)
    (r : Resolution) :
    (foldByName key first later seen xs r).table =
      ((unseen key seen xs).flatMap writes).foldl Table.write r.table := by
  rw [apply_foldByName table (fun t x => (writes x).foldl Table.write t) (fun t _ => t) hfirst
    hlater, foldByName_eq_foldl, List.foldl_flatMap]

theorem table_registerMembers (d : Declaration) (seen : List String) (fs : List Member)
    (r : Resolution) :
    (registerMembers d seen fs r).table =
      ((unseen Member.name seen fs).flatMap d.memberWrites).foldl Table.write r.table := by
  rw [registerMembers_eq]
  refine table_foldByName (table_registerMember d) ?_ seen fs r
  exact fun _ _ => rfl

theorem table_registerDeclaration (r : Resolution) (d : Declaration) :
    (r.registerDeclaration d).table = d.writes.foldl Table.write r.table := by
  rw [registerDeclaration, Declaration.writes, Declaration.entry?]
  cases Access.effective d.qualifiers with
  | none => rfl
  | some qualifier =>
      dsimp only
      rw [table_registerMembers, unseen_nil]
      rfl

theorem table_register (seen : List String) (ds : Declarations) (r : Resolution) :
    (register seen ds r).table =
      ((unseen Declaration.name seen ds).flatMap Declaration.writes).foldl Table.write
        r.table := by
  rw [register_eq]
  refine table_foldByName table_registerDeclaration ?_ seen ds r
  exact fun _ _ => rfl

theorem table_registered (ds : Declarations) :
    ds.registered.table = ds.writes.foldl Table.write {} := by
  rw [Declarations.registered, table_register, unseen_nil]
  rfl

end Resolution

/-- What a table tells of an identifier, where the last write decides. -/
structure Observation (α : Type) (id : DeclId) where
  read : Table → Option α
  written : Write → Option α
  read_empty : read {} = none
  read_write : ∀ t w, read (t.write w) = (written w).or (read t)
  elsewhere : ∀ w : Write, w.id ≠ id → written w = none

namespace Observation

variable {α : Type} {id : DeclId} (o : Observation α id)

theorem read_foldl_write (ws : List Write) (t : Table) :
    o.read (ws.foldl Table.write t) = (ws.filterMap o.written).getLast?.or (o.read t) := by
  induction ws generalizing t with
  | nil => rfl
  | cons w rest ih =>
      rw [List.foldl_cons, ih, o.read_write, List.filterMap_cons]
      cases o.written w with
      | none => rfl
      | some value =>
          rw [List.getLast?_cons]
          cases (rest.filterMap o.written).getLast? <;> rfl

/-- The last write of registration under the identifier counts. -/
theorem read_registered (ds : Declarations) :
    o.read ds.registered.table =
      (ds.canonical.flatMap fun d => d.writes.filterMap o.written).getLast? := by
  rw [Resolution.table_registered, read_foldl_write, o.read_empty, Option.or_none,
    Declarations.writes, List.filterMap_flatMap]

theorem filterMap_memberWrites (d : Declaration) (f : Member) :
    (d.memberWrites f).filterMap o.written =
      ((f.signature? (.member d.name f.name)).bind fun s => o.written (.signature s)).toList ++
        (o.written (.outcome (.member d.name f.name) (d.memberEntry? f))).toList := by
  rw [Declaration.memberWrites, List.filterMap_append]
  congr 1
  · cases f.signature? (.member d.name f.name) with
    | none => rfl
    | some signature => cases hwritten : o.written (.signature signature) <;> simp [hwritten]

theorem filterMap_memberWrites_of_ne {d : Declaration} {f : Member}
    (h : id ≠ .member d.name f.name) : (d.memberWrites f).filterMap o.written = [] := by
  rw [List.filterMap_eq_nil_iff]
  intro w hw
  apply o.elsewhere
  rw [d.id_of_mem_memberWrites hw]
  exact h.symm

theorem filterMap_writes_of_ne {d : Declaration} (h : ∀ name, id ≠ .member d.name name) :
    d.writes.filterMap o.written = (o.written (.outcome d.id d.entry?)).toList := by
  have hmembers : (if d.entry?.isSome then
      (firstsBy Member.name d.functions).flatMap d.memberWrites else []).filterMap o.written =
      [] := by
    split
    · rw [List.filterMap_flatMap, List.flatMap_eq_nil_iff]
      exact fun f _ => o.filterMap_memberWrites_of_ne (h f.name)
    · rfl
  rw [Declaration.writes, List.filterMap_cons, hmembers]
  cases o.written (.outcome d.id d.entry?) <;> rfl

theorem filterMap_writes_member {d : Declaration} {name : String}
    (o : Observation α (.member d.name name)) :
    d.writes.filterMap o.written =
      if d.entry?.isSome then
        (d.function? name).toList.flatMap fun f => (d.memberWrites f).filterMap o.written
      else [] := by
  have hown : o.written (.outcome d.id d.entry?) = none := by
    apply o.elsewhere
    rw [Write.id_outcome]
    exact DeclId.contract_ne_member d.name name
  rw [Declaration.writes, List.filterMap_cons, hown]
  dsimp only
  split
  · rw [List.filterMap_flatMap]
    apply flatMap_firstsBy
    intro f _ hf
    apply o.filterMap_memberWrites_of_ne
    rw [ne_eq, DeclId.member_inj_right]
    exact Ne.symm hf
  · rfl

def ofDeclaration (d : Declaration) : Option α :=
  if id.isMember then
    if d.entry?.isSome then
      (d.function? id.memberName).bind fun f =>
        (o.written (.outcome id (d.memberEntry? f))).or
          ((f.signature? id).bind fun signature => o.written (.signature signature))
    else none
  else o.written (.outcome id d.entry?)

theorem getLast?_filterMap_writes {d : Declaration} (hname : d.name = id.contractName) :
    (d.writes.filterMap o.written).getLast? = o.ofDeclaration d := by
  have hlast (value : Option α) : value.toList.getLast? = value := by
    cases value <;> rfl
  rw [ofDeclaration]
  cases hmember : id.isMember with
  | true =>
      have hid : id = .member d.name id.memberName := by
        rw [hname]
        exact DeclId.eq_member_of_isMember hmember
      generalize id.memberName = name at hid
      subst hid
      rw [filterMap_writes_member, if_pos rfl]
      split
      · cases hfunction : d.function? name with
        | none => rfl
        | some f =>
            have hf : f.name = name := by simpa using List.find?_some hfunction
            subst hf
            rw [Option.toList_some, List.flatMap_singleton, filterMap_memberWrites,
              List.getLast?_append, hlast, hlast, Option.bind_some]
      · rfl
  | false =>
      have hid : id = d.id := by
        rw [Declaration.id, hname]
        exact DeclId.eq_contract_of_not_isMember hmember
      have hother : ∀ name, id ≠ .member d.name name := by
        intro name h
        rw [h, DeclId.isMember_member] at hmember
        contradiction
      rw [o.filterMap_writes_of_ne hother, ← hid, if_neg Bool.false_ne_true, hlast]

/-- Without dots in names one declaration writes under the identifier. -/
theorem read_registered_of_dotless {ds : Declarations} (hds : ds.Dotless) :
    o.read ds.registered.table = (ds.named? id.contractName).bind o.ofDeclaration := by
  rw [read_registered, Declarations.canonical, flatMap_firstsBy]
  · rw [← Declarations.named?]
    cases hd : ds.named? id.contractName with
    | none => rfl
    | some d =>
        rw [Option.toList_some, List.flatMap_singleton, Option.bind_some]
        exact o.getLast?_filterMap_writes (Declarations.mem_of_named? hd).2
  · intro d hd hname
    rw [o.filterMap_writes_of_ne, o.elsewhere, Option.toList_none]
    · rw [Write.id_outcome]
      rintro rfl
      exact hname (DeclId.contractName_contract (hds d hd)).symm
    · rintro name rfl
      exact hname (DeclId.contractName_member name (hds d hd)).symm

end Observation

end AuthorizedCalls
