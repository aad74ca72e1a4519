import AuthorizedCalls.Proofs.TableWrites

namespace AuthorizedCalls

/-- What the declaration does to an identifier of its own: nothing, or it gives it an entry, or,
where that is `some none`, rejects it. -/
def Declaration.registers? (d : Declaration) (id : DeclId) : Option (Option Entry) :=
  if id.isMember then
    if d.entry?.isSome then (d.function? id.memberName).map d.memberEntry? else none
  else some d.entry?

namespace Declarations

def registers? (ds : Declarations) (id : DeclId) : Option (Option Entry) :=
  (ds.named? id.contractName).bind (·.registers? id)

def written? (ds : Declarations) (id : DeclId) : Option Entry :=
  (ds.registers? id).join

end Declarations

theorem Declarations.written?_eq_some_iff {ds : Declarations} {id : DeclId} {entry : Entry}
    (hid : id.isMember = true) :
    ds.written? id = some entry ↔
      ∃ d f, ds.named? id.contractName = some d ∧ d.function? id.memberName = some f ∧
        d.entry?.isSome ∧ d.memberEntry? f = some entry := by
  rw [written?, registers?, Option.join_eq_some_iff]
  constructor
  · intro h
    obtain ⟨d, hd, hregisters⟩ := Option.bind_eq_some_iff.mp h
    rw [Declaration.registers?, if_pos hid] at hregisters
    split at hregisters
    · next hentry =>
        obtain ⟨f, hf, hmember⟩ := Option.map_eq_some_iff.mp hregisters
        exact ⟨d, f, hd, hf, hentry, hmember⟩
    · contradiction
  · rintro ⟨d, f, hd, hf, hentry, hmember⟩
    simp [hd, Declaration.registers?, hid, hentry, hf, hmember]

namespace Observation

def entry (id : DeclId) : Observation Entry id where
  read t := t.get? id
  written
    | .entry other entry => if id = other then some entry else none
    | _ => none
  read_empty := rfl
  read_write t w := by
    cases w with
    | entry other entry =>
        by_cases h : id = other <;> simp [Table.write, Table.get?_setEntry, h]
    | rejection other => rfl
    | signature signature => rfl
  elsewhere w h := by
    cases w with
    | entry other entry => exact if_neg (Ne.symm h)
    | rejection other => rfl
    | signature signature => rfl

theorem entry_outcome (id : DeclId) (e : Option Entry) :
    (entry id).written (.outcome id e) = e := by
  cases e with
  | none => rfl
  | some entry => exact if_pos rfl

theorem entry_signature (id : DeclId) (signature : LoweredSignature) :
    (entry id).written (.signature signature) = none :=
  rfl

def rejection (id : DeclId) : Observation Unit id where
  read t := t.rejected.find? id.text
  written
    | .rejection other => if id = other then some () else none
    | _ => none
  read_empty := rfl
  read_write t w := by
    cases w with
    | entry other entry => rfl
    | rejection other =>
        by_cases h : id.text = other.text <;>
          simp [Table.write, Table.markRejected, SortedMap.find?_insert, ← DeclId.text_inj, h]
    | signature signature => rfl
  elsewhere w h := by
    cases w with
    | entry other entry => rfl
    | rejection other => exact if_neg (Ne.symm h)
    | signature signature => rfl

end Observation

namespace Resolution

theorem get?_registered {ds : Declarations} (hds : ds.Dotless) (id : DeclId) :
    ds.registered.table.get? id = ds.written? id := by
  refine ((Observation.entry id).read_registered_of_dotless hds).trans ?_
  rw [Declarations.written?, Declarations.registers?]
  cases ds.named? id.contractName with
  | none => rfl
  | some d =>
      simp only [Option.bind_some, Observation.ofDeclaration, Declaration.registers?,
        Observation.entry_outcome, Observation.entry_signature]
      split
      · split
        · cases d.function? id.memberName <;> simp
        · rfl
      · rfl

theorem rejects_registered {ds : Declarations} (hds : ds.Dotless) (id : DeclId) :
    ds.registered.table.rejects id = decide (ds.registers? id = some none) := by
  have hentry (e : Option Entry) :
      (Observation.rejection id).written (.outcome id e) = if e = none then some () else none := by
    cases e with
    | none => exact if_pos rfl
    | some entry => rfl
  have hsignature (signature : LoweredSignature) :
      (Observation.rejection id).written (.signature signature) = none := rfl
  have hread := (Observation.rejection id).read_registered_of_dotless hds
  have hrejects : ds.registered.table.rejects id =
      ((Observation.rejection id).read ds.registered.table).isSome := rfl
  rw [hrejects, hread, Declarations.registers?]
  cases ds.named? id.contractName with
  | none => rfl
  | some d =>
      simp only [Option.bind_some, Observation.ofDeclaration, Declaration.registers?, hentry,
        hsignature]
      split
      · split
        · cases d.function? id.memberName with
          | none => rfl
          | some f => cases hmember : d.memberEntry? f <;> simp [hmember]
        · rfl
      · cases d.entry? <;> simp

/-- Where a contract is rejected in the registration, nothing is written for it or its members. -/
theorem written?_eq_none_of_rejects {ds : Declarations} {id : DeclId}
    (h : ds.registers? (.contract id.contractName) = some none) : ds.written? id = none := by
  simp only [Declarations.registers?, DeclId.contractName_contract id.dotless_contractName] at h
  obtain ⟨d, hd, hregisters⟩ := Option.bind_eq_some_iff.mp h
  have hentry : d.entry? = none := by
    simpa [Declaration.registers?, DeclId.isMember_contract id.dotless_contractName]
      using hregisters
  rw [Declarations.written?, Declarations.registers?, hd]
  cases hmember : id.isMember <;> simp [Declaration.registers?, hentry, hmember]

theorem reflects_registered {ds : Declarations} (hds : ds.Dotless) :
    ds.registered.table.Reflects ds.written? := by
  intro id
  rw [get?_registered hds, Table.isRejected_eq, rejects_registered hds, rejects_registered hds]
  split
  · next h =>
      simp only [Bool.or_eq_true, decide_eq_true_eq] at h
      rcases h with h | h
      · rw [Declarations.written?, h]
        rfl
      · exact written?_eq_none_of_rejects h
  · rfl

end Resolution

end AuthorizedCalls
