import AuthorizedCalls.Proofs.Passes

namespace AuthorizedCalls

/-- The signature that a declaration records under an identifier of its own. -/
def Declaration.signature? (d : Declaration) (id : DeclId) : Option LoweredSignature :=
  if id.isMember ∧ d.entry?.isSome then
    (d.function? id.memberName).bind fun f => f.signature? id
  else none

def Declarations.signature? (ds : Declarations) (id : DeclId) : Option LoweredSignature :=
  (ds.named? id.contractName).bind fun d => d.signature? id

namespace Table

theorem lowered?_reject (t : Table) (id other : DeclId) :
    (t.reject id).lowered? other =
      if dropsWith id other.text then none else t.lowered? other := by
  simp only [lowered?, reject, markRejected, SortedMap.find?_filterKeys]
  cases dropsWith id other.text <;> simp

/-- A table that holds the written signature under every identifier, save what is rejected. -/
def LowersAs (t : Table) (written : DeclId → Option LoweredSignature) : Prop :=
  ∀ id, t.lowered? id = if t.isRejected id then none else written id

theorem LowersAs.reject {t : Table} {written : DeclId → Option LoweredSignature}
    (h : t.LowersAs written) (id : DeclId) : (t.reject id).LowersAs written := by
  intro other
  rw [lowered?_reject, isRejected_reject, h other]
  cases dropsWith id other.text <;> simp

end Table

def Observation.signature (id : DeclId) : Observation LoweredSignature id where
  read t := t.lowered? id
  written
    | .signature signature => if id = signature.function then some signature else none
    | _ => none
  read_empty := rfl
  read_write t w := by
    cases w with
    | entry other entry => rfl
    | rejection other => rfl
    | signature signature =>
        by_cases h : id.text = signature.function.text <;>
          simp [Table.write, Table.lowered?, Table.setLowered, SortedMap.find?_insert,
            ← DeclId.text_inj, h]
  elsewhere w h := by
    cases w with
    | entry other entry => rfl
    | rejection other => rfl
    | signature signature => exact if_neg (Ne.symm h)

namespace Resolution

theorem lowered?_registered {ds : Declarations} (hds : ds.Dotless) (id : DeclId) :
    ds.registered.table.lowered? id = ds.signature? id := by
  have hentry (e : Option Entry) : (Observation.signature id).written (.outcome id e) = none := by
    cases e <;> rfl
  have hsignature (f : Member) : ((f.signature? id).bind fun signature =>
      (Observation.signature id).written (.signature signature)) = f.signature? id := by
    rw [Member.signature?]
    split
    · exact if_pos rfl
    · rfl
  refine ((Observation.signature id).read_registered_of_dotless hds).trans ?_
  rw [Declarations.signature?]
  cases ds.named? id.contractName with
  | none => rfl
  | some d =>
      simp only [Option.bind_some, Observation.ofDeclaration, Declaration.signature?, hentry,
        hsignature, Option.none_or]
      split
      · next hmember => simp [hmember]
      · next hmember => simp [hmember]

end Resolution

theorem Declarations.signature?_eq_some_iff {ds : Declarations} {id : DeclId}
    {signature : LoweredSignature} :
    ds.signature? id = some signature ↔
      ∃ d f, ds.named? id.contractName = some d ∧ id.isMember = true ∧ d.entry?.isSome ∧
        d.function? id.memberName = some f ∧ f.qualifiers = [.auth] ∧
        signature = .ofMember id f := by
  simp only [signature?, Option.bind_eq_some_iff, Declaration.signature?, Member.signature?,
    Access.effective_eq_auth_iff]
  constructor
  · rintro ⟨d, hd, hsignature⟩
    split at hsignature
    · next hentry =>
        obtain ⟨f, hf, hauth⟩ := Option.bind_eq_some_iff.mp hsignature
        split at hauth
        · next hqualifiers =>
            cases hauth
            exact ⟨d, f, hd, hentry.1, hentry.2, hf, hqualifiers, rfl⟩
        · contradiction
    · contradiction
  · rintro ⟨d, f, hd, hmember, hentry, hf, hqualifiers, rfl⟩
    exact ⟨d, hd, by simp [hmember, hentry, hf, hqualifiers]⟩

namespace Resolution

theorem lowersAs_registered {ds : Declarations} (hds : ds.Dotless) :
    ds.registered.table.LowersAs ds.signature? := by
  intro id
  rw [lowered?_registered hds]
  cases hsignature : ds.signature? id with
  | none => simp
  | some signature =>
      obtain ⟨d, f, hd, hmember, hentry, hf, hqualifiers, rfl⟩ :=
        Declarations.signature?_eq_some_iff.mp hsignature
      have hwritten : ds.written? id = some ⟨.function, .auth, d.address, f.span⟩ :=
        (Declarations.written?_eq_some_iff hmember).mpr
          ⟨d, f, hd, hf, hentry, by simp [Declaration.memberEntry?, hqualifiers, Access.effective]⟩
      have hget := get?_registered hds id
      rw [hwritten] at hget
      rw [((reflects_registered hds).of_get? hget).1]
      rfl

theorem LeadsTo.lowersAs {r r' : Resolution} (h : r.LeadsTo r')
    {written : DeclId → Option LoweredSignature} (hr : r.table.LowersAs written) :
    r'.table.LowersAs written := by
  induction h with
  | refl => exact hr
  | tail _ hstep ih =>
      obtain ⟨v, span, rfl⟩ := hstep
      exact ih.reject v.subject

theorem lowersAs_resolve {ds : Declarations} (hds : ds.Dotless) (policy : Policy) :
    (ds.resolve policy).table.LowersAs ds.signature? :=
  (leadsTo_resolve ds policy).lowersAs (lowersAs_registered hds)

end Resolution

end AuthorizedCalls
