import AuthorizedCalls.Proofs.Registration
import Mathlib.Logic.Relation

/-!
What the passes after registration do. Looking up targets, rejecting cycles and comparing with
interfaces all come down to refusing declarations one after the other (`LeadsTo`), so what one
refusal keeps, resolution keeps. Main result: the resolved table holds under every identifier
what is written for it, or nothing where the identifier is rejected (`reflects_resolve`).
-/

namespace AuthorizedCalls.Resolution

/-- From one resolution to another by any number of refusals. -/
def LeadsTo : Resolution → Resolution → Prop :=
  Relation.ReflTransGen fun r r' => ∃ v span, r' = r.refuse v span

theorem leadsTo_refuse (r : Resolution) (v : DeclarationViolation) (span : Span) :
    r.LeadsTo (r.refuse v span) :=
  .single ⟨v, span, rfl⟩

theorem leadsTo_foldl {α : Type} {step : Resolution → α → Resolution}
    (hstep : ∀ r x, LeadsTo r (step r x)) (xs : List α) (r : Resolution) :
    r.LeadsTo (xs.foldl step r) := by
  apply List.foldlRecOn (motive := r.LeadsTo)
  · exact Relation.ReflTransGen.refl
  · intro r' hr' x _
    exact hr'.trans (hstep r' x)

namespace LeadsTo

variable {r r' : Resolution}

theorem reflects (h : r.LeadsTo r') {written : DeclId → Option Entry}
    (hr : r.table.Reflects written) : r'.table.Reflects written := by
  induction h with
  | refl => exact hr
  | tail _ hstep ih =>
      obtain ⟨v, span, rfl⟩ := hstep
      exact ih.reject v.subject

theorem get?_of_get? (h : r.LeadsTo r') {id : DeclId} {entry : Entry}
    (hget : r'.table.get? id = some entry) : r.table.get? id = some entry := by
  induction h with
  | refl => exact hget
  | tail _ hstep ih =>
      obtain ⟨v, span, rfl⟩ := hstep
      exact ih (Table.get?_of_get?_reject hget)

theorem rejects_of_rejects (h : r.LeadsTo r') {id : DeclId} (hid : r.table.rejects id = true) :
    r'.table.rejects id = true := by
  induction h with
  | refl => exact hid
  | tail _ hstep ih =>
      obtain ⟨v, span, rfl⟩ := hstep
      rw [refuse, Table.rejects_reject, ih, Bool.or_true]

end LeadsTo

/-- Where every step of a pass settles something about its own item, and refusals leave it
settled, it is settled about all items in the end. -/
theorem forall_mem_foldl {α : Type} {step : Resolution → α → Resolution}
    {written : DeclId → Option Entry} (settled : α → Resolution → Prop) (xs : List α)
    (hstep : ∀ r x, LeadsTo r (step r x))
    (hkeep : ∀ {x r r'}, LeadsTo r r' → settled x r → settled x r')
    (hnew : ∀ r, ∀ x ∈ xs, r.table.Reflects written → settled x (step r x))
    {r : Resolution} (hr : r.table.Reflects written) :
    ∀ x ∈ xs, settled x (xs.foldl step r) := by
  induction xs generalizing r with
  | nil => simp
  | cons x rest ih =>
      intro y hy
      rw [List.foldl_cons]
      rcases List.mem_cons.mp hy with rfl | hy
      · exact hkeep (leadsTo_foldl hstep rest _) (hnew r y (by simp) hr)
      · have hnew : ∀ r, ∀ x ∈ rest, r.table.Reflects written → settled x (step r x) :=
          fun r x hx => hnew r x (by simp [hx])
        exact ih hnew ((hstep r x).reflects hr) y hy

theorem leadsTo_checkTarget (ds : Declarations) (d : Declaration) (r : Resolution)
    (target : String) : r.LeadsTo (checkTarget ds d r target) := by
  rw [checkTarget]
  split
  · exact leadsTo_refuse _ _ _
  · split
    · exact Relation.ReflTransGen.refl
    · exact leadsTo_refuse _ _ _

theorem leadsTo_checkTargets (ds : Declarations) (r : Resolution) (d : Declaration) :
    r.LeadsTo (checkTargets ds r d) :=
  leadsTo_foldl (leadsTo_checkTarget ds d) _ r

theorem leadsTo_refuseCycle (ds : Declarations) (r : Resolution) (members : List String) :
    r.LeadsTo (refuseCycle ds r members) :=
  leadsTo_foldl (fun _ _ => leadsTo_refuse _ _ _) _ r

theorem leadsTo_compareMember (policy : Policy) (d interface : Declaration) (r : Resolution)
    (f : Member) : r.LeadsTo (compareMember policy d interface r f) := by
  simp only [compareMember]
  split
  · exact Relation.ReflTransGen.refl
  · exact leadsTo_refuse _ _ _

theorem leadsTo_compareWith (policy : Policy) (d : Declaration) (r : Resolution)
    (interface : Declaration) : r.LeadsTo (compareWith policy d r interface) := by
  rw [compareWith]
  split
  · exact Relation.ReflTransGen.refl
  · exact leadsTo_foldl (leadsTo_compareMember policy d interface) _ r

theorem leadsTo_compareAll (ds : Declarations) (policy : Policy) (r : Resolution)
    (d : Declaration) : r.LeadsTo (compareAll ds policy r d) := by
  rw [compareAll]
  split
  · exact Relation.ReflTransGen.refl
  · exact leadsTo_foldl (leadsTo_compareWith policy d) _ r

theorem leadsTo_acyclic (ds : Declarations) : ds.registered.LeadsTo ds.acyclic :=
  (leadsTo_foldl (leadsTo_checkTargets ds) _ _).trans (leadsTo_foldl (leadsTo_refuseCycle ds) _ _)

theorem leadsTo_resolve (ds : Declarations) (policy : Policy) :
    ds.registered.LeadsTo (ds.resolve policy) :=
  (leadsTo_acyclic ds).trans (leadsTo_foldl (leadsTo_compareAll ds policy) _ _)

theorem reflects_acyclic {ds : Declarations} (hds : ds.Dotless) :
    ds.acyclic.table.Reflects ds.written? :=
  (leadsTo_acyclic ds).reflects (reflects_registered hds)

theorem reflects_resolve {ds : Declarations} (hds : ds.Dotless) (policy : Policy) :
    (ds.resolve policy).table.Reflects ds.written? :=
  (leadsTo_resolve ds policy).reflects (reflects_registered hds)

end AuthorizedCalls.Resolution
