import AuthorizedCalls.Table
import AuthorizedCalls.Proofs.Identifier

namespace AuthorizedCalls.Table

/-- Whether an identifier itself is in the rejected set, whatever becomes of its contract. -/
def rejects (t : Table) (id : DeclId) : Bool :=
  t.rejected.contains id.text

theorem isRejected_eq (t : Table) (id : DeclId) :
    t.isRejected id = (t.rejects id || t.rejects (.contract id.contractName)) :=
  rfl

theorem rejects_setEntry (t : Table) (id other : DeclId) (entry : Entry) :
    (t.setEntry id entry).rejects other = t.rejects other :=
  rfl

theorem rejects_markRejected (t : Table) (id other : DeclId) :
    (t.markRejected id).rejects other = (decide (other = id) || t.rejects other) := by
  cases id; cases other
  simp only [rejects, markRejected, SortedMap.contains, SortedMap.find?_insert, DeclId.mk.injEq]
  split <;> simp [*]

theorem rejects_reject (t : Table) (id other : DeclId) :
    (t.reject id).rejects other = (decide (other = id) || t.rejects other) :=
  rejects_markRejected _ id other

theorem dropsWith_eq (id other : DeclId) :
    dropsWith id other.text =
      (decide (other = id) || decide (DeclId.contract other.contractName = id)) := by
  cases hmember : id.isMember with
  | true =>
      have hcontract : DeclId.contract other.contractName ≠ id := by
        intro h
        rw [← h, DeclId.isMember_contract other.dotless_contractName] at hmember
        contradiction
      cases id; cases other
      simp_all [dropsWith, beq_eq_decide]
  | false =>
      have hid := DeclId.eq_contract_of_not_isMember hmember
      by_cases hother : other = id
      · subst hother
        have hname := congrArg DeclId.text hid
        simp only [DeclId.contract] at hname
        simp [dropsWith, hmember, ← hname]
      · have htext : ∀ name, (DeclId.contract name = id) = (name = id.text) := by
          intro name
          cases id
          simp [DeclId.contract]
        simp [dropsWith, hmember, hother, htext, beq_eq_decide]

theorem isRejected_reject (t : Table) (id other : DeclId) :
    (t.reject id).isRejected other = (dropsWith id other.text || t.isRejected other) := by
  rw [isRejected_eq, isRejected_eq, rejects_reject, rejects_reject, dropsWith_eq]
  cases t.rejects other <;> cases t.rejects (.contract other.contractName) <;> simp

theorem isRejected_contract (t : Table) {c : String} (hc : Dotless c) :
    t.isRejected (.contract c) = t.rejects (.contract c) := by
  rw [isRejected_eq, DeclId.contractName_contract hc, Bool.or_self]

theorem isRejected_member (t : Table) {c : String} (hc : Dotless c) (m : String) :
    t.isRejected (.member c m) = (t.rejects (.member c m) || t.rejects (.contract c)) := by
  rw [isRejected_eq, DeclId.contractName_member m hc]

/-- A table that holds what is written under every identifier, save what is rejected. -/
def Reflects (t : Table) (written : DeclId → Option Entry) : Prop :=
  ∀ id, t.get? id = if t.isRejected id then none else written id

theorem Reflects.reject {t : Table} {written : DeclId → Option Entry} (h : t.Reflects written)
    (id : DeclId) : (t.reject id).Reflects written := by
  intro other
  rw [get?_reject, isRejected_reject, h other]
  cases dropsWith id other.text <;> simp

theorem Reflects.of_get? {t : Table} {written : DeclId → Option Entry} (h : t.Reflects written)
    {id : DeclId} {entry : Entry} (hget : t.get? id = some entry) :
    t.isRejected id = false ∧ written id = some entry := by
  have hid := h id
  rw [hget] at hid
  cases hrejected : t.isRejected id with
  | true => simp [hrejected] at hid
  | false => exact ⟨rfl, by simpa [hrejected] using hid.symm⟩

theorem Reflects.isRejected_member {t : Table} {written : DeclId → Option Entry}
    (h : t.Reflects written) {c : String} {entry : Entry} (hentry : t.contract? c = some entry)
    (m : String) : t.isRejected (.member c m) = t.rejects (.member c m) := by
  have hstands := (h.of_get? hentry).1
  rw [isRejected_eq, Bool.or_eq_false_iff] at hstands
  rw [isRejected_eq, DeclId.contractName_member_eq, hstands.2, Bool.or_false]

theorem get?_of_get?_reject {t : Table} {id other : DeclId} {entry : Entry}
    (h : (t.reject id).get? other = some entry) : t.get? other = some entry := by
  rw [get?_reject] at h
  split at h
  · contradiction
  · exact h

end AuthorizedCalls.Table
