import AuthorizedCalls.DeclId
import Mathlib.Data.List.TakeWhile

namespace AuthorizedCalls

/-- Names without dots are the ones that identifiers give back. -/
def Dotless (name : String) : Prop :=
  '.' ∉ name.toList

instance (name : String) : Decidable (Dotless name) :=
  inferInstanceAs (Decidable ('.' ∉ name.toList))

namespace DeclId

def memberName (id : DeclId) : String :=
  String.ofList ((id.text.toList.dropWhile (· ≠ '.')).drop 1)

theorem dotless_contractName (id : DeclId) : Dotless id.contractName := by
  intro hdot
  rw [contractName, String.toList_ofList] at hdot
  simpa using List.mem_takeWhile_imp hdot

theorem text_inj {a b : DeclId} : a.text = b.text ↔ a = b := by
  cases a
  cases b
  rw [DeclId.mk.injEq]

theorem isMember_contract {c : String} (h : Dotless c) : (contract c).isMember = false := by
  simpa [isMember, contract, Dotless] using h

/-- A member lies in the same contract as the name in front of it, also where that name has dots. -/
theorem contractName_member_eq (c m : String) :
    (member c m).contractName = (contract c).contractName := by
  by_cases hc : Dotless c
  · rw [contractName_member m hc, contractName_contract hc]
  · have hstop : (c.toList.takeWhile (· ≠ '.')).length ≠ c.toList.length := by
      intro hlength
      apply hc
      rw [Dotless, ← (List.takeWhile_prefix _).eq_of_length hlength]
      intro hdot
      simpa using List.mem_takeWhile_imp hdot
    have htext : (member c m).text.toList = c.toList ++ '.' :: m.toList := by
      simp [member]
    rw [contractName, htext, List.takeWhile_append, if_neg hstop]
    rfl

theorem memberName_member {c : String} (m : String) (h : Dotless c) :
    (member c m).memberName = m := by
  have hall : ∀ x ∈ c.toList, decide (x ≠ '.') = true := by
    intro x hx
    exact decide_eq_true fun e => h (e ▸ hx)
  have htext : (member c m).text.toList = c.toList ++ '.' :: m.toList := by
    simp [member]
  rw [memberName, htext, List.dropWhile_append_of_pos hall]
  simp

@[simp] theorem member_inj_right {c m m' : String} : member c m = member c m' ↔ m = m' := by
  simp [member, String.append_right_inj]

theorem contract_ne_member_of_dotless {c : String} (h : Dotless c) (c' m : String) :
    contract c ≠ member c' m := by
  intro hsame
  have hmember := isMember_member c' m
  rw [← hsame, isMember_contract h] at hmember
  contradiction

theorem contract_ne_member (c m : String) : contract c ≠ member c m := by
  intro h
  have hlength := congrArg (fun id : DeclId => id.text.length) h
  simp only [contract, member, String.length_append] at hlength
  have hdot : ".".length = 1 := rfl
  omega

theorem member_inj {c c' m m' : String} (hc : Dotless c) (hc' : Dotless c') :
    member c m = member c' m' ↔ c = c' ∧ m = m' := by
  constructor
  · intro h
    have hname : c = c' := by
      rw [← contractName_member m hc, h, contractName_member m' hc']
    subst hname
    exact ⟨rfl, member_inj_right.mp h⟩
  · rintro ⟨rfl, rfl⟩
    rfl

theorem eq_contract_of_not_isMember {id : DeclId} (h : id.isMember = false) :
    id = contract id.contractName := by
  have hall : ∀ x ∈ id.text.toList, decide (x ≠ '.') = true := by
    intro x hx
    refine decide_eq_true fun e => ?_
    subst e
    simp [isMember, hx] at h
  rw [contractName, contract, List.takeWhile_eq_self_iff.mpr hall, String.ofList_toList]

theorem exists_member_of_isMember {id : DeclId} (h : id.isMember = true) :
    ∃ c m, Dotless c ∧ id = member c m := by
  have hdot : '.' ∈ id.text.toList := by simpa [isMember] using h
  obtain ⟨before, after, hsplit, hbefore⟩ := List.eq_append_cons_of_mem hdot
  refine ⟨String.ofList before, String.ofList after, ?_, ?_⟩
  · rw [Dotless, String.toList_ofList]
    exact hbefore
  · cases id with
    | mk text =>
        have htext : text = String.ofList (before ++ '.' :: after) := by
          rw [← hsplit, String.ofList_toList]
        simp [member, htext, String.ofList_append, String.ofList_cons, String.append_assoc]

theorem eq_member_of_isMember {id : DeclId} (h : id.isMember = true) :
    id = member id.contractName id.memberName := by
  obtain ⟨c, m, hc, rfl⟩ := exists_member_of_isMember h
  rw [contractName_member m hc, memberName_member m hc]

end DeclId

end AuthorizedCalls
