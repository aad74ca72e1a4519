import AuthorizedCalls.Resolution

namespace AuthorizedCalls

namespace Diagnostic

def isRedeclaration (x : Diagnostic) : Bool :=
  x.kind == .qualifierConflict &&
    " is declared more than once".toList.isSuffixOf x.message.toList

def isConflict (x : Diagnostic) : Bool :=
  x.kind == .qualifierConflict &&
    x.declaration.any fun id => s!"`{id.text}` is declared ".toList.isPrefixOf x.message.toList

def isCycle (x : Diagnostic) : Bool :=
  x.kind == .unresolvedDeclaration &&
    x.declaration.any fun id =>
      s!"interface `{id.text}` takes part in a conformance cycle (".toList.isPrefixOf
        x.message.toList

end Diagnostic

namespace DeclarationViolation

def isRedeclaration : DeclarationViolation → Bool
  | redeclared .. | redeclaredFunction .. => true
  | _ => false

def isConflict : DeclarationViolation → Bool
  | conflict .. => true
  | _ => false

def isCycle : DeclarationViolation → Bool
  | cyclic .. => true
  | _ => false

theorem isRedeclaration_diagnostic (v : DeclarationViolation) (span : Span) :
    (v.diagnostic span).isRedeclaration = v.isRedeclaration := by
  have hsame (front : List Char) :
      " is declared more than once".toList.isSuffixOf
        (front ++ "` is declared more than once".toList) = true := by
    rw [List.isSuffixOf_iff_suffix]
    exact List.suffix_append_of_suffix (by decide +kernel)
  have hother (front : List Char) {last : String}
      (hlast : last.toList.getLast?.any (· ≠ 'e') = true) :
      " is declared more than once".toList.isSuffixOf (front ++ last.toList) = false := by
    obtain ⟨c, hc, hne⟩ := (Option.any_eq_true _ _).mp hlast
    rw [Bool.eq_false_iff, ne_eq, List.isSuffixOf_iff_suffix]
    rintro ⟨before, hbefore⟩
    have hends := congrArg List.getLast? hbefore
    have hending : " is declared more than once".toList.getLast? = some 'e' := by
      decide +kernel
    rw [List.getLast?_append, List.getLast?_append, hending, hc, Option.some_or, Option.some_or,
      Option.some.injEq] at hends
    exact of_decide_eq_true hne hends.symm
  simp only [Diagnostic.isRedeclaration, diagnostic]
  cases v with
  | redeclared | redeclaredFunction =>
      simp only [message, toString, String.toList_append]
      rw [hsame]
      rfl
  | severalQualifiers id written =>
      simp only [message, toString, String.toList_append]
      rw [hother _ (by decide +kernel)]
      rfl
  | conflict implementation declared interface required =>
      -- The text ends in the qualifier that is required, and none of them ends in `once`.
      simp only [message, toString, String.toList_append, ← List.append_assoc]
      rw [hother _ (by cases required <;> decide +kernel)]
      rfl
  | authRead | notAnInterface | unknownInterface | cyclic => rfl

theorem isConflict_diagnostic (v : DeclarationViolation) (span : Span) :
    (v.diagnostic span).isConflict = v.isConflict := by
  have hsubject (s t u : List Char) : (s ++ t).isPrefixOf (s ++ u) = t.isPrefixOf u := by
    rw [Bool.eq_iff_iff, List.isPrefixOf_iff_prefix, List.isPrefixOf_iff_prefix,
      List.prefix_append_right_inj]
  simp only [Diagnostic.isConflict, diagnostic, subject]
  cases v with
  | redeclared declKind =>
      cases declKind <;> simp [kind, message, toString, DeclKind.text, List.isPrefixOf, isConflict]
  | redeclaredFunction => simp [kind, message, toString, List.isPrefixOf, isConflict]
  | severalQualifiers | conflict =>
      simp [kind, message, toString, hsubject, List.isPrefixOf, isConflict]
  | authRead | notAnInterface | unknownInterface | cyclic => rfl

theorem isCycle_diagnostic (v : DeclarationViolation) (span : Span) :
    (v.diagnostic span).isCycle = v.isCycle := by
  simp only [Diagnostic.isCycle, diagnostic, subject]
  cases v with
  | notAnInterface | unknownInterface =>
      simp [kind, message, toString, List.isPrefixOf, isCycle]
  | cyclic name members =>
      simp [kind, message, toString, DeclId.contract, List.isPrefixOf_iff_prefix, isCycle]
  | redeclared | redeclaredFunction | severalQualifiers | authRead | conflict => rfl

end DeclarationViolation

end AuthorizedCalls
