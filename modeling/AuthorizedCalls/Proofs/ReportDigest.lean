import AuthorizedCalls.Proofs.SchemaReadBack
import AuthorizedCalls.Proofs.Utf8Order
import AuthorizedCalls.Schema.Report

namespace AuthorizedCalls

open Json (Value ReadsAs)

section Parts

-- What has a reader is written in a way of its own because it is read back.

@[simp] theorem Access.toJson_inj {a b : Access} : a.toJson = b.toJson ↔ a = b :=
  ReadsAs.toJson_inj (@Access.readsAs 0)

@[simp] theorem ImportMode.toJson_inj {m n : ImportMode} : m.toJson = n.toJson ↔ m = n :=
  ReadsAs.toJson_inj (@ImportMode.readsAs 0)

@[simp] theorem Address.toJson_inj {a b : Address} : a.toJson = b.toJson ↔ a = b :=
  ReadsAs.toJson_inj (@Address.readsAs 0)

@[simp] theorem DeclId.toJson_inj {a b : DeclId} : a.toJson = b.toJson ↔ a = b :=
  ReadsAs.toJson_inj (@DeclId.readsAs 0)

@[simp] theorem Span.toJson_inj {s t : Span} : s.toJson = t.toJson ↔ s = t :=
  ReadsAs.toJson_inj (@Span.readsAs 0)

@[simp] theorem DiagnosticKind.toJson_inj {k l : DiagnosticKind} : k.toJson = l.toJson ↔ k = l :=
  ReadsAs.toJson_inj (@DiagnosticKind.readsAs 0)

@[simp] theorem Diagnostics.toJson_inj {ds es : Diagnostics} : ds.toJson = es.toJson ↔ ds = es :=
  ReadsAs.toJson_inj (@Diagnostics.readsAs 0)

@[simp] theorem TokenOrigin.name_inj {o p : TokenOrigin} : o.name = p.name ↔ o = p := by
  cases o <;> cases p <;> decide

theorem optionToJson_inj {α : Type} {toJson : α → Value} (hnull : ∀ a, toJson a ≠ .null)
    (hinj : ∀ a b, toJson a = toJson b ↔ a = b) {o p : Option α} :
    optionToJson toJson o = optionToJson toJson p ↔ o = p := by
  rcases o with _ | a <;> rcases p with _ | b
  · exact iff_of_true rfl rfl
  · exact iff_of_false (hnull b).symm nofun
  · exact iff_of_false (hnull a) nofun
  · rw [optionToJson, optionToJson, hinj, Option.some.injEq]

@[simp] theorem ImportBinding.toJson_inj {b c : ImportBinding} : b.toJson = c.toJson ↔ b = c := by
  cases b
  cases c
  simp [toJson]

/-- The source of a token is written first, and the members after it are those of the source. -/
@[simp] theorem Token.toJson_inj {t u : Token} : t.toJson = u.toJson ↔ t = u := by
  constructor
  · intro h
    cases t with
    | contract name address =>
        cases u with
        | contract other account => simpa [toJson] using h
        | authorizer other total place => simp [toJson] at h
    | authorizer name count position =>
        cases u with
        | contract other account => simp [toJson] at h
        | authorizer other total place =>
            obtain ⟨rfl, hposition, rfl⟩ :
                name = other ∧ position.val = place.val ∧ count = total := by
              simpa [toJson] using h
            rw [Fin.ext hposition]
  · rintro rfl
    rfl

@[simp] theorem AuthSource.toJson_inj {s t : AuthSource} : s.toJson = t.toJson ↔ s = t := by
  cases s <;> cases t <;> simp [toJson]

@[simp] theorem CallSite.toJson_inj {s t : CallSite} : s.toJson = t.toJson ↔ s = t := by
  have hqualifier {o p : Option Access} :
      optionToJson Access.toJson o = optionToJson Access.toJson p ↔ o = p :=
    optionToJson_inj (fun a => by simp [Access.toJson]) fun _ _ => Access.toJson_inj
  cases s
  cases t
  simp [toJson, hqualifier]

@[simp] theorem CallAnnotation.toJson_inj {a b : CallAnnotation} :
    a.toJson = b.toJson ↔ a = b := by
  cases a <;> cases b <;> simp [toJson]

@[simp] theorem AnnotatedCall.toJson_inj {c d : AnnotatedCall} : c.toJson = d.toJson ↔ c = d := by
  cases c
  cases d
  simp [toJson]

@[simp] theorem UnitReport.toJson_inj {r s : UnitReport} : r.toJson = s.toJson ↔ r = s := by
  have himports : Function.Injective (List.map ImportBinding.toJson) :=
    List.map_injective_iff.mpr fun _ _ => ImportBinding.toJson_inj.mp
  have hcalls : Function.Injective (List.map AnnotatedCall.toJson) :=
    List.map_injective_iff.mpr fun _ _ => AnnotatedCall.toJson_inj.mp
  cases r
  cases s
  simp [toJson, himports.eq_iff, hcalls.eq_iff]

@[simp] theorem CheckReport.toJson_inj {r s : CheckReport} : r.toJson = s.toJson ↔ r = s := by
  have hunits : Function.Injective (List.map UnitReport.toJson) :=
    List.map_injective_iff.mpr fun _ _ => UnitReport.toJson_inj.mp
  cases r
  cases s
  simp [toJson, hunits.eq_iff]

end Parts

namespace Digest.Sha3

/-- Two messages that the digest does not tell apart. -/
def Collide (m n : List UInt8) : Prop :=
  m ≠ n ∧ digest m = digest n

/-- Every byte has two digits, so the digits of a digest give its bytes. -/
theorem flatMap_digits_injective :
    Function.Injective fun bytes : List UInt8 =>
      bytes.flatMap fun b => Text.Hex.digits 2 b.toNat := by
  intro bytes others h
  induction bytes generalizing others with
  | nil =>
      cases others with
      | nil => rfl
      | cons c others => simp [Text.Hex.digits] at h
  | cons b bytes ih =>
      cases others with
      | nil => simp [Text.Hex.digits] at h
      | cons c others =>
          obtain ⟨hhead, htail⟩ := List.append_inj h (by simp)
          have hvalue := congrArg Text.Hex.value hhead
          have hbyte (b : UInt8) : b.toNat % Text.Hex.count 2 = b.toNat :=
            Nat.mod_eq_of_lt b.toNat_lt
          rw [Text.Hex.value_digits, Text.Hex.value_digits, hbyte, hbyte] at hvalue
          rw [UInt8.toNat_inj.mp hvalue, ih htail]

theorem hex_eq_iff {s t : String} :
    hex s = hex t ↔ s = t ∨ Collide s.toUTF8.toList t.toUTF8.toList := by
  have hdigest : hex s = hex t ↔ digest s.toUTF8.toList = digest t.toUTF8.toList := by
    constructor
    · intro h
      have hdigits := congrArg String.toList h
      simp only [hex, String.toList_ofList, List.cons.injEq, true_and] at hdigits
      exact flatMap_digits_injective hdigits
    · intro h
      rw [hex, hex, h]
  rw [hdigest]
  constructor
  · intro h
    by_cases hmessage : s.toUTF8.toList = t.toUTF8.toList
    · exact .inl (Text.Utf8.bytes_injective hmessage)
    · exact .inr ⟨hmessage, h⟩
  · rintro (rfl | ⟨-, h⟩)
    · rfl
    · exact h

end Digest.Sha3

namespace CheckReport

def message (r : CheckReport) : List UInt8 :=
  r.toJson.compact.toUTF8.toList

/-- Reports with one text are one report, and so are reports with one digest, unless their texts
are two messages that the digest does not tell apart. -/
theorem digest_eq_iff_eq_or_collide (r s : CheckReport) :
    (r.toJson.compact = s.toJson.compact ↔ r = s) ∧
      (r.digest = s.digest ↔ r = s ∨ Digest.Sha3.Collide r.message s.message) := by
  have htext : r.toJson.compact = s.toJson.compact ↔ r = s := by
    rw [Value.compact_inj, toJson_inj]
  refine ⟨htext, ?_⟩
  rw [digest, digest, Digest.Sha3.hex_eq_iff, htext]
  rfl

end CheckReport

end AuthorizedCalls
