import AuthorizedCalls.Proofs.ReadBack
import AuthorizedCalls.Schema.Diagnostic

namespace AuthorizedCalls

open Json

variable {room : Nat}

theorem Access.readsAs (a : Access) : ReadsAs room reader a.toJson a :=
  .names (by cases a <;> rfl)

theorem ImportMode.readsAs (m : ImportMode) : ReadsAs room reader m.toJson m := by
  cases m <;> exact .names rfl

theorem Policy.readsAs (p : Policy) : ReadsAs room reader p.toJson p :=
  .names (by cases p <;> rfl)

theorem Address.readsAs (a : Address) : ReadsAs room reader a.toJson a :=
  .address a

theorem DeclId.readsAs (id : DeclId) : ReadsAs room reader id.toJson id :=
  .map mk (.string id.text)

theorem Span.readsAs (s : Span) : ReadsAs (room + 1) reader s.toJson s :=
  .record (by decide)
    (.member (.string s.file) (.member (.word32 s.line) (.member (.word32 s.column) .nil))) rfl

theorem DeclKind.readsAs (k : DeclKind) : ReadsAs room reader k.toJson k :=
  .names (by cases k <;> rfl)

theorem Param.readsAs (p : Param) : ReadsAs (room + 1) reader p.toJson p :=
  .record (by decide) (.member (.string p.name) (.member (.string p.type) .nil)) rfl

theorem Member.readsAs (f : Member) : ReadsAs (room + 3) reader f.toJson f :=
  .record (by decide)
    (.member (.string f.name)
      (.member (.list f.qualifiers fun a _ => a.readsAs)
        (.member (.list f.params fun p _ => p.readsAs)
          (.member (.bool f.readsAuth)
            (.member f.span.readsAs .nil))))) rfl

theorem Declaration.readsAs (d : Declaration) : ReadsAs (room + 5) reader d.toJson d :=
  .record (by decide)
    (.member d.kind.readsAs
      (.member (.string d.name)
        (.member d.address.readsAs
          (.member (.list d.qualifiers fun a _ => a.readsAs)
            (.member (.list d.conforms fun name _ => .string name)
              (.member (.list d.functions fun f _ => f.readsAs)
                (.member d.span.readsAs .nil))))))) rfl

theorem AuthorizerParam.readsAs (p : AuthorizerParam) : ReadsAs (room + 2) reader p.toJson p :=
  .record (by decide) (.member (.string p.name) (.member p.span.readsAs .nil)) rfl

theorem Import.readsAs (i : Import) : ReadsAs (room + 2) reader i.toJson i :=
  .record (by decide)
    (.member (.string i.contract) (.member i.mode.readsAs (.member i.span.readsAs .nil))) rfl

theorem AuthPrefix.readsAs (p : AuthPrefix) : ReadsAs (room + 1) reader p.toJson p := by
  cases p with
  | bare => exact .bare rfl
  | named authorizer => exact .content rfl (.map named (.string authorizer))

theorem AuthPrefix.toJson_ne_null (p : AuthPrefix) : p.toJson ≠ .null := by
  cases p <;> exact nofun

theorem Phase.readsAs (p : Phase) : ReadsAs room reader p.toJson p :=
  .names (by cases p <;> rfl)

theorem Call.readsAs (c : Call) : ReadsAs (room + 2) reader c.toJson c :=
  .record (by decide)
    (.member (.string c.contract)
      (.member (.string c.member)
        (.member (.nullable c.authPrefix AuthPrefix.toJson_ne_null AuthPrefix.readsAs)
          (.member c.phase.readsAs
            (.member (.nullable c.function (fun _ => nofun) .string)
              (.member c.span.readsAs .nil)))))) rfl

theorem Span.collects (s : Span) : Collects (room + 1) s.toJson := by
  have hword (w : UInt32) : w.toNat < UInt64.size := Nat.lt_trans w.toNat_lt (by decide)
  apply Collects.object
  simp only [List.forall_mem_cons, List.not_mem_nil, false_imp_iff, implies_true, and_true]
  exact ⟨.string s.file, .number (hword s.line), .number (hword s.column)⟩

theorem AuthorizerParam.collects (p : AuthorizerParam) : Collects (room + 2) p.toJson := by
  apply Collects.object
  simp only [List.forall_mem_cons, List.not_mem_nil, false_imp_iff, implies_true, and_true]
  exact ⟨.string p.name, p.span.collects⟩

theorem UnitKind.readsAs (k : UnitKind) : ReadsAs (room + 4) reader k.toJson k := by
  cases k with
  | contract name =>
      refine .tagged rfl (by decide) (.member (.string name) .nil) rfl ?_
      exact List.forall_mem_singleton.mpr (.string name)
  | transaction authorizers =>
      have hread : ReadsAs (room + 3) (.list AuthorizerParam.reader)
          (.array (authorizers.map AuthorizerParam.toJson)) authorizers :=
        .list authorizers fun p _ => p.readsAs
      refine .tagged rfl (by decide) (.member hread .nil) rfl ?_
      refine List.forall_mem_singleton.mpr (.array ?_)
      exact List.forall_mem_map.mpr fun p _ => p.collects
  | script => exact .tagged rfl (by decide) .nil rfl (List.forall_mem_nil _)

theorem CompilationUnit.readsAs (u : CompilationUnit) : ReadsAs (room + 5) reader u.toJson u :=
  .record (by decide)
    (.member (.string u.name)
      (.member u.kind.readsAs
        (.member (.list u.imports fun i _ => i.readsAs)
          (.member (.list u.calls fun c _ => c.readsAs) .nil)))) rfl

theorem Batch.readsAs (b : Batch) : ReadsAs (room + 7) reader b.toJson b :=
  .record (by decide)
    (.member (.list b.declarations fun d _ => d.readsAs)
      (.member (.list b.units fun u _ => u.readsAs) .nil)) rfl

theorem CheckConfig.readsAs (c : CheckConfig) : ReadsAs (room + 1) reader c.toJson c :=
  .record (by decide) (.member c.policy.readsAs (.member (.bool c.parallel) .nil)) rfl

theorem DiagnosticKind.readsAs (k : DiagnosticKind) : ReadsAs room reader k.toJson k :=
  .names (by cases k <;> rfl)

theorem Diagnostic.readsAs (d : Diagnostic) : ReadsAs (room + 2) reader d.toJson d := by
  obtain ⟨kind, declaration, location, message⟩ := d
  have hrest : Fields.Writes (room + 1)
      (.cons (.required "location" Span.reader) (.cons (.required "message" .string) .nil))
      (location, message, ()) [("location", location.toJson), ("message", .string message)] :=
    .member location.readsAs (.member (.string message) .nil)
  cases declaration with
  | none => exact .record (by decide) (.member kind.readsAs (.absent rfl hrest)) rfl
  | some id =>
      have hid : ReadsAs (room + 1) (.nullable DeclId.reader) id.toJson (some id) :=
        .nonNull nofun id.readsAs
      exact .record (by decide) (.member kind.readsAs (.member hid hrest)) rfl

theorem Diagnostics.readsAs (ds : Diagnostics) : ReadsAs (room + 3) reader ds.toJson ds :=
  .list ds fun d _ => d.readsAs

/-- The compact text of whatever is written is read as what was written. -/
theorem readsBack_schema :
    Batch.reader.ReadsBack Batch.toJson ∧
      Declaration.reader.ReadsBack Declaration.toJson ∧
      Member.reader.ReadsBack Member.toJson ∧
      Param.reader.ReadsBack Param.toJson ∧
      CompilationUnit.reader.ReadsBack CompilationUnit.toJson ∧
      UnitKind.reader.ReadsBack UnitKind.toJson ∧
      AuthorizerParam.reader.ReadsBack AuthorizerParam.toJson ∧
      Import.reader.ReadsBack Import.toJson ∧
      Call.reader.ReadsBack Call.toJson ∧
      AuthPrefix.reader.ReadsBack AuthPrefix.toJson ∧
      Phase.reader.ReadsBack Phase.toJson ∧
      Span.reader.ReadsBack Span.toJson ∧
      Address.reader.ReadsBack Address.toJson ∧
      Access.reader.ReadsBack Access.toJson ∧
      ImportMode.reader.ReadsBack ImportMode.toJson ∧
      DeclId.reader.ReadsBack DeclId.toJson ∧
      DeclKind.reader.ReadsBack DeclKind.toJson ∧
      Policy.reader.ReadsBack Policy.toJson ∧
      CheckConfig.reader.ReadsBack CheckConfig.toJson ∧
      DiagnosticKind.reader.ReadsBack DiagnosticKind.toJson ∧
      Diagnostic.reader.ReadsBack Diagnostic.toJson ∧
      Diagnostics.reader.ReadsBack Diagnostics.toJson :=
  ⟨.of_readsAs Batch.readsAs, .of_readsAs Declaration.readsAs, .of_readsAs Member.readsAs,
    .of_readsAs Param.readsAs, .of_readsAs CompilationUnit.readsAs, .of_readsAs UnitKind.readsAs,
    .of_readsAs AuthorizerParam.readsAs, .of_readsAs Import.readsAs, .of_readsAs Call.readsAs,
    .of_readsAs AuthPrefix.readsAs, .of_readsAs Phase.readsAs, .of_readsAs Span.readsAs,
    .of_readsAs Address.readsAs, .of_readsAs Access.readsAs, .of_readsAs ImportMode.readsAs,
    .of_readsAs DeclId.readsAs, .of_readsAs DeclKind.readsAs, .of_readsAs Policy.readsAs,
    .of_readsAs CheckConfig.readsAs, .of_readsAs DiagnosticKind.readsAs,
    .of_readsAs Diagnostic.readsAs, .of_readsAs Diagnostics.readsAs⟩

end AuthorizedCalls
