import AuthorizedCalls.Proofs.Components
import AuthorizedCalls.Proofs.ReportsByText

namespace AuthorizedCalls.Declarations

open Resolution

def cycleReport (ds : Declarations) (members : List String) (name : String) : Diagnostic where
  kind := .unresolvedDeclaration
  declaration := some (.contract name)
  location := ((ds.named? name).map Declaration.span).getD {}
  message :=
    let cycle := String.intercalate " -> " members
    s!"interface `{name}` takes part in a conformance cycle ({cycle})"

/-- A resolution in which these cycles, and no others, are reported. -/
structure ReportsCycles (ds : Declarations) (r : Resolution) (cycles : List (List String)) :
    Prop where
  exact : ∀ members, members ∈ cycles ↔ ds.IsCycle members
  ordered : cycles.Pairwise (List.Lex (· < ·))
  reports : r.diagnostics.filter Diagnostic.isCycle =
    cycles.flatMap fun members => members.map (ds.cycleReport members)
  rejected : ∀ members ∈ cycles, ∀ name ∈ members,
    (∃ i, ds.named? name = some i ∧ i.kind = .interface) ∧
      r.table.rejects (.contract name) = true
  onlyMembers : ∀ name,
    (∃ x ∈ r.diagnostics, x.isCycle = true ∧ x.declaration = some (.contract name)) ↔
      ds.ConformsTo name name

variable {ds : Declarations}

theorem exists_interface_of_mem_cycles {members : List String} (h : members ∈ ds.cycles)
    {name : String} (hname : name ∈ members) :
    ∃ i, ds.named? name = some i ∧ i.kind = .interface :=
  ConformsTo.exists_interface (exists_mem_cycles_iff.mp ⟨members, h, hname⟩)

theorem map_diagnostic_cycleFindings {members : List String} (h : members ∈ ds.cycles) :
    (ds.cycleFindings members).map Finding.diagnostic = members.map (ds.cycleReport members) := by
  rw [cycleFindings, List.map_map, List.map_filterMap, ← List.filterMap_eq_map]
  apply List.filterMap_congr
  intro name hname
  obtain ⟨i, hi, -⟩ := exists_interface_of_mem_cycles h hname
  obtain ⟨-, rfl⟩ := mem_of_named? hi
  simp only [hi, cycleReport, Option.map_some, Function.comp, Option.getD_some]
  rfl

theorem rejects_of_mem_cycles (policy : Policy) {members : List String} (h : members ∈ ds.cycles)
    {name : String} (hname : name ∈ members) :
    (ds.resolve policy).table.rejects (.contract name) = true := by
  have hleads : ds.acyclic.LeadsTo (ds.resolve policy) :=
    leadsTo_foldl (leadsTo_compareAll ds policy) _ _
  apply hleads.rejects_of_rejects
  obtain ⟨i, hi, -⟩ := exists_interface_of_mem_cycles h hname
  obtain ⟨-, rfl⟩ := mem_of_named? hi
  rw [acyclic_eq, rejects_refuseAll]
  refine .inl ⟨⟨.cyclic i.name members, i.span⟩, ?_, rfl⟩
  refine List.mem_append_right _ (List.mem_flatMap.mpr ⟨members, h, ?_⟩)
  exact List.mem_map_of_mem (List.mem_filterMap.mpr ⟨i.name, hname, hi⟩)

theorem cycleReports_resolve (ds : Declarations) (policy : Policy) :
    (ds.resolve policy).diagnostics.filter Diagnostic.isCycle =
      ds.cycles.flatMap fun members => members.map (ds.cycleReport members) := by
  rw [filter_isCycle_resolve, List.map_flatMap]
  exact List.flatMap_congr fun members hmembers => map_diagnostic_cycleFindings hmembers

theorem exists_cycleReport_iff {policy : Policy} {name : String} :
    (∃ x ∈ (ds.resolve policy).diagnostics,
      x.isCycle = true ∧ x.declaration = some (.contract name)) ↔ ds.ConformsTo name name := by
  have hreports : (∃ x ∈ (ds.resolve policy).diagnostics,
      x.isCycle = true ∧ x.declaration = some (.contract name)) ↔
        ∃ x ∈ ds.cycles.flatMap fun members => members.map (ds.cycleReport members),
          x.declaration = some (.contract name) := by
    rw [← ds.cycleReports_resolve policy]
    simp only [List.mem_filter, and_assoc]
  rw [hreports, ← exists_mem_cycles_iff]
  constructor
  · rintro ⟨x, hx, hname⟩
    obtain ⟨members, hmembers, hx⟩ := List.mem_flatMap.mp hx
    obtain ⟨other, hother, rfl⟩ := List.mem_map.mp hx
    have hsame : other = name := by simpa [cycleReport, DeclId.contract] using hname
    exact ⟨members, hmembers, hsame ▸ hother⟩
  · rintro ⟨members, hmembers, hname⟩
    exact ⟨ds.cycleReport members name,
      List.mem_flatMap.mpr ⟨members, hmembers, List.mem_map_of_mem hname⟩, rfl⟩

/-- The cycles are reported one after the other, whatever search their components come from. -/
theorem reportsCycles_resolve (ds : Declarations) (policy : Policy) :
    ds.ReportsCycles (ds.resolve policy) ds.cycles ∧ ds.ListsComponents ds.components ∧
      ∀ components, ds.ListsComponents components → ds.cyclesAmong components = ds.cycles := by
  refine ⟨?_, ds.listsComponents_components, fun _ h => h.cyclesAmong_eq_cycles⟩
  constructor
  case exact => exact fun members => mem_cycles_iff
  case ordered => exact ds.pairwise_cycles
  case reports => exact ds.cycleReports_resolve policy
  case rejected =>
    exact fun members hmembers name hname =>
      ⟨exists_interface_of_mem_cycles hmembers hname, rejects_of_mem_cycles policy hmembers hname⟩
  case onlyMembers => exact fun name => exists_cycleReport_iff

/-- Two interfaces that lead back to each other and one that extends itself are three members of
two cycles; a fourth only leads into them. -/
example :
    let extending (name : String) (targets : List String) : Declaration :=
      { kind := .interface, name, address := .ofNat 1, conforms := targets }
    let ds : Declarations :=
      [extending "Loop" ["Loop", "Loop"], extending "Entry" ["Pong"],
       extending "Pong" ["Ping", "Loop"], extending "Ping" ["Pong"]]
    ds.cycles = [["Loop"], ["Ping", "Pong"]] := by
  cbv

end AuthorizedCalls.Declarations
