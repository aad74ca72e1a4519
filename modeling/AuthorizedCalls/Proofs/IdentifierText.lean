import AuthorizedCalls.Proofs.TableLookup

namespace AuthorizedCalls.DeclId

/-- The text is the parts, joined by dots; each part has a character and none that is a dot. -/
structure HasSegments (text : String) (parts : List String) : Prop where
  nonempty : parts ≠ []
  segment : ∀ part ∈ parts, part ≠ "" ∧ Dotless part
  joined : ".".intercalate parts = text

theorem segments_eq_splitOn (cs : List Char) : segments cs = cs.splitOn '.' := by
  induction cs with
  | nil => rfl
  | cons c rest ih =>
      rw [segments, List.splitOn_cons_eq_if_modifyHead, ih]
      by_cases hdot : c = '.'
      · simp [hdot]
      · rw [if_neg hdot, if_neg (by simpa using hdot)]
        obtain ⟨first, others, hsplit⟩ :=
          List.exists_cons_of_ne_nil (List.splitOn_ne_nil '.' rest)
        rw [hsplit]
        rfl

theorem dot_notMem_of_mem_segments {cs run : List Char} (h : run ∈ segments cs) :
    '.' ∉ run := by
  induction cs generalizing run with
  | nil =>
      rw [segments, List.mem_singleton] at h
      rw [h]
      exact List.not_mem_nil
  | cons c rest ih =>
      rw [segments] at h
      split at h
      · rcases List.mem_cons.mp h with rfl | h
        · exact List.not_mem_nil
        · exact ih h
      · next hdot =>
          split at h
          · rw [List.mem_singleton] at h
            rw [h, List.mem_singleton]
            exact Ne.symm hdot
          · next first others hrest =>
              rcases List.mem_cons.mp h with rfl | h
              · rw [List.mem_cons, not_or]
                exact ⟨Ne.symm hdot, ih (hrest ▸ List.mem_cons_self)⟩
              · exact ih (hrest ▸ List.mem_cons_of_mem _ h)

theorem HasSegments.segments_eq {text : String} {parts : List String}
    (h : HasSegments text parts) : segments text.toList = parts.map String.toList := by
  rw [segments_eq_splitOn, ← h.joined, String.toList_intercalate]
  apply List.splitOn_intercalate
  · intro run hrun
    obtain ⟨part, hpart, rfl⟩ := List.mem_map.mp hrun
    exact (h.segment part hpart).2
  · simpa using h.nonempty

theorem hasSegments_segments {text : String} (h : ∀ run ∈ segments text.toList, run ≠ []) :
    HasSegments text ((segments text.toList).map String.ofList) where
  nonempty := by
    rw [segments_eq_splitOn]
    simp
  segment part hpart := by
    obtain ⟨run, hrun, rfl⟩ := List.mem_map.mp hpart
    constructor
    · intro hempty
      apply h run hrun
      simpa using congrArg String.toList hempty
    · rw [Dotless, String.toList_ofList]
      exact dot_notMem_of_mem_segments hrun
  joined := by
    have hid : String.toList ∘ String.ofList = id := funext fun _ => String.toList_ofList
    apply String.toList_injective
    rw [String.toList_intercalate, List.map_map, hid, List.map_id, segments_eq_splitOn]
    exact List.intercalate_splitOn '.'

theorem ofText?_eq_some_iff {text : String} {id : DeclId} :
    ofText? text = some id ↔ id.text = text ∧ ∃ parts, HasSegments text parts := by
  have hid : DeclId.mk text = id ↔ id.text = text := by
    cases id
    rw [DeclId.mk.injEq, eq_comm]
  have hruns : (segments text.toList).any List.isEmpty = false ↔
      ∃ parts, HasSegments text parts := by
    rw [List.any_eq_false]
    constructor
    · intro h
      refine ⟨_, hasSegments_segments fun run hrun hempty => h run hrun ?_⟩
      rw [hempty, List.isEmpty_nil]
    · rintro ⟨parts, h⟩ run hrun hempty
      rw [h.segments_eq] at hrun
      obtain ⟨part, hpart, rfl⟩ := List.mem_map.mp hrun
      exact (h.segment part hpart).1 (by simpa using hempty)
  rw [ofText?, ← hid, ← hruns]
  cases (segments text.toList).any List.isEmpty <;> simp

theorem HasSegments.head?_eq {text : String} {parts : List String} (h : HasSegments text parts) :
    parts.head? = some (DeclId.mk text).contractName := by
  obtain ⟨first, rest, rfl⟩ := List.exists_cons_of_ne_nil h.nonempty
  have hfirst : Dotless first := (h.segment first List.mem_cons_self).2
  rw [List.head?_cons, Option.some.injEq]
  cases rest with
  | nil =>
      have htext : DeclId.mk text = contract first := by
        rw [← h.joined, String.intercalate_singleton, contract]
      rw [htext, contractName_contract hfirst]
  | cons second others =>
      have htext : DeclId.mk text = member first (".".intercalate (second :: others)) := by
        rw [← h.joined, String.intercalate_cons_cons, member]
      rw [htext, contractName_member _ hfirst]

/-- What an identifier says of its contract and of its member is what it was made of, and the texts
that are taken for identifiers are those with segments. -/
theorem unambiguous_member {c c' : String} (hc : Dotless c) (hc' : Dotless c') :
    (∀ m m', member c m = member c' m' → c = c' ∧ m = m') ∧
      (∀ m, member c m ≠ contract c') ∧
      (contract c).contractName = c ∧ (∀ m, (member c m).contractName = c) ∧
      (∀ m, (member c m).isMember = true) ∧ (contract c).isMember = false ∧
      (∀ (table : Table) (m : String), table.isRejected (member c m) = true ↔
        table.rejects (member c m) = true ∨ table.rejects (contract c) = true) ∧
      ∀ text, ((∃ id, ofText? text = some id) ↔ ∃ parts, HasSegments text parts) ∧
        ∀ id, ofText? text = some id → id.text = text ∧
          ∀ parts, HasSegments text parts → parts.head? = some id.contractName := by
  refine ⟨fun m m' => (member_inj hc hc').mp,
    fun m => (contract_ne_member_of_dotless hc' c m).symm, contractName_contract hc,
    fun m => contractName_member m hc, isMember_member c, isMember_contract hc,
    fun table m => ?_, fun text => ⟨?_, fun id hid => ?_⟩⟩
  · rw [table.isRejected_member hc, Bool.or_eq_true]
  · simp only [ofText?_eq_some_iff, exists_and_right]
    exact and_iff_right ⟨⟨text⟩, rfl⟩
  · obtain ⟨rfl, -⟩ := ofText?_eq_some_iff.mp hid
    exact ⟨rfl, fun parts hparts => hparts.head?_eq⟩

/-- A member whose name holds a dot is told from that of a contract with a longer name, and a text
that ends in a dot has no segments. -/
theorem nested_member_unambiguous :
    Dotless "Vault" ∧ Dotless "Vaults" ∧
      member "Vault" "s.join" ≠ member "Vaults" "join" ∧
      (member "Vault" "s.join").contractName = "Vault" ∧
      (∀ table : Table, table.isRejected (member "Vault" "s.join") = true ↔
        table.rejects (member "Vault" "s.join") = true ∨
          table.rejects (contract "Vault") = true) ∧
      ¬ ∃ parts, HasSegments "Vault." parts := by
  have hvault : Dotless "Vault" := by decide
  have hvaults : Dotless "Vaults" := by decide
  obtain ⟨hmembers, -, -, hname, -, -, hrejected, htexts⟩ := unambiguous_member hvault hvaults
  refine ⟨hvault, hvaults, fun hsame => ?_, hname _, fun table => hrejected table _, ?_⟩
  · exact absurd (hmembers _ _ hsame).1 (by decide)
  · have hrefused : ofText? "Vault." = none := by decide
    rw [← (htexts "Vault.").1, hrefused]
    simp

end AuthorizedCalls.DeclId
